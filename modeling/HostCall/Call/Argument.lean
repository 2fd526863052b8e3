import HostCall.Error

/-!
# Arguments as native code receives them
-/

namespace HostCall

/-- What a conversion is told about the parameter that it serves. -/
structure ParameterSpec where
  name : String
  nullable : Bool
deriving DecidableEq

/-- One argument, in the position of its parameter. -/
inductive Argument
  /-- Null, accepted by a nullable parameter. -/
  | null
  /-- What a conversion made. -/
  | host (b : Boxed)
  /-- A cell, shared with the caller or copied for the call. -/
  | cell (c : CellRef)
  | tail (cs : List CellRef)
  /-- The place of the calling environment. -/
  | environment
  | location (l : Location)

namespace Argument

def kindName : Argument → String
  | .null => "null"
  | .host _ => "native value"
  | .cell _ => "runtime value"
  | .tail _ => "vararg tail"
  | .environment => "environment"
  | .location _ => "trace"

def describe (s : Store) : Argument → Option String
  | .cell c => (s.describe c).map fun d => "Value(" ++ d ++ ")"
  | .tail cs => (cs.mapM s.describe).map fun ds => "Varargs(" ++ Text.list ds ++ ")"
  | .location l => some ("Trace(" ++ l.describe ++ ")")
  | a => some a.kindName

end Argument

end HostCall
