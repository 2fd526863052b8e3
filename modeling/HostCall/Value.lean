import HostCall.Integer
import HostCall.Floating.Shortest
import HostCall.Text.Quoted
import HostCall.Text.Record

/-!
# Dynamic values

A payload is what one cell holds: a scalar, or an array of handles to further cells.  A value is
the tree that a payload stands for once every handle is followed; two payloads may stand for the
same value while they share no cell.  Objects are scalars here, told apart by identity alone.
-/

namespace HostCall

/-- A handle to a cell of the store.  Two handles with one index share the cell. -/
structure CellRef where
  index : Nat
deriving DecidableEq

/-- The identity of an object; its class and its data are kept by the store. -/
structure ObjectRef where
  index : Nat
deriving DecidableEq

inductive Kind
  | null | bool | int | float | string | array | object
deriving DecidableEq

def Kind.name : Kind → String
  | .null => "null"
  | .bool => "bool"
  | .int => "int"
  | .float => "float"
  | .string => "string"
  | .array => "array"
  | .object => "object"

/-- A payload without parts. -/
inductive Scalar
  | null
  | bool (b : Bool)
  | int (v : BoundedInt .i64)
  | float (x : Binary64)
  | text (s : String)
  | object (o : ObjectRef)
deriving DecidableEq

namespace Scalar

def kind : Scalar → Kind
  | .null => .null
  | .bool _ => .bool
  | .int _ => .int
  | .float _ => .float
  | .text _ => .string
  | .object _ => .object

/-- Comparison of scalars: numbers of the floating kind as numbers, all else as data. -/
def same : Scalar → Scalar → Bool
  | .float x, .float y => x.numEq y
  | a, b => decide (a = b)

def describe (classOf : ObjectRef → String) : Scalar → String
  | .null => "Null"
  | .bool b => "Bool(" ++ (if b then "true" else "false") ++ ")"
  | .int v => "Int(" ++ toString v.val ++ ")"
  | .float x => "Float(" ++ x.text ++ ")"
  | .text s => "String(" ++ Text.quoted s ++ ")"
  | .object o => "Object(" ++ classOf o ++ ")"

end Scalar

inductive Payload
  | scalar (s : Scalar)
  | array (items : List CellRef)
deriving DecidableEq

namespace Payload

abbrev null : Payload := .scalar .null

def kind : Payload → Kind
  | .scalar s => s.kind
  | .array _ => .array

def isNull (p : Payload) : Bool := decide (p = .null)

def refs : Payload → List CellRef
  | .scalar _ => []
  | .array items => items

def object? : Payload → Option ObjectRef
  | .scalar (.object o) => some o
  | _ => none

end Payload

/-- A payload with every handle followed. -/
inductive Value
  | scalar (s : Scalar)
  | array (items : List Value)

namespace Value

abbrev null : Value := .scalar .null

def kind : Value → Kind
  | .scalar s => s.kind
  | .array _ => .array

mutual

/-- A value as descriptions show it; every element of an array is shown as the cell it sits in. -/
def describe (classOf : ObjectRef → String) : Value → String
  | .scalar s => s.describe classOf
  | .array items => Text.list (describeCells classOf items)

def describeCells (classOf : ObjectRef → String) : List Value → List String
  | [] => []
  | v :: vs => ("Memory(" ++ describe classOf v ++ ")") :: describeCells classOf vs

end

/-- A value as the description of the cell that holds it. -/
def describeCell (classOf : ObjectRef → String) (v : Value) : String :=
  "Memory(" ++ v.describe classOf ++ ")"

end Value

end HostCall
