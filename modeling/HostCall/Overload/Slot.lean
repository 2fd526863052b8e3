import HostCall.Conversion.Registry
import HostCall.Declaration

/-!
# Slots

At registration every parameter is classified into the slot that says how a call fills it.  A raw
cell comes first, then whatever the registry converts, then the things the call itself supplies,
and last the list that takes all remaining arguments, which only the final parameter may be.
-/

namespace HostCall

/-- How a raw cell is handed over: shared, or as a copy that native code may or may not change. -/
structure Passing where
  byRef : Bool
  isMutable : Bool
deriving DecidableEq

inductive Injection
  | environment | location
deriving DecidableEq

inductive Slot
  | passthrough (p : Passing)
  | converted (c : Conversion) (spec : ParameterSpec)
  | injected (i : Injection)
  /-- Takes every remaining argument. -/
  | tail (p : Passing)

namespace Slot

def consumes : Slot → Bool
  | .injected _ => false
  | _ => true

def isTail : Slot → Bool
  | .tail _ => true
  | _ => false

end Slot

namespace Parameter

def passing (p : Parameter) : Passing := ⟨p.isReference, p.isMutable⟩

/-- The slot of a parameter of the named member, of the first kind that applies. -/
def classify (member : String) (r : Registry) (position : Nat) (isLast : Bool)
    (spec : ParameterSpec) (p : Parameter) : Except BindingError Slot :=
  if p.type.isCell then .ok (.passthrough p.passing)
  else
    match r.resolve p.type p.element with
    | some c => .ok (.converted c spec)
    | none =>
      if p.type.isEnvironment then .ok (.injected .environment)
      else if p.type.isLocation then .ok (.injected .location)
      else if p.type.isCells then
        if isLast then .ok (.tail p.passing) else .error (.misplacedTail member position)
      else .error (.unsupportedType p.type.name)

end Parameter

/-- What a conversion is told about the parameter in a position of its own among those that take
arguments. -/
def ParameterSpec.positional (index : Nat) (nullable : Bool) : ParameterSpec :=
  ⟨"arg" ++ toString index, nullable⟩

/-- The slots of a list of parameters, the first of them in the given position, and the specs of
those that take arguments, counted on from `consumed`.  The first parameter that fits no slot
decides the error. -/
def classifyFrom (member : String) (r : Registry) :
    (position consumed : Nat) → List Parameter → Except BindingError (List Slot × List ParameterSpec)
  | _, _, [] => .ok ([], [])
  | position, consumed, p :: ps => do
      let spec := ParameterSpec.positional consumed p.isNullable
      let slot ← p.classify member r position ps.isEmpty spec
      let (slots, specs) ←
        classifyFrom member r (position + 1) (if slot.consumes then consumed + 1 else consumed) ps
      return (slot :: slots, if slot.consumes then spec :: specs else specs)

end HostCall
