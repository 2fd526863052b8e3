import HostCall.Overload.Slot

/-!
# Overloads

An overload is a declaration bound once and for all: a slot for every parameter, the conversion of
the result, and the native function.  It accepts exactly as many arguments as it has slots that
take one, or, when its last slot takes all that remain, that number less one and upwards.
-/

namespace HostCall

structure Overload (σ : Type) where
  /-- Tells apart overloads that were bound separately. -/
  serial : Nat
  name : String
  slots : List Slot
  parameters : List ParameterSpec
  returnConversion : Conversion
  implementation : Implementation σ
  linkage : Fingerprint

namespace Overload

variable {σ : Type}

/-- What the conversion of a result is told. -/
def returnSpec : ParameterSpec := ⟨"return", true⟩

/-- Binds a declaration of the named owner, the empty name for a free function.  Parameters are
looked at before the return type. -/
def bind (serial : Nat) (owner : String) (d : Declaration σ) (r : Registry) :
    Except BindingError (Overload σ) :=
  match classifyFrom d.name r 0 0 d.parameters with
  | .error e => .error e
  | .ok (slots, parameters) =>
    match r.resolve d.returnType d.returnElement with
    | none => .error (.unsupportedReturnType d.returnType.name)
    | some returnConversion =>
        .ok { serial, name := d.name, slots, parameters, returnConversion
              implementation := d.implementation
              linkage :=
                .ofOverload owner d.name (d.parameters.map fun p => p.type.fingerprint) }

/-- How many slots take arguments, a tail included. -/
def arity (o : Overload σ) : Nat := (o.slots.filter Slot.consumes).length

/-- Whether the last slot takes all remaining arguments. -/
def isVariadic (o : Overload σ) : Bool := o.slots.getLast?.any Slot.isTail

def minArgs (o : Overload σ) : Nat := if o.isVariadic then o.arity - 1 else o.arity

def maxArgs (o : Overload σ) : Option Nat := if o.isVariadic then none else some o.arity

def accepts (o : Overload σ) (argc : Nat) : Bool :=
  decide (o.minArgs ≤ argc) && o.maxArgs.all fun m => decide (argc ≤ m)

end Overload

end HostCall
