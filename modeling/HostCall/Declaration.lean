import HostCall.Call.Behavior
import HostCall.TypeDescriptor

/-!
# Declarations of native members

What a host registers: a name, modifiers, the parameters in order, a return type and the native
function.  Registration turns a declaration into an overload.
-/

namespace HostCall

/-- The modifiers of a member.  A member that is neither protected nor private is public. -/
structure Modifiers where
  isStatic : Bool := false
  isAbstract : Bool := false
  isFinal : Bool := false
  isProtected : Bool := false
  isPrivate : Bool := false
  isDeprecated : Bool := false
  returnsReference : Bool := false
deriving DecidableEq

namespace Modifiers

def union (m n : Modifiers) : Modifiers where
  isStatic := m.isStatic || n.isStatic
  isAbstract := m.isAbstract || n.isAbstract
  isFinal := m.isFinal || n.isFinal
  isProtected := m.isProtected || n.isProtected
  isPrivate := m.isPrivate || n.isPrivate
  isDeprecated := m.isDeprecated || n.isDeprecated
  returnsReference := m.returnsReference || n.returnsReference

/-- The flags as a number, the first of them the lowest bit. -/
def bits (m : Modifiers) : Nat :=
  [m.isStatic, m.isAbstract, m.isFinal, m.isProtected, m.isPrivate, m.isDeprecated,
    m.returnsReference].foldr (fun b n => b.toNat + 2 * n) 0

end Modifiers

structure Parameter where
  type : TypeDescriptor
  /-- The element type, for a generic type. -/
  element : Option TypeDescriptor := none
  /-- Bound to the caller's cell instead of a copy. -/
  isReference : Bool := false
  /-- A copy that native code may change. -/
  isMutable : Bool := false
  isNullable : Bool := false
deriving DecidableEq

namespace Parameter

/-- Whether the call itself fills the parameter, by the look of its type. -/
def isInjected (p : Parameter) : Bool := p.type.isEnvironment || p.type.isLocation

def isPlain (p : Parameter) : Bool := !p.isReference && !p.isMutable && !p.isNullable

def bits (p : Parameter) : Nat :=
  p.isReference.toNat + 2 * p.isMutable.toNat + 4 * p.isNullable.toNat

end Parameter

structure Declaration (σ : Type) where
  name : String
  internalName : Option String
  modifiers : Modifiers
  parameters : List Parameter
  returnType : TypeDescriptor
  returnElement : Option TypeDescriptor
  implementation : Implementation σ

namespace Declaration

variable {σ : Type}

/-- A public member without parameters that returns nothing. -/
def new (name : String) (implementation : Implementation σ) : Declaration σ :=
  ⟨name, none, {}, [], .void, none, implementation⟩

def addParameter (d : Declaration σ) (p : Parameter) : Declaration σ :=
  { d with parameters := d.parameters ++ [p] }

/-- Sets the return type; an element type set before is forgotten. -/
def returns (d : Declaration σ) (t : TypeDescriptor) : Declaration σ :=
  { d with returnType := t, returnElement := none }

def returnsGeneric (d : Declaration σ) (t element : TypeDescriptor) : Declaration σ :=
  { d with returnType := t, returnElement := some element }

def modify (d : Declaration σ) (m : Modifiers) : Declaration σ :=
  { d with modifiers := d.modifiers.union m }

def withInternalName (d : Declaration σ) (n : String) : Declaration σ :=
  { d with internalName := some n }

/-- How many parameters take arguments of the caller, by the look of their types. -/
def consumingParameters (d : Declaration σ) : Nat :=
  (d.parameters.filter fun p => !p.isInjected).length

end Declaration

end HostCall
