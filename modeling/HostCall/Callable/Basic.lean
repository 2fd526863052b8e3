import HostCall.Overload.Table
import HostCall.Visibility

/-!
# Callables

A callable is a named function or method with the overloads registered under it.  Its identity
(names, flags, visibility) is that of the declaration that was accepted last; the overloads gather
over all declarations.
-/

namespace HostCall

/-- The type that declares a method.  It may know how to make a placeholder receiver. -/
structure DeclaringClass (σ : Type) where
  name : String
  mock : Option (Behavior σ (Option ObjectRef))

namespace DeclaringClass

variable {σ : Type}

def newMock (c : DeclaringClass σ) : Behavior σ (Option ObjectRef) := c.mock.getD (.done none)

def describe (c : DeclaringClass σ) : String :=
  Text.record "ClassInfo"
    [("name", Text.quoted c.name), ("has_mock", if c.mock.isSome then "true" else "false")]

end DeclaringClass

structure Identity where
  name : String
  internalName : String
  isStatic : Bool
  isAbstract : Bool
  isFinal : Bool
  isDeprecated : Bool
  returnsReference : Bool
  visibility : Visibility
deriving DecidableEq

/-- The visibility that modifiers give; protected wins over private. -/
def Modifiers.visibility (m : Modifiers) : Visibility :=
  if m.isProtected then .protected else if m.isPrivate then .private else .public

namespace Identity

def ofName (name : String) : Identity :=
  ⟨name, name, false, false, false, false, false, .public⟩

def ofDeclaration {σ : Type} (d : Declaration σ) : Identity where
  name := d.name
  internalName := d.internalName.getD d.name
  isStatic := d.modifiers.isStatic
  isAbstract := d.modifiers.isAbstract
  isFinal := d.modifiers.isFinal
  isDeprecated := d.modifiers.isDeprecated
  returnsReference := d.modifiers.returnsReference
  visibility := d.modifiers.visibility

section OfDeclaration

variable {σ : Type} (d : Declaration σ)

@[simp] theorem name_ofDeclaration : (ofDeclaration d).name = d.name := rfl

@[simp] theorem internalName_ofDeclaration :
    (ofDeclaration d).internalName = d.internalName.getD d.name := rfl

@[simp] theorem isStatic_ofDeclaration :
    (ofDeclaration d).isStatic = d.modifiers.isStatic := rfl

@[simp] theorem isAbstract_ofDeclaration :
    (ofDeclaration d).isAbstract = d.modifiers.isAbstract := rfl

@[simp] theorem isFinal_ofDeclaration : (ofDeclaration d).isFinal = d.modifiers.isFinal := rfl

@[simp] theorem isDeprecated_ofDeclaration :
    (ofDeclaration d).isDeprecated = d.modifiers.isDeprecated := rfl

@[simp] theorem returnsReference_ofDeclaration :
    (ofDeclaration d).returnsReference = d.modifiers.returnsReference := rfl

@[simp] theorem visibility_ofDeclaration :
    (ofDeclaration d).visibility = d.modifiers.visibility := rfl

end OfDeclaration

end Identity

structure Callable (σ : Type) where
  identity : Identity
  declaring : Option (DeclaringClass σ)
  /-- The signature of the overridden callable. -/
  prototype : Option String
  table : OverloadTable σ

namespace Callable

variable {σ : Type}

def function (name : String) : Callable σ := ⟨.ofName name, none, none, .empty⟩

def method (name : String) (c : DeclaringClass σ) : Callable σ :=
  ⟨.ofName name, some c, none, .empty⟩

def name (f : Callable σ) : String := f.identity.name

def className? (f : Callable σ) : Option String := f.declaring.map DeclaringClass.name

def owner (f : Callable σ) : String := f.className?.getD ""

/-- `Class::name` for a method, the bare name for a free function. -/
def signature (f : Callable σ) : String :=
  match f.className? with
  | some c => c ++ "::" ++ f.name
  | none => f.name

/-- Binds a declaration and inserts it.  The answer is the overload that stands for it now; a
tolerant registration that cannot bind answers nothing.  Only an overload that is really inserted
gives the callable its identity. -/
def add (f : Callable σ) (serial : Nat) (d : Declaration σ) (r : Registry) (mode : ConflictMode) :
    Except BindingError (Option (Overload σ) × Callable σ) :=
  match Overload.bind serial f.owner d r with
  | .error e =>
    match mode with
    | .tolerant => .ok (none, f)
    | .strict => .error e
  | .ok o =>
    match f.table.insert o mode with
    | .error e => .error e
    | .ok (standing, table) =>
        let identity :=
          if f.table.size < table.size then Identity.ofDeclaration d else f.identity
        .ok (some standing, { f with identity, table })

def remove (f : Callable σ) (arity : Nat) : Option (Overload σ) × Callable σ :=
  let (o, table) := f.table.remove arity
  (o, { f with table })

/-- Links a callable to the one that it overrides and shares the overloads it lacks. -/
def setPrototype (f parent : Callable σ) : Callable σ :=
  { f with table := f.table.merge parent.table, prototype := some parent.signature }

/-- What a call with `argc` arguments would be told about its parameters. -/
def parameters (f : Callable σ) (argc : Nat) : List ParameterSpec :=
  match f.table.find? argc with
  | some o => o.parameters
  | none => []

/-- Every callable is backed by native code. -/
def isNative (_ : Callable σ) : Bool := true

def describe (f : Callable σ) : String :=
  let flag (b : Bool) := if b then "true" else "false"
  Text.record "CallableEntity"
    [("signature", Text.quoted f.signature), ("static", flag f.identity.isStatic),
     ("abstract", flag f.identity.isAbstract), ("visibility", f.identity.visibility.describe),
     ("arities", Text.list (f.table.arities.map toString))]

end Callable

end HostCall
