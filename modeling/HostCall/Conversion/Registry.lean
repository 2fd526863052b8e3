import HostCall.Conversion.Basic
import HostCall.TypeDescriptor

/-!
# Registries of conversions

A registry knows the conversion for a type, or for a generic type with an element type.  The latest
registration under a key wins, and a question with an element type falls back to the type alone, so
an element type beside a plain type is ignored.
-/

namespace HostCall

structure RegistryKey where
  type : Fingerprint
  element : Option Fingerprint
deriving DecidableEq

/-- Conversions by key, the latest first and at most one to a key. -/
structure Registry where
  entries : List (RegistryKey × Conversion)

namespace Registry

def empty : Registry := ⟨[]⟩

def size (r : Registry) : Nat := r.entries.length

def isEmpty (r : Registry) : Bool := r.entries.isEmpty

def get? (r : Registry) (k : RegistryKey) : Option Conversion :=
  (r.entries.find? fun e => e.1 = k).map Prod.snd

def insert (r : Registry) (k : RegistryKey) (c : Conversion) : Registry :=
  ⟨(k, c) :: r.entries.filter fun e => e.1 ≠ k⟩

def register (r : Registry) (t : TypeDescriptor) (c : Conversion) : Registry :=
  r.insert ⟨t.fingerprint, none⟩ c

def registerGeneric (r : Registry) (t element : TypeDescriptor) (c : Conversion) : Registry :=
  r.insert ⟨t.fingerprint, some element.fingerprint⟩ c

def resolve (r : Registry) (t : TypeDescriptor) (element : Option TypeDescriptor) :
    Option Conversion :=
  match element with
  | none => r.get? ⟨t.fingerprint, none⟩
  | some e =>
      match r.get? ⟨t.fingerprint, some e.fingerprint⟩ with
      | some c => some c
      | none => r.get? ⟨t.fingerprint, none⟩

def contains (r : Registry) (t : TypeDescriptor) : Bool := (r.resolve t none).isSome

def registerData (r : Registry) (d : DataType) : Registry := r.register d.descriptor (.ofData d)

def registerList (r : Registry) (e : DataType) : Registry :=
  r.registerGeneric .list e.descriptor (.ofData (.list e))

/-- The data types that are registered under a name of their own from the start. -/
def builtinTypes : List DataType :=
  .bool :: IntKind.all.map .int ++ [.float32, .float64, .text, .object]

def builtinElements : List DataType := [.bool, .int .i64, .float64, .text, .object]

/-- Nothing, raw cells, the plain data types and the lists of some of them. -/
def builtin : Registry :=
  builtinElements.foldl registerList
    (builtinTypes.foldl registerData
      ((empty.register .void .void).register .cell .passthrough))

end Registry

end HostCall
