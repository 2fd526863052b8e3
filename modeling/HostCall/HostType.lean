import HostCall.Value

/-!
# Host types and boxed host values

The types that native code works with, each with the Lean type of its values.  The data types are
those that have a dynamic form; beside them stand text literals, raw cells and lists of raw cells.
That there are no others is an assumption: a host could box values of a type of its own.  A boxed
value carries its type and is opened only at that very type.
-/

namespace HostCall

/-- The host types whose values can be read from dynamic values and written as them. -/
inductive DataType
  | unit
  | bool
  | int (k : IntKind)
  | float32
  | float64
  | text
  | object
  | list (element : DataType)
deriving DecidableEq

namespace DataType

@[reducible] def Carrier : DataType → Type
  | .unit => Unit
  | .bool => Bool
  | .int k => BoundedInt k
  | .float32 => Binary32
  | .float64 => Binary64
  | .text => String
  | .object => ObjectRef
  | .list e => List e.Carrier

def path : DataType → String
  | .unit => "()"
  | .bool => "bool"
  | .int k => k.name
  | .float32 => "f32"
  | .float64 => "f64"
  | .text => "alloc::string::String"
  | .object => "bindery_core::runtime::instance::Instance"
  | .list e => "alloc::vec::Vec<" ++ e.path ++ ">"

end DataType

inductive HostType
  | data (d : DataType)
  /-- A text that outlives the call, a type of its own. -/
  | literal
  | cell
  | cells
deriving DecidableEq

namespace HostType

@[reducible] def Carrier : HostType → Type
  | .data d => d.Carrier
  | .literal => String
  | .cell => CellRef
  | .cells => List CellRef

def path : HostType → String
  | .data d => d.path
  | .literal => "&str"
  | .cell => "bindery_core::runtime::memory::Memory"
  | .cells => "alloc::vec::Vec<bindery_core::runtime::memory::Memory>"

end HostType

structure Boxed where
  type : HostType
  value : type.Carrier

namespace Boxed

/-- The value, when the box holds one of exactly the asked type. -/
def open? (t : HostType) (b : Boxed) : Option t.Carrier :=
  if h : b.type = t then some (h ▸ b.value) else none

@[simp] theorem open?_mk (t : HostType) (v : t.Carrier) : open? t ⟨t, v⟩ = some v := by
  simp [open?]

theorem eq_mk_of_open? {t : HostType} {b : Boxed} {v : t.Carrier} (h : b.open? t = some v) :
    b = ⟨t, v⟩ := by
  obtain ⟨u, w⟩ := b
  unfold open? at h
  split at h
  · next hu =>
    cases hu
    cases h
    rfl
  · cases h

end Boxed

namespace DataType

def objects : (d : DataType) → d.Carrier → List ObjectRef
  | .object, o => [o]
  | .list e, vs => vs.flatMap e.objects
  | .unit, _ | .bool, _ | .int _, _ | .float32, _ | .float64, _ | .text, _ => []

end DataType

namespace Boxed

def refs : Boxed → List CellRef
  | ⟨.cell, c⟩ => [c]
  | ⟨.cells, cs⟩ => cs
  | ⟨.data _, _⟩ | ⟨.literal, _⟩ => []

def objects : Boxed → List ObjectRef
  | ⟨.data d, v⟩ => d.objects v
  | ⟨.cell, _⟩ | ⟨.cells, _⟩ | ⟨.literal, _⟩ => []

end Boxed

end HostCall
