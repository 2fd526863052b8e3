/-!
# Integers of fixed width

Host integers come in eight kinds: signed or unsigned, of four widths.  A value of a kind is an
integer together with the proof that it lies in the kind's range, so no arithmetic ever wraps.
-/

namespace HostCall

inductive Width
  | w8 | w16 | w32 | w64
deriving DecidableEq

def Width.bits : Width → Nat
  | .w8 => 8
  | .w16 => 16
  | .w32 => 32
  | .w64 => 64

structure IntKind where
  signed : Bool
  width : Width
deriving DecidableEq

namespace IntKind

abbrev i8 : IntKind := ⟨true, .w8⟩
abbrev i16 : IntKind := ⟨true, .w16⟩
abbrev i32 : IntKind := ⟨true, .w32⟩
abbrev i64 : IntKind := ⟨true, .w64⟩
abbrev u8 : IntKind := ⟨false, .w8⟩
abbrev u16 : IntKind := ⟨false, .w16⟩
abbrev u32 : IntKind := ⟨false, .w32⟩
abbrev u64 : IntKind := ⟨false, .w64⟩

def all : List IntKind := [i8, i16, i32, i64, u8, u16, u32, u64]

def name (k : IntKind) : String := (if k.signed then "i" else "u") ++ toString k.width.bits

def min (k : IntKind) : Int := if k.signed then -Int.pow 2 (k.width.bits - 1) else 0

def max (k : IntKind) : Int :=
  if k.signed then Int.pow 2 (k.width.bits - 1) - 1 else Int.pow 2 k.width.bits - 1

end IntKind

structure BoundedInt (k : IntKind) where
  val : Int
  min_le : k.min ≤ val
  le_max : val ≤ k.max
deriving DecidableEq

namespace BoundedInt

def ofInt? (k : IntKind) (v : Int) : Option (BoundedInt k) :=
  if h : k.min ≤ v ∧ v ≤ k.max then some ⟨v, h.1, h.2⟩ else none

@[simp] theorem ofInt?_val {k : IntKind} (a : BoundedInt k) : ofInt? k a.val = some a := by
  simp [ofInt?, a.min_le, a.le_max]

theorem ofInt?_eq_some_iff {k : IntKind} {v : Int} {a : BoundedInt k} :
    ofInt? k v = some a ↔ v = a.val := by
  constructor
  · intro h
    unfold ofInt? at h
    split at h
    · cases h
      rfl
    · cases h
  · rintro rfl
    exact ofInt?_val a

theorem ofInt?_isSome_iff {k : IntKind} {v : Int} :
    (ofInt? k v).isSome = true ↔ k.min ≤ v ∧ v ≤ k.max := by
  unfold ofInt?
  split <;> simp_all

end BoundedInt

end HostCall
