/-!
# Binary floating-point numbers

A number of a binary format is not-a-number, an infinity of either sign, or a signed multiple of a
power of two.  The finite ones are kept in canonical form, so that equality of values is equality
of data; the two zeros, and the single not-a-number, are the only places where the comparison of
numbers differs from it.
-/

namespace HostCall

/-- A binary format: how many bits a significand has, and the least and the greatest exponent of
its last place. -/
structure Format where
  precision : Nat
  minExponent : Int
  maxExponent : Int
deriving DecidableEq

namespace Format

def binary32 : Format := ⟨24, -149, 104⟩

def binary64 : Format := ⟨53, -1074, 971⟩

/-- The least significand whose leading bit is set. -/
def hidden (f : Format) : Nat := Nat.pow 2 (f.precision - 1)

/-- The significand fills the precision unless the exponent is the least one. -/
structure Canonical (f : Format) (significand : Nat) (exponent : Int) : Prop where
  bounded : significand < Nat.pow 2 f.precision
  min_le : f.minExponent ≤ exponent
  le_max : exponent ≤ f.maxExponent
  normal : f.hidden ≤ significand ∨ exponent = f.minExponent

instance (f : Format) (m : Nat) (e : Int) : Decidable (f.Canonical m e) :=
  decidable_of_iff
    (m < Nat.pow 2 f.precision ∧ f.minExponent ≤ e ∧ e ≤ f.maxExponent ∧
      (f.hidden ≤ m ∨ e = f.minExponent))
    ⟨fun ⟨h₁, h₂, h₃, h₄⟩ => ⟨h₁, h₂, h₃, h₄⟩,
      fun h => ⟨h.bounded, h.min_le, h.le_max, h.normal⟩⟩

end Format

inductive Floating (f : Format)
  | nan
  | infinite (negative : Bool)
  | finite (negative : Bool) (significand : Nat) (exponent : Int)
      (canonical : f.Canonical significand exponent)
deriving DecidableEq

abbrev Binary32 := Floating .binary32

abbrev Binary64 := Floating .binary64

namespace Floating

variable {f : Format}

/-- The finite number of a canonical form.  Any other pair stands for a magnitude beyond the
format. -/
def make (negative : Bool) (m : Nat) (e : Int) : Floating f :=
  if h : f.Canonical m e then .finite negative m e h else .infinite negative

def isNaN : Floating f → Bool
  | .nan => true
  | _ => false

/-- Comparison as numbers: not-a-number equals nothing, and the two zeros are equal. -/
def numEq : Floating f → Floating f → Bool
  | .infinite s, .infinite t => s == t
  | .finite s m e _, .finite t n k _ => (m == 0 && n == 0) || (s == t && m == n && e == k)
  | _, _ => false

end Floating

end HostCall
