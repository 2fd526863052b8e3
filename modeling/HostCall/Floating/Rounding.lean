import HostCall.Floating.Basic

/-!
# Rounding to a binary format

Every magnitude `m * 2 ^ e` is rounded to the nearest number of a format, a tie going to the even
significand and a magnitude past the greatest number to infinity.  Conversion from integers and
between formats is this one rounding.
-/

namespace HostCall

/-- The nearest integer to `n / d`, a tie going to the even one. -/
def divNearestEven (n d : Nat) : Nat :=
  let q := n / d
  let r := n % d
  if d < 2 * r ∨ (2 * r = d ∧ q % 2 = 1) then q + 1 else q

def bitLength (n : Nat) : Nat := if n = 0 then 0 else n.log2 + 1

namespace Format

/-- The exponent of the last place that a nonzero magnitude is rounded at. -/
def roundingExponent (f : Format) (m : Nat) (e : Int) : Int :=
  max f.minExponent (e + bitLength m - f.precision)

/-- The significand of a magnitude at a place, rounded when the place lies above the last bit. -/
def significandAt (m : Nat) (e place : Int) : Nat :=
  if place ≤ e then m * Nat.pow 2 (e - place).toNat
  else divNearestEven m (Nat.pow 2 (place - e).toNat)

end Format

namespace Floating

variable {f : Format}

/-- The number nearest to the magnitude `m * 2 ^ e` with a given sign.  A significand that rounding
carries to one bit too many is the least one of the next exponent. -/
def round (negative : Bool) (m : Nat) (e : Int) : Floating f :=
  if m = 0 then make negative 0 f.minExponent
  else
    let place := f.roundingExponent m e
    let s := Format.significandAt m e place
    if s = Nat.pow 2 f.precision then make negative f.hidden (place + 1) else make negative s place

def ofInt (v : Int) : Floating f := round (decide (v < 0)) v.natAbs 0

def convert (g : Format) : Floating f → Floating g
  | .nan => .nan
  | .infinite s => .infinite s
  | .finite s m e _ => round s m e

end Floating

end HostCall
