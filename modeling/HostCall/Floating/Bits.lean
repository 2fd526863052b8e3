import HostCall.Floating.Basic

/-!
# Interchange words

A number is stored as a word: a sign bit, a biased exponent and a fraction.  Because the exponent
field stands above the fraction, the word of a magnitude is `(e - minExponent)` steps of the least
full significand plus the significand itself, for small numbers and for normal ones alike.
-/

namespace HostCall

namespace Format

/-- The exponent field of infinity and of not-a-number. -/
def specialField (f : Format) : Nat := (f.maxExponent - f.minExponent + 2).toNat

def signBit (f : Format) : Nat := (f.specialField + 1) * f.hidden

end Format

namespace Floating

variable {f : Format}

def magnitudeWord : Floating f → Nat
  | .nan => f.specialField * f.hidden + f.hidden / 2
  | .infinite _ => f.specialField * f.hidden
  | .finite _ m e _ => (e - f.minExponent).toNat * f.hidden + m

def isNegative : Floating f → Bool
  | .nan => false
  | .infinite s => s
  | .finite s _ _ _ => s

/-- The word of a number; there is one word for not-a-number. -/
def toWord (x : Floating f) : Nat :=
  (if x.isNegative then f.signBit else 0) + x.magnitudeWord

def ofWord (word : Nat) : Floating f :=
  let negative := decide (f.signBit ≤ word)
  let magnitude := word % f.signBit
  let field := magnitude / f.hidden
  let fraction := magnitude % f.hidden
  if field = f.specialField then
    if fraction = 0 then .infinite negative else .nan
  else if field = 0 then make negative fraction f.minExponent
  else make negative (f.hidden + fraction) (f.minExponent + (field - 1 : Nat))

end Floating

end HostCall
