import HostCall.Floating.Rounding

/-!
# The shortest decimal text of a number

Among the decimals that a number's rounding interval holds, the text shows one with the fewest
digits, and of those the nearest.  The search walks down the decimal places from above the number:
on each grid only the two neighbours of the number can be nearest, and the first grid with a
neighbour inside the interval is the answer.
-/

namespace HostCall.Floating

namespace Shortest

/-- A magnitude `value * 2 ^ exponent` with the ends of its rounding interval in the same unit. -/
structure Interval where
  low : Nat
  value : Nat
  high : Nat
  exponent : Int
  /-- Whether the ends themselves round to the number. -/
  closed : Bool

/-- The rounding interval of a nonzero magnitude, in quarters of its last place.  Below a power of
two the numbers lie twice as dense. -/
def interval (f : Format) (m : Nat) (e : Int) : Interval where
  low := if m = f.hidden ∧ f.minExponent < e then 4 * m - 1 else 4 * m - 2
  value := 4 * m
  high := 4 * m + 2
  exponent := e - 2
  closed := decide (m % 2 = 0)

/-- The binary side of a comparison with a multiple of `10 ^ place`, free of fractions. -/
def scaled (i : Interval) (place : Int) (x : Nat) : Nat :=
  x * Nat.pow 2 i.exponent.toNat * Nat.pow 10 (-place).toNat

def unit (i : Interval) (place : Int) : Nat :=
  Nat.pow 10 place.toNat * Nat.pow 2 (-i.exponent).toNat

/-- Whether the decimal `d * 10 ^ place` lies in the interval. -/
def holds (i : Interval) (place : Int) (d : Nat) : Bool :=
  let x := d * unit i place
  let low := scaled i place i.low
  let high := scaled i place i.high
  if i.closed then decide (low ≤ x ∧ x ≤ high) else decide (low < x ∧ x < high)

/-- The multiple of `10 ^ place` in the interval that is nearest to the value, the greater of two
that are equally near. -/
def nearest? (i : Interval) (place : Int) : Option Nat :=
  let u := unit i place
  let v := scaled i place i.value
  let d := v / u
  match holds i place d, holds i place (d + 1) with
  | true, true => some (if 2 * v < (2 * d + 1) * u then d else d + 1)
  | true, false => some d
  | false, true => some (d + 1)
  | false, false => none

/-- A decimal place above the leading digit of `m * 2 ^ e`: five digits of the logarithm of two,
rounded up, bound it. -/
def topPlace (m : Nat) (e : Int) : Int := (bitLength m + e) * 30103 / 100000 + 1

def digits (f : Format) (m : Nat) (e : Int) : Nat × Int :=
  let i := interval f m e
  let top := topPlace m e
  ((List.range (f.precision + 2)).findSome? fun (n : Nat) =>
    (nearest? i (top - n)).map fun d => (d, top - n)).getD (m, e)

def positional (d : Nat) (place : Int) : List Char :=
  let ds := Nat.toDigits 10 d
  if 0 ≤ place then ds ++ List.replicate place.toNat '0'
  else
    let fraction := (-place).toNat
    if fraction < ds.length then
      ds.take (ds.length - fraction) ++ '.' :: ds.drop (ds.length - fraction)
    else '0' :: '.' :: List.replicate (fraction - ds.length) '0' ++ ds

end Shortest

variable {f : Format}

/-- The shortest text that reads back as the number: no exponent, no fraction for whole numbers,
and a sign for negative zero. -/
def text : Floating f → String
  | .nan => "NaN"
  | .infinite s => if s then "-inf" else "inf"
  | .finite s m e _ =>
      let magnitude :=
        if m = 0 then ['0']
        else
          let (d, place) := Shortest.digits f m e
          Shortest.positional d place
      String.ofList (if s then '-' :: magnitude else magnitude)

end HostCall.Floating
