/-!
# Hexadecimal numerals

Lower-case numerals of fixed width and of least width, and the reading of a numeral of either case.
-/

namespace HostCall.Hex

def digit (d : Nat) : Char := "0123456789abcdef".toList.getD (d % 16) '0'

/-- The last `width` digits of `n`, most significant first. -/
def fixed : (width : Nat) → (n : Nat) → List Char
  | 0, _ => []
  | width + 1, n => fixed width (n / 16) ++ [digit n]

/-- How many digits `n` has, zero having one. -/
def width (n : Nat) : Nat := if n = 0 then 1 else n.log2 / 4 + 1

def fixedText (width n : Nat) : String := String.ofList (fixed width n)

def minimalText (n : Nat) : String := fixedText (width n) n

def digitValue? (c : Char) : Option Nat :=
  if '0' ≤ c ∧ c ≤ '9' then some (c.toNat - '0'.toNat)
  else if 'a' ≤ c ∧ c ≤ 'f' then some (c.toNat - 'a'.toNat + 10)
  else if 'A' ≤ c ∧ c ≤ 'F' then some (c.toNat - 'A'.toNat + 10)
  else none

/-- The number that a numeral denotes; `none` when it is empty or holds anything but digits. -/
def parse? (text : String) : Option Nat :=
  if text.isEmpty then none
  else text.toList.foldlM (fun n c => (digitValue? c).map (16 * n + ·)) 0

end HostCall.Hex
