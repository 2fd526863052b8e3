import HostCall.Error

/-!
# Reading and writing data types

`DataType.decode` reads a host value out of a dynamic value and `DataType.encode` writes one back.
Reading is strict: only integers widen, to floating-point numbers, and integers are checked against
the range of their kind.  Null is refused by every type but the unit, with an error of its own.
-/

namespace HostCall.DataType

/-- The kind of dynamic value that a type is read from, as errors name it. -/
def expected : DataType → String
  | .unit => "void"
  | .bool => "bool"
  | .int _ => "int"
  | .float32 | .float64 => "float"
  | .text => "string"
  | .object => "object"
  | .list _ => "array"

/-- The name of a type in errors about values that it cannot hold. -/
def target : DataType → String
  | .unit => "void"
  | .bool => "bool"
  | .int k => k.name
  | .float32 => "f32"
  | .float64 => "f64"
  | .text => "String"
  | .object => "Instance"
  | .list _ => "Vec"

/-- The error for a value of a kind that the type is not read from. -/
def refusal (d : DataType) (v : Value) : ConversionError :=
  if d ≠ .unit ∧ v.kind = .null then .nullValue d.target
  else .typeMismatch d.expected v.kind.name

/-- How many levels of cells a host value is read from: one, and one more for every list around
it. -/
def levels : DataType → Nat
  | .list e => e.levels + 1
  | .unit | .bool | .int _ | .float32 | .float64 | .text | .object => 1

/-- Reads a host value.  The first element that a list refuses decides the error. -/
def decode : (d : DataType) → Value → Except ConversionError d.Carrier
  | .unit, .scalar .null => .ok ()
  | .bool, .scalar (.bool b) => .ok b
  | .int k, .scalar (.int v) =>
      match BoundedInt.ofInt? k v.val with
      | some w => .ok w
      | none => .error (.integerOverflow v.val k.name)
  | .float32, .scalar (.float x) => .ok (x.convert .binary32)
  | .float32, .scalar (.int v) => .ok (.ofInt v.val)
  | .float64, .scalar (.float x) => .ok x
  | .float64, .scalar (.int v) => .ok (.ofInt v.val)
  | .text, .scalar (.text s) => .ok s
  | .object, .scalar (.object o) => .ok o
  | .list e, .array items => items.mapM e.decode
  | d, v => .error (d.refusal v)

/-- Writes a host value.  Only an integer beyond the dynamic range is refused. -/
def encode : (d : DataType) → d.Carrier → Except ConversionError Value
  | .unit, _ => .ok .null
  | .bool, b => .ok (.scalar (.bool b))
  | .int _, v =>
      match BoundedInt.ofInt? .i64 v.val with
      | some w => .ok (.scalar (.int w))
      | none => .error (.integerOverflow v.val IntKind.i64.name)
  | .float32, x => .ok (.scalar (.float (x.convert .binary64)))
  | .float64, x => .ok (.scalar (.float x))
  | .text, s => .ok (.scalar (.text s))
  | .object, o => .ok (.scalar (.object o))
  | .list e, items => (items.mapM e.encode).map .array

end HostCall.DataType
