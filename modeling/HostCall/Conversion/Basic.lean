import HostCall.Call.Argument
import HostCall.Conversion.Codec

/-!
# Conversions

A conversion carries values of one type across the boundary: from a cell to an argument of native
code, and from what native code returned to a cell.  It reads the store and never changes it; a
result that needs a cell of its own says so, and the call makes the cell.  Conversions are taken to
be pure and total: they always answer, and do nothing else.  The three that are defined here are
so, and of those that a host registers itself it is assumed.
-/

namespace HostCall

/-- What a returned value becomes. -/
inductive Produced
  /-- A cell that exists already. -/
  | shared (c : CellRef)
  /-- A new mutable cell, elements included. -/
  | fresh (v : Value)

def Produced.realize : Produced → Store → CellRef × Store
  | .shared c, s => (c, s)
  | .fresh v, s => s.build false v

structure Conversion where
  typeName : String
  toHost : Store → ParameterSpec → CellRef → Except ConversionError Argument
  /-- From what native code set as its result; nothing set is `none`. -/
  fromHost : Store → Option Boxed → Except ConversionError Produced

namespace Conversion

def foreign (expected : String) : ConversionError :=
  .typeMismatch expected "native value of another type"

/-- The conversion of a data type.  A cell is read no deeper than the lists of the type are nested.
Null reaches a nullable parameter as such, and a result that was never set becomes null. -/
def ofData (d : DataType) : Conversion where
  typeName := d.path
  toHost s p c :=
    if p.nullable && (s.payload c).isNull then .ok .null
    else (d.decode (s.valueWithin d.levels c)).map fun v => .host ⟨.data d, v⟩
  fromHost _
    | none => .ok (.fresh .null)
    | some b =>
      match b.open? (.data d) with
      | some v => (d.encode v).map .fresh
      | none => .error (foreign d.path)

/-- For members that return nothing: whatever was set is dropped, and nothing is taken. -/
def void : Conversion where
  typeName := "void"
  toHost s _ c := .error (.typeMismatch "void" (s.payload c).kind.name)
  fromHost _ _ := .ok (.fresh .null)

/-- For raw cells, which cross the boundary as they are. -/
def passthrough : Conversion where
  typeName := "Memory"
  toHost _ _ c := .ok (.cell c)
  fromHost _
    | none => .ok (.fresh .null)
    | some b =>
      match b.open? .cell with
      | some c => .ok (.shared c)
      | none => .error (foreign "Memory")

def describe (c : Conversion) : String :=
  Text.openRecord "ConversionStrategy" [("type_name", Text.quoted c.typeName)]

end Conversion

end HostCall
