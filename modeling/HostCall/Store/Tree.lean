import HostCall.Store.Basic

/-!
# Reading and building whole values

`Store.value` follows every handle below a cell and `Store.build` makes new cells for every node of
a value, all of one mutability.  A deep copy is the one after the other, so a copy shares no cell
with what was copied, nor two of its own positions a cell with each other.

Where an array contains itself, following handles never ends: copying and describing give nothing
back there, and neither does whatever waits for them.  `none` stands for that, here and in calls.
-/

namespace HostCall.Store

/-- The value of a cell, followed through `depth` levels of cells, with null below them. -/
def valueWithin (s : Store) : (depth : Nat) → CellRef → Value
  | 0, _ => .null
  | depth + 1, c =>
      match s.payload c with
      | .scalar x => .scalar x
      | .array items => .array (items.map (s.valueWithin depth))

/-- Whether following every handle below a cell ends within `depth` levels of cells. -/
def endsWithin (s : Store) : (depth : Nat) → CellRef → Bool
  | 0, _ => false
  | depth + 1, c =>
      match s.payload c with
      | .scalar _ => true
      | .array items => items.all (s.endsWithin depth)

/-- As many levels as handles can be followed through without meeting a cell again: every cell of
the store once, and a handle to none. -/
def levels (s : Store) : Nat := s.cells.size + 1

def ends (s : Store) (c : CellRef) : Bool := s.endsWithin s.levels c

/-- The whole value of a cell, where following the handles below it ends. -/
def value (s : Store) (c : CellRef) : Value := s.valueWithin s.levels c

def payloadValue (s : Store) : Payload → Value
  | .scalar x => .scalar x
  | .array items => .array (items.map s.value)

mutual

/-- New cells, all of one mutability, for every node of a value; elements come before the array
that holds them. -/
def build (immutable : Bool) : Value → Store → CellRef × Store
  | .scalar x, s => s.alloc (.scalar x) immutable
  | .array items, s =>
      let (refs, s) := buildAll immutable items s
      s.alloc (.array refs) immutable

def buildAll (immutable : Bool) : List Value → Store → List CellRef × Store
  | [], s => ([], s)
  | v :: vs, s =>
      let (c, s) := build immutable v s
      let (cs, s) := buildAll immutable vs s
      (c :: cs, s)

end

/-- An independent copy of a cell, mutable or immutable at every depth. -/
def copy (s : Store) (immutable : Bool) (c : CellRef) : Option (CellRef × Store) :=
  if s.ends c then some (build immutable (s.value c) s) else none

def describe (s : Store) (c : CellRef) : Option String :=
  if s.ends c then some ((s.value c).describeCell s.className) else none

def describePayload (s : Store) (p : Payload) : Option String :=
  if p.refs.all s.ends then some ((s.payloadValue p).describe s.className) else none

end HostCall.Store
