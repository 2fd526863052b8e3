import HostCall.HostType

/-!
# The store of cells and objects

Cells are shared by handle: whoever holds a handle sees every assignment.  A cell is mutable or
immutable from its creation on, and counts the by-reference bindings that are currently active.
Nothing is ever taken out of a store, so a handle that was once good stays good.
-/

namespace HostCall

/-- One cell: its payload, whether it refuses assignments, and its active bindings. -/
structure Cell where
  payload : Payload
  immutable : Bool
  checkouts : Nat
deriving DecidableEq

structure ObjectData where
  className : String
  data : Boxed

structure Store where
  cells : Array Cell
  objects : Array ObjectData

inductive AssignError
  | immutable
deriving DecidableEq

def AssignError.message : AssignError → String
  | .immutable => "cannot modify an immutable value"

namespace Store

def empty : Store := ⟨#[], #[]⟩

def cell? (s : Store) (c : CellRef) : Option Cell := s.cells[c.index]?

/-- The payload of a cell; a handle to no cell reads as null. -/
def payload (s : Store) (c : CellRef) : Payload :=
  match s.cell? c with
  | some cell => cell.payload
  | none => .null

def isImmutable (s : Store) (c : CellRef) : Bool :=
  match s.cell? c with
  | some cell => cell.immutable
  | none => false

/-- How many by-reference bindings of a cell are active. -/
def checkouts (s : Store) (c : CellRef) : Nat :=
  match s.cell? c with
  | some cell => cell.checkouts
  | none => 0

def isCheckedOut (s : Store) (c : CellRef) : Bool := decide (0 < s.checkouts c)

def object? (s : Store) (o : ObjectRef) : Option ObjectData := s.objects[o.index]?

def className (s : Store) (o : ObjectRef) : String :=
  match s.object? o with
  | some d => d.className
  | none => ""

/-- The description of an object, which hides its data. -/
def describeObject (s : Store) (o : ObjectRef) : String :=
  Text.openRecord "Instance" [("class_name", Text.quoted (s.className o))]

def alloc (s : Store) (p : Payload) (immutable : Bool) : CellRef × Store :=
  (⟨s.cells.size⟩, { s with cells := s.cells.push ⟨p, immutable, 0⟩ })

def newObject (s : Store) (className : String) (data : Boxed) : ObjectRef × Store :=
  (⟨s.objects.size⟩, { s with objects := s.objects.push ⟨className, data⟩ })

def modify (s : Store) (c : CellRef) (f : Cell → Cell) : Store :=
  { s with cells := s.cells.modify c.index f }

def assign (s : Store) (c : CellRef) (p : Payload) : Except AssignError Store :=
  if s.isImmutable c then .error .immutable
  else .ok (s.modify c fun cell => { cell with payload := p })

def checkOut (s : Store) (c : CellRef) : Store :=
  s.modify c fun cell => { cell with checkouts := cell.checkouts + 1 }

def checkIn (s : Store) (c : CellRef) : Store :=
  s.modify c fun cell => { cell with checkouts := cell.checkouts - 1 }

/-- One active binding less for every occurrence of a cell. -/
def checkInAll (s : Store) (cs : List CellRef) : Store := cs.foldl checkIn s

def holdsCell (s : Store) (c : CellRef) : Bool := decide (c.index < s.cells.size)

def holdsObject (s : Store) (o : ObjectRef) : Bool := decide (o.index < s.objects.size)

def holdsPayload (s : Store) (p : Payload) : Bool :=
  p.refs.all s.holdsCell && p.object?.all s.holdsObject

def holdsBoxed (s : Store) (b : Boxed) : Bool :=
  b.refs.all s.holdsCell && b.objects.all s.holdsObject

end Store

end HostCall
