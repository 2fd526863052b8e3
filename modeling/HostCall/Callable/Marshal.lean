import HostCall.Overload.Basic

/-!
# Marshalling

Before native code runs, every slot of the overload is filled, in order: slots that take arguments
take them from the front of what is left, a tail takes all that is left.  A cell passed by
reference is bound until the call ends; a cell passed by value is copied, which may never end.
-/

namespace HostCall

/-- What marshalling has made so far: the store, and the cells bound for the call. -/
structure Bindings where
  store : Store
  bound : List CellRef

namespace Bindings

def release (b : Bindings) : Store := b.store.checkInAll b.bound

end Bindings

namespace Passing

/-- Hands over one cell: the cell itself, bound from now on, or a copy of it. -/
def pass (p : Passing) (c : CellRef) (b : Bindings) : Option (CellRef × Bindings) :=
  if p.byRef then some (c, ⟨b.store.checkOut c, c :: b.bound⟩)
  else (b.store.copy (!p.isMutable) c).map fun (d, store) => (d, { b with store })

def passAll (p : Passing) : List CellRef → Bindings → Option (List CellRef × Bindings)
  | [], b => some ([], b)
  | c :: cs, b =>
    match p.pass c b with
    | none => none
    | some (d, b) => (p.passAll cs b).map fun (ds, b) => (d :: ds, b)

end Passing

inductive MarshalError
  | exhausted (slot available : Nat)
  | refused (e : ConversionError)

/-- Fills one slot from the arguments that are left, and leaves the others. -/
def Slot.fill (location : Location) (index available : Nat) (args : List CellRef) (b : Bindings) :
    Slot → Option (Except MarshalError (Argument × List CellRef × Bindings))
  | .passthrough p =>
    match args with
    | [] => some (.error (.exhausted index available))
    | c :: rest => (p.pass c b).map fun (d, b) => .ok (.cell d, rest, b)
  | .converted conv spec =>
    match args with
    | [] => some (.error (.exhausted index available))
    | c :: rest =>
      match conv.toHost b.store spec c with
      | .ok a => some (.ok (a, rest, b))
      | .error e => some (.error (.refused e))
  | .injected .environment => some (.ok (.environment, args, b))
  | .injected .location => some (.ok (.location location, args, b))
  | .tail p => (p.passAll args b).map fun (ds, b) => .ok (.tail ds, [], b)

/-- Fills slots in order, the first of them at position `index`.  What was bound before a slot
failed is in the answer as well. -/
def marshal (location : Location) (available : Nat) :
    (index : Nat) → List Slot → List CellRef → Bindings →
      Option (Except MarshalError (List Argument) × Bindings)
  | _, [], _, b => some (.ok [], b)
  | index, slot :: slots, args, b =>
    match slot.fill location index available args b with
    | none => none
    | some (.error e) => some (.error e, b)
    | some (.ok (a, rest, b)) =>
        (marshal location available (index + 1) slots rest b).map fun
          | (.error e, b) => (.error e, b)
          | (.ok as, b) => (.ok (a :: as), b)

end HostCall
