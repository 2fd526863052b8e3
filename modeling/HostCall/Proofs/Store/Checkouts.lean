import HostCall.Proofs.Store.Extension

/-!
# Counting active bindings

What each operation of a store does to the number of active bindings of a cell.  Only checking a
cell out or in changes it, and only for that cell.
-/

namespace HostCall.Store

variable {s s' : Store} {c : CellRef}

theorem checkouts_modify_of_eq (s : Store) (c d : CellRef) {f : Cell → Cell}
    (hf : ∀ cell, (f cell).checkouts = cell.checkouts) :
    (s.modify c f).checkouts d = s.checkouts d := by
  unfold checkouts
  rw [cell?_modify]
  by_cases hcd : c = d
  · rw [if_pos hcd]
    cases s.cell? d with
    | none => rfl
    | some cell => exact hf cell
  · rw [if_neg hcd]

theorem checkouts_assign {p : Payload} (h : s.assign c p = .ok s') (d : CellRef) :
    s'.checkouts d = s.checkouts d := by
  obtain ⟨-, rfl⟩ := assign_eq_ok_iff.mp h
  exact s.checkouts_modify_of_eq c d fun _ => rfl

theorem checkouts_alloc (s : Store) (p : Payload) (immutable : Bool) (c : CellRef) :
    (s.alloc p immutable).2.checkouts c = s.checkouts c := by
  unfold checkouts
  rw [cell?_alloc_eq_ite]
  by_cases hc : c.index = s.cells.size
  · have hnone : s.cell? c = none := Array.getElem?_eq_none (Nat.le_of_eq hc.symm)
    rw [if_pos hc, hnone]
  · rw [if_neg hc]

mutual

theorem checkouts_build (immutable : Bool) (c : CellRef) : (v : Value) → (s : Store) →
    (build immutable v s).2.checkouts c = s.checkouts c
  | .scalar x, s => s.checkouts_alloc (.scalar x) immutable c
  | .array items, s => by
      rw [build]
      exact (checkouts_alloc _ (.array (buildAll immutable items s).1) immutable c).trans
        (checkouts_buildAll immutable c items s)

theorem checkouts_buildAll (immutable : Bool) (c : CellRef) : (vs : List Value) → (s : Store) →
    (buildAll immutable vs s).2.checkouts c = s.checkouts c
  | [], _ => rfl
  | v :: vs, s => by
      rw [buildAll]
      exact (checkouts_buildAll immutable c vs _).trans (checkouts_build immutable c v s)

end

theorem checkouts_of_copy {immutable : Bool} {d : CellRef} (h : s.copy immutable c = some (d, s'))
    (e : CellRef) : s'.checkouts e = s.checkouts e := by
  have hcheckouts := checkouts_build immutable e (s.value c) s
  rwa [build_of_copy h] at hcheckouts

theorem checkouts_checkOut (h : s.holdsCell c = true) (d : CellRef) :
    (s.checkOut c).checkouts d = s.checkouts d + [c].count d := by
  obtain ⟨cell, hcell⟩ := holdsCell_iff.mp h
  unfold checkouts checkOut
  rw [cell?_modify, List.count_singleton]
  by_cases hcd : c = d
  · subst hcd
    simp [hcell]
  · simp [hcd]

/-- Checking in lowers the count by one, or leaves it at zero. -/
theorem checkouts_checkIn (s : Store) (c d : CellRef) :
    (s.checkIn c).checkouts d = s.checkouts d - [c].count d := by
  unfold checkouts checkIn
  rw [cell?_modify, List.count_singleton]
  by_cases hcd : c = d
  · subst hcd
    cases s.cell? c <;> simp
  · simp [hcd]

theorem checkouts_checkInAll (s : Store) (cs : List CellRef) (d : CellRef) :
    (s.checkInAll cs).checkouts d = s.checkouts d - cs.count d := by
  induction cs generalizing s with
  | nil => rfl
  | cons c cs ih =>
      have hcount : (c :: cs).count d = [c].count d + cs.count d := by
        rw [← List.count_append]
        rfl
      calc
        (s.checkInAll (c :: cs)).checkouts d = (s.checkIn c).checkouts d - cs.count d :=
          ih (s.checkIn c)
        _ = s.checkouts d - (c :: cs).count d := by
          rw [checkouts_checkIn, hcount, Nat.sub_sub]

end HostCall.Store
