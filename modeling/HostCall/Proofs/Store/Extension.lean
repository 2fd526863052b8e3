import HostCall.Store.Tree

/-!
# Stores that keep what another holds

Copying cells and counting bindings never change what a cell that is already there holds, nor
whether it may change.  `Store.Keeps` says so for two stores; only assignment does not have it.
-/

namespace HostCall.Store

variable {s s' s'' : Store} {c d : CellRef} {immutable : Bool}

theorem holdsCell_iff : s.holdsCell c = true ↔ ∃ cell, s.cell? c = some cell := by
  unfold holdsCell cell?
  rw [decide_eq_true_eq]
  constructor
  · intro hlt
    exact ⟨s.cells[c.index], Array.getElem?_eq_getElem hlt⟩
  · rintro ⟨cell, hcell⟩
    exact (Array.getElem?_eq_some_iff.mp hcell).1

theorem holdsCell_eq_false_iff : s.holdsCell c = false ↔ s.cell? c = none := by
  unfold holdsCell cell?
  rw [decide_eq_false_iff_not, Nat.not_lt, Array.getElem?_eq_none_iff]

/-- Every handle that is good in one store is good in the other. -/
def Grows (s s' : Store) : Prop := ∀ c, s.holdsCell c = true → s'.holdsCell c = true

theorem Grows.refl (s : Store) : s.Grows s := fun _ hc => hc

/-- Every cell and object of one store is in the other, each cell with the payload and the
mutability it had. -/
structure Keeps (s s' : Store) : Prop where
  cell? : ∀ c cell, s.cell? c = some cell →
    ∃ cell', s'.cell? c = some cell' ∧ cell'.payload = cell.payload ∧
      cell'.immutable = cell.immutable
  objects_eq : s'.objects = s.objects

namespace Keeps

@[refl] theorem refl (s : Store) : s.Keeps s :=
  ⟨fun _ cell hc => ⟨cell, hc, rfl, rfl⟩, rfl⟩

theorem trans (h : s.Keeps s') (h' : s'.Keeps s'') : s.Keeps s'' := by
  refine ⟨fun c cell hc => ?_, h'.objects_eq.trans h.objects_eq⟩
  obtain ⟨cell', hc', hpayload, himm⟩ := h.cell? c cell hc
  obtain ⟨cell'', hc'', hpayload', himm'⟩ := h'.cell? c cell' hc'
  exact ⟨cell'', hc'', hpayload'.trans hpayload, himm'.trans himm⟩

theorem grows (h : s.Keeps s') : s.Grows s' := by
  intro c hc
  obtain ⟨cell, hcell⟩ := holdsCell_iff.mp hc
  obtain ⟨cell', hcell', -⟩ := h.cell? c cell hcell
  exact holdsCell_iff.mpr ⟨cell', hcell'⟩

theorem payload_eq (h : s.Keeps s') (hc : s.holdsCell c = true) :
    s'.payload c = s.payload c := by
  obtain ⟨cell, hcell⟩ := holdsCell_iff.mp hc
  obtain ⟨cell', hcell', hpayload, -⟩ := h.cell? c cell hcell
  rw [payload, payload, hcell, hcell']
  exact hpayload

theorem isImmutable_eq (h : s.Keeps s') (hc : s.holdsCell c = true) :
    s'.isImmutable c = s.isImmutable c := by
  obtain ⟨cell, hcell⟩ := holdsCell_iff.mp hc
  obtain ⟨cell', hcell', -, himm⟩ := h.cell? c cell hcell
  rw [isImmutable, isImmutable, hcell, hcell']
  exact himm

end Keeps

theorem cell?_alloc_eq_ite (s : Store) (p : Payload) (immutable : Bool) (c : CellRef) :
    (s.alloc p immutable).2.cell? c =
      if c.index = s.cells.size then some ⟨p, immutable, 0⟩ else s.cell? c :=
  Array.getElem?_push

theorem cell?_alloc (s : Store) (p : Payload) (immutable : Bool) :
    (s.alloc p immutable).2.cell? (s.alloc p immutable).1 = some ⟨p, immutable, 0⟩ := by
  simp [alloc, cell?]

theorem keeps_alloc (s : Store) (p : Payload) (immutable : Bool) :
    s.Keeps (s.alloc p immutable).2 := by
  refine ⟨fun c cell hc => ⟨cell, ?_, rfl, rfl⟩, rfl⟩
  have hlt : c.index < s.cells.size := (Array.getElem?_eq_some_iff.mp hc).1
  rw [← hc]
  simp only [alloc, cell?]
  rw [Array.getElem?_push_lt hlt, Array.getElem?_eq_getElem hlt]

theorem cell?_modify (s : Store) (c d : CellRef) (f : Cell → Cell) :
    (s.modify c f).cell? d = if c = d then (s.cell? d).map f else s.cell? d := by
  have hmodify : (s.modify c f).cell? d = if c.index = d.index then (s.cell? d).map f
      else s.cell? d := Array.getElem?_modify
  have hindex : c.index = d.index ↔ c = d := by
    obtain ⟨i⟩ := c
    obtain ⟨j⟩ := d
    simp
  rw [hmodify]
  simp only [hindex]

theorem holdsCell_modify (s : Store) (c d : CellRef) (f : Cell → Cell) :
    (s.modify c f).holdsCell d = s.holdsCell d := by
  simp [holdsCell, modify]

theorem assign_eq_ok_iff {p : Payload} :
    s.assign c p = .ok s' ↔
      s.isImmutable c = false ∧ s' = s.modify c fun cell => { cell with payload := p } := by
  unfold assign
  split
  · next h => simp [h]
  · next h =>
    have h : s.isImmutable c = false := Bool.eq_false_iff.mpr h
    constructor
    · intro hs
      cases hs
      exact ⟨h, rfl⟩
    · rintro ⟨-, rfl⟩
      rfl

theorem grows_assign {p : Payload} (h : s.assign c p = .ok s') : s.Grows s' := by
  obtain ⟨-, rfl⟩ := assign_eq_ok_iff.mp h
  intro d hd
  rw [holdsCell_modify]
  exact hd

theorem keeps_modify (s : Store) (c : CellRef) {f : Cell → Cell}
    (hpayload : ∀ cell, (f cell).payload = cell.payload)
    (himm : ∀ cell, (f cell).immutable = cell.immutable) : s.Keeps (s.modify c f) := by
  refine ⟨fun d cell hd => ?_, rfl⟩
  rw [cell?_modify, hd]
  split
  · exact ⟨f cell, rfl, hpayload cell, himm cell⟩
  · exact ⟨cell, rfl, rfl, rfl⟩

theorem keeps_checkOut (s : Store) (c : CellRef) : s.Keeps (s.checkOut c) :=
  s.keeps_modify c (fun _ => rfl) fun _ => rfl

theorem keeps_checkIn (s : Store) (c : CellRef) : s.Keeps (s.checkIn c) :=
  s.keeps_modify c (fun _ => rfl) fun _ => rfl

theorem keeps_checkInAll (s : Store) (cs : List CellRef) : s.Keeps (s.checkInAll cs) := by
  induction cs generalizing s with
  | nil => exact .refl s
  | cons c cs ih => exact (s.keeps_checkIn c).trans (ih (s.checkIn c))

mutual

theorem keeps_build (immutable : Bool) : (v : Value) → (s : Store) →
    s.Keeps (build immutable v s).2
  | .scalar x, s => s.keeps_alloc (.scalar x) immutable
  | .array items, s => by
      rw [build]
      exact (keeps_buildAll immutable items s).trans
        (keeps_alloc _ (.array (buildAll immutable items s).1) immutable)

theorem keeps_buildAll (immutable : Bool) : (vs : List Value) → (s : Store) →
    s.Keeps (buildAll immutable vs s).2
  | [], s => .refl s
  | v :: vs, s => by
      rw [buildAll]
      exact (keeps_build immutable v s).trans (keeps_buildAll immutable vs _)

end

theorem copy_eq_some_iff :
    s.copy immutable c = some (d, s') ↔
      s.ends c = true ∧ build immutable (s.value c) s = (d, s') := by
  rw [copy, Option.ite_none_right_eq_some, Option.some.injEq]

theorem build_of_copy (h : s.copy immutable c = some (d, s')) :
    build immutable (s.value c) s = (d, s') := (copy_eq_some_iff.mp h).2

theorem keeps_of_copy (h : s.copy immutable c = some (d, s')) : s.Keeps s' := by
  have hkeeps := keeps_build immutable (s.value c) s
  rwa [build_of_copy h] at hkeeps

end HostCall.Store
