import HostCall.Proofs.Store.Positions

/-!
# Stores that grew alike

What is built for a value depends on the store in one point alone, the number of the first new
cell.  Two stores to which the same values were added therefore have the same new cells up to their
numbers: a new cell of the one has a mirror among those of the other, with the same flags, and with
the same value at every depth.
-/

namespace HostCall

/-! ## Renamed handles -/

/-- A payload with every handle renamed. -/
def Payload.rename (f : CellRef → CellRef) : Payload → Payload
  | .scalar x => .scalar x
  | .array items => .array (items.map f)

def Cell.rename (f : CellRef → CellRef) (cell : Cell) : Cell :=
  { cell with payload := cell.payload.rename f }

theorem Payload.rename_of_fixed {f : CellRef → CellRef} (h : ∀ c, f c = c) (p : Payload) :
    p.rename f = p := by
  obtain rfl : f = id := funext h
  cases p with
  | scalar x => rfl
  | array items => exact congrArg Payload.array (List.map_id items)

theorem Cell.rename_of_fixed {f : CellRef → CellRef} (h : ∀ c, f c = c) (cell : Cell) :
    cell.rename f = cell := by
  rw [rename, Payload.rename_of_fixed h]

namespace Store

variable {s s' t t' : Store} {c d : CellRef} {immutable : Bool} {v : Value}

/-- Takes each cell that is added to one store to the cell that is added to the other in its place.
The cells that were there stay. -/
def relocate (s s' : Store) (c : CellRef) : CellRef :=
  if s.holdsCell c then c else ⟨c.index - s.cells.size + s'.cells.size⟩

theorem relocate_of_holdsCell (hc : s.holdsCell c = true) : s.relocate s' c = c := if_pos hc

theorem relocate_of_le (hc : s.cells.size ≤ c.index) :
    s.relocate s' c = ⟨c.index - s.cells.size + s'.cells.size⟩ := by
  have hnew : ¬s.holdsCell c = true := fun hold => Nat.not_lt.mpr hc (of_decide_eq_true hold)
  exact if_neg hnew

@[simp] theorem relocate_self (s : Store) (c : CellRef) : s.relocate s c = c := by
  cases hc : s.holdsCell c with
  | true => exact relocate_of_holdsCell hc
  | false =>
      have hle : s.cells.size ≤ c.index := Nat.not_lt.mp (of_decide_eq_false hc)
      rw [relocate_of_le hle, Nat.sub_add_cancel hle]

/-! ## New cells and their mirrors -/

/-- As many cells were added to the one store as to the other.  Those added to the first hold no
handle to a cell that was there, and those added to the second are the same with the handles of the
second. -/
structure Mirrors (s s' t t' : Store) : Prop where
  size_le : s.cells.size ≤ t.cells.size
  size_add : t.cells.size + s'.cells.size = t'.cells.size + s.cells.size
  holds : ∀ c d, s.cells.size ≤ c.index → t.Holds c d → s.cells.size ≤ d.index
  cell? : ∀ c, s.cells.size ≤ c.index →
    t'.cell? (s.relocate s' c) = (t.cell? c).map (Cell.rename (s.relocate s'))

theorem cell?_eq_none_of_le (hc : s.cells.size ≤ c.index) : s.cell? c = none :=
  holdsCell_eq_false_iff.mp (decide_eq_false (Nat.not_lt.mpr hc))

namespace Mirrors

theorem refl (s s' : Store) : s.Mirrors s' s s' where
  size_le := le_refl _
  size_add := Nat.add_comm _ _
  holds := by
    intro c d hc hd
    have hold : c.index < s.cells.size := of_decide_eq_true (holdsCell_of_holds hd)
    omega
  cell? := by
    intro c hc
    rw [relocate_of_le hc, cell?_eq_none_of_le hc]
    exact cell?_eq_none_of_le (Nat.le_add_left _ _)

/-- A cell with renamed handles, added to the other store, mirrors the one that is added here. -/
theorem alloc (h : s.Mirrors s' t t') (immutable : Bool) {p : Payload}
    (hp : ∀ d ∈ p.refs, s.cells.size ≤ d.index) :
    (t'.alloc (p.rename (s.relocate s')) immutable).1 =
        s.relocate s' (t.alloc p immutable).1 ∧
      s.Mirrors s' (t.alloc p immutable).2
        (t'.alloc (p.rename (s.relocate s')) immutable).2 := by
  have hle := h.size_le
  have hadd := h.size_add
  constructor
  · have hfirst : s.relocate s' (t.alloc p immutable).1 =
        ⟨t.cells.size - s.cells.size + s'.cells.size⟩ := relocate_of_le hle
    rw [hfirst]
    change CellRef.mk t'.cells.size = _
    congr 1
    omega
  · refine ⟨?_, ?_, fun c d hc hd => ?_, fun c hc => ?_⟩
    · rw [size_alloc]
      omega
    · rw [size_alloc, size_alloc]
      omega
    · rw [Holds, payload_alloc] at hd
      split at hd
      · exact hp d hd
      · exact h.holds c d hc hd
    · rw [cell?_alloc_eq_ite, cell?_alloc_eq_ite]
      by_cases hlast : c.index = t.cells.size
      · have hlast' : (s.relocate s' c).index = t'.cells.size := by
          rw [relocate_of_le hc]
          dsimp only
          omega
        rw [if_pos hlast, if_pos hlast']
        rfl
      · have hlast' : (s.relocate s' c).index ≠ t'.cells.size := by
          rw [relocate_of_le hc]
          dsimp only
          omega
        rw [if_neg hlast, if_neg hlast']
        exact h.cell? c hc

mutual

/-- What is built for a value in the other store mirrors what is built for it here. -/
theorem build (immutable : Bool) : (v : Value) → {t t' : Store} → s.Mirrors s' t t' →
    (Store.build immutable v t').1 = s.relocate s' (Store.build immutable v t).1 ∧
      s.Mirrors s' (Store.build immutable v t).2 (Store.build immutable v t').2
  | .scalar x, t, t', h => h.alloc (p := .scalar x) immutable fun d hd => by cases hd
  | .array items, t, t', h => by
      obtain ⟨hrefs, hmirrors⟩ := buildAll immutable items h
      rw [build_array, build_array, hrefs]
      refine hmirrors.alloc (p := .array _) immutable fun d hd => ?_
      exact h.size_le.trans ((block_buildAll immutable items t).2 d hd).1

theorem buildAll (immutable : Bool) : (vs : List Value) → {t t' : Store} → s.Mirrors s' t t' →
    (Store.buildAll immutable vs t').1 =
        (Store.buildAll immutable vs t).1.map (s.relocate s') ∧
      s.Mirrors s' (Store.buildAll immutable vs t).2 (Store.buildAll immutable vs t').2
  | [], _, _, h => ⟨rfl, h⟩
  | v :: vs, t, t', h => by
      obtain ⟨hfirst, hmirrors⟩ := build immutable v h
      obtain ⟨hrest, hmirrors'⟩ := buildAll immutable vs hmirrors
      rw [buildAll_cons, buildAll_cons]
      refine ⟨?_, hmirrors'⟩
      rw [List.map_cons, hfirst, hrest]

end

/-- Checking out a cell that was there touches no new one. -/
theorem checkOut (h : s.Mirrors s' t t') (hc : s.holdsCell c = true)
    (hc' : s'.holdsCell c = true) : s.Mirrors s' (t.checkOut c) (t'.checkOut c) := by
  have hsize : ∀ u : Store, (u.checkOut c).cells.size = u.cells.size :=
    fun u => Array.size_modify
  refine ⟨?_, ?_, fun d e hd he => ?_, fun d hd => ?_⟩
  · rw [hsize]
    exact h.size_le
  · rw [hsize, hsize]
    exact h.size_add
  · have hpayload : (t.checkOut c).payload d = t.payload d := t.payload_modify c d fun _ => rfl
    rw [Holds, hpayload] at he
    exact h.holds d e hd he
  · have hold : c.index < s.cells.size := of_decide_eq_true hc
    have hold' : c.index < s'.cells.size := of_decide_eq_true hc'
    have hne : c ≠ d := by
      rintro rfl
      omega
    have hne' : c ≠ s.relocate s' d := by
      rw [relocate_of_le hd]
      rintro rfl
      dsimp only at hold'
      omega
    rw [Store.checkOut, Store.checkOut, cell?_modify, cell?_modify, if_neg hne, if_neg hne']
    exact h.cell? d hd

theorem payload (h : s.Mirrors s' t t') (hc : s.cells.size ≤ c.index) :
    t'.payload (s.relocate s' c) = (t.payload c).rename (s.relocate s') := by
  rw [Store.payload, Store.payload, h.cell? c hc]
  cases t.cell? c <;> rfl

/-- A new cell and its mirror have the same value at every depth. -/
theorem valueWithin (h : s.Mirrors s' t t') (hc : s.cells.size ≤ c.index) (n : Nat) :
    t'.valueWithin n (s.relocate s' c) = t.valueWithin n c := by
  induction n generalizing c with
  | zero => rfl
  | succ n ih =>
      rw [valueWithin_succ, valueWithin_succ, h.payload hc]
      cases hp : t.payload c with
      | scalar x => rfl
      | array items =>
          refine congrArg Value.array ?_
          rw [List.map_map]
          refine List.map_congr_left fun d hd => ih (h.holds c d hc ?_)
          rw [Holds, hp]
          exact hd

/-- Stores that one store grew to alike, with the cells that were there in the same state, are one
store. -/
theorem eq_of_self (h : s.Mirrors s t t') (hobjects : t'.objects = t.objects)
    (hold : ∀ c, s.holdsCell c = true → t'.cell? c = t.cell? c) : t' = t := by
  have hcells : t'.cells = t.cells := by
    refine Array.ext_getElem? fun i => ?_
    change t'.cell? ⟨i⟩ = t.cell? ⟨i⟩
    cases hi : s.holdsCell ⟨i⟩ with
    | true => exact hold ⟨i⟩ hi
    | false =>
        have hnew := h.cell? ⟨i⟩ (Nat.not_lt.mp (of_decide_eq_false hi))
        have hfixed : Cell.rename (s.relocate s) = id :=
          funext (Cell.rename_of_fixed (relocate_self s))
        rwa [relocate_self, hfixed, Option.map_id, id] at hnew
  cases t
  cases t'
  cases hcells
  cases hobjects
  rfl

end Mirrors

end Store

end HostCall
