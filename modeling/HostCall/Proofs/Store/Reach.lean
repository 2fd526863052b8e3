import HostCall.Proofs.Store.Extension
import Mathlib.Data.Fintype.Card
import Mathlib.Logic.Relation

/-!
# Following handles

What a cell reaches through arrays, and why following handles ends.  Where no array contains itself,
the cells below a cell become fewer with every handle that is followed, so there are no more levels
of cells than a store has.
-/

namespace HostCall.Store

variable {s s' : Store} {c d e : CellRef} {n : Nat}

/-- One cell holds a handle to the other. -/
def Holds (s : Store) (c d : CellRef) : Prop := d ∈ (s.payload c).refs

/-- A cell leads to another through any number of handles, or is the same. -/
def Reaches (s : Store) : CellRef → CellRef → Prop := Relation.ReflTransGen s.Holds

/-- Every handle inside a cell is good. -/
def Closed (s : Store) : Prop := ∀ c d, s.Holds c d → s.holdsCell d = true

/-- No array contains itself, directly or through others. -/
def Acyclic (s : Store) : Prop := ∀ c, ¬Relation.TransGen s.Holds c c

/-- No array that a cell leads to contains itself. -/
def AcyclicFrom (s : Store) (c : CellRef) : Prop :=
  ∀ e, s.Reaches c e → ¬Relation.TransGen s.Holds e e

theorem Reaches.refl (s : Store) (c : CellRef) : s.Reaches c c := Relation.ReflTransGen.refl

/-- What every handle keeps, holds of everything that is reached. -/
theorem Reaches.induct {P : CellRef → Prop} (h : s.Reaches c e)
    (hstep : ∀ a b, P a → s.Holds a b → P b) (hc : P c) : P e := by
  induction h with
  | refl => exact hc
  | tail _ hlast ih => exact hstep _ _ ih hlast

theorem Reaches.eq_of_scalar {x : Scalar} (h : s.Reaches c e) (hc : s.payload c = .scalar x) :
    e = c := by
  rcases h.cases_head with rfl | ⟨d, hd, -⟩
  · rfl
  · rw [Holds, hc] at hd
    cases hd

theorem Reaches.eq_or_of_array {items : List CellRef} (h : s.Reaches c e)
    (hc : s.payload c = .array items) : e = c ∨ ∃ d ∈ items, s.Reaches d e := by
  rcases h.cases_head with rfl | ⟨d, hd, hde⟩
  · exact .inl rfl
  · rw [Holds, hc] at hd
    exact .inr ⟨d, hd, hde⟩

theorem Closed.holdsCell_of_reaches (h : s.Closed) (hc : s.holdsCell c = true)
    (hr : s.Reaches c e) : s.holdsCell e = true :=
  hr.induct (P := fun x => s.holdsCell x = true) (fun a b _ hab => h a b hab) hc

theorem holdsCell_of_holds (h : s.Holds c d) : s.holdsCell c = true := by
  cases hc : s.holdsCell c with
  | true => rfl
  | false =>
      have hnull : s.payload c = .null := by rw [payload, holdsCell_eq_false_iff.mp hc]
      rw [Holds, hnull] at h
      cases h

theorem AcyclicFrom.of_holds (h : s.AcyclicFrom c) (hd : s.Holds c d) : s.AcyclicFrom d :=
  fun e he => h e (.head hd he)

/-- A loop below a cell is one below a cell that it holds. -/
theorem acyclicFrom_iff_holds : s.AcyclicFrom c ↔ ∀ d, s.Holds c d → s.AcyclicFrom d := by
  refine ⟨fun h d => h.of_holds, fun h e he hloop => ?_⟩
  rcases he.cases_head with rfl | ⟨d, hd, hde⟩
  · obtain ⟨d, hd, hdc⟩ := Relation.TransGen.head'_iff.mp hloop
    exact h d hd c hdc hloop
  · exact h d hd e hde hloop

/-! ## Reading values -/

theorem valueWithin_succ (s : Store) (n : Nat) (c : CellRef) :
    s.valueWithin (n + 1) c =
      match s.payload c with
      | .scalar x => .scalar x
      | .array items => .array (items.map (s.valueWithin n)) := rfl

theorem endsWithin_succ (s : Store) (n : Nat) (c : CellRef) :
    s.endsWithin (n + 1) c =
      match s.payload c with
      | .scalar _ => true
      | .array items => items.all (s.endsWithin n) := rfl

open Classical in
/-- The cells that a cell leads to through one handle or more. -/
noncomputable def below (s : Store) (c : CellRef) : Finset (Fin s.cells.size) :=
  Finset.univ.filter fun i => Relation.TransGen s.Holds c ⟨i⟩

theorem mem_below {i : Fin s.cells.size} :
    i ∈ s.below c ↔ Relation.TransGen s.Holds c ⟨i⟩ := by
  simp [below]

theorem card_below_lt_of_holds (hloop : ¬Relation.TransGen s.Holds d d)
    (hd : s.holdsCell d = true) (hcd : s.Holds c d) : (s.below d).card < (s.below c).card := by
  have hlt : d.index < s.cells.size := of_decide_eq_true hd
  apply Finset.card_lt_card
  refine Finset.ssubset_iff_subset_ne.mpr ⟨fun i hi => ?_, fun heq => ?_⟩
  · exact mem_below.mpr (.head hcd (mem_below.mp hi))
  · have hmem : ⟨d.index, hlt⟩ ∈ s.below d := by
      rw [heq]
      exact mem_below.mpr (.single hcd)
    exact hloop (mem_below.mp hmem)

theorem card_below_lt (hloop : ¬Relation.TransGen s.Holds c c) (hc : s.holdsCell c = true) :
    (s.below c).card < s.cells.size := by
  have hlt : c.index < s.cells.size := of_decide_eq_true hc
  have hnot : ⟨c.index, hlt⟩ ∉ s.below c := fun hmem => hloop (mem_below.mp hmem)
  have hcard := Finset.card_lt_univ_of_notMem hnot
  rwa [Fintype.card_fin] at hcard

/-- As many levels as a store has are enough where no array contains itself. -/
theorem endsWithin_of_acyclicFrom (hacyclic : s.AcyclicFrom c) (hpos : 0 < n)
    (hn : s.holdsCell c = true → (s.below c).card + 1 < n) : s.endsWithin n c = true := by
  induction n generalizing c with
  | zero => omega
  | succ n ih =>
      rw [endsWithin_succ]
      cases hc : s.payload c with
      | scalar x => rfl
      | array items =>
          refine List.all_eq_true.mpr fun d hd => ?_
          have hcd : s.Holds c d := by rwa [Holds, hc]
          have hcard := hn (holdsCell_of_holds hcd)
          refine ih (fun e he => hacyclic e (.head hcd he)) (by omega) fun hgood => ?_
          have hlt := card_below_lt_of_holds (hacyclic d (.single hcd)) hgood hcd
          omega

theorem ends_of_acyclicFrom (hacyclic : s.AcyclicFrom c) : s.ends c = true := by
  refine endsWithin_of_acyclicFrom hacyclic (Nat.succ_pos _) fun hc => ?_
  have hlt := card_below_lt (hacyclic c (.refl s c)) hc
  rw [levels]
  omega

theorem Grows.size_le (h : s.Grows s') : s.cells.size ≤ s'.cells.size := by
  by_contra hlt
  have hgood := h ⟨s'.cells.size⟩ (decide_eq_true (by simpa using hlt))
  exact absurd (of_decide_eq_true hgood) (Nat.lt_irrefl _)

/-- What a good handle led to was there before, also in a store that came later. -/
theorem Keeps.holdsCell_of_reaches (h : s.Keeps s') (hclosed : s.Closed)
    (hc : s.holdsCell c = true) (he : s'.Reaches c e) : s.holdsCell e = true := by
  refine he.induct (P := fun e => s.holdsCell e = true) (fun a d ha hd => ?_) hc
  apply hclosed a d
  rw [Holds, ← h.payload_eq ha]
  exact hd

/-! ## Stores without bad handles -/

theorem Closed.of_payload_eq (h : s.Closed) (hgrows : s.Grows s')
    (hpayload : ∀ c, s'.payload c = s.payload c) : s'.Closed := by
  intro c d hd
  apply hgrows
  apply h c
  rw [Holds, ← hpayload]
  exact hd

theorem payload_alloc (s : Store) (p : Payload) (immutable : Bool) (c : CellRef) :
    (s.alloc p immutable).2.payload c = if c.index = s.cells.size then p else s.payload c := by
  unfold payload
  rw [cell?_alloc_eq_ite]
  by_cases hc : c.index = s.cells.size
  · rw [if_pos hc, if_pos hc]
  · rw [if_neg hc, if_neg hc]

theorem Closed.alloc (h : s.Closed) {p : Payload} (immutable : Bool)
    (hp : ∀ d ∈ p.refs, s.holdsCell d = true) : (s.alloc p immutable).2.Closed := by
  intro c d hd
  apply (s.keeps_alloc p immutable).grows
  rw [Holds, payload_alloc] at hd
  split at hd
  · exact hp d hd
  · exact h c d hd

theorem payload_modify (s : Store) (c d : CellRef) {f : Cell → Cell}
    (hf : ∀ cell, (f cell).payload = cell.payload) :
    (s.modify c f).payload d = s.payload d := by
  unfold payload
  rw [cell?_modify]
  by_cases hcd : c = d
  · rw [if_pos hcd]
    cases s.cell? d with
    | none => rfl
    | some cell => exact hf cell
  · rw [if_neg hcd]

theorem payload_assign {p : Payload} (h : s.assign c p = .ok s') (d : CellRef) :
    s'.payload d = if c = d ∧ s.holdsCell d = true then p else s.payload d := by
  obtain ⟨-, rfl⟩ := assign_eq_ok_iff.mp h
  unfold payload
  rw [cell?_modify]
  by_cases hcd : c = d
  · cases hd : s.holdsCell d with
    | true =>
        obtain ⟨cell, hcell⟩ := holdsCell_iff.mp hd
        simp [hcd, hcell]
    | false => simp [holdsCell_eq_false_iff.mp hd]
  · simp [hcd]

theorem Closed.assign (h : s.Closed) {p : Payload} (hp : ∀ d ∈ p.refs, s.holdsCell d = true)
    (hassign : s.assign c p = .ok s') : s'.Closed := by
  intro a b hb
  apply grows_assign hassign
  rw [Holds, payload_assign hassign] at hb
  split at hb
  · exact hp b hb
  · exact h a b hb

/-- Where cells hold handles to earlier cells alone, there is neither a bad handle nor an array that
contains itself. -/
theorem closed_and_acyclic_of_lt (h : ∀ c d, s.Holds c d → d.index < c.index) :
    s.Closed ∧ s.Acyclic := by
  refine ⟨fun c d hd => ?_, fun c hc => ?_⟩
  · have hgood : c.index < s.cells.size := of_decide_eq_true (holdsCell_of_holds hd)
    have hlt := h c d hd
    exact decide_eq_true (by omega)
  · have hlt : ∀ e, Relation.TransGen s.Holds c e → e.index < c.index := by
      intro e he
      induction he with
      | single hd => exact h c _ hd
      | tail _ hlast ih =>
          have hstep := h _ _ hlast
          omega
    exact absurd (hlt c hc) (Nat.lt_irrefl _)

theorem closed_and_acyclic_of_all
    (h : (List.range s.cells.size).all (fun i =>
      (s.payload ⟨i⟩).refs.all fun d => decide (d.index < i)) = true) : s.Closed ∧ s.Acyclic := by
  apply closed_and_acyclic_of_lt
  intro c d hd
  have hgood : c.index < s.cells.size := of_decide_eq_true (holdsCell_of_holds hd)
  have hcell := List.all_eq_true.mp h c.index (List.mem_range.mpr hgood)
  exact of_decide_eq_true (List.all_eq_true.mp hcell d hd)

end HostCall.Store
