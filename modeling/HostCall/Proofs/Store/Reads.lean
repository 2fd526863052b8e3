import HostCall.Proofs.Store.Copy

/-!
# Whole values

A cell reads as a value when following every handle below it ends in the leaves of that value.  This
needs no bound on how deep to follow, so it says of a cell whose arrays contain themselves that it
reads as nothing, and that is just where a store cannot copy it.  A built value reads back, and no
two of its positions share a cell.
-/

namespace HostCall.Store

variable {s s' : Store} {c d e : CellRef} {v : Value} {items : List CellRef} {n : Nat}

mutual

/-- Following every handle below a cell gives a value. -/
inductive Reads (s : Store) : CellRef → Value → Prop
  | scalar {c : CellRef} {x : Scalar} : s.payload c = .scalar x → Reads s c (.scalar x)
  | array {c : CellRef} {items : List CellRef} {vs : List Value} :
      s.payload c = .array items → ReadsAll s items vs → Reads s c (.array vs)

inductive ReadsAll (s : Store) : List CellRef → List Value → Prop
  | nil : ReadsAll s [] []
  | cons {c : CellRef} {v : Value} {cs : List CellRef} {vs : List Value} :
      Reads s c v → ReadsAll s cs vs → ReadsAll s (c :: cs) (v :: vs)

end

mutual

/-- A cell reads the same wherever what it leads to holds the same. -/
theorem Reads.congr {c : CellRef} {v : Value} : s.Reads c v →
    (∀ e, s.Reaches c e → s'.payload e = s.payload e) → s'.Reads c v
  | .scalar hc, h => .scalar ((h _ (.refl s _)).trans hc)
  | .array hc hitems, h =>
      .array ((h _ (.refl s _)).trans hc)
        (ReadsAll.congr hitems fun d hd e he => h e (.head (by rw [Holds, hc]; exact hd) he))

theorem ReadsAll.congr {cs : List CellRef} {vs : List Value} : s.ReadsAll cs vs →
    (∀ d ∈ cs, ∀ e, s.Reaches d e → s'.payload e = s.payload e) → s'.ReadsAll cs vs
  | .nil, _ => .nil
  | .cons hc hcs, h =>
      .cons (Reads.congr hc fun e he => h _ List.mem_cons_self e he)
        (ReadsAll.congr hcs fun d hd e he => h d (List.mem_cons_of_mem _ hd) e he)

end

mutual

/-- A cell reads as one value at most. -/
theorem Reads.unique {c : CellRef} {v w : Value} : s.Reads c v → s.Reads c w → v = w
  | .scalar hc, .scalar hc' => by
      cases hc.symm.trans hc'
      rfl
  | .array hc hitems, .array hc' hitems' => by
      cases hc.symm.trans hc'
      rw [ReadsAll.unique hitems hitems']
  | .scalar hc, .array hc' _ => by cases hc.symm.trans hc'
  | .array hc _, .scalar hc' => by cases hc.symm.trans hc'

theorem ReadsAll.unique {cs : List CellRef} {vs ws : List Value} :
    s.ReadsAll cs vs → s.ReadsAll cs ws → vs = ws
  | .nil, .nil => rfl
  | .cons hc hcs, .cons hc' hcs' => by rw [Reads.unique hc hc', ReadsAll.unique hcs hcs']

end

theorem readsAll_iff {cs : List CellRef} {vs : List Value} :
    s.ReadsAll cs vs ↔ List.Forall₂ s.Reads cs vs := by
  constructor
  · intro h
    induction vs generalizing cs with
    | nil =>
        cases h with
        | nil => exact .nil
    | cons v vs ih =>
        cases h with
        | cons hc hcs => exact .cons hc (ih hcs)
  · intro h
    induction h with
    | nil => exact .nil
    | cons hc _ ih => exact .cons hc ih

theorem readsAll_map {f : CellRef → Value} (h : ∀ d ∈ items, s.Reads d (f d)) :
    s.ReadsAll items (items.map f) := by
  induction items with
  | nil => exact .nil
  | cons c cs ih =>
      apply ReadsAll.cons
      · exact h c List.mem_cons_self
      · exact ih fun d hd => h d (List.mem_cons_of_mem c hd)

/-! ## Arrays that contain themselves -/

theorem Reads.exists_of_holds (h : s.Reads c v) (hd : s.Holds c d) :
    ∃ w, s.Reads d w ∧ sizeOf w < sizeOf v := by
  cases h with
  | scalar hc =>
      rw [Holds, hc] at hd
      cases hd
  | @array _ cs vs hc hcs =>
      rw [Holds, hc] at hd
      obtain ⟨i, hi, rfl⟩ := List.mem_iff_getElem.mp hd
      have hall := readsAll_iff.mp hcs
      have hi' : i < vs.length := hall.length_eq ▸ hi
      have hsize : sizeOf vs[i] < sizeOf vs := List.sizeOf_lt_of_mem (List.getElem_mem hi')
      refine ⟨vs[i], hall.get hi hi', ?_⟩
      rw [Value.array.sizeOf_spec]
      omega

theorem Reads.exists_of_transGen (h : s.Reads c v) (he : Relation.TransGen s.Holds c e) :
    ∃ w, s.Reads e w ∧ sizeOf w < sizeOf v := by
  induction he with
  | single hd => exact h.exists_of_holds hd
  | tail _ hlast ih =>
      obtain ⟨w, hw, hlt⟩ := ih
      obtain ⟨u, hu, hlt'⟩ := hw.exists_of_holds hlast
      exact ⟨u, hu, hlt'.trans hlt⟩

/-- No array below a cell that reads as a value contains itself: it would have to read as a smaller
value than it does. -/
theorem Reads.acyclicFrom (h : s.Reads c v) : s.AcyclicFrom c := by
  intro e he hloop
  obtain ⟨w, hw⟩ : ∃ w, s.Reads e w :=
    he.induct (P := fun x => ∃ w, s.Reads x w)
      (fun a b ⟨_, ha⟩ hab => (ha.exists_of_holds hab).imp fun _ hb => hb.1) ⟨v, h⟩
  obtain ⟨u, hu, hlt⟩ := hw.exists_of_transGen hloop
  rw [hu.unique hw] at hlt
  exact Nat.lt_irrefl _ hlt

/-! ## Values of cells -/

theorem reads_of_endsWithin (h : s.endsWithin n c = true) : s.Reads c (s.valueWithin n c) := by
  induction n generalizing c with
  | zero => cases h
  | succ n ih =>
      rw [endsWithin_succ] at h
      rw [valueWithin_succ]
      cases hc : s.payload c with
      | scalar x => exact .scalar hc
      | array items =>
          rw [hc] at h
          exact .array hc (readsAll_map fun d hd => ih (List.all_eq_true.mp h d hd))

theorem reads_of_ends (h : s.ends c = true) : s.Reads c (s.value c) := reads_of_endsWithin h

/-- Following handles ends just where no array contains itself. -/
theorem ends_iff : s.ends c = true ↔ s.AcyclicFrom c :=
  ⟨fun h => (reads_of_ends h).acyclicFrom, ends_of_acyclicFrom⟩

/-- The payload of a cell has a description just where no array in the cell contains itself. -/
theorem describePayload_eq_none_iff :
    s.describePayload (s.payload c) = none ↔ ¬s.AcyclicFrom c := by
  have hall : (s.payload c).refs.all s.ends = true ↔ s.AcyclicFrom c := by
    rw [List.all_eq_true, acyclicFrom_iff_holds]
    exact forall₂_congr fun d _ => ends_iff
  rw [describePayload, ← hall]
  split <;> simp_all

theorem reads_value (hacyclic : s.AcyclicFrom c) : s.Reads c (s.value c) :=
  reads_of_ends (ends_of_acyclicFrom hacyclic)

theorem Reads.value_eq (h : s.Reads c v) : s.value c = v := (reads_value h.acyclicFrom).unique h

/-! ## In stores that came later -/

theorem Keeps.reads (h : s.Keeps s') (hclosed : s.Closed) (hc : s.holdsCell c = true)
    (hv : s.Reads c v) : s'.Reads c v :=
  hv.congr fun _ he => h.payload_eq (hclosed.holdsCell_of_reaches hc he)

theorem Keeps.value_eq (h : s.Keeps s') (hclosed : s.Closed) (hc : s.holdsCell c = true)
    (hacyclic : s.AcyclicFrom c) : s'.value c = s.value c :=
  (h.reads hclosed hc (reads_value hacyclic)).value_eq

/-! ## Built values -/

/-- What is built leads to cells that were built with it, and to no others. -/
theorem reaches_build {immutable : Bool} (hkeeps : (build immutable v s).2.Keeps s')
    (he : s'.Reaches (build immutable v s).1 e) :
    s.cells.size ≤ e.index ∧ e.index < (build immutable v s).2.cells.size := by
  have hlt := size_lt_build immutable v s
  have hlast := size_build immutable v s
  apply ((block_build immutable v s).keeps hkeeps).reaches _ _ he
  · omega
  · omega

mutual

theorem reads_build (immutable : Bool) : (v : Value) → (s : Store) →
    (build immutable v s).2.Keeps s' → s'.Reads (build immutable v s).1 v
  | .scalar x, s, hkeeps => by
      rw [build] at hkeeps ⊢
      exact .scalar hkeeps.payload_alloc
  | .array items, s, hkeeps => by
      rw [build_array] at hkeeps ⊢
      apply Reads.array hkeeps.payload_alloc
      exact reads_buildAll immutable items s ((keeps_alloc _ _ immutable).trans hkeeps)

theorem reads_buildAll (immutable : Bool) : (vs : List Value) → (s : Store) →
    (buildAll immutable vs s).2.Keeps s' → s'.ReadsAll (buildAll immutable vs s).1 vs
  | [], _, _ => .nil
  | v :: vs, s, hkeeps => by
      rw [buildAll_cons] at hkeeps ⊢
      have hlater := keeps_buildAll immutable vs (build immutable v s).2
      apply ReadsAll.cons
      · exact reads_build immutable v s (hlater.trans hkeeps)
      · exact reads_buildAll immutable vs _ hkeeps

end

theorem copy_eq_none_iff {immutable : Bool} : s.copy immutable c = none ↔ ¬s.AcyclicFrom c := by
  rw [copy, ← ends_iff]
  split <;> simp_all

/-- What was copied contains no array that contains itself, and reads as its value; and so does the
copy from then on. -/
theorem reads_of_copy {immutable : Bool} {s'' : Store} (h : s.copy immutable c = some (d, s'))
    (hkeeps : s'.Keeps s'') : s.Reads c (s.value c) ∧ s''.Reads d (s.value c) := by
  obtain ⟨hends, hbuild⟩ := copy_eq_some_iff.mp h
  have hread : (build immutable (s.value c) s).2.Keeps s'' →
      s''.Reads (build immutable (s.value c) s).1 (s.value c) :=
    reads_build immutable (s.value c) s
  rw [hbuild] at hread
  exact ⟨reads_of_ends hends, hread hkeeps⟩

/-- Two cells lead to no cell in common. -/
def Apart (s : Store) (c d : CellRef) : Prop := ∀ e, s.Reaches c e → ¬s.Reaches d e

/-- No two positions below a cell share a cell. -/
def Unshared (s : Store) (c : CellRef) : Prop :=
  ∀ e items, s.Reaches c e → s.payload e = .array items → items.Pairwise s.Apart

theorem unshared_of_scalar {x : Scalar} (hc : s.payload c = .scalar x) : s.Unshared c := by
  intro e items he hitems
  rw [he.eq_of_scalar hc, hc] at hitems
  cases hitems

theorem unshared_of_array (hc : s.payload c = .array items) (hitems : ∀ d ∈ items, s.Unshared d)
    (hapart : items.Pairwise s.Apart) : s.Unshared c := by
  intro e es he hes
  rcases he.eq_or_of_array hc with rfl | ⟨d, hd, hde⟩
  · rw [hc] at hes
    cases hes
    exact hapart
  · exact hitems d hd e es hde hes

mutual

theorem unshared_build (immutable : Bool) : (v : Value) → (s : Store) →
    (build immutable v s).2.Keeps s' → s'.Unshared (build immutable v s).1
  | .scalar x, s, hkeeps => by
      rw [build] at hkeeps ⊢
      exact unshared_of_scalar hkeeps.payload_alloc
  | .array items, s, hkeeps => by
      rw [build_array] at hkeeps ⊢
      obtain ⟨hitems, hapart⟩ :=
        unshared_buildAll immutable items s ((keeps_alloc _ _ immutable).trans hkeeps)
      exact unshared_of_array hkeeps.payload_alloc hitems hapart

theorem unshared_buildAll (immutable : Bool) : (vs : List Value) → (s : Store) →
    (buildAll immutable vs s).2.Keeps s' →
    (∀ d ∈ (buildAll immutable vs s).1, s'.Unshared d) ∧
      (buildAll immutable vs s).1.Pairwise s'.Apart
  | [], _, _ => ⟨fun _ hd => absurd hd List.not_mem_nil, List.Pairwise.nil⟩
  | v :: vs, s, hkeeps => by
      rw [buildAll_cons] at hkeeps ⊢
      have hlater := (keeps_buildAll immutable vs (build immutable v s).2).trans hkeeps
      have hfirst := unshared_build immutable v s hlater
      obtain ⟨hrest, hapart⟩ := unshared_buildAll immutable vs (build immutable v s).2 hkeeps
      refine ⟨List.forall_mem_cons.mpr ⟨hfirst, hrest⟩,
        List.pairwise_cons.mpr ⟨fun d hd e hfe hde => ?_, hapart⟩⟩
      obtain ⟨hblock, hrefs⟩ := block_buildAll immutable vs (build immutable v s).2
      have hlt := reaches_build hlater hfe
      have hge := (hblock.keeps hkeeps).reaches (hrefs d hd).1 (hrefs d hd).2 hde
      omega

end

/-- A cell for a new value: it reads as the value in a store that has all cells of the other, and
everything that it leads to is new, mutable and in one position alone. -/
structure Makes (s : Store) (v : Value) (c : CellRef) (s' : Store) : Prop where
  keeps : s.Keeps s'
  reads : s'.Reads c v
  fresh : ∀ e, s'.Reaches c e →
    s'.holdsCell e = true ∧ s.holdsCell e = false ∧ s'.isImmutable e = false
  unshared : s'.Unshared c

theorem makes_build (v : Value) (s : Store) :
    s.Makes v (build false v s).1 (build false v s).2 where
  keeps := keeps_build false v s
  reads := reads_build false v s (.refl _)
  fresh := by
    intro e he
    have hblock := block_build false v s
    obtain ⟨hge, hlt⟩ := reaches_build (.refl _) he
    refine ⟨hblock.holdsCell hlt, ?_, hblock.isImmutable_eq e hge hlt⟩
    exact decide_eq_false (Nat.not_lt.mpr hge)
  unshared := unshared_build false v s (.refl _)

end HostCall.Store
