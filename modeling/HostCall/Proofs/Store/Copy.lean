import HostCall.Proofs.Store.Reach

/-!
# Copies

Building a value only ever adds cells at the end of a store, and the arrays among them hold handles
to one another alone.  So the cells of a copy are a block of their own: nothing inside leads out of
it, all of it has one mutability, and no loop goes through it.
-/

namespace HostCall.Store

variable {s s' s'' : Store} {immutable : Bool} {lo mid hi n : Nat} {c d e : CellRef}

/-- Cells with successive numbers, of one mutability, that hold no handles but to those before them
in the block. -/
structure Block (s : Store) (immutable : Bool) (lo hi : Nat) : Prop where
  le : lo ≤ hi
  le_size : hi ≤ s.cells.size
  isImmutable_eq : ∀ c : CellRef, lo ≤ c.index → c.index < hi → s.isImmutable c = immutable
  holds : ∀ c d : CellRef, lo ≤ c.index → c.index < hi → s.Holds c d →
    lo ≤ d.index ∧ d.index < c.index

namespace Block

theorem nil (hlo : lo ≤ s.cells.size) : s.Block immutable lo lo :=
  ⟨le_refl lo, hlo, fun c h h' => by omega, fun c d h h' => by omega⟩

theorem append (h : s.Block immutable lo mid) (h' : s.Block immutable mid hi) :
    s.Block immutable lo hi := by
  have hle := h.le
  have hle' := h'.le
  refine ⟨hle.trans hle', h'.le_size, fun c hlo hhi => ?_, fun c d hlo hhi hd => ?_⟩
  · by_cases hmid : c.index < mid
    · exact h.isImmutable_eq c hlo hmid
    · exact h'.isImmutable_eq c (by omega) hhi
  · by_cases hmid : c.index < mid
    · have hin := h.holds c d hlo hmid hd
      omega
    · have hin := h'.holds c d (by omega) hhi hd
      omega

theorem holdsCell (h : s.Block immutable lo hi) (hc : c.index < hi) : s.holdsCell c = true := by
  have hsize := h.le_size
  exact decide_eq_true (by omega)

theorem keeps (h : s.Block immutable lo hi) (hkeeps : s.Keeps s') : s'.Block immutable lo hi := by
  refine ⟨h.le, h.le_size.trans hkeeps.grows.size_le, fun c hlo hhi => ?_,
    fun c d hlo hhi hd => ?_⟩
  · rw [hkeeps.isImmutable_eq (h.holdsCell hhi)]
    exact h.isImmutable_eq c hlo hhi
  · apply h.holds c d hlo hhi
    rw [Holds, ← hkeeps.payload_eq (h.holdsCell hhi)]
    exact hd

/-- Nothing inside a block leads out of it. -/
theorem reaches (h : s.Block immutable lo hi) (hlo : lo ≤ c.index) (hhi : c.index < hi)
    (hr : s.Reaches c e) : lo ≤ e.index ∧ e.index < hi :=
  hr.induct (P := fun x => lo ≤ x.index ∧ x.index < hi)
    (fun a b ha hab => (h.holds a b ha.1 ha.2 hab).imp_right fun hb => hb.trans ha.2) ⟨hlo, hhi⟩

theorem index_lt_of_transGen (h : s.Block immutable lo hi) (hlo : lo ≤ c.index)
    (hhi : c.index < hi) (hr : Relation.TransGen s.Holds c e) : e.index < c.index := by
  induction hr with
  | single hd => exact (h.holds c _ hlo hhi hd).2
  | @tail d e hcd hde ih =>
      have hd := h.reaches hlo hhi hcd.to_reflTransGen
      exact (h.holds d e hd.1 hd.2 hde).2.trans ih

/-- No array of a block contains itself. -/
theorem acyclicFrom (h : s.Block immutable lo hi) (hlo : lo ≤ c.index) (hhi : c.index < hi) :
    s.AcyclicFrom c := by
  intro e he hloop
  obtain ⟨hge, hlt⟩ := h.reaches hlo hhi he
  exact Nat.lt_irrefl _ (h.index_lt_of_transGen hge hlt hloop)

/-- A new cell that holds handles into the block before it makes the block one longer. -/
theorem alloc (h : s.Block immutable lo s.cells.size) {p : Payload}
    (hp : ∀ d ∈ p.refs, lo ≤ d.index ∧ d.index < s.cells.size) :
    (s.alloc p immutable).2.Block immutable lo (s.cells.size + 1) := by
  have hle := h.le
  have hkept := h.keeps (s.keeps_alloc p immutable)
  refine ⟨by omega, by simp [Store.alloc], fun c hlo hhi => ?_, fun c d hlo hhi hd => ?_⟩
  · by_cases hnew : c.index = s.cells.size
    · rw [isImmutable, cell?_alloc_eq_ite, if_pos hnew]
    · exact hkept.isImmutable_eq c hlo (by omega)
  · by_cases hnew : c.index = s.cells.size
    · rw [Holds, payload_alloc, if_pos hnew] at hd
      have hin := hp d hd
      omega
    · have hin := hkept.holds c d hlo (by omega) hd
      omega

end Block

/-! ## What building makes -/

theorem size_alloc (s : Store) (p : Payload) (immutable : Bool) :
    (s.alloc p immutable).2.cells.size = s.cells.size + 1 := by
  simp [alloc]

theorem build_array (immutable : Bool) (items : List Value) (s : Store) :
    build immutable (.array items) s =
      (buildAll immutable items s).2.alloc (.array (buildAll immutable items s).1) immutable := by
  rw [build]

theorem buildAll_cons (immutable : Bool) (v : Value) (vs : List Value) (s : Store) :
    buildAll immutable (v :: vs) s =
      ((build immutable v s).1 :: (buildAll immutable vs (build immutable v s).2).1,
        (buildAll immutable vs (build immutable v s).2).2) := by
  rw [buildAll]

/-- The cell for a value comes last of those that are built for it. -/
theorem size_build (immutable : Bool) (v : Value) (s : Store) :
    (build immutable v s).2.cells.size = (build immutable v s).1.index + 1 := by
  cases v with
  | scalar x => exact s.size_alloc _ immutable
  | array items => exact size_alloc _ _ immutable

theorem size_lt_build (immutable : Bool) (v : Value) (s : Store) :
    s.cells.size < (build immutable v s).2.cells.size := by
  cases v with
  | scalar x => simp [build, size_alloc]
  | array items =>
      have hle := (keeps_buildAll immutable items s).grows.size_le
      rw [build_array, size_alloc]
      omega

mutual

theorem block_build (immutable : Bool) : (v : Value) → (s : Store) →
    (build immutable v s).2.Block immutable s.cells.size (build immutable v s).2.cells.size
  | .scalar x, s => by
      rw [build, size_alloc]
      apply (Block.nil (le_refl s.cells.size)).alloc
      intro d hd
      cases hd
  | .array items, s => by
      obtain ⟨hblock, hrefs⟩ := block_buildAll immutable items s
      rw [build_array, size_alloc]
      exact hblock.alloc hrefs

theorem block_buildAll (immutable : Bool) : (vs : List Value) → (s : Store) →
    (buildAll immutable vs s).2.Block immutable s.cells.size
        (buildAll immutable vs s).2.cells.size ∧
      ∀ c ∈ (buildAll immutable vs s).1,
        s.cells.size ≤ c.index ∧ c.index < (buildAll immutable vs s).2.cells.size
  | [], s => ⟨.nil (le_refl _), fun c hc => by cases hc⟩
  | v :: vs, s => by
      have hfirst := block_build immutable v s
      obtain ⟨hrest, hrefs⟩ := block_buildAll immutable vs (build immutable v s).2
      have hlast := size_build immutable v s
      have hle := hrest.le
      rw [buildAll_cons]
      refine ⟨(hfirst.keeps (keeps_buildAll immutable vs _)).append hrest, fun c hc => ?_⟩
      rcases List.mem_cons.mp hc with rfl | hc
      · have hnew := size_lt_build immutable v s
        dsimp only
        omega
      · have hin := hrefs c hc
        have hgrow := hfirst.le
        dsimp only
        omega

end

theorem Keeps.payload_alloc {p : Payload} (h : (s.alloc p immutable).2.Keeps s') :
    s'.payload (s.alloc p immutable).1 = p := by
  have hcell := s.cell?_alloc p immutable
  rw [h.payload_eq (holdsCell_iff.mpr ⟨_, hcell⟩), payload, hcell]

/-! ## Copies of cells -/

theorem block_of_copy (h : s.copy immutable c = some (d, s')) :
    s'.Block immutable s.cells.size s'.cells.size := by
  have hblock := block_build immutable (s.value c) s
  rwa [build_of_copy h] at hblock

theorem index_of_copy (h : s.copy immutable c = some (d, s')) :
    s.cells.size ≤ d.index ∧ d.index < s'.cells.size := by
  have hlast := size_build immutable (s.value c) s
  have hlt := size_lt_build immutable (s.value c) s
  rw [build_of_copy h] at hlast hlt
  dsimp only at hlast hlt
  omega

theorem Closed.build (h : s.Closed) (immutable : Bool) (v : Value) :
    (build immutable v s).2.Closed := by
  have hblock := block_build immutable v s
  have hkeeps := keeps_build immutable v s
  intro c d hd
  have hc : c.index < (Store.build immutable v s).2.cells.size :=
    of_decide_eq_true (holdsCell_of_holds hd)
  by_cases hold : c.index < s.cells.size
  · have hgood : s.holdsCell c = true := decide_eq_true hold
    apply hkeeps.grows
    apply h c
    rw [Holds, ← hkeeps.payload_eq hgood]
    exact hd
  · have hin := hblock.holds c d (by omega) hc hd
    exact decide_eq_true (hin.2.trans hc)

theorem closed_of_copy (h : s.copy immutable c = some (d, s')) (hclosed : s.Closed) : s'.Closed := by
  have hclosed' := hclosed.build immutable (s.value c)
  rwa [build_of_copy h] at hclosed'

/-! ## Loops -/

theorem Keeps.holds (h : s.Keeps s') (hd : s.Holds c d) : s'.Holds c d := by
  rwa [Holds, h.payload_eq (holdsCell_of_holds hd)]

/-- Where all that is new is in one block, what leads to a cell from before was there before. -/
theorem Block.old_of_holds (hblock : s'.Block immutable s.cells.size s'.cells.size)
    (hkeeps : s.Keeps s') (hd : d.index < s.cells.size) (hcd : s'.Holds c d) :
    c.index < s.cells.size ∧ s.Holds c d := by
  have hc : c.index < s.cells.size := by
    by_contra hge
    have hin := hblock.holds c d (Nat.le_of_not_lt hge)
      (of_decide_eq_true (holdsCell_of_holds hcd)) hcd
    omega
  refine ⟨hc, ?_⟩
  rwa [Holds, ← hkeeps.payload_eq (decide_eq_true hc)]

theorem Block.reaches_old (hblock : s'.Block immutable s.cells.size s'.cells.size)
    (hkeeps : s.Keeps s') (he : e.index < s.cells.size) (hce : s'.Reaches c e) :
    c.index < s.cells.size ∧ s.Reaches c e := by
  induction hce using Relation.ReflTransGen.head_induction_on with
  | refl => exact ⟨he, .refl s e⟩
  | head hcd _ ih =>
      obtain ⟨hc, hcd⟩ := hblock.old_of_holds hkeeps ih.1 hcd
      exact ⟨hc, .head hcd ih.2⟩

/-- Where all that is new is in one block, there is no new loop. -/
theorem Block.acyclicFrom_iff (hblock : s'.Block immutable s.cells.size s'.cells.size)
    (hkeeps : s.Keeps s') : s'.AcyclicFrom c ↔ s.AcyclicFrom c := by
  constructor
  · intro h e he hloop
    exact h e (Relation.ReflTransGen.mono (fun _ _ => hkeeps.holds) _ _ he)
      (Relation.TransGen.mono (fun _ _ => hkeeps.holds) _ _ hloop)
  · intro h e he hloop
    obtain ⟨d, hed, hde⟩ := Relation.TransGen.tail'_iff.mp hloop
    have hlt : e.index < s'.cells.size := by
      obtain ⟨x, hex, -⟩ := Relation.TransGen.head'_iff.mp hloop
      exact of_decide_eq_true (holdsCell_of_holds hex)
    by_cases hold : e.index < s.cells.size
    · obtain ⟨hd, hde⟩ := hblock.old_of_holds hkeeps hold hde
      exact h e (hblock.reaches_old hkeeps hold he).2
        (.tail' (hblock.reaches_old hkeeps hd hed).2 hde)
    · exact hblock.acyclicFrom (Nat.le_of_not_lt hold) hlt e (.refl s' e) hloop

theorem acyclicFrom_of_copy (h : s.copy immutable c = some (d, s')) :
    s'.AcyclicFrom e ↔ s.AcyclicFrom e := (block_of_copy h).acyclicFrom_iff (keeps_of_copy h)

theorem acyclicFrom_checkOut (s : Store) (c : CellRef) :
    (s.checkOut c).AcyclicFrom e ↔ s.AcyclicFrom e := by
  have hholds : (s.checkOut c).Holds = s.Holds := by
    funext a b
    have hpayload : (s.checkOut c).payload a = s.payload a := s.payload_modify c a fun _ => rfl
    rw [Holds, Holds, hpayload]
  rw [AcyclicFrom, AcyclicFrom, Reaches, Reaches, hholds]

end HostCall.Store
