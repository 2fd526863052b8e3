import HostCall.Proofs.Store.Checkouts
import HostCall.Proofs.Store.Equality
import HostCall.Proofs.Store.Positions

/-!
# Deep copies

Copying goes down cell by cell: a scalar gets a new cell, and an array gets one after each of its
elements was copied.  That ends just where no array contains itself.  The copy is then a tree of new
cells with the positions of what was copied, and it equals that unless not-a-number is among the
leaves, where no cell met twice comes to the rescue.
-/

namespace HostCall.Store

variable {s s' : Store} {immutable : Bool} {a b c d e : CellRef} {v : Value} {n : Nat}

/-! ## Copying cell by cell -/

mutual

/-- Copying a cell comes to an end with the copy and the store after it. -/
inductive Copies (immutable : Bool) : Store → CellRef → CellRef → Store → Prop
  | scalar {s : Store} {c : CellRef} {x : Scalar} : s.payload c = .scalar x →
      Copies immutable s c (s.alloc (.scalar x) immutable).1 (s.alloc (.scalar x) immutable).2
  | array {s s' : Store} {c : CellRef} {items copies : List CellRef} :
      s.payload c = .array items → CopiesAll immutable s items copies s' →
      Copies immutable s c (s'.alloc (.array copies) immutable).1
        (s'.alloc (.array copies) immutable).2

inductive CopiesAll (immutable : Bool) : Store → List CellRef → List CellRef → Store → Prop
  | nil {s : Store} : CopiesAll immutable s [] [] s
  | cons {s s' s'' : Store} {c d : CellRef} {cs ds : List CellRef} :
      Copies immutable s c d s' → CopiesAll immutable s' cs ds s'' →
      CopiesAll immutable s (c :: cs) (d :: ds) s''

end

theorem Keeps.readsAll_iff (h : s.Keeps s') (hclosed : s.Closed) {cs : List CellRef}
    (hcs : ∀ c ∈ cs, s.holdsCell c = true) {vs : List Value} :
    s'.ReadsAll cs vs ↔ s.ReadsAll cs vs := by
  constructor
  · intro hreads
    apply hreads.congr
    intro d hd e he
    exact (h.payload_eq (h.holdsCell_of_reaches hclosed (hcs d hd) he)).symm
  · intro hreads
    apply hreads.congr
    intro d hd e he
    exact h.payload_eq (hclosed.holdsCell_of_reaches (hcs d hd) he)

theorem holdsCell_of_array {items : List CellRef} (hclosed : s.Closed)
    (hc : s.payload c = .array items) : ∀ d ∈ items, s.holdsCell d = true := by
  intro d hd
  apply hclosed c d
  rw [Holds, hc]
  exact hd

mutual

/-- Copying a cell that reads as a value builds this value. -/
theorem copies_build (immutable : Bool) : (v : Value) → {s : Store} → {c : CellRef} → s.Closed →
    s.Reads c v → Copies immutable s c (build immutable v s).1 (build immutable v s).2
  | .scalar x, s, c, _, .scalar hc => .scalar hc
  | .array vs, s, c, hclosed, .array hc hitems => by
      rw [build_array]
      exact .array hc
        (copiesAll_buildAll immutable vs hclosed (holdsCell_of_array hclosed hc) hitems)

theorem copiesAll_buildAll (immutable : Bool) : (vs : List Value) → {s : Store} →
    {cs : List CellRef} → s.Closed → (∀ c ∈ cs, s.holdsCell c = true) → s.ReadsAll cs vs →
    CopiesAll immutable s cs (buildAll immutable vs s).1 (buildAll immutable vs s).2
  | [], _, _, _, _, .nil => .nil
  | v :: vs, s, c :: cs, hclosed, hcs, .cons hc hrest => by
      have hkeeps := keeps_build immutable v s
      have hcs' := (List.forall_mem_cons.mp hcs).2
      rw [buildAll_cons]
      apply CopiesAll.cons (copies_build immutable v hclosed hc)
      apply copiesAll_buildAll immutable vs (hclosed.build immutable v)
      · exact fun d hd => hkeeps.grows d (hcs' d hd)
      · exact (hkeeps.readsAll_iff hclosed hcs').mpr hrest

end

mutual

/-- Copying that ends has read a value, and built it. -/
theorem Copies.exists_build {s s' : Store} {c d : CellRef} : Copies immutable s c d s' →
    s.Closed → ∃ v, s.Reads c v ∧ build immutable v s = (d, s')
  | .scalar (x := x) hc, _ => ⟨.scalar x, .scalar hc, rfl⟩
  | .array hc hitems, hclosed => by
      obtain ⟨vs, hreads, hbuild⟩ := hitems.exists_buildAll hclosed (holdsCell_of_array hclosed hc)
      refine ⟨.array vs, .array hc hreads, ?_⟩
      rw [build_array, hbuild]

theorem CopiesAll.exists_buildAll {s s' : Store} {cs ds : List CellRef} :
    CopiesAll immutable s cs ds s' → s.Closed → (∀ c ∈ cs, s.holdsCell c = true) →
    ∃ vs, s.ReadsAll cs vs ∧ buildAll immutable vs s = (ds, s')
  | .nil, _, _ => ⟨[], .nil, rfl⟩
  | .cons hfirst hrest, hclosed, hcs => by
      obtain ⟨v, hv, hbuild⟩ := hfirst.exists_build hclosed
      have hcs' := (List.forall_mem_cons.mp hcs).2
      have hkeeps := keeps_build immutable v s
      have hclosed' := hclosed.build immutable v
      rw [hbuild] at hkeeps hclosed'
      obtain ⟨vs, hvs, hbuildAll⟩ :=
        hrest.exists_buildAll hclosed' fun d hd => hkeeps.grows d (hcs' d hd)
      refine ⟨v :: vs, .cons hv ((hkeeps.readsAll_iff hclosed hcs').mp hvs), ?_⟩
      rw [buildAll_cons, hbuild, hbuildAll]

end

/-- What a store answers for a copy is what copying cell by cell comes to. -/
theorem copies_iff (hclosed : s.Closed) :
    Copies immutable s c d s' ↔ s.copy immutable c = some (d, s') := by
  constructor
  · intro h
    obtain ⟨v, hv, hbuild⟩ := h.exists_build hclosed
    refine copy_eq_some_iff.mpr ⟨ends_iff.mpr hv.acyclicFrom, ?_⟩
    rw [hv.value_eq, hbuild]
  · intro hcopy
    have h := copies_build immutable (s.value c) hclosed (reads_of_copy hcopy (.refl s')).1
    rwa [build_of_copy hcopy] at h

/-! ## What the copy leaves alone, and what it adds -/

theorem Keeps.reaches_iff (h : s.Keeps s') (hclosed : s.Closed) (hc : s.holdsCell c = true) :
    s'.Reaches c e ↔ s.Reaches c e := by
  have hholds : ∀ a b, s.holdsCell a = true → (s'.Holds a b ↔ s.Holds a b) := by
    intro a b ha
    rw [Holds, Holds, h.payload_eq ha]
  constructor
  · intro he
    refine (he.induct (P := fun x => s.Reaches c x ∧ s.holdsCell x = true) ?_ ⟨.refl s c, hc⟩).1
    rintro a b ⟨ha, hheld⟩ hab
    have hab' : s.Holds a b := (hholds a b hheld).mp hab
    exact ⟨ha.tail hab', hclosed a b hab'⟩
  · intro he
    refine he.induct (P := fun x => s'.Reaches c x) (fun a b ha hab => ?_) (.refl s' c)
    exact ha.tail ((hholds a b (holdsCell_of_holds hab)).mpr hab)

theorem unshared_of_copy (h : s.copy immutable c = some (d, s')) : s'.Unshared d := by
  have hunshared := unshared_build immutable (s.value c) s (.refl _)
  rwa [build_of_copy h] at hunshared

theorem cell?_of_copy (h : s.copy immutable c = some (d, s')) (he : s.holdsCell e = true) :
    s'.cell? e = s.cell? e := by
  obtain ⟨cell, hcell⟩ := holdsCell_iff.mp he
  obtain ⟨cell', hcell', hpayload, himmutable⟩ := (keeps_of_copy h).cell? e cell hcell
  have hcheckouts := checkouts_of_copy h e
  rw [checkouts, checkouts, hcell, hcell'] at hcheckouts
  rw [hcell, hcell']
  cases cell
  cases cell'
  cases hpayload
  cases himmutable
  cases hcheckouts
  rfl

/-- Everything below a copy is new, of the mutability that was asked for, and not checked out. -/
theorem fresh_of_copy (h : s.copy immutable c = some (d, s')) (he : s'.Reaches d e) :
    s.holdsCell e = false ∧ ∃ p, s'.cell? e = some ⟨p, immutable, 0⟩ := by
  have hblock := block_of_copy h
  obtain ⟨hlo, hhi⟩ := index_of_copy h
  obtain ⟨hge, hlt⟩ := hblock.reaches hlo hhi he
  have hnew : s.holdsCell e = false := decide_eq_false (Nat.not_lt.mpr hge)
  obtain ⟨⟨p, imm, n⟩, hcell⟩ := holdsCell_iff.mp (hblock.holdsCell hlt)
  have himm := hblock.isImmutable_eq e hge hlt
  have hn := checkouts_of_copy h e
  rw [isImmutable, hcell] at himm
  rw [checkouts, checkouts, hcell, holdsCell_eq_false_iff.mp hnew] at hn
  dsimp only at himm hn
  exact ⟨hnew, p, by rw [hcell, himm, hn]⟩

/-! ## Comparing the copy -/

theorem forall₂_iff_forall {R P : CellRef → CellRef → Prop} {Q : CellRef → Prop}
    {as bs : List CellRef} (h : List.Forall₂ R as bs)
    (hPQ : ∀ a ∈ as, ∀ b ∈ bs, R a b → (P a b ↔ Q b)) :
    List.Forall₂ P as bs ↔ ∀ b ∈ bs, Q b := by
  induction h with
  | nil => simp
  | cons hab _ ih =>
      have ih := ih fun a ha b hb =>
        hPQ a (List.mem_cons_of_mem _ ha) b (List.mem_cons_of_mem _ hb)
      rw [List.forall₂_cons, List.forall_mem_cons, ih,
        hPQ _ List.mem_cons_self _ List.mem_cons_self hab]

/-- Without a cell in common, two cells that read as one value are equal unless not-a-number is
among the leaves. -/
theorem equalWithin_iff_of_reads (hclosed : s.Closed) (ha : s.Reads a v) (hb : s.Reads b v)
    (hapart : s.Apart a b) (hn : (s.below a).card < n) :
    s.equalWithin n a b = true ↔ ∀ e, s.Reaches b e → s.payload e ≠ .scalar (.float .nan) := by
  induction n generalizing a b v with
  | zero => omega
  | succ n ih =>
      have hne : a ≠ b := by
        rintro rfl
        exact hapart a (.refl s a) (.refl s a)
      have hacyclic := ha.acyclicFrom
      rw [equalWithin_succ_iff, or_iff_right hne]
      cases ha with
      | @scalar _ x hac =>
          cases hb with
          | scalar hbc =>
              rw [hac, hbc, payloadEqualBy, Scalar.same_self]
              constructor
              · intro hx e he
                rw [he.eq_of_scalar hbc, hbc]
                simpa using hx
              · intro hall hx
                exact hall b (.refl s b) (by rw [hbc, hx])
      | @array _ as vs hac has =>
          cases hb with
          | @array _ bs _ hbc hbs =>
              have hholds : ∀ d ∈ as, s.Holds a d := fun d hd => by rwa [Holds, hac]
              have hholds' : ∀ d ∈ bs, s.Holds b d := fun d hd => by rwa [Holds, hbc]
              have hpairs : List.Forall₂ (fun d d' => s.equalWithin n d d' = true) as bs ↔
                  ∀ d ∈ bs, ∀ e, s.Reaches d e → s.payload e ≠ .scalar (.float .nan) := by
                apply forall₂_iff_forall (has.forall₂ hbs)
                rintro d hd d' hd' ⟨w, hw, hw'⟩
                have hcard := card_below_lt_of_holds (hacyclic d (.single (hholds d hd)))
                  (hclosed a d (hholds d hd)) (hholds d hd)
                apply ih hw hw'
                · intro e he he'
                  exact hapart e (.head (hholds d hd) he) (.head (hholds' d' hd') he')
                · omega
              rw [hac, hbc, payloadEqualBy, pairwiseEqual_iff, hpairs]
              constructor
              · intro hall e he
                rcases he.eq_or_of_array hbc with rfl | ⟨d, hd, hde⟩
                · rw [hbc]
                  rintro ⟨⟩
                · exact hall d hd e hde
              · intro hall d hd e hde
                exact hall e (.head (hholds' d hd) hde)

theorem equal_of_copy_iff (hclosed : s.Closed) (hc : s.holdsCell c = true)
    (h : s.copy immutable c = some (d, s')) :
    s'.equal d c = true ↔ ∀ e, s.Reaches c e → s.payload e ≠ .scalar (.float .nan) := by
  have hkeeps : s.Keeps s' := keeps_of_copy h
  obtain ⟨hreads, hread⟩ := reads_of_copy h (.refl s')
  have hread' : s'.Reads c (s.value c) := hkeeps.reads hclosed hc hreads
  have hapart : s'.Apart d c := by
    intro e hde hce
    have hold : s.holdsCell e = true := hkeeps.holdsCell_of_reaches hclosed hc hce
    rw [(fresh_of_copy h hde).1] at hold
    cases hold
  have hd : s'.holdsCell d = true := decide_eq_true (index_of_copy h).2
  have hcard : (s'.below d).card < s'.cells.size :=
    card_below_lt (hread.acyclicFrom d (.refl s' d)) hd
  rw [equal, equalWithin_iff_of_reads (closed_of_copy h hclosed) hread hread' hapart hcard]
  refine forall_congr' fun e => ?_
  rw [hkeeps.reaches_iff hclosed hc]
  refine imp_congr_right fun he => ?_
  rw [hkeeps.payload_eq (hclosed.holdsCell_of_reaches hc he)]

/-- A cell below which no array contains itself is copied in finitely many steps, with one possible
outcome.  No cell that was there changes.  Everything that the copy leads to is new, of the
mutability that was asked for and not checked out, no two positions share a cell, and the positions
are those of what was copied, each with the same scalar or an array of the same length.  The copy
equals what was copied unless that leads to not-a-number. -/
theorem deep_copy_faithful (hclosed : s.Closed) (hc : s.holdsCell c = true)
    (hacyclic : s.AcyclicFrom c) (immutable : Bool) :
    ∃ d s', s.copy immutable c = some (d, s') ∧
      (∀ d' s'', Copies immutable s c d' s'' ↔ (d', s'') = (d, s')) ∧
      (∀ e, s.holdsCell e = true → s'.cell? e = s.cell? e) ∧ s'.objects = s.objects ∧
      (∀ e, s'.Reaches d e →
        s.holdsCell e = false ∧ ∃ p, s'.cell? e = some ⟨p, immutable, 0⟩) ∧
      (∀ path path' e, s'.locate d path = some e → s'.locate d path' = some e → path = path') ∧
      (∀ path, (s.locate c path = none ∧ s'.locate d path = none) ∨
        ∃ a b, s.locate c path = some a ∧ s'.locate d path = some b ∧
          (s.payload a).Matches (s'.payload b)) ∧
      (s'.equal d c = true ↔
        ∀ e, s.Reaches c e → s.payload e ≠ .scalar (.float .nan)) := by
  obtain ⟨d, s', h⟩ : ∃ d s', s.copy immutable c = some (d, s') :=
    ⟨_, _, copy_eq_some_iff.mpr ⟨ends_of_acyclicFrom hacyclic, rfl⟩⟩
  obtain ⟨hread, hread'⟩ := reads_of_copy h (.refl s')
  refine ⟨d, s', h, fun d' s'' => ?_, fun e => cell?_of_copy h, (keeps_of_copy h).objects_eq,
    fun e => fresh_of_copy h,
    fun path path' e => locate_injective (unshared_of_copy h) hread'.acyclicFrom,
    locate_matches hread hread', equal_of_copy_iff hclosed hc h⟩
  rw [copies_iff hclosed, h, Option.some.injEq, eq_comm]

/-- A constant number that is checked out twice, a list of it and itself, not-a-number, and a
constant list of the list, not-a-number and the list again. -/
def nestedStore : Store where
  cells := #[⟨.scalar (.int ⟨6, by decide, by decide⟩), true, 2⟩, ⟨.array [⟨0⟩, ⟨0⟩], false, 0⟩,
    ⟨.scalar (.float .nan), false, 0⟩, ⟨.array [⟨1⟩, ⟨2⟩, ⟨1⟩], true, 0⟩]
  objects := #[]

/-- The one number has four cells in a mutable copy of the outer list, which differs from that list;
a constant copy of the inner list equals it. -/
theorem deep_copy_faithful_nestedStore :
    nestedStore.Closed ∧ nestedStore.Acyclic ∧
    (∃ d s' a b, Copies false nestedStore ⟨3⟩ d s' ∧ s'.locate d [0, 0] = some a ∧
      s'.locate d [2, 1] = some b ∧ a ≠ b ∧ s'.equal d ⟨3⟩ = false) ∧
    ∃ d s', Copies true nestedStore ⟨1⟩ d s' ∧ s'.equal d ⟨1⟩ = true := by
  obtain ⟨hclosed, hacyclic⟩ := closed_and_acyclic_of_all (s := nestedStore) (by decide +kernel)
  refine ⟨hclosed, hacyclic, ?_, ?_⟩
  · obtain ⟨d, s', -, hcopies, -, -, -, hinjective, hpositions, hequal⟩ :=
      deep_copy_faithful (c := ⟨3⟩) hclosed (by decide +kernel) (fun e _ => hacyclic e) false
    have hnumber : nestedStore.locate ⟨3⟩ [0, 0] = some ⟨0⟩ := rfl
    have hnumber' : nestedStore.locate ⟨3⟩ [2, 1] = some ⟨0⟩ := rfl
    have hfirst := hpositions [0, 0]
    have hlast := hpositions [2, 1]
    rw [hnumber] at hfirst
    rw [hnumber'] at hlast
    obtain ⟨⟨⟩, -⟩ | ⟨-, a, -, ha, -⟩ := hfirst
    obtain ⟨⟨⟩, -⟩ | ⟨-, b, -, hb, -⟩ := hlast
    refine ⟨d, s', a, b, (hcopies d s').mpr rfl, ha, hb, ?_, ?_⟩
    · rintro rfl
      cases hinjective _ _ _ ha hb
    · rw [← Bool.not_eq_true, hequal]
      intro hall
      exact hall ⟨2⟩ (.single (List.mem_cons_of_mem _ List.mem_cons_self)) rfl
  · obtain ⟨d, s', -, hcopies, -, -, -, -, -, hequal⟩ :=
      deep_copy_faithful (c := ⟨1⟩) hclosed (by decide +kernel) (fun e _ => hacyclic e) true
    have hbelow : ∀ e, nestedStore.Reaches ⟨1⟩ e → e = ⟨1⟩ ∨ e = ⟨0⟩ := by
      intro e he
      refine he.induct (P := fun x => x = ⟨1⟩ ∨ x = ⟨0⟩) ?_ (.inl rfl)
      rintro a b (rfl | rfl) hab
      · exact .inr (by simpa using (show b ∈ [⟨0⟩, ⟨0⟩] from hab))
      · cases hab
    refine ⟨d, s', (hcopies d s').mpr rfl, hequal.mpr fun e he => ?_⟩
    rcases hbelow e he with rfl | rfl
    · rintro ⟨⟩
    · rintro ⟨⟩

end HostCall.Store
