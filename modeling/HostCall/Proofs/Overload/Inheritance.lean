import HostCall.Proofs.Overload.Dispatch

/-!
# Inheritance by merging

A merge meets the entries of the parent one after the other and tests each against the table as it
is by then.  The entries of a parent do not get in each other's way, though: no two are of one
arity, and at most one is variadic.  So each of them is taken over or not by what the child held
before the merge, in whatever order they are met.
-/

namespace HostCall.OverloadTable

variable {σ : Type} {t u parent : OverloadTable σ} {o : Overload σ} {entry : Nat × Overload σ}
  {order : List (Nat × Overload σ)} {n : Nat}

/-! ## What a merge should give -/

/-- The overload of an arity after a merge: the one of the child, or else the one of the parent,
unless that is variadic and the child has a variadic one. -/
def mergedGet? (t parent : OverloadTable σ) (n : Nat) : Option (Overload σ) :=
  match t.get? n with
  | some o => some o
  | none => (parent.get? n).filter fun o => !(o.isVariadic && t.variadic?.isSome)

/-- The overload that `argc` arguments reach after a merge: the one of that arity, or else the
variadic one of the child, or else, when the child has none, the variadic one of the parent, which
is lost where the child has an overload of its arity. -/
def mergedFind? (t parent : OverloadTable σ) (argc : Nat) : Option (Overload σ) :=
  match t.mergedGet? parent argc with
  | some o => some o
  | none =>
    match t.variadic? with
    | some o => if o.minArgs ≤ argc then some o else none
    | none =>
        parent.variadic?.filter fun o => (t.get? o.arity).isNone && decide (o.minArgs ≤ argc)

/-! ## One entry -/

/-- A table takes over an entry whose arity is free and which is no second variadic one. -/
structure Admits (t : OverloadTable σ) (entry : Nat × Overload σ) : Prop where
  free : t.get? entry.1 = none
  unmarked : entry.2.isVariadic = true → t.variadic = none

theorem inherit_of_admits (h : t.Admits entry) : t.inherit entry = t.put entry.1 entry.2 := by
  have hsecond : ¬((entry.2.isVariadic && t.variadic.isSome) = true) := by
    intro hboth
    obtain ⟨hv, hmark⟩ := (Bool.and_eq_true _ _).mp hboth
    rw [h.unmarked hv] at hmark
    cases hmark
  unfold inherit
  rw [h.free, Option.isSome_none, if_neg Bool.false_ne_true, if_neg hsecond]

theorem inherit_of_not_admits (h : ¬t.Admits entry) : t.inherit entry = t := by
  unfold inherit
  split
  · rfl
  · next htaken =>
    split
    · rfl
    · next hsecond =>
      refine absurd ⟨by simpa using htaken, fun hv => ?_⟩ h
      simpa [hv] using hsecond

theorem get?_inherit_eq_some_iff :
    (t.inherit entry).get? n = some o ↔
      t.get? n = some o ∨ ((n, o) = entry ∧ t.Admits (n, o)) := by
  by_cases h : t.Admits entry
  · rw [inherit_of_admits h, get?_put]
    split
    · next hn =>
      have hfree : t.get? n = none := hn ▸ h.free
      constructor
      · intro ho
        have hentry : (n, o) = entry := Prod.ext hn (Option.some.inj ho).symm
        exact .inr ⟨hentry, hentry ▸ h⟩
      · rintro (ho | ⟨rfl, -⟩)
        · rw [hfree] at ho
          cases ho
        · rfl
    · next hn =>
      constructor
      · exact .inl
      · rintro (ho | ⟨rfl, -⟩)
        · exact ho
        · exact absurd rfl hn
  · rw [inherit_of_not_admits h]
    constructor
    · exact .inl
    · rintro (ho | ⟨rfl, hadmits⟩)
      · exact ho
      · exact absurd hadmits h

/-! ## All entries, in any order -/

/-- Two entries that can stand in one table. -/
def Compatible (a b : Nat × Overload σ) : Prop :=
  a.1 ≠ b.1 ∧ ¬(a.2.isVariadic = true ∧ b.2.isVariadic = true)

/-- Taking over one entry changes nothing for an entry that is compatible with it. -/
theorem admits_inherit_iff {other : Nat × Overload σ} (h : Compatible entry other) :
    (t.inherit entry).Admits other ↔ t.Admits other := by
  by_cases hadmits : t.Admits entry
  · rw [inherit_of_admits hadmits]
    have hget : (t.put entry.1 entry.2).get? other.1 = t.get? other.1 := by
      rw [get?_put, if_neg (Ne.symm h.1)]
    have hmark : other.2.isVariadic = true →
        (t.put entry.1 entry.2).variadic = t.variadic := by
      intro hother
      have hfixed : ¬entry.2.isVariadic = true := fun hv => h.2 ⟨hv, hother⟩
      rw [variadic_put, if_neg hfixed]
    constructor
    · rintro ⟨hfree, hunmarked⟩
      exact ⟨hget ▸ hfree, fun hv => hmark hv ▸ hunmarked hv⟩
    · rintro ⟨hfree, hunmarked⟩
      exact ⟨hget.trans hfree, fun hv => (hmark hv).trans (hunmarked hv)⟩
  · rw [inherit_of_not_admits hadmits]

/-- Every entry of a list of compatible ones is taken over or not by what the table was before. -/
theorem get?_foldl_inherit_eq_some_iff (h : order.Pairwise Compatible) :
    (order.foldl inherit t).get? n = some o ↔
      t.get? n = some o ∨ ((n, o) ∈ order ∧ t.Admits (n, o)) := by
  induction order generalizing t with
  | nil => simp
  | cons entry order ih =>
      obtain ⟨hentry, hrest⟩ := List.pairwise_cons.mp h
      rw [List.foldl_cons, ih hrest, get?_inherit_eq_some_iff, List.mem_cons]
      constructor
      · rintro ((ho | ⟨heq, hadmits⟩) | ⟨hmem, hadmits⟩)
        · exact .inl ho
        · exact .inr ⟨.inl heq, hadmits⟩
        · exact .inr ⟨.inr hmem, (admits_inherit_iff (hentry _ hmem)).mp hadmits⟩
      · rintro (ho | ⟨heq | hmem, hadmits⟩)
        · exact .inl (.inl ho)
        · exact .inl (.inr ⟨heq, hadmits⟩)
        · exact .inr ⟨hmem, (admits_inherit_iff (hentry _ hmem)).mpr hadmits⟩

namespace Sound

theorem pairwise_compatible (h : parent.Sound) (horder : order.Perm parent.overloads.entries) :
    order.Pairwise Compatible := by
  refine (horder.pairwise_iff fun hab => ⟨hab.1.symm, fun hv => hab.2 hv.symm⟩).mpr ?_
  refine parent.overloads.sorted.imp_of_mem fun {a b} ha hb hlt => ?_
  refine ⟨Nat.ne_of_lt hlt, fun hv => ?_⟩
  have ha' : parent.get? a.1 = some a.2 := (parent.overloads.mem_entries_iff _ _).mp ha
  have hb' : parent.get? b.1 = some b.2 := (parent.overloads.mem_entries_iff _ _).mp hb
  have hkeys : a.1 = b.1 := h.eq_of_variadic ha' hb' hv.1 hv.2
  omega

theorem merged (ht : t.Sound) (hp : parent.Sound)
    (horder : order.Perm parent.overloads.entries) : (order.foldl OverloadTable.inherit t).Sound :=
  ht.foldl_inherit order fun _ hmem => hp.entries (horder.mem_iff.mp hmem)

theorem get?_merged_eq_some_iff (hp : parent.Sound)
    (horder : order.Perm parent.overloads.entries) :
    (order.foldl OverloadTable.inherit t).get? n = some o ↔
      t.get? n = some o ∨ (parent.get? n = some o ∧ t.Admits (n, o)) := by
  rw [get?_foldl_inherit_eq_some_iff (hp.pairwise_compatible horder), horder.mem_iff,
    ArityMap.mem_entries_iff]
  rfl

/-- A sound table is what its look-ups by arity answer; the mark follows from them. -/
theorem ext_get? (ht : t.Sound) (hu : u.Sound) (h : ∀ k, t.get? k = u.get? k) : t = u := by
  have hoverloads : t.overloads = u.overloads := ArityMap.ext_get? h
  have hmark : t.variadic = u.variadic := by
    refine Option.ext fun k => ?_
    rw [ht.marked_iff, hu.marked_iff, h]
  cases t
  cases u
  cases hoverloads
  cases hmark
  rfl

theorem mergedGet?_eq_some_iff (ht : t.Sound) :
    t.mergedGet? parent n = some o ↔
      t.get? n = some o ∨ (parent.get? n = some o ∧ t.Admits (n, o)) := by
  unfold mergedGet?
  cases hget : t.get? n with
  | some p =>
      constructor
      · exact .inl
      · rintro (ho | ⟨-, hadmits⟩)
        · exact ho
        · have hfree : t.get? n = none := hadmits.free
          rw [hget] at hfree
          cases hfree
  | none =>
      have hadmits : t.Admits (n, o) ↔ (!(o.isVariadic && t.variadic?.isSome)) = true := by
        constructor
        · rintro ⟨-, hunmarked⟩
          cases hv : o.isVariadic with
          | false => rfl
          | true => simp [ht.variadic?_eq_none_iff.mpr (hunmarked hv)]
        · intro hfilter
          refine ⟨hget, fun hv => ht.variadic?_eq_none_iff.mp ?_⟩
          have hv : o.isVariadic = true := hv
          simpa [hv] using hfilter
      rw [Option.filter_eq_some_iff, ← hadmits]
      simp

/-- The variadic overload after a merge is the one of the child, or else the one of the parent
where its arity is free. -/
theorem variadic?_merged_eq_some_iff (ht : t.Sound) (hp : parent.Sound)
    (horder : order.Perm parent.overloads.entries) :
    (order.foldl OverloadTable.inherit t).variadic? = some o ↔
      t.variadic? = some o ∨
      (t.variadic? = none ∧ parent.variadic? = some o ∧ t.get? o.arity = none) := by
  rw [(ht.merged hp horder).variadic?_eq_some_iff, ht.variadic?_eq_some_iff,
    ht.variadic?_eq_none_iff, hp.variadic?_eq_some_iff]
  constructor
  · rintro ⟨k, hget, hv⟩
    rcases (hp.get?_merged_eq_some_iff horder).mp hget with hget | ⟨hget, hadmits⟩
    · exact .inl ⟨k, hget, hv⟩
    · exact .inr ⟨hadmits.unmarked hv, ⟨k, hget, hv⟩, (hp.arity_eq k o hget).symm ▸ hadmits.free⟩
  · rintro (⟨k, hget, hv⟩ | ⟨hmark, ⟨k, hget, hv⟩, hfree⟩)
    · exact ⟨k, (hp.get?_merged_eq_some_iff horder).mpr (.inl hget), hv⟩
    · have hfree : t.get? k = none := hp.arity_eq k o hget ▸ hfree
      exact ⟨k, (hp.get?_merged_eq_some_iff horder).mpr (.inr ⟨hget, hfree, fun _ => hmark⟩), hv⟩

theorem get?_merged (ht : t.Sound) (hp : parent.Sound)
    (horder : order.Perm parent.overloads.entries) (n : Nat) :
    (order.foldl OverloadTable.inherit t).get? n = t.mergedGet? parent n := by
  refine Option.ext fun o => ?_
  rw [hp.get?_merged_eq_some_iff horder, ht.mergedGet?_eq_some_iff]

theorem find?_merged (ht : t.Sound) (hp : parent.Sound)
    (horder : order.Perm parent.overloads.entries) (n : Nat) :
    (order.foldl OverloadTable.inherit t).find? n = t.mergedFind? parent n := by
  refine Option.ext fun o => ?_
  rw [find?_eq_some_iff, ht.get?_merged hp horder, ht.variadic?_merged_eq_some_iff hp horder]
  unfold mergedFind?
  cases hget : t.mergedGet? parent n with
  | some p => simp
  | none =>
      cases hvar : t.variadic? with
      | some p =>
          dsimp only
          by_cases hmin : p.minArgs ≤ n
          · rw [if_pos hmin]
            constructor
            · rintro (ho | ⟨-, ho | ⟨hnone, -⟩, -⟩)
              · cases ho
              · exact ho
              · cases hnone
            · intro ho
              cases ho
              exact .inr ⟨rfl, .inl rfl, hmin⟩
          · rw [if_neg hmin]
            constructor
            · rintro (ho | ⟨-, ho | ⟨hnone, -⟩, hle⟩)
              · cases ho
              · cases ho
                exact absurd hle hmin
              · cases hnone
            · intro ho
              cases ho
      | none =>
          rw [Option.filter_eq_some_iff]
          simp [and_assoc]

theorem merged_again (ht : t.Sound) (hp : parent.Sound) {again : List (Nat × Overload σ)}
    (horder : order.Perm parent.overloads.entries)
    (hagain : again.Perm parent.overloads.entries) :
    again.foldl OverloadTable.inherit (order.foldl OverloadTable.inherit t) =
      order.foldl OverloadTable.inherit t := by
  have hsound : (order.foldl OverloadTable.inherit t).Sound := ht.merged hp horder
  refine (hsound.merged hp hagain).ext_get? hsound fun k => Option.ext fun o => ?_
  rw [hp.get?_merged_eq_some_iff hagain]
  constructor
  · rintro (ho | ⟨ho, hadmits⟩)
    · exact ho
    · refine (hp.get?_merged_eq_some_iff horder).mpr (.inr ⟨ho, ?_, fun hv => ?_⟩)
      · cases hget : t.get? k with
        | none => rfl
        | some p =>
            have hfree : (order.foldl OverloadTable.inherit t).get? k = none := hadmits.free
            rw [(hp.get?_merged_eq_some_iff horder).mpr (.inl hget)] at hfree
            cases hfree
      · cases hmark : t.variadic with
        | none => rfl
        | some j =>
            obtain ⟨p, hget, hpv⟩ := (ht.marked_iff j).mp hmark
            have hmerged : (order.foldl OverloadTable.inherit t).variadic = some j :=
              (hsound.marked_iff j).mpr
                ⟨p, (hp.get?_merged_eq_some_iff horder).mpr (.inl hget), hpv⟩
            rw [hadmits.unmarked hv] at hmerged
            cases hmerged
  · exact .inl

end Sound

/-- After a merge of reachable tables, which only reads the parent and may meet its entries in any
order, the look-ups by arity and by argument count answer as the two tables before it say.  The
order makes no difference, and neither does merging the same parent again. -/
theorem merge_answers (ht : t.Reachable) (hp : parent.Reachable)
    (horder : order.Perm parent.overloads.entries) :
    (∀ n, (order.foldl inherit t).get? n = t.mergedGet? parent n) ∧
    (∀ n, (order.foldl inherit t).find? n = t.mergedFind? parent n) ∧
    order.foldl inherit t = t.merge parent ∧
    ∀ again : List (Nat × Overload σ), again.Perm parent.overloads.entries →
      again.foldl inherit (order.foldl inherit t) = order.foldl inherit t := by
  have hts : t.Sound := ht.sound
  have hps : parent.Sound := hp.sound
  refine ⟨hts.get?_merged hps horder, hts.find?_merged hps horder, ?_, fun again hagain => ?_⟩
  · refine (hts.merged hps horder).ext_get? (hts.merged hps (.refl _)) fun n => ?_
    exact (hts.get?_merged hps horder n).trans (hts.get?_merged hps (.refl _) n).symm
  · exact hts.merged_again hps horder hagain

/-- Takes two cells as they are. -/
def pair : Declaration Unit :=
  { gather with
    name := "pair"
    parameters := [⟨.cell, none, true, false, false⟩, ⟨.cell, none, true, false, false⟩] }

/-- A child with an overload of two arguments. -/
def pairTable : OverloadTable Unit := empty.after (empty.add 2 "" pair .builtin .strict)

/-- The parent's fixed overload is taken over although its variadic one, which is met first, is lost
to the child's overload of the same arity; so five arguments reach nothing. -/
theorem merge_answers_pairTable :
    pairTable.Reachable ∧ gatherTable.Reachable ∧
      (gatherTable.overloads.entries.reverse.foldl inherit pairTable).get? 1 = gatherTable.get? 1 ∧
      (gatherTable.overloads.entries.reverse.foldl inherit pairTable).find? 5 = none ∧
      gatherTable.overloads.entries.reverse.foldl inherit pairTable =
        pairTable.merge gatherTable := by
  have hpair : pairTable.Reachable := .add 2 "" pair .builtin .strict .empty
  obtain ⟨hget, hfind, horder, -⟩ :=
    merge_answers hpair gatherTable_reachable (List.reverse_perm gatherTable.overloads.entries)
  have hone : pairTable.get? 1 = none := Option.isNone_iff_eq_none.mp (by decide +kernel)
  have hmark : pairTable.variadic? = none := Option.isNone_iff_eq_none.mp (by decide +kernel)
  have hfive : pairTable.mergedFind? gatherTable 5 = none :=
    Option.isNone_iff_eq_none.mp (by decide +kernel)
  refine ⟨hpair, gatherTable_reachable, ?_, (hfind 5).trans hfive, horder⟩
  rw [hget 1, mergedGet?, hone, hmark]
  cases gatherTable.get? 1 with
  | none => rfl
  | some o => simp

end HostCall.OverloadTable
