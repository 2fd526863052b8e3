import HostCall.Proofs.Callable.Registration
import HostCall.Proofs.Overload.Inheritance

/-!
# Insertions in any order

An overload is inserted or not by what the table held before all insertions, as long as the
overloads of the list do not clash among themselves.  So their order makes no difference, neither
for the entries nor for the mark of the variadic one, and taking out what was just inserted gives
back the table from before.
-/

namespace HostCall.OverloadTable

variable {σ : Type} {t : OverloadTable σ} {a b o : Overload σ}
  {os os' : List (Overload σ × ConflictMode)} {mode : ConflictMode} {k : Nat}

/-- Inserts overloads one after the other, each in its mode; what is refused changes nothing. -/
def insertAll (t : OverloadTable σ) (os : List (Overload σ × ConflictMode)) : OverloadTable σ :=
  os.foldl (fun t x => t.after (t.insert x.1 x.2)) t

theorem insertAll_cons (t : OverloadTable σ) (x : Overload σ × ConflictMode)
    (os : List (Overload σ × ConflictMode)) :
    t.insertAll (x :: os) = (t.after (t.insert x.1 x.2)).insertAll os := rfl

theorem compatible_of_not_clashes (h : ¬a.Clashes b) : Compatible (a.arity, a) (b.arity, b) :=
  not_or.mp h

theorem fst_remove (t : OverloadTable σ) (k : Nat) : (t.remove k).1 = t.get? k := by
  unfold remove
  split
  · next hnone => exact hnone.symm
  · next hsome => exact hsome.symm

theorem put_comm (h : ¬a.Clashes b) :
    (t.put a.arity a).put b.arity b = (t.put b.arity b).put a.arity a := by
  obtain ⟨harity, hvariadic⟩ := not_or.mp h
  have hoverloads : (t.overloads.insert a.arity a).insert b.arity b =
      (t.overloads.insert b.arity b).insert a.arity a := by
    apply ArityMap.ext_get?
    intro k
    simp only [ArityMap.get?_insert]
    by_cases ha : k = a.arity
    · simp [ha, harity]
    · simp [ha]
  have hmark : ((t.put a.arity a).put b.arity b).variadic =
      ((t.put b.arity b).put a.arity a).variadic := by
    simp only [variadic_put]
    by_cases ha : a.isVariadic = true
    · have hb : ¬b.isVariadic = true := fun hb => hvariadic ⟨ha, hb⟩
      simp [ha, hb]
    · simp [ha]
  exact congrArg₂ OverloadTable.mk hoverloads hmark

namespace Sound

theorem admits_iff (h : t.Sound) : t.Admits (o.arity, o) ↔ t.obstacle? o = none := by
  rw [h.obstacle?_eq_none_iff]
  constructor
  · rintro ⟨hfree, hunmarked⟩
    exact ⟨hfree, hunmarked⟩
  · rintro ⟨hfree, hunmarked⟩
    exact ⟨hfree, hunmarked⟩

/-- In either mode an overload is put into the table under the conditions of inheritance. -/
theorem after_insert (h : t.Sound) (o : Overload σ) (mode : ConflictMode) :
    t.after (t.insert o mode) = t.inherit (o.arity, o) := by
  cases hobstacle : t.obstacle? o with
  | none =>
      rw [insert_of_obstacle?_eq_none hobstacle, inherit_of_admits (h.admits_iff.mpr hobstacle)]
      rfl
  | some p =>
      have hnot : ¬t.Admits (o.arity, o) := by
        rw [h.admits_iff, hobstacle]
        exact nofun
      rw [insert_of_obstacle?_eq_some hobstacle, inherit_of_not_admits hnot]
      cases mode <;> rfl

theorem insertAll_eq (h : t.Sound) (hos : ∀ o ∈ os.map Prod.fst, o.Bound) :
    t.insertAll os = ((os.map Prod.fst).map fun o => (o.arity, o)).foldl OverloadTable.inherit t := by
  induction os generalizing t with
  | nil => rfl
  | cons x os ih =>
      obtain ⟨hx, hrest⟩ := List.forall_mem_cons.mp hos
      rw [insertAll_cons, ih (h.insert hx x.2) hrest, h.after_insert]
      rfl

theorem insertAll (h : t.Sound) (hos : ∀ o ∈ os.map Prod.fst, o.Bound) :
    (t.insertAll os).Sound := by
  induction os generalizing t with
  | nil => exact h
  | cons x os ih =>
      obtain ⟨hx, hrest⟩ := List.forall_mem_cons.mp hos
      exact ih (h.insert hx x.2) hrest

/-- After the insertions there is what was there before, and at its arity every overload of the
list that clashes with none of that. -/
theorem get?_insertAll_eq_some_iff (h : t.Sound) (hos : ∀ o ∈ os.map Prod.fst, o.Bound)
    (hpair : (os.map Prod.fst).Pairwise fun a b => ¬a.Clashes b) :
    (t.insertAll os).get? k = some o ↔
      t.get? k = some o ∨
      (o ∈ os.map Prod.fst ∧ o.arity = k ∧ ∀ p, t.Registers p → ¬o.Clashes p) := by
  have hcompatible : ((os.map Prod.fst).map fun o => (o.arity, o)).Pairwise Compatible :=
    List.pairwise_map.mpr (hpair.imp compatible_of_not_clashes)
  rw [h.insertAll_eq hos, get?_foldl_inherit_eq_some_iff hcompatible]
  refine or_congr_right ?_
  constructor
  · rintro ⟨hmem, hadmits⟩
    obtain ⟨p, hp, heq⟩ := List.mem_map.mp hmem
    cases heq
    exact ⟨hp, rfl, h.obstacle?_eq_none_iff_forall.mp (h.admits_iff.mp hadmits)⟩
  · rintro ⟨hmem, rfl, hclash⟩
    exact ⟨List.mem_map.mpr ⟨o, hmem, rfl⟩,
      h.admits_iff.mpr (h.obstacle?_eq_none_iff_forall.mpr hclash)⟩

theorem insertAll_perm (h : t.Sound) (hos : ∀ o ∈ os.map Prod.fst, o.Bound)
    (hpair : (os.map Prod.fst).Pairwise fun a b => ¬a.Clashes b)
    (hperm : (os.map Prod.fst).Perm (os'.map Prod.fst)) : t.insertAll os = t.insertAll os' := by
  have hos' : ∀ o ∈ os'.map Prod.fst, o.Bound := fun o ho => hos o (hperm.mem_iff.mpr ho)
  have hpair' : (os'.map Prod.fst).Pairwise fun a b => ¬a.Clashes b := by
    refine (hperm.pairwise_iff fun hab hba => ?_).mp hpair
    exact hab (hba.imp Eq.symm And.symm)
  apply (h.insertAll hos).ext_get? (h.insertAll hos')
  intro k
  apply Option.ext
  intro o
  rw [h.get?_insertAll_eq_some_iff hos hpair, h.get?_insertAll_eq_some_iff hos' hpair',
    hperm.mem_iff]

theorem obstacle?_put_eq_none (h : t.Sound) (ha : a.Bound) (hnone : t.obstacle? a = none)
    (hb : t.obstacle? b = none) (hclash : ¬a.Clashes b) :
    (t.put a.arity a).obstacle? b = none := by
  obtain ⟨hfree, hmark⟩ := h.obstacle?_eq_none_iff.mp hnone
  have hadmits : (t.inherit (a.arity, a)).Admits (b.arity, b) :=
    (admits_inherit_iff (compatible_of_not_clashes hclash)).mpr (h.admits_iff.mpr hb)
  rw [inherit_of_admits (h.admits_iff.mpr hnone)] at hadmits
  exact (h.put ha hfree hmark).admits_iff.mp hadmits

theorem remove_put (h : t.Sound) (ha : a.Bound) (hnone : t.obstacle? a = none) :
    (t.put a.arity a).remove a.arity = (some a, t) := by
  obtain ⟨hfree, hmark⟩ := h.obstacle?_eq_none_iff.mp hnone
  have hanswer : ((t.put a.arity a).remove a.arity).1 = some a := by
    rw [fst_remove, get?_put, if_pos rfl]
  have htable : ((t.put a.arity a).remove a.arity).2 = t := by
    apply ((h.put ha hfree hmark).remove a.arity).ext_get? h
    intro k
    rw [get?_remove, get?_put]
    by_cases hk : k = a.arity
    · rw [if_pos hk, hk, hfree]
    · rw [if_neg hk, if_neg hk]
  exact Prod.ext hanswer htable

end Sound

/-- Two overloads that clash neither with each other nor with a registered one are both inserted, in
either order, and the table is the same.  Overloads that do not clash among themselves leave the
same table in every order, in every mode, and whether or not some of them clash with what was
there; so every number of arguments reaches the same overload.  Removing an overload that was just
inserted gives it back, and the table from before. -/
theorem insertions_commute_and_undo (ht : t.Reachable) :
    (∀ a b mode mode', a.Bound → b.Bound →
      (∀ p, t.Registers p → ¬a.Clashes p) → (∀ p, t.Registers p → ¬b.Clashes p) →
      ¬a.Clashes b →
      ∃ ta tb u, t.insert a mode = .ok (a, ta) ∧ ta.insert b mode' = .ok (b, u) ∧
        t.insert b mode' = .ok (b, tb) ∧ tb.insert a mode = .ok (a, u)) ∧
    (∀ os os' : List (Overload σ × ConflictMode), (∀ o ∈ os.map Prod.fst, o.Bound) →
      ((os.map Prod.fst).Pairwise fun a b => ¬a.Clashes b) →
      (os.map Prod.fst).Perm (os'.map Prod.fst) →
      (∀ k o, (t.insertAll os).get? k = some o ↔
        t.get? k = some o ∨
        (o ∈ os.map Prod.fst ∧ o.arity = k ∧ ∀ p, t.Registers p → ¬o.Clashes p)) ∧
      t.insertAll os = t.insertAll os' ∧
      ∀ n, (t.insertAll os).find? n = (t.insertAll os').find? n) ∧
    (∀ a mode, a.Bound → (∀ p, t.Registers p → ¬a.Clashes p) →
      ∃ u, t.insert a mode = .ok (a, u) ∧ u.remove a.arity = (some a, t)) := by
  have hsound : t.Sound := ht.sound
  refine ⟨fun a b mode mode' ha hb hat hbt hab => ?_, fun os os' hos hpair hperm => ?_,
    fun a mode ha hat => ?_⟩
  · have hafree : t.obstacle? a = none := hsound.obstacle?_eq_none_iff_forall.mpr hat
    have hbfree : t.obstacle? b = none := hsound.obstacle?_eq_none_iff_forall.mpr hbt
    have hba : ¬b.Clashes a := fun hba => hab (hba.imp Eq.symm And.symm)
    have hbnext := hsound.obstacle?_put_eq_none ha hafree hbfree hab
    have hanext := hsound.obstacle?_put_eq_none hb hbfree hafree hba
    refine ⟨_, _, _, insert_of_obstacle?_eq_none hafree, insert_of_obstacle?_eq_none hbnext,
      insert_of_obstacle?_eq_none hbfree, ?_⟩
    rw [put_comm hab]
    exact insert_of_obstacle?_eq_none hanext
  · have htables : t.insertAll os = t.insertAll os' := hsound.insertAll_perm hos hpair hperm
    refine ⟨fun k o => hsound.get?_insertAll_eq_some_iff hos hpair, htables, fun n => ?_⟩
    rw [htables]
  · have hnone : t.obstacle? a = none := hsound.obstacle?_eq_none_iff_forall.mpr hat
    exact ⟨_, insert_of_obstacle?_eq_none hnone, hsound.remove_put ha hnone⟩

/-! ## A table with one overload -/

theorem exists_bound_of_check {check : Overload σ → Bool} (serial : Nat) (owner : String)
    (d : Declaration σ) (r : Registry)
    (h : (Overload.bind serial owner d r).toOption.any check = true) :
    ∃ o : Overload σ, o.Bound ∧ check o = true := by
  obtain ⟨o, hbind, hcheck⟩ := Overload.exists_bind_of_check h
  exact ⟨o, ⟨serial, owner, d, r, hbind⟩, hcheck⟩

def singleTable : OverloadTable Unit := empty.after (empty.add 0 "" single .builtin .strict)

def triple : Declaration Unit :=
  { gather with name := "triple", parameters := pair.parameters ++ single.parameters }

/-- A variadic overload and one of three cells, added to one of a single cell. -/
theorem insertions_commute_and_undo_singleTable :
    singleTable.Reachable ∧ ∃ a b ta tb u, a.isVariadic = true ∧ a.arity = 2 ∧ b.arity = 3 ∧
      singleTable.insert a .strict = .ok (a, ta) ∧ ta.insert b .tolerant = .ok (b, u) ∧
      singleTable.insert b .tolerant = .ok (b, tb) ∧ tb.insert a .strict = .ok (a, u) ∧
      singleTable.insertAll [(a, .strict), (b, .strict)] =
        singleTable.insertAll [(b, .tolerant), (a, .strict)] ∧
      ∃ v, singleTable.insert a .tolerant = .ok (a, v) ∧ v.remove 2 = (some a, singleTable) := by
  have ht : singleTable.Reachable := .add 0 "" single .builtin .strict .empty
  obtain ⟨a, ha, hacheck⟩ : ∃ a : Overload Unit, a.Bound ∧
      ((singleTable.obstacle? a).isNone && a.isVariadic && a.arity == 2) = true :=
    exists_bound_of_check 1 "" gather .builtin (by decide +kernel)
  obtain ⟨b, hb, hbcheck⟩ : ∃ b : Overload Unit, b.Bound ∧
      ((singleTable.obstacle? b).isNone && !b.isVariadic && b.arity == 3) = true :=
    exists_bound_of_check 2 "" triple .builtin (by decide +kernel)
  simp only [Bool.and_eq_true, Option.isNone_iff_eq_none, Bool.not_eq_true', beq_iff_eq]
    at hacheck hbcheck
  obtain ⟨⟨hafree, havariadic⟩, haarity⟩ := hacheck
  obtain ⟨⟨hbfree, hbfixed⟩, hbarity⟩ := hbcheck
  have hat := ht.sound.obstacle?_eq_none_iff_forall.mp hafree
  have hbt := ht.sound.obstacle?_eq_none_iff_forall.mp hbfree
  have hab : ¬a.Clashes b := by
    rintro (harity | ⟨-, hv⟩)
    · omega
    · rw [hbfixed] at hv
      cases hv
  obtain ⟨hcomm, hperm, hundo⟩ := insertions_commute_and_undo ht
  obtain ⟨ta, tb, u, hta, hu, htb, hu'⟩ := hcomm a b .strict .tolerant ha hb hat hbt hab
  obtain ⟨v, hv, hremove⟩ := hundo a .tolerant ha hat
  obtain ⟨-, htables, -⟩ := hperm [(a, .strict), (b, .strict)] [(b, .tolerant), (a, .strict)]
    (by simp [ha, hb]) (by simp [hab]) (List.Perm.swap b a [])
  rw [haarity] at hremove
  exact ⟨ht, a, b, ta, tb, u, havariadic, haarity, hbarity, hta, hu, htb, hu', htables, v, hv,
    hremove⟩

end HostCall.OverloadTable
