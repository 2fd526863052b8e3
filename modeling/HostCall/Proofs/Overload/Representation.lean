import HostCall.Overload.Table
import HostCall.Proofs.Overload.Binding

/-!
# The representation of overload tables

A table keeps the arity of its variadic overload beside the entries.  Every edit keeps that mark
exact and every entry at its own arity, whatever order the entries of a parent are met in; so do
all tables that edits lead to.
-/

namespace HostCall.OverloadTable

variable {σ : Type} {t : OverloadTable σ} {o : Overload σ}

/-! ## Reachable tables -/

/-- The table that an insertion leaves behind; one that is refused changes nothing. -/
def after (t : OverloadTable σ) : Except BindingError (Overload σ × OverloadTable σ) → OverloadTable σ
  | .ok (_, t') => t'
  | .error _ => t

/-- The tables that edits lead to from the empty one.  A merge may meet the entries of the parent
in any order. -/
inductive Reachable : OverloadTable σ → Prop
  | empty : Reachable .empty
  | insert {t : OverloadTable σ} {o : Overload σ} (mode : ConflictMode) :
      Reachable t → o.Bound → Reachable (t.after (t.insert o mode))
  | add {t : OverloadTable σ} (serial : Nat) (owner : String) (d : Declaration σ) (r : Registry)
      (mode : ConflictMode) : Reachable t → Reachable (t.after (t.add serial owner d r mode))
  | remove {t : OverloadTable σ} (arity : Nat) : Reachable t → Reachable (t.remove arity).2
  | merge {t parent : OverloadTable σ} {order : List (Nat × Overload σ)} :
      Reachable t → Reachable parent → order.Perm parent.overloads.entries →
      Reachable (order.foldl inherit t)

/-! ## What every edit keeps -/

/-- Every entry was bound and sits at its own arity, and the mark names the entry that is
variadic. -/
structure Sound (t : OverloadTable σ) : Prop where
  arity_eq : ∀ k o, t.get? k = some o → o.arity = k
  marked_iff : ∀ k, t.variadic = some k ↔ ∃ o, t.get? k = some o ∧ o.isVariadic = true
  bound : ∀ k o, t.get? k = some o → o.Bound

@[simp] theorem get?_empty (k : Nat) : (empty : OverloadTable σ).get? k = none := rfl

theorem get?_put (t : OverloadTable σ) (k j : Nat) (o : Overload σ) :
    (t.put k o).get? j = if j = k then some o else t.get? j :=
  ArityMap.get?_insert t.overloads k j o

theorem variadic_put (t : OverloadTable σ) (k : Nat) (o : Overload σ) :
    (t.put k o).variadic = if o.isVariadic then some k else t.variadic := rfl

theorem get?_remove (t : OverloadTable σ) (k j : Nat) :
    (t.remove k).2.get? j = if j = k then none else t.get? j := by
  unfold remove
  split
  · next hnone =>
    split
    · next hj => rw [hj, hnone]
    · rfl
  · exact ArityMap.get?_erase t.overloads k j

theorem variadic_remove (t : OverloadTable σ) (k : Nat) (hk : t.variadic = some k → t.get? k ≠ none) :
    (t.remove k).2.variadic = if t.variadic = some k then none else t.variadic := by
  unfold remove
  split
  · next hnone =>
    have hmark : t.variadic ≠ some k := fun h => hk h hnone
    rw [if_neg hmark]
  · rfl

theorem sound_empty : Sound (empty : OverloadTable σ) where
  arity_eq := by simp
  marked_iff := by
    intro k
    constructor
    · intro hk
      cases hk
    · rintro ⟨o, ho, -⟩
      cases ho
  bound := by simp

namespace Sound

theorem eq_of_variadic (h : t.Sound) {k j : Nat} {p : Overload σ} (ho : t.get? k = some o)
    (hp : t.get? j = some p) (hov : o.isVariadic = true) (hpv : p.isVariadic = true) : k = j := by
  have hk : t.variadic = some k := (h.marked_iff k).mpr ⟨o, ho, hov⟩
  have hj : t.variadic = some j := (h.marked_iff j).mpr ⟨p, hp, hpv⟩
  exact Option.some.inj (hk.symm.trans hj)

theorem variadic?_eq_some_iff (h : t.Sound) :
    t.variadic? = some o ↔ ∃ k, t.get? k = some o ∧ o.isVariadic = true := by
  unfold variadic?
  constructor
  · intro hv
    obtain ⟨k, hk, ho⟩ := Option.bind_eq_some_iff.mp hv
    obtain ⟨p, hp, hpv⟩ := (h.marked_iff k).mp hk
    have hpo : p = o := Option.some.inj (hp.symm.trans ho)
    exact ⟨k, ho, hpo ▸ hpv⟩
  · rintro ⟨k, ho, hov⟩
    exact Option.bind_eq_some_iff.mpr ⟨k, (h.marked_iff k).mpr ⟨o, ho, hov⟩, ho⟩

theorem variadic?_eq_none_iff (h : t.Sound) : t.variadic? = none ↔ t.variadic = none := by
  constructor
  · intro hv
    cases hk : t.variadic with
    | none => rfl
    | some k =>
        obtain ⟨p, hp, hpv⟩ := (h.marked_iff k).mp hk
        rw [h.variadic?_eq_some_iff.mpr ⟨k, hp, hpv⟩] at hv
        cases hv
  · intro hk
    rw [variadic?, hk]
    rfl

theorem obstacle?_eq_none_iff (h : t.Sound) :
    t.obstacle? o = none ↔
      t.get? o.arity = none ∧ (o.isVariadic = true → t.variadic = none) := by
  unfold obstacle?
  cases hget : t.get? o.arity with
  | some p => simp
  | none =>
      cases hov : o.isVariadic with
      | false => simp
      | true => simp [h.variadic?_eq_none_iff]

/-- An overload whose place is free may be put there. -/
theorem put (h : t.Sound) (ho : o.Bound) (hfree : t.get? o.arity = none)
    (hmark : o.isVariadic = true → t.variadic = none) : (t.put o.arity o).Sound where
  arity_eq := by
    intro k p hp
    rw [get?_put] at hp
    split at hp
    · next hk =>
      cases hp
      exact hk.symm
    · exact h.arity_eq k p hp
  marked_iff := by
    intro k
    rw [variadic_put, get?_put]
    cases hov : o.isVariadic with
    | true =>
        have hnone : t.variadic = none := hmark hov
        constructor
        · intro hk
          have hk : o.arity = k := by simpa using hk
          exact ⟨o, by simp [hk], hov⟩
        · rintro ⟨p, hp, hpv⟩
          split at hp
          · next hk => simp [hk]
          · have hk : t.variadic = some k := (h.marked_iff k).mpr ⟨p, hp, hpv⟩
            rw [hnone] at hk
            cases hk
    | false =>
        by_cases hk : k = o.arity
        · subst hk
          constructor
          · intro hmarked
            obtain ⟨p, hp, -⟩ := (h.marked_iff _).mp (by simpa using hmarked)
            rw [hfree] at hp
            cases hp
          · rintro ⟨p, hp, hpv⟩
            have hop : o = p := by simpa using hp
            rw [← hop, hov] at hpv
            cases hpv
        · simpa [hk] using h.marked_iff k
  bound := by
    intro k p hp
    rw [get?_put] at hp
    split at hp
    · cases hp
      exact ho
    · exact h.bound k p hp

theorem insert (h : t.Sound) (ho : o.Bound) (mode : ConflictMode) :
    (t.after (t.insert o mode)).Sound := by
  unfold OverloadTable.insert
  split
  · next hnone =>
    obtain ⟨hfree, hmark⟩ := h.obstacle?_eq_none_iff.mp hnone
    exact h.put ho hfree hmark
  · cases mode with
    | strict => exact h
    | tolerant => exact h

theorem add (h : t.Sound) (serial : Nat) (owner : String) (d : Declaration σ) (r : Registry)
    (mode : ConflictMode) : (t.after (t.add serial owner d r mode)).Sound := by
  unfold OverloadTable.add
  split
  · exact h
  · next o hbind => exact h.insert ⟨serial, owner, d, r, hbind⟩ mode

theorem remove (h : t.Sound) (k : Nat) : (t.remove k).2.Sound where
  arity_eq := by
    intro j p hp
    rw [get?_remove] at hp
    split at hp
    · cases hp
    · exact h.arity_eq j p hp
  marked_iff := by
    intro j
    have hmarked : t.variadic = some k → t.get? k ≠ none := by
      intro hk hnone
      obtain ⟨p, hp, -⟩ := (h.marked_iff k).mp hk
      rw [hnone] at hp
      cases hp
    rw [variadic_remove t k hmarked, get?_remove]
    by_cases hj : j = k
    · subst hj
      by_cases hv : t.variadic = some j <;> simp [hv]
    · rw [if_neg hj, ← h.marked_iff j]
      by_cases hv : t.variadic = some k
      · rw [if_pos hv, hv]
        simp [Ne.symm hj]
      · rw [if_neg hv]
  bound := by
    intro j p hp
    rw [get?_remove] at hp
    split at hp
    · cases hp
    · exact h.bound j p hp

theorem inherit (h : t.Sound) {entry : Nat × Overload σ} (harity : entry.2.arity = entry.1)
    (ho : entry.2.Bound) : (t.inherit entry).Sound := by
  unfold OverloadTable.inherit
  split
  · exact h
  · next htaken =>
    split
    · exact h
    · next hsecond =>
      have hfree : t.get? entry.1 = none := by simpa using htaken
      have hmark : entry.2.isVariadic = true → t.variadic = none := by
        intro hv
        simpa [hv] using hsecond
      rw [← harity]
      exact h.put ho (harity ▸ hfree) hmark

theorem entries (h : t.Sound) {entry : Nat × Overload σ} (hmem : entry ∈ t.overloads.entries) :
    entry.2.arity = entry.1 ∧ entry.2.Bound := by
  have hget : t.get? entry.1 = some entry.2 := (t.overloads.mem_entries_iff entry.1 entry.2).mp hmem
  exact ⟨h.arity_eq _ _ hget, h.bound _ _ hget⟩

theorem foldl_inherit (h : t.Sound) (order : List (Nat × Overload σ))
    (horder : ∀ entry ∈ order, entry.2.arity = entry.1 ∧ entry.2.Bound) :
    (order.foldl OverloadTable.inherit t).Sound := by
  induction order generalizing t with
  | nil => exact h
  | cons entry order ih =>
      obtain ⟨harity, ho⟩ := horder entry List.mem_cons_self
      exact ih (h.inherit harity ho) fun e he => horder e (List.mem_cons_of_mem entry he)

end Sound

/-- No sequence of edits breaks a table. -/
theorem Reachable.sound (h : t.Reachable) : t.Sound := by
  induction h with
  | empty => exact sound_empty
  | insert mode _ ho ih => exact ih.insert ho mode
  | add serial owner d r mode _ ih => exact ih.add serial owner d r mode
  | remove arity _ ih => exact ih.remove arity
  | merge _ _ horder ih ihp =>
      exact ih.foldl_inherit _ fun entry hmem => ihp.entries (horder.mem_iff.mp hmem)

/-- A merge that meets the entries of the parent in the order of their keys. -/
theorem Reachable.merge_sorted {parent : OverloadTable σ} (h : t.Reachable)
    (hp : parent.Reachable) : (t.merge parent).Reachable :=
  .merge h hp (.refl _)

/-- In a reachable table every key is the arity of what it leads to, at most one entry is variadic
and the mark names it, and every entry has at most one tail, in the last place, and as many specs as
slots that take arguments.  The fewest arguments of a variadic entry are therefore one less than
its arity. -/
theorem representation_invariant (h : t.Reachable) :
    (∀ k o, t.get? k = some o → o.arity = k) ∧
    (∀ j k o p, t.get? j = some o → t.get? k = some p →
      o.isVariadic = true → p.isVariadic = true → j = k) ∧
    (∀ k, t.variadic = some k ↔ ∃ o, t.get? k = some o ∧ o.isVariadic = true) ∧
    (∀ k o, t.get? k = some o →
      (∀ i s, o.slots[i]? = some s → s.isTail = true → i + 1 = o.slots.length) ∧
      o.arity = o.slots.countP Slot.consumes ∧
      o.parameters.length = o.arity ∧
      (o.isVariadic = true → 1 ≤ o.arity ∧ o.minArgs + 1 = o.arity)) := by
  have hsound : t.Sound := h.sound
  refine ⟨hsound.arity_eq, ?_, hsound.marked_iff, ?_⟩
  · intro j k o p ho hp hov hpv
    exact hsound.eq_of_variadic ho hp hov hpv
  · intro k o ho
    have hbound : o.Bound := hsound.bound k o ho
    refine ⟨hbound.tailLast, o.arity_eq_countP, hbound.length_parameters, fun hv => ?_⟩
    have hpos : 1 ≤ o.arity := Overload.arity_pos_of_isVariadic hv
    refine ⟨hpos, ?_⟩
    rw [Overload.minArgs, if_pos hv]
    omega

/-! ## A table with a variadic overload -/

/-- Reads a number, sees the environment and takes all cells behind the number as they are. -/
def gather : Declaration Unit where
  name := "gather"
  internalName := none
  modifiers := {}
  parameters := [⟨⟨"i64"⟩, none, false, false, false⟩, ⟨.environment, none, false, false, false⟩,
    ⟨.cells, none, true, false, false⟩]
  returnType := .void
  returnElement := none
  implementation := ⟨0, .done (.ok ())⟩

/-- Takes a copy of one cell. -/
def single : Declaration Unit :=
  { gather with name := "single", parameters := [⟨.cell, none, false, true, false⟩] }

/-- A fixed overload, beside the variadic one of a parent. -/
def gatherTable : OverloadTable Unit :=
  (empty.after (empty.add 0 "" single .builtin .strict)).merge
    (empty.after (empty.add 1 "" gather .builtin .strict))

theorem gatherTable_reachable : gatherTable.Reachable :=
  .merge_sorted (.add 0 "" single .builtin .strict .empty) (.add 1 "" gather .builtin .strict .empty)

theorem representation_invariant_gatherTable :
    gatherTable.Reachable ∧ gatherTable.arities = [1, 2] ∧ gatherTable.variadic = some 2 ∧
      ∃ o, gatherTable.get? 2 = some o ∧ o.isVariadic = true ∧ o.minArgs + 1 = 2 := by
  have hmark : gatherTable.variadic = some 2 := by decide +kernel
  have harities : gatherTable.arities = [1, 2] := by decide +kernel
  obtain ⟨harity, -, hmarked, hslots⟩ := representation_invariant gatherTable_reachable
  obtain ⟨o, ho, hv⟩ := (hmarked 2).mp hmark
  have hmin : o.minArgs + 1 = o.arity := ((hslots 2 o ho).2.2.2 hv).2
  exact ⟨gatherTable_reachable, harities, hmark, o, ho, hv, hmin.trans (harity 2 o ho)⟩

end HostCall.OverloadTable
