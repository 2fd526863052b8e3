import HostCall.Proofs.Overload.Representation

/-!
# Dispatch by argument count

A look-up asks for the entry of exactly the count, and then for the marked one.  Since the mark is
exact, these two steps leave out no overload of the table that would take so many arguments.
-/

namespace HostCall.OverloadTable

variable {σ : Type} {t : OverloadTable σ} {o : Overload σ} {n : Nat}

theorem find?_of_get? (h : t.get? n = some o) : t.find? n = some o := by
  rw [find?, h]

theorem find?_eq_some_iff :
    t.find? n = some o ↔
      t.get? n = some o ∨ (t.get? n = none ∧ t.variadic? = some o ∧ o.minArgs ≤ n) := by
  unfold find?
  cases hget : t.get? n with
  | some p => simp
  | none =>
      rw [Option.filter_eq_some_iff]
      simp

theorem find?_eq_none_iff :
    t.find? n = none ↔ t.get? n = none ∧ ∀ o, t.variadic? = some o → n < o.minArgs := by
  unfold find?
  cases hget : t.get? n with
  | some p => simp
  | none =>
      rw [Option.filter_eq_none_iff]
      simp

namespace Sound

/-- What a look-up finds is an entry that takes so many arguments. -/
theorem find?_sound (h : t.Sound) (hfind : t.find? n = some o) :
    t.get? o.arity = some o ∧ o.accepts n = true := by
  rcases find?_eq_some_iff.mp hfind with hget | ⟨-, hvar, hmin⟩
  · have harity : o.arity = n := h.arity_eq n o hget
    exact ⟨harity ▸ hget, harity ▸ o.accepts_arity⟩
  · obtain ⟨k, hget, hv⟩ := h.variadic?_eq_some_iff.mp hvar
    have harity : o.arity = k := h.arity_eq k o hget
    exact ⟨harity ▸ hget, (Overload.accepts_iff_of_variadic hv).mpr hmin⟩

/-- No entry takes so many arguments when a look-up finds nothing. -/
theorem accepts_eq_false_of_find? (h : t.Sound) (hfind : t.find? n = none) {k : Nat}
    (ho : t.get? k = some o) : o.accepts n = false := by
  obtain ⟨hnone, hmin⟩ := find?_eq_none_iff.mp hfind
  rw [Bool.eq_false_iff]
  intro haccepts
  cases hv : o.isVariadic with
  | false =>
      have hn : n = o.arity := (Overload.accepts_iff_of_fixed hv).mp haccepts
      rw [hn, h.arity_eq k o ho, ho] at hnone
      cases hnone
  | true =>
      have hle : o.minArgs ≤ n := (Overload.accepts_iff_of_variadic hv).mp haccepts
      have hlt : n < o.minArgs := hmin o (h.variadic?_eq_some_iff.mpr ⟨k, ho, hv⟩)
      omega

end Sound

/-- A look-up finds an entry that takes so many arguments, fails only when there is none, and
prefers the entry of exactly that arity. -/
theorem find?_dispatches (h : t.Reachable) (n : Nat) :
    (∀ o, t.find? n = some o → (∃ k, t.get? k = some o) ∧ o.accepts n = true) ∧
    (t.find? n = none → ∀ k o, t.get? k = some o → o.accepts n = false) ∧
    (∀ k o, t.get? k = some o → o.arity = n → t.find? n = some o) := by
  have hsound : t.Sound := h.sound
  refine ⟨fun o hfind => ?_, fun hfind k o ho => ?_, fun k o ho harity => ?_⟩
  · obtain ⟨hget, haccepts⟩ := hsound.find?_sound hfind
    exact ⟨⟨o.arity, hget⟩, haccepts⟩
  · exact hsound.accepts_eq_false_of_find? hfind ho
  · have hk : o.arity = k := hsound.arity_eq k o ho
    apply find?_of_get?
    rw [← harity, hk]
    exact ho

/-- One argument reaches the fixed overload although the variadic one takes one as well, five reach
the variadic one, and none is too few for both. -/
theorem find?_dispatches_gatherTable :
    gatherTable.Reachable ∧
      (∃ o, gatherTable.get? 1 = some o ∧ o.arity = 1 ∧ gatherTable.find? 1 = some o) ∧
      (∃ p, gatherTable.find? 5 = some p ∧ p.accepts 5 = true) ∧
      ∀ k p, gatherTable.get? k = some p → p.accepts 0 = false := by
  have hone : (gatherTable.get? 1).isSome = true := by decide +kernel
  have hfive : (gatherTable.find? 5).isSome = true := by decide +kernel
  have hzero : gatherTable.find? 0 = none := Option.isNone_iff_eq_none.mp (by decide +kernel)
  obtain ⟨o, ho⟩ := Option.isSome_iff_exists.mp hone
  obtain ⟨p, hp⟩ := Option.isSome_iff_exists.mp hfive
  have harity : o.arity = 1 := gatherTable_reachable.sound.arity_eq 1 o ho
  refine ⟨gatherTable_reachable, ⟨o, ho, harity, ?_⟩, ⟨p, hp, ?_⟩, ?_⟩
  · exact (find?_dispatches gatherTable_reachable 1).2.2 1 o ho harity
  · exact ((find?_dispatches gatherTable_reachable 5).1 p hp).2
  · exact (find?_dispatches gatherTable_reachable 0).2.1 hzero

end HostCall.OverloadTable
