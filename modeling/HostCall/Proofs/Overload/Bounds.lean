import HostCall.Proofs.Overload.Dispatch

/-!
# The bounds of a table

The bounds that a table reports are read off its entries and its mark, and a look-up uses neither.
They agree all the same: a count has an overload exactly when some entry accepts it, the lower bound
is the least count that any entry accepts, and the upper bound, when there is one, is the greatest.
-/

namespace HostCall

variable {σ : Type} {n m k : Nat}

namespace Overload

variable {o : Overload σ}

theorem minArgs_le_of_accepts (h : o.accepts n = true) : o.minArgs ≤ n :=
  of_decide_eq_true ((Bool.and_eq_true _ _).mp h).1

theorem accepts_minArgs (o : Overload σ) : o.accepts o.minArgs = true := by
  cases hv : o.isVariadic with
  | true => exact (accepts_iff_of_variadic hv).mpr (Nat.le_refl _)
  | false => exact (accepts_iff_of_fixed hv).mpr (by simp [minArgs, hv])

end Overload

namespace OverloadTable

variable {t : OverloadTable σ} {o : Overload σ}

theorem mem_values_iff : o ∈ t.overloads.values ↔ ∃ k, t.get? k = some o := by
  simp only [ArityMap.values, List.mem_map, Prod.exists, exists_eq_right, get?]
  simp only [ArityMap.mem_entries_iff]

theorem mem_arities_iff : k ∈ t.arities ↔ ∃ o, t.get? k = some o := by
  simp only [arities, ArityMap.keys, List.mem_map, Prod.exists, exists_and_right, exists_eq_right,
    get?]
  simp only [ArityMap.mem_entries_iff]

theorem isEmpty_eq_false_iff : t.isEmpty = false ↔ t.overloads.entries ≠ [] := by
  simp [isEmpty, ArityMap.isEmpty]

/-- The lower bound of a table that is not empty is that of an entry, and of no entry more. -/
theorem minArgs_eq_iff (h : t.isEmpty = false) :
    t.minArgs = n ↔ (∃ k o, t.get? k = some o ∧ o.minArgs = n) ∧
      ∀ k o, t.get? k = some o → n ≤ o.minArgs := by
  have hsome : (t.overloads.values.map Overload.minArgs).min?.isSome = true := by
    simpa [List.isSome_min?_iff, ArityMap.values] using isEmpty_eq_false_iff.mp h
  obtain ⟨a, ha⟩ := Option.isSome_iff_exists.mp hsome
  have hmin : t.minArgs = n ↔ (t.overloads.values.map Overload.minArgs).min? = some n := by
    simp [minArgs, ha]
  rw [hmin, List.min?_eq_some_iff]
  simp only [List.mem_map, mem_values_iff]
  constructor
  · rintro ⟨⟨o, ⟨k, ho⟩, hn⟩, hall⟩
    exact ⟨⟨k, o, ho, hn⟩, fun j p hp => hall _ ⟨p, ⟨j, hp⟩, rfl⟩⟩
  · rintro ⟨⟨k, o, ho, hn⟩, hall⟩
    refine ⟨⟨o, ⟨k, ho⟩, hn⟩, ?_⟩
    rintro _ ⟨p, ⟨j, hp⟩, rfl⟩
    exact hall j p hp

theorem maxArgs_eq_some_iff :
    t.maxArgs = some m ↔
      t.variadic = none ∧ (∃ o, t.get? m = some o) ∧ ∀ k o, t.get? k = some o → k ≤ m := by
  unfold maxArgs
  cases hv : t.variadic with
  | some k => simp
  | none => simp [List.max?_eq_some_iff, mem_arities_iff]

theorem maxArgs_eq_none_iff (h : t.isEmpty = false) :
    t.maxArgs = none ↔ ∃ k, t.variadic = some k := by
  unfold maxArgs
  cases hv : t.variadic with
  | some k => simp
  | none => simpa [arities, ArityMap.keys] using isEmpty_eq_false_iff.mp h

theorem isSome_find?_maxArgs (hm : t.maxArgs = some m) : (t.find? m).isSome = true := by
  obtain ⟨-, ⟨o, ho⟩, -⟩ := maxArgs_eq_some_iff.mp hm
  rw [find?_of_get? ho]
  rfl

namespace Sound

/-- A count has an overload exactly when some entry accepts it. -/
theorem isSome_find?_iff (h : t.Sound) :
    (t.find? n).isSome = true ↔ ∃ k o, t.get? k = some o ∧ o.accepts n = true := by
  constructor
  · intro hsome
    obtain ⟨o, ho⟩ := Option.isSome_iff_exists.mp hsome
    obtain ⟨hget, haccepts⟩ := h.find?_sound ho
    exact ⟨o.arity, o, hget, haccepts⟩
  · rintro ⟨k, o, hget, haccepts⟩
    by_contra hnone
    have hrefuses := h.accepts_eq_false_of_find? (Option.not_isSome_iff_eq_none.mp hnone) hget
    rw [haccepts] at hrefuses
    cases hrefuses

theorem isSome_find?_minArgs (h : t.Sound) (hne : t.isEmpty = false) :
    (t.find? t.minArgs).isSome = true := by
  obtain ⟨⟨k, o, ho, hmin⟩, -⟩ := (minArgs_eq_iff hne).mp rfl
  rw [← hmin]
  exact h.isSome_find?_iff.mpr ⟨k, o, ho, o.accepts_minArgs⟩

theorem find?_eq_none_of_lt_minArgs (h : t.Sound) (hne : t.isEmpty = false) (hn : n < t.minArgs) :
    t.find? n = none := by
  rw [← Option.not_isSome_iff_eq_none, h.isSome_find?_iff]
  rintro ⟨k, o, ho, haccepts⟩
  have hle := ((minArgs_eq_iff hne).mp rfl).2 k o ho
  have hmin := Overload.minArgs_le_of_accepts haccepts
  omega

theorem find?_eq_none_of_maxArgs_lt (h : t.Sound) (hm : t.maxArgs = some m) (hn : m < n) :
    t.find? n = none := by
  obtain ⟨hmark, -, hall⟩ := maxArgs_eq_some_iff.mp hm
  rw [← Option.not_isSome_iff_eq_none, h.isSome_find?_iff]
  rintro ⟨k, o, ho, haccepts⟩
  cases hv : o.isVariadic with
  | true =>
      rw [(h.marked_iff k).mpr ⟨o, ho, hv⟩] at hmark
      cases hmark
  | false =>
      have hk := hall k o ho
      rw [(Overload.accepts_iff_of_fixed hv).mp haccepts, h.arity_eq k o ho] at hn
      omega

/-- Without an upper bound every count from some point on has an overload. -/
theorem exists_forall_isSome_find? (h : t.Sound) (hne : t.isEmpty = false)
    (hm : t.maxArgs = none) : ∃ k, ∀ n, k ≤ n → (t.find? n).isSome = true := by
  obtain ⟨k, hk⟩ := (maxArgs_eq_none_iff hne).mp hm
  obtain ⟨o, ho, hv⟩ := (h.marked_iff k).mp hk
  refine ⟨o.minArgs, fun n hn => h.isSome_find?_iff.mpr ⟨k, o, ho, ?_⟩⟩
  exact (Overload.accepts_iff_of_variadic hv).mpr hn

/-! ## What is wrong with a count -/

/-- A count is beyond the upper bound exactly when no greater count has an overload either. -/
theorem exists_maxArgs_lt_iff (h : t.Sound) :
    (∃ m, t.maxArgs = some m ∧ m < n) ↔
      t.isEmpty = false ∧ ∀ k, n ≤ k → t.find? k = none := by
  constructor
  · rintro ⟨m, hm, hmn⟩
    obtain ⟨-, ⟨o, ho⟩, -⟩ := maxArgs_eq_some_iff.mp hm
    refine ⟨isEmpty_eq_false_iff.mpr fun hnil => ?_, fun k hk => ?_⟩
    · have hmem := (t.overloads.mem_entries_iff m o).mpr ho
      rw [hnil] at hmem
      cases hmem
    · exact h.find?_eq_none_of_maxArgs_lt hm (by omega)
  · rintro ⟨hne, hall⟩
    cases hm : t.maxArgs with
    | none =>
        obtain ⟨k, hk⟩ := h.exists_forall_isSome_find? hne hm
        have hsome := hk (max n k) (Nat.le_max_right n k)
        rw [hall _ (Nat.le_max_left n k)] at hsome
        cases hsome
    | some m =>
        refine ⟨m, rfl, Nat.lt_of_not_le fun hle => ?_⟩
        have hsome := isSome_find?_maxArgs hm
        rw [hall m hle] at hsome
        cases hsome

end Sound

theorem countProblem_eq_notExactly_iff :
    t.countProblem n = .notExactly m ↔ t.maxArgs = some m ∧ m < n := by
  unfold countProblem
  cases t.maxArgs with
  | none => simp
  | some k =>
      by_cases hk : k < n
      · simp only [hk, ↓reduceIte, CountProblem.notExactly.injEq, Option.some.injEq]
        exact ⟨fun h => ⟨h, h ▸ hk⟩, And.left⟩
      · simp only [hk, ↓reduceIte, reduceCtorEq, Option.some.injEq, false_iff]
        rintro ⟨rfl, h⟩
        exact hk h

theorem countProblem_eq_notAtLeast_iff :
    t.countProblem n = .notAtLeast m ↔ m = t.minArgs ∧ ¬∃ k, t.maxArgs = some k ∧ k < n := by
  unfold countProblem
  cases t.maxArgs with
  | none => simp [eq_comm]
  | some k => by_cases hk : k < n <;> simp [hk, eq_comm]

end OverloadTable

end HostCall
