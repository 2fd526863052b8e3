/-!
# Finite maps keyed by arity

A finite map from argument counts, kept as a list with strictly increasing keys.  The list is
determined by what `get?` answers, so maps built in different orders are equal as soon as they
answer alike.
-/

namespace HostCall

structure ArityMap (α : Type) where
  entries : List (Nat × α)
  sorted : entries.Pairwise fun a b => a.1 < b.1

namespace ArityMap

variable {α : Type}

/-- A list with a binding put in its place, or put in place of the binding of its key. -/
def insertEntry (k : Nat) (v : α) : List (Nat × α) → List (Nat × α)
  | [] => [(k, v)]
  | e :: es =>
      if k < e.1 then (k, v) :: e :: es
      else if k = e.1 then (k, v) :: es
      else e :: insertEntry k v es

theorem mem_insertEntry {k : Nat} {v : α} {es : List (Nat × α)} {b : Nat × α}
    (h : b ∈ insertEntry k v es) : b = (k, v) ∨ b ∈ es := by
  induction es with
  | nil => simpa [insertEntry] using h
  | cons e es ih =>
    unfold insertEntry at h
    split at h
    · simpa using h
    · split at h
      · rcases List.mem_cons.mp h with h | h
        · exact .inl h
        · exact .inr (List.mem_cons_of_mem _ h)
      · rcases List.mem_cons.mp h with h | h
        · exact .inr (h ▸ List.mem_cons_self)
        · rcases ih h with h | h
          · exact .inl h
          · exact .inr (List.mem_cons_of_mem _ h)

theorem insertEntry_sorted {k : Nat} {v : α} {es : List (Nat × α)}
    (h : es.Pairwise fun a b => a.1 < b.1) :
    (insertEntry k v es).Pairwise fun a b => a.1 < b.1 := by
  induction es with
  | nil => simp [insertEntry]
  | cons e es ih =>
    have hall := (List.pairwise_cons.mp h).1
    have htail := (List.pairwise_cons.mp h).2
    unfold insertEntry
    split
    · next hlt =>
      refine List.pairwise_cons.mpr ⟨fun b hb => ?_, h⟩
      rcases List.mem_cons.mp hb with rfl | hb
      · exact hlt
      · exact Nat.lt_trans hlt (hall b hb)
    · split
      · next heq =>
        subst heq
        exact List.pairwise_cons.mpr ⟨hall, htail⟩
      · next hnlt hne =>
        refine List.pairwise_cons.mpr ⟨fun b hb => ?_, ih htail⟩
        rcases mem_insertEntry hb with rfl | hb
        · exact Nat.lt_of_le_of_ne (Nat.le_of_not_lt hnlt) (Ne.symm hne)
        · exact hall b hb

def empty : ArityMap α := ⟨[], .nil⟩

def get? (m : ArityMap α) (k : Nat) : Option α :=
  (m.entries.find? fun e => e.1 == k).map Prod.snd

def insert (m : ArityMap α) (k : Nat) (v : α) : ArityMap α :=
  ⟨insertEntry k v m.entries, insertEntry_sorted m.sorted⟩

def erase (m : ArityMap α) (k : Nat) : ArityMap α :=
  ⟨m.entries.filter fun e => e.1 != k, m.sorted.filter _⟩

def size (m : ArityMap α) : Nat := m.entries.length

def isEmpty (m : ArityMap α) : Bool := m.entries.isEmpty

def keys (m : ArityMap α) : List Nat := m.entries.map Prod.fst

def values (m : ArityMap α) : List α := m.entries.map Prod.snd

theorem find?_insertEntry (k j : Nat) (v : α) (es : List (Nat × α)) :
    (insertEntry k v es).find? (fun e => e.1 == j) =
      if j = k then some (k, v) else es.find? fun e => e.1 == j := by
  induction es with
  | nil =>
    by_cases h : j = k
    · simp [insertEntry, h]
    · simp [insertEntry, h, Ne.symm h]
  | cons e es ih =>
    unfold insertEntry
    split
    · by_cases h : j = k
      · simp [h]
      · simp [h, Ne.symm h]
    · split
      · next heq =>
        by_cases h : j = k
        · simp [h]
        · have he : e.1 ≠ j := fun he => h (he ▸ heq.symm)
          simp [h, Ne.symm h, he]
      · next hne =>
        by_cases he : e.1 = j
        · have h : j ≠ k := fun h => hne (h ▸ he.symm)
          simp [he, h]
        · simp [he, ih]

@[simp] theorem get?_empty (j : Nat) : (empty : ArityMap α).get? j = none := rfl

theorem get?_insert (m : ArityMap α) (k j : Nat) (v : α) :
    (m.insert k v).get? j = if j = k then some v else m.get? j := by
  unfold get? insert
  rw [find?_insertEntry]
  split <;> rfl

theorem get?_erase (m : ArityMap α) (k j : Nat) :
    (m.erase k).get? j = if j = k then none else m.get? j := by
  unfold get? erase
  rw [List.find?_filter]
  by_cases h : j = k
  · subst h
    simp
  · rw [if_neg h]
    congr 2
    funext e
    by_cases he : e.1 = j
    · simp [he, h]
    · simp [he]

theorem length_insertEntry {k : Nat} {v : α} {es : List (Nat × α)} (h : ∀ e ∈ es, e.1 ≠ k) :
    (insertEntry k v es).length = es.length + 1 := by
  induction es with
  | nil => rfl
  | cons e es ih =>
    have hne : k ≠ e.1 := Ne.symm (h e List.mem_cons_self)
    have hrest : ∀ b ∈ es, b.1 ≠ k := fun b hb => h b (List.mem_cons_of_mem e hb)
    unfold insertEntry
    split
    · rfl
    · rw [List.length_cons, ih hrest, List.length_cons]

theorem size_insert {m : ArityMap α} {k : Nat} (v : α) (h : m.get? k = none) :
    (m.insert k v).size = m.size + 1 := by
  apply length_insertEntry
  intro e he hk
  have hnone := List.find?_eq_none.mp (Option.map_eq_none_iff.mp h) e he
  exact hnone (beq_iff_eq.mpr hk)

/-- The bindings are what the look-ups answer. -/
theorem mem_entries_iff (m : ArityMap α) (k : Nat) (v : α) :
    (k, v) ∈ m.entries ↔ m.get? k = some v := by
  obtain ⟨es, hs⟩ := m
  change (k, v) ∈ es ↔ (es.find? fun e => e.1 == k).map Prod.snd = some v
  induction es with
  | nil => simp
  | cons e es ih =>
    have hall := (List.pairwise_cons.mp hs).1
    have ih := ih (List.pairwise_cons.mp hs).2
    by_cases he : e.1 = k
    · have hnot : (k, v) ∉ es := fun hmem => Nat.lt_irrefl e.1 (he ▸ hall _ hmem)
      obtain ⟨a, b⟩ := e
      simp only at he
      simp [he, hnot, eq_comm]
    · have hne : (k, v) ≠ e := fun h => he (h ▸ rfl)
      simp [he, hne, ih]

/-- Two strictly increasing lists with the same members are the same list. -/
theorem entries_ext {es fs : List (Nat × α)} (hes : es.Pairwise fun a b => a.1 < b.1)
    (hfs : fs.Pairwise fun a b => a.1 < b.1) (h : ∀ b, b ∈ es ↔ b ∈ fs) : es = fs := by
  induction es generalizing fs with
  | nil =>
    cases fs with
    | nil => rfl
    | cons f fs => exact absurd ((h f).mpr List.mem_cons_self) List.not_mem_nil
  | cons e es ih =>
    cases fs with
    | nil => exact absurd ((h e).mp List.mem_cons_self) List.not_mem_nil
    | cons f fs =>
      have hes' := List.pairwise_cons.mp hes
      have hfs' := List.pairwise_cons.mp hfs
      have hef : e = f := by
        rcases List.mem_cons.mp ((h e).mp List.mem_cons_self) with hef | hef
        · exact hef
        · rcases List.mem_cons.mp ((h f).mpr List.mem_cons_self) with hfe | hfe
          · exact hfe.symm
          · exact absurd (hes'.1 f hfe) (Nat.lt_asymm (hfs'.1 e hef))
      subst hef
      refine congrArg (e :: ·) (ih hes'.2 hfs'.2 fun b => ⟨fun hb => ?_, fun hb => ?_⟩)
      · rcases List.mem_cons.mp ((h b).mp (List.mem_cons_of_mem _ hb)) with rfl | hb'
        · exact absurd (hes'.1 b hb) (Nat.lt_irrefl _)
        · exact hb'
      · rcases List.mem_cons.mp ((h b).mpr (List.mem_cons_of_mem _ hb)) with rfl | hb'
        · exact absurd (hfs'.1 b hb) (Nat.lt_irrefl _)
        · exact hb'

/-- A map is what its look-ups answer. -/
theorem ext_get? {m n : ArityMap α} (h : ∀ k, m.get? k = n.get? k) : m = n := by
  have hentries : m.entries = n.entries := by
    refine entries_ext m.sorted n.sorted fun b => ?_
    rw [mem_entries_iff, mem_entries_iff, h]
  cases m
  cases n
  cases hentries
  rfl

end ArityMap

end HostCall
