import HostCall.Overload.Slot
import Mathlib.Data.List.Nodup

/-!
# What the builtin registry knows

The types that the library names itself have different fingerprints.  So each registration of the
builtin registry has a key of its own, and a type resolves there to the conversion of the one data
type that is registered under it, or to nothing.
-/

namespace HostCall

/-! ## Look-ups after registrations -/

namespace Registry

variable {α : Type} {r : Registry} {k j : RegistryKey} {c : Conversion}

theorem get?_insert (r : Registry) (k j : RegistryKey) (c : Conversion) :
    (r.insert k c).get? j = if j = k then some c else r.get? j := by
  unfold get? insert
  by_cases h : j = k
  · simp [h]
  · rw [if_neg h, List.find?_cons_of_neg (by simpa using Ne.symm h), List.find?_filter]
    congr 2
    funext e
    by_cases he : e.1 = j
    · simp [he, h]
    · simp [he]

/-- Registrations under different keys are found each under its own. -/
theorem get?_foldl_insert_eq_some_iff {key : α → RegistryKey} {conv : α → Conversion} {xs : List α}
    (h : (xs.map key).Nodup) :
    (xs.foldl (fun r x => r.insert (key x) (conv x)) r).get? k = some c ↔
      (∃ x ∈ xs, key x = k ∧ conv x = c) ∨ (k ∉ xs.map key ∧ r.get? k = some c) := by
  induction xs generalizing r with
  | nil => simp
  | cons x xs ih =>
      obtain ⟨hx, hxs⟩ := List.nodup_cons.mp h
      rw [List.foldl_cons, ih hxs, get?_insert]
      by_cases hk : k = key x
      · subst hk
        have hnone : ¬∃ y ∈ xs, key y = key x ∧ conv y = c := by
          rintro ⟨y, hy, hkey, -⟩
          exact hx (hkey ▸ List.mem_map_of_mem hy)
        simp [hx, hnone]
      · have hne : key x ≠ k := Ne.symm hk
        simp [hk, hne]

end Registry

/-! ## The types that the library names -/

/-- The types that have a meaning of their own. -/
def TypeDescriptor.known : List TypeDescriptor :=
  [.void, .cell, .cells, .environment, .location, .list] ++
    Registry.builtinTypes.map DataType.descriptor

theorem TypeDescriptor.nodup_fingerprint_known :
    (known.map TypeDescriptor.fingerprint).Nodup := by decide +kernel

theorem TypeDescriptor.eq_of_fingerprint {t u : TypeDescriptor} (ht : t ∈ known) (hu : u ∈ known)
    (h : t.fingerprint = u.fingerprint) : t = u :=
  List.inj_on_of_nodup_map nodup_fingerprint_known ht hu h

theorem TypeDescriptor.same_iff {t u : TypeDescriptor} :
    t.same u = true ↔ t.fingerprint = u.fingerprint := decide_eq_true_iff

theorem TypeDescriptor.same_eq_false {t u v : TypeDescriptor} (h : t.same u = true) (hu : u ∈ known)
    (hv : v ∈ known) (hne : u ≠ v) : t.same v = false := by
  rw [Bool.eq_false_iff]
  intro hsame
  have hfingerprint : u.fingerprint = v.fingerprint :=
    (same_iff.mp h).symm.trans (same_iff.mp hsame)
  exact hne (eq_of_fingerprint hu hv hfingerprint)

theorem DataType.descriptor_mem_known {d : DataType} (h : d ∈ Registry.builtinTypes) :
    d.descriptor ∈ TypeDescriptor.known :=
  List.mem_append_right _ (List.mem_map_of_mem h)

/-- The data type that a type stands for in the builtin registry, with the element type beside it if
there is one. -/
inductive TypeDescriptor.Denotes (t : TypeDescriptor) (element : Option TypeDescriptor) :
    DataType → Prop
  | plain {d : DataType} :
      d ∈ Registry.builtinTypes → t.same d.descriptor = true → Denotes t element d
  | list {e : DataType} {u : TypeDescriptor} :
      e ∈ Registry.builtinElements → t.same .list = true → element = some u →
      u.same e.descriptor = true → Denotes t element (.list e)

/-- A type with an element type stands for one data type at most. -/
theorem TypeDescriptor.Denotes.unique {t : TypeDescriptor} {element : Option TypeDescriptor}
    {d d' : DataType} (h : t.Denotes element d) (h' : t.Denotes element d') : d = d' := by
  have hinj : ∀ d ∈ Registry.builtinTypes, ∀ d' ∈ Registry.builtinTypes,
      d.descriptor = d'.descriptor → d = d' := by decide
  have hlist : ∀ d ∈ Registry.builtinTypes, d.descriptor ≠ .list := by decide
  have helements : ∀ e ∈ Registry.builtinElements, e ∈ Registry.builtinTypes := by decide
  have hmem : TypeDescriptor.list ∈ known := by decide
  cases h with
  | plain hd ht =>
      cases h' with
      | plain hd' ht' =>
          refine hinj d hd d' hd' (eq_of_fingerprint ?_ ?_ ?_)
          · exact DataType.descriptor_mem_known hd
          · exact DataType.descriptor_mem_known hd'
          · exact (same_iff.mp ht).symm.trans (same_iff.mp ht')
      | list _ ht' _ _ =>
          have hfingerprint := (same_iff.mp ht).symm.trans (same_iff.mp ht')
          exact absurd (eq_of_fingerprint (DataType.descriptor_mem_known hd) hmem hfingerprint)
            (hlist d hd)
  | @list e u he ht hu hue =>
      cases h' with
      | plain hd' ht' =>
          have hfingerprint := (same_iff.mp ht').symm.trans (same_iff.mp ht)
          exact absurd (eq_of_fingerprint (DataType.descriptor_mem_known hd') hmem hfingerprint)
            (hlist d' hd')
      | @list e' u' he' ht' hu' hue' =>
          obtain rfl : u = u' := Option.some.inj (hu.symm.trans hu')
          refine congrArg DataType.list (hinj e (helements e he) e' (helements e' he')
            (eq_of_fingerprint ?_ ?_ ?_))
          · exact DataType.descriptor_mem_known (helements e he)
          · exact DataType.descriptor_mem_known (helements e' he')
          · exact (same_iff.mp hue).symm.trans (same_iff.mp hue')

/-! ## Look-ups in the builtin registry -/

namespace Registry

variable {t : TypeDescriptor} {element : Option TypeDescriptor} {k : RegistryKey} {c : Conversion}
  {d : DataType}

def dataKey (d : DataType) : RegistryKey := ⟨d.descriptor.fingerprint, none⟩

def listKey (e : DataType) : RegistryKey :=
  ⟨TypeDescriptor.list.fingerprint, some e.descriptor.fingerprint⟩

theorem nodup_dataKey : (builtinTypes.map dataKey).Nodup := by decide +kernel

theorem nodup_listKey : (builtinElements.map listKey).Nodup := by decide +kernel

theorem get?_builtin_eq_some_iff :
    builtin.get? k = some c ↔
      (∃ e ∈ builtinElements, listKey e = k ∧ .ofData (.list e) = c) ∨
      (k ∉ builtinElements.map listKey ∧
        ((∃ d ∈ builtinTypes, dataKey d = k ∧ .ofData d = c) ∨
          (k ∉ builtinTypes.map dataKey ∧
            ((empty.register .void .void).register .cell .passthrough).get? k = some c))) := by
  rw [← get?_foldl_insert_eq_some_iff nodup_dataKey, ← get?_foldl_insert_eq_some_iff nodup_listKey]
  rfl

/-- Only lists are registered with an element type. -/
theorem get?_element_eq_some_iff {u : TypeDescriptor} :
    builtin.get? ⟨t.fingerprint, some u.fingerprint⟩ = some c ↔
      ∃ e ∈ builtinElements, t.same .list = true ∧ u.same e.descriptor = true ∧
        .ofData (.list e) = c := by
  rw [get?_builtin_eq_some_iff]
  constructor
  · rintro (⟨e, he, hkey, hc⟩ | ⟨-, ⟨d, -, hkey, -⟩ | ⟨-, hget⟩⟩)
    · obtain ⟨ht, hu⟩ := RegistryKey.mk.inj hkey
      exact ⟨e, he, TypeDescriptor.same_iff.mpr ht.symm,
        TypeDescriptor.same_iff.mpr (Option.some.inj hu).symm, hc⟩
    · cases (RegistryKey.mk.inj hkey).2
    · unfold register at hget
      rw [get?_insert, if_neg (by simp), get?_insert, if_neg (by simp)] at hget
      cases hget
  · rintro ⟨e, he, ht, hu, hc⟩
    refine .inl ⟨e, he, ?_, hc⟩
    rw [listKey, TypeDescriptor.same_iff.mp ht, TypeDescriptor.same_iff.mp hu]

theorem get?_plain (h : builtin.get? ⟨t.fingerprint, none⟩ = some c) :
    (∃ d ∈ builtinTypes, t.same d.descriptor = true ∧ c = .ofData d) ∨
    (t.same .void = true ∧ c = .void) ∨ t.same .cell = true := by
  rcases get?_builtin_eq_some_iff.mp h with ⟨e, -, hkey, -⟩ | ⟨-, ⟨d, hd, hkey, hc⟩ | ⟨-, hget⟩⟩
  · cases (RegistryKey.mk.inj hkey).2
  · exact .inl ⟨d, hd, TypeDescriptor.same_iff.mpr (RegistryKey.mk.inj hkey).1.symm, hc.symm⟩
  · unfold register at hget
    rw [get?_insert, get?_insert] at hget
    split at hget
    · next hk => exact .inr (.inr (TypeDescriptor.same_iff.mpr (RegistryKey.mk.inj hk).1))
    · split at hget
      · next hk =>
        exact .inr (.inl ⟨TypeDescriptor.same_iff.mpr (RegistryKey.mk.inj hk).1,
          (Option.some.inj hget).symm⟩)
      · cases hget

/-- What resolves in the builtin registry denotes a data type, or is the type of nothing or that of
raw cells. -/
theorem resolve_builtin (h : builtin.resolve t element = some c) :
    (∃ d, t.Denotes element d ∧ c = .ofData d) ∨
    (t.same .void = true ∧ c = .void) ∨ t.same .cell = true := by
  have hplain : builtin.get? ⟨t.fingerprint, none⟩ = some c →
      (∃ d, t.Denotes element d ∧ c = .ofData d) ∨
      (t.same .void = true ∧ c = .void) ∨ t.same .cell = true := by
    intro hget
    rcases get?_plain hget with ⟨d, hd, ht, hc⟩ | hvoid | hcell
    · exact .inl ⟨d, .plain hd ht, hc⟩
    · exact .inr (.inl hvoid)
    · exact .inr (.inr hcell)
  cases element with
  | none => exact hplain h
  | some u =>
      cases hget : builtin.get? ⟨t.fingerprint, some u.fingerprint⟩ with
      | none =>
          rw [resolve, hget] at h
          exact hplain h
      | some c' =>
          rw [resolve, hget] at h
          cases h
          obtain ⟨e, he, ht, hu, hc⟩ := get?_element_eq_some_iff.mp hget
          exact .inl ⟨.list e, .list he ht rfl hu, hc.symm⟩

end Registry

end HostCall
