import HostCall.Overload.Basic
import Mathlib.Data.List.Forall2

/-!
# What binding makes of a declaration

A declaration that binds gets one slot per parameter, in order, and one spec per slot that takes
arguments.  A tail stands in the last place or nowhere.  Dispatch and marshalling ask no more of
an overload than that it was bound.
-/

namespace HostCall

namespace Slot

/-- A tail stands in the last place or nowhere. -/
def TailLast (slots : List Slot) : Prop :=
  ∀ i s, slots[i]? = some s → s.isTail = true → i + 1 = slots.length

theorem tailLast_nil : TailLast [] := by
  intro i s hi _
  simp at hi

theorem tailLast_cons {s : Slot} {slots : List Slot} :
    TailLast (s :: slots) ↔ (s.isTail = true → slots = []) ∧ TailLast slots := by
  constructor
  · intro h
    refine ⟨fun hs => ?_, fun i t hi ht => ?_⟩
    · have hlen := h 0 s rfl hs
      simpa using hlen
    · have hlen := h (i + 1) t (by simpa using hi) ht
      simpa using hlen
  · rintro ⟨hs, hrest⟩ i t hi ht
    cases i with
    | zero =>
        have hst : s = t := by simpa using hi
        simp [hs (hst ▸ ht)]
    | succ i =>
        have hlen := hrest i t (by simpa using hi) ht
        simpa using hlen

theorem consumes_of_isTail {s : Slot} (h : s.isTail = true) : s.consumes = true := by
  cases s <;> simp_all [isTail, consumes]

theorem countP_consumes_pos {slots : List Slot} (h : slots.getLast?.any isTail = true) :
    0 < slots.countP consumes := by
  obtain ⟨s, hs, htail⟩ := (Option.any_eq_true _ _).mp h
  exact List.countP_pos_iff.mpr ⟨s, List.mem_of_getLast? hs, consumes_of_isTail htail⟩

end Slot

namespace Parameter

variable {member : String} {r : Registry} {position : Nat} {isLast : Bool} {spec : ParameterSpec}
  {p : Parameter} {slot : Slot}

/-- Everything that classification can make of a parameter, and when. -/
theorem classify_ok (h : p.classify member r position isLast spec = .ok slot) :
    (p.type.isCell = true ∧ slot = .passthrough p.passing) ∨
    (p.type.isCell = false ∧ ∃ c, r.resolve p.type p.element = some c ∧ slot = .converted c spec) ∨
    (p.type.isCell = false ∧ r.resolve p.type p.element = none ∧
      ((p.type.isEnvironment = true ∧ slot = .injected .environment) ∨
       (p.type.isEnvironment = false ∧ p.type.isLocation = true ∧ slot = .injected .location) ∨
       (p.type.isEnvironment = false ∧ p.type.isLocation = false ∧ p.type.isCells = true ∧
         isLast = true ∧ slot = .tail p.passing))) := by
  unfold classify at h
  split at h
  · next hcell =>
    cases h
    exact .inl ⟨hcell, rfl⟩
  · next hcell =>
    have hcell : p.type.isCell = false := Bool.eq_false_iff.mpr hcell
    split at h
    · next c hc =>
      cases h
      exact .inr (.inl ⟨hcell, c, hc, rfl⟩)
    · next hnone =>
      refine .inr (.inr ⟨hcell, hnone, ?_⟩)
      split at h
      · next henv =>
        cases h
        exact .inl ⟨henv, rfl⟩
      · next henv =>
        have henv : p.type.isEnvironment = false := Bool.eq_false_iff.mpr henv
        split at h
        · next hloc =>
          cases h
          exact .inr (.inl ⟨henv, hloc, rfl⟩)
        · next hloc =>
          have hloc : p.type.isLocation = false := Bool.eq_false_iff.mpr hloc
          split at h
          · next hcells =>
            split at h
            · next hlast =>
              cases h
              exact .inr (.inr ⟨henv, hloc, hcells, hlast, rfl⟩)
            · cases h
          · cases h

theorem isLast_of_classify (h : p.classify member r position isLast spec = .ok slot)
    (htail : slot.isTail = true) : isLast = true := by
  rcases classify_ok h with
    ⟨-, rfl⟩ | ⟨-, c, -, rfl⟩ | ⟨-, -, ⟨-, rfl⟩ | ⟨-, -, rfl⟩ | ⟨-, -, -, hlast, rfl⟩⟩
  · simp [Slot.isTail] at htail
  · simp [Slot.isTail] at htail
  · simp [Slot.isTail] at htail
  · simp [Slot.isTail] at htail
  · exact hlast

end Parameter

/-- The first parameter is classified on its own, and the rest after it. -/
theorem classifyFrom_cons_ok {member : String} {r : Registry} {position consumed : Nat}
    {p : Parameter} {ps : List Parameter} {slots : List Slot} {specs : List ParameterSpec}
    (h : classifyFrom member r position consumed (p :: ps) = .ok (slots, specs)) :
    ∃ slot slots' specs',
      p.classify member r position ps.isEmpty (.positional consumed p.isNullable) = .ok slot ∧
      classifyFrom member r (position + 1) (if slot.consumes then consumed + 1 else consumed) ps =
        .ok (slots', specs') ∧
      slots = slot :: slots' ∧
      specs = if slot.consumes then .positional consumed p.isNullable :: specs' else specs' := by
  rw [classifyFrom] at h
  cases hslot : p.classify member r position ps.isEmpty (.positional consumed p.isNullable) with
  | error e =>
      rw [hslot] at h
      cases h
  | ok slot =>
      rw [hslot] at h
      cases hrest : classifyFrom member r (position + 1)
          (if slot.consumes then consumed + 1 else consumed) ps with
      | error e =>
          simp only [bind, Except.bind, hrest] at h
          cases h
      | ok rest =>
          obtain ⟨slots', specs'⟩ := rest
          simp only [bind, Except.bind, hrest] at h
          cases h
          exact ⟨slot, slots', specs', rfl, hrest, rfl, rfl⟩

/-- A slot that classification makes of a parameter, wherever it stands. -/
def Parameter.FillsAs (member : String) (r : Registry) (p : Parameter) (slot : Slot) : Prop :=
  ∃ position isLast spec, p.classify member r position isLast spec = .ok slot

theorem forall₂_of_classifyFrom {member : String} {r : Registry} {position consumed : Nat}
    {ps : List Parameter} {slots : List Slot} {specs : List ParameterSpec}
    (h : classifyFrom member r position consumed ps = .ok (slots, specs)) :
    List.Forall₂ (Parameter.FillsAs member r) ps slots := by
  induction ps generalizing position consumed slots specs with
  | nil =>
      cases h
      exact .nil
  | cons p ps ih =>
      obtain ⟨slot, slots', specs', hslot, hrest, rfl, -⟩ := classifyFrom_cons_ok h
      exact .cons ⟨_, _, _, hslot⟩ (ih hrest)

theorem tailLast_of_classifyFrom {member : String} {r : Registry} {position consumed : Nat}
    {ps : List Parameter} {slots : List Slot} {specs : List ParameterSpec}
    (h : classifyFrom member r position consumed ps = .ok (slots, specs)) :
    Slot.TailLast slots := by
  induction ps generalizing position consumed slots specs with
  | nil =>
      cases h
      exact Slot.tailLast_nil
  | cons p ps ih =>
      obtain ⟨slot, slots', specs', hslot, hrest, rfl, -⟩ := classifyFrom_cons_ok h
      refine Slot.tailLast_cons.mpr ⟨fun htail => ?_, ih hrest⟩
      have hps : ps = [] := List.isEmpty_iff.mp (Parameter.isLast_of_classify hslot htail)
      subst hps
      cases hrest
      rfl

theorem length_specs_of_classifyFrom {member : String} {r : Registry} {position consumed : Nat}
    {ps : List Parameter} {slots : List Slot} {specs : List ParameterSpec}
    (h : classifyFrom member r position consumed ps = .ok (slots, specs)) :
    specs.length = slots.countP Slot.consumes := by
  induction ps generalizing position consumed slots specs with
  | nil =>
      cases h
      rfl
  | cons p ps ih =>
      obtain ⟨slot, slots', specs', -, hrest, rfl, rfl⟩ := classifyFrom_cons_ok h
      have hlen := ih hrest
      by_cases hc : slot.consumes = true
      · simp [hc, hlen]
      · simp [hc, hlen]

namespace Overload

variable {σ : Type} {o : Overload σ} {n : Nat}

/-- An overload that binding some declaration made. -/
def Bound (o : Overload σ) : Prop :=
  ∃ serial owner d r, Overload.bind serial owner d r = .ok o

/-- A declaration binds, to an overload that passes a check, when a check that can be run says so. -/
theorem exists_bind_of_check {serial : Nat} {owner : String} {d : Declaration σ} {r : Registry}
    {check : Overload σ → Bool}
    (h : (Overload.bind serial owner d r).toOption.any check = true) :
    ∃ o, Overload.bind serial owner d r = .ok o ∧ check o = true := by
  cases hbind : Overload.bind serial owner d r with
  | error e =>
      rw [hbind] at h
      cases h
  | ok o =>
      rw [hbind] at h
      exact ⟨o, rfl, h⟩

theorem classifyFrom_of_bind {serial : Nat} {owner : String} {d : Declaration σ} {r : Registry}
    (h : Overload.bind serial owner d r = .ok o) :
    classifyFrom d.name r 0 0 d.parameters = .ok (o.slots, o.parameters) := by
  unfold Overload.bind at h
  split at h
  · cases h
  · next slots parameters hclassify =>
    split at h
    · cases h
    · cases h
      exact hclassify

theorem arity_eq_countP (o : Overload σ) : o.arity = o.slots.countP Slot.consumes :=
  List.countP_eq_length_filter.symm

namespace Bound

theorem tailLast (h : o.Bound) : Slot.TailLast o.slots := by
  obtain ⟨serial, owner, d, r, hbind⟩ := h
  exact tailLast_of_classifyFrom (classifyFrom_of_bind hbind)

theorem length_parameters (h : o.Bound) : o.parameters.length = o.arity := by
  obtain ⟨serial, owner, d, r, hbind⟩ := h
  rw [arity_eq_countP, length_specs_of_classifyFrom (classifyFrom_of_bind hbind)]

end Bound

/-- The last slot of a variadic overload takes arguments, so the arity is not zero. -/
theorem arity_pos_of_isVariadic (h : o.isVariadic = true) : 1 ≤ o.arity := by
  rw [arity_eq_countP]
  exact Slot.countP_consumes_pos h

theorem accepts_iff_of_variadic (h : o.isVariadic = true) :
    o.accepts n = true ↔ o.minArgs ≤ n := by
  simp [accepts, maxArgs, h]

theorem accepts_iff_of_fixed (h : o.isVariadic = false) : o.accepts n = true ↔ n = o.arity := by
  simp only [accepts, maxArgs, minArgs, h, Bool.false_eq_true, if_false, Option.all_some,
    Bool.and_eq_true, decide_eq_true_eq]
  omega

/-- Every overload accepts as many arguments as it has slots that take one. -/
theorem accepts_arity (o : Overload σ) : o.accepts o.arity = true := by
  cases h : o.isVariadic with
  | false => exact (accepts_iff_of_fixed h).mpr rfl
  | true =>
      refine (accepts_iff_of_variadic h).mpr ?_
      simp [minArgs, h]

end Overload

end HostCall
