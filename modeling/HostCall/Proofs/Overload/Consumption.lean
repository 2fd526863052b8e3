import HostCall.Proofs.Overload.Declared
import HostCall.Proofs.Overload.Representation

/-!
# Parameters that take arguments

A declaration counts the parameters that take arguments by the look of their types.  Binding counts
slots, and it asks the registry before it looks for the things that a call supplies.  So the two
counts differ by the parameters that look as if the call filled them and that the registry converts
all the same.  The builtin registry converts none of these.
-/

namespace HostCall

/-- Whether a registry has a conversion for a parameter. -/
def Parameter.resolvesIn (r : Registry) (p : Parameter) : Bool :=
  (r.resolve p.type p.element).isSome

theorem Parameter.isInjected_eq_false {p : Parameter} {t : TypeDescriptor}
    (h : p.type.same t = true) (ht : t ∈ TypeDescriptor.known) (he : t ≠ .environment)
    (hl : t ≠ .location) : p.isInjected = false := by
  have henvironment : p.type.isEnvironment = false :=
    TypeDescriptor.same_eq_false h ht (by decide) he
  have hlocation : p.type.isLocation = false := TypeDescriptor.same_eq_false h ht (by decide) hl
  rw [isInjected, henvironment, hlocation]
  rfl

theorem Parameter.BoundTo.consumes_eq {p : Parameter} {slot : Slot} (h : p.BoundTo slot) :
    slot.consumes = !p.isInjected := by
  obtain ⟨spec, -, ⟨r, hr, rfl⟩ | ⟨hvoid, rfl⟩⟩ := h
  · have hknown := hr.descriptor_mem_known
    cases r with
    | cell => rw [isInjected_eq_false hr.same hknown (by decide) (by decide)]; rfl
    | cells => rw [isInjected_eq_false hr.same hknown (by decide) (by decide)]; rfl
    | environment =>
        have htype : p.type.isEnvironment = true := hr.same
        rw [isInjected, htype]
        rfl
    | location =>
        have htype : p.type.isLocation = true := hr.same
        rw [isInjected, htype, Bool.or_true]
        rfl
    | data t =>
        obtain ⟨-, -, he, hl⟩ := hr.descriptor_ne
        rw [isInjected_eq_false hr.same hknown he hl]
        rfl
  · rw [isInjected_eq_false hvoid (by decide) (by decide) (by decide)]
    rfl

theorem countP_consumes_of_forall₂ {ps : List Parameter} {slots : List Slot}
    (h : List.Forall₂ Parameter.BoundTo ps slots) :
    slots.countP Slot.consumes = ps.countP fun p => !p.isInjected := by
  induction h with
  | nil => rfl
  | cons hp _ ih => rw [List.countP_cons, List.countP_cons, ih, hp.consumes_eq]

/-! ## Any registry -/

/-- A parameter takes arguments unless it looks as if the call filled it, and then it does where the
registry knows better. -/
theorem Parameter.FillsAs.consumes_eq {member : String} {r : Registry} {p : Parameter} {slot : Slot}
    (h : p.FillsAs member r slot) : slot.consumes = (!p.isInjected || p.resolvesIn r) := by
  obtain ⟨position, isLast, spec, hslot⟩ := h
  rcases classify_ok hslot with
    ⟨hcell, rfl⟩ | ⟨-, c, hc, rfl⟩ | ⟨-, hnone, ⟨henv, rfl⟩ | ⟨-, hloc, rfl⟩ |
      ⟨henv, hloc, -, -, rfl⟩⟩
  · rw [isInjected_eq_false hcell (by decide) (by decide) (by decide)]
    rfl
  · rw [resolvesIn, hc, Option.isSome_some, Bool.or_true]
    rfl
  · rw [isInjected, henv, resolvesIn, hnone]
    rfl
  · rw [isInjected, hloc, Bool.or_true, resolvesIn, hnone]
    rfl
  · rw [isInjected, henv, hloc]
    rfl

theorem countP_consumes_of_fillsAs {member : String} {r : Registry} {ps : List Parameter}
    {slots : List Slot} (h : List.Forall₂ (Parameter.FillsAs member r) ps slots) :
    slots.countP Slot.consumes =
      (ps.countP fun p => !p.isInjected) + ps.countP fun p => p.isInjected && p.resolvesIn r := by
  induction h with
  | nil => rfl
  | @cons p slot ps slots hp _ ih =>
      simp only [List.countP_cons]
      rw [ih, hp.consumes_eq]
      cases p.isInjected <;> cases p.resolvesIn r <;> simp <;> omega

namespace Overload

variable {σ : Type} {o : Overload σ} {serial : Nat} {owner : String} {d : Declaration σ}
  {r : Registry}

/-- An overload takes as many arguments as its declaration counts parameters that take one, and one
more for every parameter of the environment's or the location's type that the registry converts.  So
the two numbers agree just when the registry converts none of these, and with the builtin registry
they always do. -/
theorem arity_eq_consumingParameters_add (h : Overload.bind serial owner d r = .ok o) :
    o.arity = d.consumingParameters +
      (d.parameters.countP fun p => p.isInjected && p.resolvesIn r) ∧
    (o.arity = d.consumingParameters ↔
      ∀ p ∈ d.parameters, p.isInjected = true → r.resolve p.type p.element = none) ∧
    (r = .builtin → o.arity = d.consumingParameters) := by
  have hcount : d.consumingParameters = d.parameters.countP fun p => !p.isInjected :=
    List.countP_eq_length_filter.symm
  have harity : o.arity = d.consumingParameters +
      (d.parameters.countP fun p => p.isInjected && p.resolvesIn r) := by
    rw [arity_eq_countP, hcount]
    exact countP_consumes_of_fillsAs (forall₂_of_classifyFrom (classifyFrom_of_bind h))
  refine ⟨harity, ?_, ?_⟩
  · rw [harity, Nat.add_eq_left, List.countP_eq_zero]
    refine forall₂_congr fun p _ => ?_
    simp [Parameter.resolvesIn]
  · rintro rfl
    rw [arity_eq_countP, hcount]
    exact countP_consumes_of_forall₂ (forall₂_boundTo h)

/-- The builtin registry with a conversion for environments of numbers. -/
def numbersRegistry : Registry :=
  Registry.builtin.registerGeneric .environment ⟨"i64"⟩ .passthrough

/-- Reads a number, sees the environment twice, once with an element type beside it, sees the
location and takes all cells behind. -/
def watch : Declaration Unit :=
  { OverloadTable.gather with
    name := "watch"
    parameters := [{ type := ⟨"i64"⟩ }, { type := .environment },
      { type := .environment, element := some ⟨"i64"⟩ }, { type := .location },
      { type := .cells }] }

/-- Of the three parameters that look as if the call filled them only the one with the element type
takes an argument, and that only where there is a conversion for it. -/
theorem arity_eq_consumingParameters_add_watch :
    (∃ o, Overload.bind 0 "" watch numbersRegistry = .ok o ∧ o.arity = 3 ∧
      o.arity ≠ watch.consumingParameters) ∧
    ∃ o, Overload.bind 0 "" watch .builtin = .ok o ∧ o.arity = 2 := by
  have hconsuming : watch.consumingParameters = 2 := by decide +kernel
  obtain ⟨o, ho, -⟩ := exists_bind_of_check
    (show (Overload.bind 0 "" watch numbersRegistry).toOption.any (fun _ => true) = true by
      decide +kernel)
  obtain ⟨p, hp, -⟩ := exists_bind_of_check
    (show (Overload.bind 0 "" watch .builtin).toOption.any (fun _ => true) = true by
      decide +kernel)
  obtain ⟨hcount, hagree, -⟩ := arity_eq_consumingParameters_add ho
  obtain ⟨-, -, hbuiltin⟩ := arity_eq_consumingParameters_add hp
  refine ⟨⟨o, ho, ?_, fun heq => ?_⟩, p, hp, (hbuiltin rfl).trans hconsuming⟩
  · rw [hcount, hconsuming]
    decide +kernel
  · have hnone := hagree.mp heq { type := .environment, element := some ⟨"i64"⟩ }
      (by decide) (by decide +kernel)
    exact absurd (Option.isNone_iff_eq_none.mpr hnone) (by decide +kernel)

end Overload

end HostCall
