import HostCall.Proofs.Overload.Binding

/-!
# Classification by precedence

A parameter is tried for the kinds of slot in a fixed order and gets the first that applies.  The
leftmost parameter that no kind applies to decides the error of a declaration, and the return type
is looked at only when there is none.  The specs of a declaration that binds keep step with the
slots that take arguments, whichever of the parameters these come from.
-/

namespace HostCall

/-! ## One parameter -/

/-- The kinds of slot. -/
inductive SlotKind
  | passthrough | converted | environment | location | tail
deriving DecidableEq

namespace SlotKind

/-- The place of a kind in the order in which a parameter is tried for them. -/
def rank : SlotKind → Nat
  | .passthrough => 0
  | .converted => 1
  | .environment => 2
  | .location => 3
  | .tail => 4

/-- Whether a parameter can have a slot of a kind. -/
def Applies (r : Registry) (isLast : Prop) (p : Parameter) : SlotKind → Prop
  | .passthrough => p.type.isCell = true
  | .converted => ∃ c, r.resolve p.type p.element = some c
  | .environment => p.type.isEnvironment = true
  | .location => p.type.isLocation = true
  | .tail => p.type.isCells = true ∧ isLast

/-- A kind applies to a parameter and none before it does. -/
def IsFirst (r : Registry) (isLast : Prop) (p : Parameter) (k : SlotKind) : Prop :=
  k.Applies r isLast p ∧ ∀ j : SlotKind, j.rank < k.rank → ¬j.Applies r isLast p

end SlotKind

/-- The slot of a kind for a parameter: raw cells have its flags, a conversion is the registered one
and is told the spec. -/
inductive Slot.IsOf (r : Registry) (p : Parameter) (spec : ParameterSpec) : SlotKind → Slot → Prop
  | passthrough : IsOf r p spec .passthrough (.passthrough ⟨p.isReference, p.isMutable⟩)
  | converted {c : Conversion} :
      r.resolve p.type p.element = some c → IsOf r p spec .converted (.converted c spec)
  | environment : IsOf r p spec .environment (.injected .environment)
  | location : IsOf r p spec .location (.injected .location)
  | tail : IsOf r p spec .tail (.tail ⟨p.isReference, p.isMutable⟩)

namespace Parameter

variable {member : String} {r : Registry} {position : Nat} {isLast : Bool} {spec : ParameterSpec}
  {p : Parameter} {slot : Slot} {e : BindingError}

/-- Some kind of slot applies to a parameter. -/
def Fits (r : Registry) (isLast : Prop) (p : Parameter) : Prop :=
  ∃ k : SlotKind, k.Applies r isLast p

/-- The error for a parameter that fits no slot. -/
def refusal (member : String) (position : Nat) (p : Parameter) : BindingError :=
  if p.type.isCells then .misplacedTail member position else .unsupportedType p.type.name

theorem exists_isFirst_of_classify
    (h : p.classify member r position isLast spec = .ok slot) :
    ∃ k : SlotKind, k.IsFirst r (isLast = true) p ∧ slot.IsOf r p spec k := by
  rcases classify_ok h with
    ⟨hcell, rfl⟩ | ⟨hcell, c, hc, rfl⟩ | ⟨hcell, hnone, ⟨henv, rfl⟩ | ⟨henv, hloc, rfl⟩ |
      ⟨henv, hloc, hcells, hlast, rfl⟩⟩
  · refine ⟨.passthrough, ⟨hcell, fun j hj => absurd hj (Nat.not_lt_zero _)⟩, .passthrough⟩
  · refine ⟨.converted, ⟨⟨c, hc⟩, fun j hj => ?_⟩, .converted hc⟩
    cases j <;> simp_all [SlotKind.rank, SlotKind.Applies]
  · refine ⟨.environment, ⟨henv, fun j hj => ?_⟩, .environment⟩
    cases j <;> simp_all [SlotKind.rank, SlotKind.Applies]
  · refine ⟨.location, ⟨hloc, fun j hj => ?_⟩, .location⟩
    cases j <;> simp_all [SlotKind.rank, SlotKind.Applies]
  · refine ⟨.tail, ⟨⟨hcells, hlast⟩, fun j hj => ?_⟩, .tail⟩
    cases j <;> simp_all [SlotKind.rank, SlotKind.Applies]

theorem not_fits_iff {isLast : Prop} :
    ¬p.Fits r isLast ↔
      p.type.isCell = false ∧ r.resolve p.type p.element = none ∧ p.type.isEnvironment = false ∧
        p.type.isLocation = false ∧ (p.type.isCells = true → ¬isLast) := by
  constructor
  · intro h
    refine ⟨?_, ?_, ?_, ?_, fun hcells hlast => h ⟨.tail, hcells, hlast⟩⟩
    · exact Bool.eq_false_iff.mpr fun hcell => h ⟨.passthrough, hcell⟩
    · exact Option.eq_none_iff_forall_ne_some.mpr fun c hc => h ⟨.converted, c, hc⟩
    · exact Bool.eq_false_iff.mpr fun henv => h ⟨.environment, henv⟩
    · exact Bool.eq_false_iff.mpr fun hloc => h ⟨.location, hloc⟩
  · rintro ⟨hcell, hnone, henv, hloc, hcells⟩ ⟨k, hk⟩
    cases k with
    | passthrough => cases hcell.symm.trans hk
    | converted =>
        obtain ⟨c, hc⟩ := hk
        cases hnone.symm.trans hc
    | environment => cases henv.symm.trans hk
    | location => cases hloc.symm.trans hk
    | tail => exact hcells hk.1 hk.2

/-- A parameter is refused just when no kind of slot applies to it. -/
theorem classify_eq_error_iff :
    p.classify member r position isLast spec = .error e ↔
      ¬p.Fits r (isLast = true) ∧ e = p.refusal member position := by
  constructor
  · intro h
    unfold classify at h
    split at h
    · cases h
    · next hcell =>
      have hcell : p.type.isCell = false := Bool.eq_false_iff.mpr hcell
      split at h
      · cases h
      · next hnone =>
        split at h
        · cases h
        · next henv =>
          have henv : p.type.isEnvironment = false := Bool.eq_false_iff.mpr henv
          split at h
          · cases h
          · next hloc =>
            have hloc : p.type.isLocation = false := Bool.eq_false_iff.mpr hloc
            split at h
            · next hcells =>
              split at h
              · cases h
              · next hlast =>
                cases h
                refine ⟨not_fits_iff.mpr ⟨hcell, hnone, henv, hloc, fun _ => hlast⟩, ?_⟩
                rw [refusal, if_pos hcells]
            · next hcells =>
              cases h
              refine ⟨not_fits_iff.mpr ⟨hcell, hnone, henv, hloc, fun hc => absurd hc hcells⟩, ?_⟩
              rw [refusal, if_neg hcells]
  · rintro ⟨hnot, rfl⟩
    obtain ⟨hcell, hnone, henv, hloc, hcells⟩ := not_fits_iff.mp hnot
    unfold classify refusal
    rw [hcell, hnone, henv, hloc]
    by_cases hc : p.type.isCells = true
    · simp [hc, hcells hc]
    · simp [hc]

end Parameter

/-! ## All parameters -/

section All

variable {member : String} {r : Registry} {position consumed : Nat} {ps : List Parameter}
  {slots : List Slot} {specs : List ParameterSpec} {e : BindingError}

/-- Every parameter of a list fits some slot, which for a tail depends on its place. -/
def AllFit (r : Registry) (ps : List Parameter) : Prop :=
  ∀ (i : Nat) (p : Parameter), ps[i]? = some p → p.Fits r (i + 1 = ps.length)

theorem allFit_cons {p : Parameter} :
    AllFit r (p :: ps) ↔ p.Fits r (ps = []) ∧ AllFit r ps := by
  constructor
  · intro h
    refine ⟨by simpa using h 0 p rfl, fun i q hq => ?_⟩
    simpa using h (i + 1) q hq
  · rintro ⟨hp, hps⟩ i q hq
    cases i with
    | zero =>
        cases hq
        simpa using hp
    | succ i => simpa using hps i q hq

/-- The error is that of a parameter which fits no slot while all before it fit one. -/
def FirstUnfit (member : String) (r : Registry) (position : Nat) (ps : List Parameter)
    (e : BindingError) : Prop :=
  ∃ (i : Nat) (p : Parameter), ps[i]? = some p ∧ ¬p.Fits r (i + 1 = ps.length) ∧
    (∀ (j : Nat) (q : Parameter), j < i → ps[j]? = some q → q.Fits r (j + 1 = ps.length)) ∧
    e = p.refusal member (position + i)

theorem firstUnfit_cons {p : Parameter} :
    FirstUnfit member r position (p :: ps) e ↔
      (¬p.Fits r (ps = []) ∧ e = p.refusal member position) ∨
      (p.Fits r (ps = []) ∧ FirstUnfit member r (position + 1) ps e) := by
  constructor
  · rintro ⟨i, q, hq, hnot, hbefore, rfl⟩
    cases i with
    | zero =>
        cases hq
        exact .inl ⟨by simpa using hnot, rfl⟩
    | succ i =>
        refine .inr ⟨by simpa using hbefore 0 p (Nat.succ_pos i) rfl, i, q, hq,
          by simpa using hnot, fun j q' hj hq' => ?_, by rw [Nat.add_assoc, Nat.add_comm 1 i]⟩
        simpa using hbefore (j + 1) q' (Nat.succ_lt_succ hj) hq'
  · rintro (⟨hnot, rfl⟩ | ⟨hp, i, q, hq, hnot, hbefore, rfl⟩)
    · exact ⟨0, p, rfl, by simpa using hnot, fun j q hj => absurd hj (Nat.not_lt_zero j), rfl⟩
    · refine ⟨i + 1, q, hq, by simpa using hnot, fun j q' hj hq' => ?_,
        by rw [Nat.add_assoc, Nat.add_comm 1 i]⟩
      cases j with
      | zero =>
          cases hq'
          simpa using hp
      | succ j => simpa using hbefore j q' (Nat.lt_of_succ_lt_succ hj) hq'

theorem classifyFrom_cons_eq_error_iff {p : Parameter} :
    classifyFrom member r position consumed (p :: ps) = .error e ↔
      p.classify member r position ps.isEmpty (.positional consumed p.isNullable) = .error e ∨
      ∃ slot, p.classify member r position ps.isEmpty (.positional consumed p.isNullable) =
          .ok slot ∧
        classifyFrom member r (position + 1) (if slot.consumes then consumed + 1 else consumed) ps =
          .error e := by
  rw [classifyFrom]
  cases hslot : p.classify member r position ps.isEmpty (.positional consumed p.isNullable) with
  | error e' => simp [bind, Except.bind]
  | ok slot =>
      cases hrest : classifyFrom member r (position + 1)
          (if slot.consumes then consumed + 1 else consumed) ps with
      | error e' => simp [bind, Except.bind, hrest]
      | ok rest => simp [bind, Except.bind, hrest, pure, Except.pure]

/-- The leftmost parameter that fits no slot decides the error. -/
theorem classifyFrom_eq_error_iff :
    classifyFrom member r position consumed ps = .error e ↔
      FirstUnfit member r position ps e := by
  induction ps generalizing position consumed with
  | nil =>
      constructor
      · intro h
        cases h
      · rintro ⟨i, p, hp, -⟩
        cases hp
  | cons p ps ih =>
      have hlast : (ps.isEmpty = true) = (ps = []) := propext List.isEmpty_iff
      rw [classifyFrom_cons_eq_error_iff, firstUnfit_cons, Parameter.classify_eq_error_iff, hlast]
      refine or_congr_right ⟨?_, ?_⟩
      · rintro ⟨slot, hslot, hrest⟩
        obtain ⟨k, hk, -⟩ := Parameter.exists_isFirst_of_classify hslot
        exact ⟨⟨k, hlast ▸ hk.1⟩, ih.mp hrest⟩
      · rintro ⟨hp, hrest⟩
        cases hslot : p.classify member r position ps.isEmpty
            (.positional consumed p.isNullable) with
        | error e' => exact absurd (hlast ▸ hp) (Parameter.classify_eq_error_iff.mp hslot).1
        | ok slot => exact ⟨slot, rfl, ih.mpr hrest⟩

theorem FirstUnfit.not_allFit (h : FirstUnfit member r position ps e) : ¬AllFit r ps := by
  obtain ⟨i, p, hp, hnot, -⟩ := h
  exact fun hall => hnot (hall i p hp)

theorem allFit_or_exists_firstUnfit (member : String) (r : Registry) (position : Nat)
    (ps : List Parameter) : AllFit r ps ∨ ∃ e, FirstUnfit member r position ps e := by
  induction ps generalizing position with
  | nil =>
      left
      intro i p hp
      cases hp
  | cons p ps ih =>
      by_cases hp : p.Fits r (ps = [])
      · rcases ih (position + 1) with hall | ⟨e, he⟩
        · exact .inl (allFit_cons.mpr ⟨hp, hall⟩)
        · exact .inr ⟨e, firstUnfit_cons.mpr (.inr ⟨hp, he⟩)⟩
      · exact .inr ⟨_, firstUnfit_cons.mpr (.inl ⟨hp, rfl⟩)⟩

theorem exists_classifyFrom_eq_ok_iff :
    (∃ x, classifyFrom member r position consumed ps = .ok x) ↔ AllFit r ps := by
  cases h : classifyFrom member r position consumed ps with
  | error e =>
      have hunfit : FirstUnfit member r position ps e := classifyFrom_eq_error_iff.mp h
      constructor
      · rintro ⟨x, hx⟩
        cases hx
      · intro hall
        exact absurd hall hunfit.not_allFit
  | ok x =>
      refine ⟨fun _ => ?_, fun _ => ⟨x, rfl⟩⟩
      rcases allFit_or_exists_firstUnfit member r position ps with hall | ⟨e, he⟩
      · exact hall
      · cases h.symm.trans (classifyFrom_eq_error_iff.mpr he)

/-- Every parameter gets a slot of the first kind that applies to it. -/
theorem isFirst_of_classifyFrom
    (h : classifyFrom member r position consumed ps = .ok (slots, specs)) {i : Nat}
    {p : Parameter} {slot : Slot} (hp : ps[i]? = some p) (hslot : slots[i]? = some slot) :
    ∃ k spec, SlotKind.IsFirst r (i + 1 = ps.length) p k ∧ slot.IsOf r p spec k := by
  induction ps generalizing position consumed slots specs i with
  | nil => cases hp
  | cons q ps ih =>
      obtain ⟨slot', slots', specs', hfirst, hrest, rfl, -⟩ := classifyFrom_cons_ok h
      cases i with
      | zero =>
          cases hp
          cases hslot
          obtain ⟨k, hk, hof⟩ := Parameter.exists_isFirst_of_classify hfirst
          rw [List.isEmpty_iff] at hk
          exact ⟨k, _, by simpa using hk, hof⟩
      | succ i =>
          obtain ⟨k, spec, hk, hof⟩ := ih hrest hp hslot
          exact ⟨k, spec, by simpa using hk, hof⟩

/-- The slots that take arguments are counted on in step with the specs, and a conversion is told
the spec of its place. -/
theorem spec_of_classifyFrom
    (h : classifyFrom member r position consumed ps = .ok (slots, specs)) {k : Nat}
    {p : Parameter} {slot : Slot}
    (hk : ((ps.zip slots).filter fun x => x.2.consumes)[k]? = some (p, slot)) :
    specs[k]? = some (.positional (consumed + k) p.isNullable) ∧
      ∀ c spec, slot = .converted c spec → spec = .positional (consumed + k) p.isNullable := by
  induction ps generalizing position consumed slots specs k with
  | nil => cases hk
  | cons q ps ih =>
      obtain ⟨slot', slots', specs', hfirst, hrest, rfl, rfl⟩ := classifyFrom_cons_ok h
      rw [List.zip_cons_cons, List.filter_cons] at hk
      cases hconsumes : slot'.consumes with
      | false =>
          rw [hconsumes] at hk hrest
          exact ih hrest hk
      | true =>
          rw [hconsumes, if_pos rfl] at hk hrest
          cases k with
          | zero =>
              cases hk
              refine ⟨rfl, ?_⟩
              rintro c spec rfl
              obtain ⟨kind, -, hof⟩ := Parameter.exists_isFirst_of_classify hfirst
              cases hof
              rfl
          | succ k =>
              have hlater := ih hrest hk
              rw [Nat.add_assoc, Nat.add_comm 1 k] at hlater
              exact hlater

end All

namespace Overload

variable {σ : Type} {serial : Nat} {owner : String} {d : Declaration σ} {r : Registry}
  {o : Overload σ} {e : BindingError}

theorem bind_eq_error_iff :
    Overload.bind serial owner d r = .error e ↔
      FirstUnfit d.name r 0 d.parameters e ∨
      (AllFit r d.parameters ∧ r.resolve d.returnType d.returnElement = none ∧
        e = .unsupportedReturnType d.returnType.name) := by
  have herror := @classifyFrom_eq_error_iff d.name r 0 0 d.parameters e
  have hok := @exists_classifyFrom_eq_ok_iff d.name r 0 0 d.parameters
  unfold Overload.bind
  cases h : classifyFrom d.name r 0 0 d.parameters with
  | error e' =>
      rw [h] at herror hok
      have hnot : ¬AllFit r d.parameters := by
        rw [← hok]
        rintro ⟨x, hx⟩
        cases hx
      rw [← herror]
      constructor
      · intro he
        cases he
        exact .inl rfl
      · rintro (he | ⟨hall, -⟩)
        · cases he
          rfl
        · exact absurd hall hnot
  | ok x =>
      rw [h] at herror hok
      have hall : AllFit r d.parameters := hok.mp ⟨x, rfl⟩
      have hnot : ¬FirstUnfit d.name r 0 d.parameters e := by
        rw [← herror]
        intro he
        cases he
      cases hresolve : r.resolve d.returnType d.returnElement with
      | none =>
          constructor
          · intro he
            cases he
            exact .inr ⟨hall, rfl, rfl⟩
          · rintro (hunfit | ⟨-, -, rfl⟩)
            · exact absurd hunfit hnot
            · rfl
      | some c =>
          constructor
          · intro he
            cases he
          · rintro (hunfit | ⟨-, hnone, -⟩)
            · exact absurd hunfit hnot
            · cases hnone

theorem exists_bind_eq_ok_iff :
    (∃ o, Overload.bind serial owner d r = .ok o) ↔
      AllFit r d.parameters ∧ ∃ c, r.resolve d.returnType d.returnElement = some c := by
  cases h : Overload.bind serial owner d r with
  | error e =>
      constructor
      · rintro ⟨o, ho⟩
        cases ho
      · rintro ⟨hall, c, hc⟩
        rcases bind_eq_error_iff.mp h with hunfit | ⟨-, hnone, -⟩
        · exact absurd hall hunfit.not_allFit
        · cases hnone.symm.trans hc
  | ok o =>
      refine ⟨fun _ => ⟨?_, ?_⟩, fun _ => ⟨o, rfl⟩⟩
      · exact exists_classifyFrom_eq_ok_iff.mp ⟨_, classifyFrom_of_bind h⟩
      · cases hresolve : r.resolve d.returnType d.returnElement with
        | some c => exact ⟨c, rfl⟩
        | none =>
            have hall := exists_classifyFrom_eq_ok_iff.mp ⟨_, classifyFrom_of_bind h⟩
            cases h.symm.trans (bind_eq_error_iff.mpr (.inr ⟨hall, hresolve, rfl⟩))

/-- Binding classifies every parameter by one order of precedence.  A declaration binds just when
every parameter fits some slot and there is a conversion for the result.  Otherwise the leftmost
parameter that fits none decides the error, and the return type does only when there is none.  An
overload has one slot for every parameter, of the first kind that applies to it and with its flags;
and in each place the spec is that of the slot which takes the argument there, named for the place
and nullable as the parameter is, which is also what a conversion in that slot is told. -/
theorem bind_classifies (serial : Nat) (owner : String) (d : Declaration σ) (r : Registry) :
    ((∃ o, Overload.bind serial owner d r = .ok o) ↔
      AllFit r d.parameters ∧ ∃ c, r.resolve d.returnType d.returnElement = some c) ∧
    (∀ e, Overload.bind serial owner d r = .error e ↔
      FirstUnfit d.name r 0 d.parameters e ∨
      (AllFit r d.parameters ∧ r.resolve d.returnType d.returnElement = none ∧
        e = .unsupportedReturnType d.returnType.name)) ∧
    ∀ o, Overload.bind serial owner d r = .ok o →
      o.slots.length = d.parameters.length ∧
      (∀ (i : Nat) (p : Parameter) (slot : Slot),
        d.parameters[i]? = some p → o.slots[i]? = some slot →
        ∃ k spec, SlotKind.IsFirst r (i + 1 = d.parameters.length) p k ∧ slot.IsOf r p spec k) ∧
      o.parameters.length = o.slots.countP Slot.consumes ∧
      ∀ (k : Nat) (p : Parameter) (slot : Slot),
        ((d.parameters.zip o.slots).filter fun x => x.2.consumes)[k]? = some (p, slot) →
        o.parameters[k]? = some ⟨"arg" ++ toString k, p.isNullable⟩ ∧
        ∀ c spec, slot = .converted c spec → o.parameters[k]? = some spec := by
  refine ⟨exists_bind_eq_ok_iff, fun e => bind_eq_error_iff, fun o h => ?_⟩
  have hclassify := classifyFrom_of_bind h
  refine ⟨(forall₂_of_classifyFrom hclassify).length_eq.symm,
    fun i p slot hp hslot => isFirst_of_classifyFrom hclassify hp hslot,
    length_specs_of_classifyFrom hclassify, fun k p slot hk => ?_⟩
  obtain ⟨hspec, hconverted⟩ := spec_of_classifyFrom hclassify hk
  rw [Nat.zero_add] at hspec hconverted
  refine ⟨hspec, fun c spec hslot => ?_⟩
  rw [hconverted c spec hslot]
  exact hspec

/-- The builtin registry with a conversion for the environment. -/
def environmentRegistry : Registry := Registry.builtin.register .environment .passthrough

/-- Takes an environment and all cells behind it. -/
def relay : Declaration Unit where
  name := "relay"
  internalName := none
  modifiers := {}
  parameters := [{ type := .environment, isNullable := true }, { type := .cells }]
  returnType := .void
  returnElement := none
  implementation := ⟨0, .done (.ok ())⟩

/-- Where there is a conversion for the environment, the environment takes the first argument.  The
other way round the cells stand in a place where they cannot be a tail. -/
theorem bind_classifies_relay :
    (∃ o c spec, Overload.bind 0 "" relay environmentRegistry = .ok o ∧
      o.slots[0]? = some (.converted c spec) ∧ o.parameters[0]? = some ⟨"arg0", true⟩) ∧
    Overload.bind 0 "" { relay with parameters := relay.parameters.reverse } .builtin =
      .error (.misplacedTail "relay" 0) := by
  constructor
  · obtain ⟨hok, -, hslots⟩ := bind_classifies 0 "" relay environmentRegistry
    have hregistered : ∃ c, environmentRegistry.resolve .environment none = some c :=
      Option.isSome_iff_exists.mp (by decide +kernel)
    have hreturn : ∃ c, environmentRegistry.resolve .void none = some c :=
      Option.isSome_iff_exists.mp (by decide +kernel)
    have hall : AllFit environmentRegistry relay.parameters :=
      allFit_cons.mpr ⟨⟨.converted, hregistered⟩,
        allFit_cons.mpr ⟨⟨.tail, by decide +kernel, rfl⟩, fun i p hp => by cases hp⟩⟩
    obtain ⟨o, ho⟩ := hok.mpr ⟨hall, hreturn⟩
    obtain ⟨hlength, hfirst, -, hspecs⟩ := hslots o ho
    cases hs : o.slots with
    | nil =>
        rw [hs] at hlength
        cases hlength
    | cons slot slots =>
        rw [hs] at hfirst hspecs
        obtain ⟨k, spec, ⟨happlies, hbefore⟩, hof⟩ := hfirst 0 _ slot rfl rfl
        cases hof with
        | @converted c _ => exact ⟨o, c, spec, ho, by rw [hs]; rfl, (hspecs 0 _ _ rfl).1⟩
        | passthrough =>
            have hcell : TypeDescriptor.environment.isCell = true := happlies
            exact absurd hcell (by decide +kernel)
        | environment => exact absurd hregistered (hbefore .converted (by decide))
        | location => exact absurd hregistered (hbefore .converted (by decide))
        | tail => exact absurd hregistered (hbefore .converted (by decide))
  · obtain ⟨-, herror, -⟩ :=
      bind_classifies 0 "" { relay with parameters := relay.parameters.reverse } .builtin
    refine (herror _).mpr (.inl ⟨0, { type := .cells }, rfl, ?_, ?_, ?_⟩)
    · exact Parameter.not_fits_iff.mpr ⟨by decide +kernel,
        Option.isNone_iff_eq_none.mp (by decide +kernel), by decide +kernel, by decide +kernel,
        fun _ => by decide⟩
    · exact fun j q hj => absurd hj (Nat.not_lt_zero j)
    · decide +kernel

end Overload

end HostCall
