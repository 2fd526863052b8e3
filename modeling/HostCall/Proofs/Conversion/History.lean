import HostCall.Proofs.Conversion.Builtin
import Mathlib.Data.Finset.Dedup
import Mathlib.Data.Finset.Card

/-!
# Registries and what was registered in them

Registries are made, cloned and registered in, in any order.  What one of them knows depends on the
registrations of its own past alone: those made in it, and before that those of the registry that it
was cloned from.  A question is answered by the latest of these under its key, so the key decides
which later registrations can change the answer.
-/

namespace HostCall

/-- One registration: of any conversion for a type or for a generic type with an element type, or of
the conversion that a data type or the lists of one come with. -/
inductive Registration
  | plain (t : TypeDescriptor) (c : Conversion)
  | generic (t element : TypeDescriptor) (c : Conversion)
  | data (d : DataType)
  | list (e : DataType)

namespace Registration

def key : Registration → RegistryKey
  | .plain t _ => ⟨t.fingerprint, none⟩
  | .generic t element _ => ⟨t.fingerprint, some element.fingerprint⟩
  | .data d => Registry.dataKey d
  | .list e => Registry.listKey e

def conversion : Registration → Conversion
  | .plain _ c => c
  | .generic _ _ c => c
  | .data d => .ofData d
  | .list e => .ofData (.list e)

end Registration

variable {h : List Registration} {x : Registration} {k : RegistryKey} {c : Conversion}

/-! ## The latest registration of a key -/

/-- In a history, the latest first, the latest registration of the key is one of the conversion. -/
def LatestUnder (h : List Registration) (k : RegistryKey) (c : Conversion) : Prop :=
  ∃ later x earlier, h = later ++ x :: earlier ∧ x.key = k ∧ x.conversion = c ∧
    ∀ y ∈ later, y.key ≠ k

theorem not_latestUnder_nil : ¬LatestUnder [] k c := by
  rintro ⟨later, x, earlier, heq, -⟩
  simp at heq

theorem latestUnder_cons_of_eq (hx : x.key = k) : LatestUnder (x :: h) k c ↔ x.conversion = c := by
  constructor
  · rintro ⟨later, y, earlier, heq, -, hc, hlater⟩
    cases later with
    | nil =>
        cases heq
        exact hc
    | cons z later =>
        cases heq
        exact absurd hx (hlater x List.mem_cons_self)
  · intro hc
    exact ⟨[], x, h, rfl, hx, hc, by simp⟩

theorem latestUnder_cons_of_ne (hx : x.key ≠ k) : LatestUnder (x :: h) k c ↔ LatestUnder h k c := by
  constructor
  · rintro ⟨later, y, earlier, heq, hy, hc, hlater⟩
    cases later with
    | nil =>
        cases heq
        exact absurd hy hx
    | cons z later =>
        cases heq
        exact ⟨later, y, earlier, rfl, hy, hc, fun w hw => hlater w (List.mem_cons_of_mem _ hw)⟩
  · rintro ⟨later, y, earlier, rfl, hy, hc, hlater⟩
    refine ⟨x :: later, y, earlier, rfl, hy, hc, fun w hw => ?_⟩
    rcases List.mem_cons.mp hw with rfl | hw
    · exact hx
    · exact hlater w hw

/-! ## Registering a history -/

namespace Registry

variable {r : Registry} {t : TypeDescriptor} {element : Option TypeDescriptor}

def apply (r : Registry) : Registration → Registry
  | .plain t c => r.register t c
  | .generic t element c => r.registerGeneric t element c
  | .data d => r.registerData d
  | .list e => r.registerList e

/-- The registry that a history leads to, the latest registration first. -/
def replay (h : List Registration) : Registry := h.foldr (fun x r => r.apply x) .empty

theorem apply_eq_insert (r : Registry) (x : Registration) :
    r.apply x = r.insert x.key x.conversion := by
  cases x <;> rfl

theorem replay_cons : replay (x :: h) = (replay h).insert x.key x.conversion :=
  apply_eq_insert (replay h) x

theorem get?_replay_eq_some_iff : (replay h).get? k = some c ↔ LatestUnder h k c := by
  induction h with
  | nil => exact iff_of_false (by simp [replay, empty, get?]) not_latestUnder_nil
  | cons x h ih =>
      rw [replay_cons, get?_insert]
      by_cases hk : x.key = k
      · rw [if_pos hk.symm, latestUnder_cons_of_eq hk, Option.some.injEq]
      · rw [if_neg (Ne.symm hk), latestUnder_cons_of_ne hk, ih]

/-- A key is unknown just when it was never registered. -/
theorem get?_replay_eq_none_iff : (replay h).get? k = none ↔ ∀ x ∈ h, x.key ≠ k := by
  induction h with
  | nil => simp [replay, empty, get?]
  | cons x h ih =>
      rw [replay_cons, get?_insert, List.forall_mem_cons]
      by_cases hk : x.key = k
      · simp [hk]
      · simp [hk, Ne.symm hk, ih]

/-- The keys of a registry, without repetition, are those that were registered. -/
theorem keys_replay (h : List Registration) :
    ((replay h).entries.map Prod.fst).Nodup ∧
      ∀ k, k ∈ (replay h).entries.map Prod.fst ↔ k ∈ h.map Registration.key := by
  induction h with
  | nil => exact ⟨List.nodup_nil, fun k => Iff.rfl⟩
  | cons x h ih =>
      obtain ⟨hnodup, hmem⟩ := ih
      have hkeys : (replay (x :: h)).entries.map Prod.fst =
          x.key :: ((replay h).entries.map Prod.fst).filter fun k => k ≠ x.key := by
        rw [replay_cons, List.filter_map]
        rfl
      rw [hkeys]
      refine ⟨List.nodup_cons.mpr ⟨by simp, hnodup.filter _⟩, fun k => ?_⟩
      rw [List.mem_cons, List.mem_filter, hmem, List.map_cons, List.mem_cons, decide_eq_true_iff]
      by_cases hk : k = x.key
      · simp [hk]
      · simp [hk]

theorem size_replay (h : List Registration) :
    (replay h).size = (h.map Registration.key).toFinset.card := by
  obtain ⟨hnodup, hmem⟩ := keys_replay h
  calc (replay h).size
      = ((replay h).entries.map Prod.fst).length := (List.length_map _).symm
    _ = ((replay h).entries.map Prod.fst).toFinset.card :=
        (List.toFinset_card_of_nodup hnodup).symm
    _ = (h.map Registration.key).toFinset.card := by
        congr 1
        ext k
        rw [List.mem_toFinset, List.mem_toFinset, hmem]

theorem resolve_some_eq_some_iff {e : TypeDescriptor} :
    r.resolve t (some e) = some c ↔
      r.get? ⟨t.fingerprint, some e.fingerprint⟩ = some c ∨
      (r.get? ⟨t.fingerprint, some e.fingerprint⟩ = none ∧
        r.get? ⟨t.fingerprint, none⟩ = some c) := by
  unfold resolve
  cases hget : r.get? ⟨t.fingerprint, some e.fingerprint⟩ with
  | none => simp [hget]
  | some d => simp [hget]

/-- Two registries that agree on the key of a question and on its type alone answer it alike. -/
theorem resolve_congr {r' : Registry}
    (hkey : r'.get? ⟨t.fingerprint, element.map TypeDescriptor.fingerprint⟩ =
      r.get? ⟨t.fingerprint, element.map TypeDescriptor.fingerprint⟩)
    (hplain : r'.get? ⟨t.fingerprint, none⟩ = r.get? ⟨t.fingerprint, none⟩) :
    r'.resolve t element = r.resolve t element := by
  cases element with
  | none => exact hplain
  | some e =>
      have hkey : r'.get? ⟨t.fingerprint, some e.fingerprint⟩ =
        r.get? ⟨t.fingerprint, some e.fingerprint⟩ := hkey
      rw [resolve, resolve, hkey, hplain]

theorem get?_apply_of_ne (hx : x.key ≠ k) : (r.apply x).get? k = r.get? k := by
  rw [apply_eq_insert, get?_insert, if_neg (Ne.symm hx)]

/-- A registration for one type leaves the questions for every other. -/
theorem resolve_apply_of_type_ne (hx : x.key.type ≠ t.fingerprint) :
    (r.apply x).resolve t element = r.resolve t element :=
  resolve_congr (get?_apply_of_ne fun hk => hx (congrArg RegistryKey.type hk))
    (get?_apply_of_ne fun hk => hx (congrArg RegistryKey.type hk))

/-- A registration with an element type leaves every question that is not asked with that one. -/
theorem resolve_apply_of_element_ne {f : Fingerprint} (hx : x.key.element = some f)
    (hne : element.map TypeDescriptor.fingerprint ≠ some f) :
    (r.apply x).resolve t element = r.resolve t element := by
  refine resolve_congr (get?_apply_of_ne fun hk => hne ?_) (get?_apply_of_ne fun hk => ?_)
  · rw [← hx, hk]
  · rw [hk] at hx
    cases hx

/-- The registrations of the builtin registry, the latest first. -/
def builtinRegistrations : List Registration :=
  (builtinElements.map Registration.list).reverse ++
    ((builtinTypes.map Registration.data).reverse ++
      [.plain .cell .passthrough, .plain .void .void])

theorem replay_builtinRegistrations : replay builtinRegistrations = builtin := by
  rw [replay, builtinRegistrations, List.foldr_append, List.foldr_append, List.foldr_reverse,
    List.foldr_reverse, List.foldl_map, List.foldl_map]
  rfl

end Registry

/-! ## Registries side by side -/

/-- What can be done with registries, which are told apart by numbers. -/
inductive RegistryStep
  | empty (i : Nat)
  | builtin (i : Nat)
  /-- Makes the second registry a clone of the first. -/
  | clone (i j : Nat)
  | register (i : Nat) (x : Registration)

namespace RegistryStep

/-- The registry that a step makes or changes. -/
def target : RegistryStep → Nat
  | .empty i => i
  | .builtin i => i
  | .clone _ j => j
  | .register i _ => i

def perform (rs : Nat → Registry) : RegistryStep → Nat → Registry
  | .empty i => Function.update rs i .empty
  | .builtin i => Function.update rs i .builtin
  | .clone i j => Function.update rs j (rs i)
  | .register i x => Function.update rs i ((rs i).apply x)

theorem perform_of_ne {rs : Nat → Registry} {step : RegistryStep} {i : Nat}
    (hi : step.target ≠ i) : step.perform rs i = rs i := by
  cases step <;> exact Function.update_of_ne (Ne.symm hi) _ _

end RegistryStep

namespace Registry

open RegistryStep (perform perform_of_ne)

variable {log : List RegistryStep} {i j : Nat}

/-- The registries after a log of steps, the latest first. -/
def after (log : List RegistryStep) : Nat → Registry :=
  log.foldr (fun step rs => step.perform rs) fun _ => .empty

/-- The registrations in the past of a registry, the latest first.  A clone takes over the past that
the other registry had when the clone was taken. -/
def history : List RegistryStep → Nat → List Registration
  | [], _ => []
  | .empty j :: log, i => if i = j then [] else history log i
  | .builtin j :: log, i => if i = j then builtinRegistrations else history log i
  | .clone j k :: log, i => if i = k then history log j else history log i
  | .register j x :: log, i => if i = j then x :: history log j else history log i

theorem after_eq_replay (log : List RegistryStep) (i : Nat) :
    after log i = replay (history log i) := by
  induction log generalizing i with
  | nil => rfl
  | cons step log ih =>
      by_cases hi : step.target = i
      · subst hi
        cases step with
        | empty j => simp [after, perform, history, RegistryStep.target, replay]
        | builtin j =>
            simp [after, perform, history, RegistryStep.target, replay_builtinRegistrations]
        | clone j k =>
            have hupdate : after (.clone j k :: log) k = after log j := Function.update_self _ _ _
            rw [RegistryStep.target, hupdate, history, if_pos rfl, ih]
        | register j x =>
            have hupdate : after (.register j x :: log) j = (after log j).apply x :=
              Function.update_self _ _ _
            rw [RegistryStep.target, hupdate, history, if_pos rfl, ih]
            rfl
      · have hafter : after (step :: log) i = after log i := perform_of_ne hi
        have hhistory : history (step :: log) i = history log i := by
          cases step <;> exact if_neg (Ne.symm hi)
        rw [hafter, hhistory, ih]

/-- Steps that make or change other registries leave a registry. -/
theorem after_append_of_ne {more : List RegistryStep} (h : ∀ step ∈ more, step.target ≠ i) :
    after (more ++ log) i = after log i := by
  induction more with
  | nil => rfl
  | cons step more ih =>
      obtain ⟨hstep, hmore⟩ := List.forall_mem_cons.mp h
      exact (perform_of_ne hstep).trans (ih hmore)

theorem after_clone : after (.clone i j :: log) j = after log i := Function.update_self _ _ _

theorem after_register : after (.register i x :: log) i = (after log i).apply x :=
  Function.update_self _ _ _

/-- After any log of steps a registry answers by its own past.  A question without an element type
is answered by the latest registration of the type alone, and one with an element type by the latest
registration of both, or else by that of the type alone.  There are as many entries as keys that
were registered.  A registration changes no answer for another type, and with an element type none
that is not asked with this one.  Steps on other registries, clones of this one and what it was
cloned from among them, change nothing here, and a clone stays what the registry was until it is
made anew or registered in. -/
theorem resolve_after (log : List RegistryStep) (i : Nat) :
    (∀ t c, (after log i).resolve t none = some c ↔
      LatestUnder (history log i) ⟨t.fingerprint, none⟩ c) ∧
    (∀ t e c, (after log i).resolve t (some e) = some c ↔
      LatestUnder (history log i) ⟨t.fingerprint, some e.fingerprint⟩ c ∨
      ((∀ x ∈ history log i, x.key ≠ ⟨t.fingerprint, some e.fingerprint⟩) ∧
        LatestUnder (history log i) ⟨t.fingerprint, none⟩ c)) ∧
    (∀ t, (after log i).contains t = true ↔ ∃ x ∈ history log i, x.key = ⟨t.fingerprint, none⟩) ∧
    (after log i).size = ((history log i).map Registration.key).toFinset.card ∧
    (∀ x t element, x.key.type ≠ t.fingerprint →
      (after (.register i x :: log) i).resolve t element = (after log i).resolve t element) ∧
    (∀ x f t element, x.key.element = some f →
      element.map TypeDescriptor.fingerprint ≠ some f →
      (after (.register i x :: log) i).resolve t element = (after log i).resolve t element) ∧
    (∀ more : List RegistryStep, (∀ step ∈ more, step.target ≠ i) →
      after (more ++ log) i = after log i) ∧
    ∀ (j : Nat) (more : List RegistryStep), (∀ step ∈ more, step.target ≠ j) →
      after (more ++ .clone i j :: log) j = after log i := by
  have hreplay : after log i = replay (history log i) := after_eq_replay log i
  refine ⟨fun t c => ?_, fun t e c => ?_, fun t => ?_, ?_, fun x t element hx => ?_,
    fun x f t element hx hne => ?_, fun more hmore => after_append_of_ne hmore,
    fun j more hmore => (after_append_of_ne hmore).trans after_clone⟩
  · rw [hreplay]
    exact get?_replay_eq_some_iff
  · rw [hreplay, resolve_some_eq_some_iff, get?_replay_eq_some_iff, get?_replay_eq_some_iff,
      get?_replay_eq_none_iff]
  · rw [hreplay, contains, Option.isSome_iff_ne_none]
    change (replay (history log i)).get? ⟨t.fingerprint, none⟩ ≠ none ↔ _
    rw [Ne, get?_replay_eq_none_iff]
    simp
  · rw [hreplay, size_replay]
  · rw [after_register, resolve_apply_of_type_ne hx]
  · rw [after_register, resolve_apply_of_element_ne hx hne]

/-- Lists in general and lists of numbers are registered, and the latter once more in a clone. -/
def listLog : List RegistryStep :=
  [.register 1 (.generic .list ⟨"i64"⟩ .passthrough), .clone 0 1,
    .register 0 (.list (.int .i64)), .register 0 (.plain .list .void), .empty 0]

/-- Lists of numbers are now raw in the clone, while the original still reads them, and lists of
texts are nothing in both. -/
theorem resolve_after_listLog :
    (after listLog 1).resolve .list (some ⟨"i64"⟩) = some .passthrough ∧
      (after listLog 0).resolve .list (some ⟨"i64"⟩) = some (.ofData (.list (.int .i64))) ∧
      (after listLog 1).resolve .list (some ⟨"String"⟩) = some .void ∧
      (after listLog 1).size = 2 := by
  obtain ⟨-, hoften, -, hsize, -, -, -, -⟩ := resolve_after listLog 1
  obtain ⟨-, -, -, -, -, -, hother, -⟩ := resolve_after (listLog.drop 2) 0
  obtain ⟨-, hbefore, -⟩ := resolve_after (listLog.drop 2) 0
  refine ⟨(hoften _ _ _).mpr (.inl ?_), ?_, (hoften _ _ _).mpr (.inr ⟨by decide +kernel, ?_⟩), ?_⟩
  · exact ⟨[], _, _, rfl, rfl, rfl, by simp⟩
  · have hsame := hother (listLog.take 2) (by decide)
    rw [show listLog = listLog.take 2 ++ listLog.drop 2 from rfl, hsame, hbefore]
    exact .inl ⟨[], _, _, rfl, rfl, rfl, by simp⟩
  · refine ⟨[.generic .list ⟨"i64"⟩ .passthrough, .list (.int .i64)], _, _, rfl, rfl, rfl, ?_⟩
    simp [Registration.key, listKey]
  · rw [hsize]
    decide +kernel

end Registry

end HostCall
