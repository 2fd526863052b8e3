import HostCall.Proofs.Callable.Registration
import HostCall.Proofs.Overload.Classification

/-!
# The arity that a conflict names

A conflict names the arity of the overload that was refused.  A table that has an overload of that
arity holds the place which the conflict speaks of.  But a variadic overload is refused beside
another one at whatever arity, and then its own arity may well be free.
-/

namespace HostCall

variable {σ α : Type}

/-- Declarations that do not bind are no conflicts. -/
theorem Overload.bind_ne_conflict (serial : Nat) (owner : String) (d : Declaration σ)
    (r : Registry) (name : String) (arity : Nat) :
    Overload.bind serial owner d r ≠ .error (.conflict name arity) := by
  intro h
  rcases bind_eq_error_iff.mp h with ⟨i, p, -, -, -, he⟩ | ⟨-, -, he⟩
  · unfold Parameter.refusal at he
    split at he <;> cases he
  · cases he

namespace OverloadTable

variable {t : OverloadTable σ} {o p : Overload σ} {e : BindingError}

/-- When an answer is a conflict, the table has an overload of the arity that it names. -/
def NamesOccupied (t : OverloadTable σ) (answer : Except BindingError α) : Prop :=
  ∀ name arity, answer = .error (.conflict name arity) → ∃ p, t.get? arity = some p

/-- A variadic overload whose arity is free in a table that has a variadic one. -/
structure IsSecondVariadic (t : OverloadTable σ) (o : Overload σ) : Prop where
  isVariadic : o.isVariadic = true
  free : t.get? o.arity = none
  other : ∃ p, t.Registers p ∧ p.isVariadic = true

theorem namesOccupied_ok (t : OverloadTable σ) (a : α) : t.NamesOccupied (.ok a) := by
  intro name arity h
  cases h

theorem namesOccupied_of_bind_eq_error {serial : Nat} {owner : String} {d : Declaration σ}
    {r : Registry} (h : Overload.bind serial owner d r = .error e) :
    t.NamesOccupied (.error e : Except BindingError α) := by
  intro name arity he
  cases he
  exact absurd h (Overload.bind_ne_conflict serial owner d r name arity)

theorem namesOccupied_conflict_iff {name : String} {arity : Nat} :
    t.NamesOccupied (.error (.conflict name arity) : Except BindingError α) ↔
      ∃ p, t.get? arity = some p := by
  constructor
  · intro h
    exact h name arity rfl
  · rintro h name' arity' he
    cases he
    exact h

namespace Sound

/-- What keeps an overload out holds its arity, unless the overload is a second variadic one. -/
theorem get?_arity_iff (h : t.Sound) (hp : t.obstacle? o = some p) :
    (∃ q, t.get? o.arity = some q) ↔ ¬t.IsSecondVariadic o := by
  constructor
  · rintro ⟨q, hq⟩ hsecond
    cases hq.symm.trans hsecond.free
  · intro hnot
    obtain ⟨hregisters, harity | ⟨ho, hv⟩⟩ := h.of_obstacle? hp
    · exact ⟨p, harity ▸ h.get?_of_registers hregisters⟩
    · cases hget : t.get? o.arity with
      | some q => exact ⟨q, rfl⟩
      | none => exact absurd ⟨ho, hget, p, hregisters, hv⟩ hnot

theorem not_isSecondVariadic (h : t.Sound) (hnone : t.obstacle? o = none) :
    ¬t.IsSecondVariadic o := by
  rintro ⟨ho, -, p, hp, hv⟩
  exact h.obstacle?_eq_none_iff_forall.mp hnone p hp (.inr ⟨ho, hv⟩)

theorem namesOccupied_insert_iff (h : t.Sound) :
    t.NamesOccupied (t.insert o .strict) ↔ ¬t.IsSecondVariadic o := by
  cases hobstacle : t.obstacle? o with
  | none =>
      rw [insert_of_obstacle?_eq_none hobstacle]
      exact iff_of_true (t.namesOccupied_ok _) (h.not_isSecondVariadic hobstacle)
  | some p =>
      rw [insert_of_obstacle?_eq_some hobstacle]
      exact namesOccupied_conflict_iff.trans (h.get?_arity_iff hobstacle)

theorem namesOccupied_add_iff (h : t.Sound) (serial : Nat) (owner : String) (d : Declaration σ)
    (r : Registry) :
    t.NamesOccupied (t.add serial owner d r .strict) ↔
      ∀ o, Overload.bind serial owner d r = .ok o → ¬t.IsSecondVariadic o := by
  unfold OverloadTable.add
  cases hbind : Overload.bind serial owner d r with
  | error e =>
      refine iff_of_true (namesOccupied_of_bind_eq_error hbind) fun o ho => ?_
      cases ho
  | ok o => simpa using h.namesOccupied_insert_iff

end Sound

end OverloadTable

namespace Callable

open OverloadTable (NamesOccupied IsSecondVariadic namesOccupied_ok namesOccupied_conflict_iff
  namesOccupied_of_bind_eq_error)

variable {f : Callable σ}

theorem namesOccupied_add_iff_of_sound (hf : f.table.Sound) (serial : Nat) (d : Declaration σ)
    (r : Registry) :
    NamesOccupied f.table (f.add serial d r .strict) ↔
      ∀ o, Overload.bind serial f.owner d r = .ok o → ¬IsSecondVariadic f.table o := by
  have hadds := adds hf serial d r .strict
  generalize f.add serial d r .strict = answer at hadds ⊢
  cases hadds with
  | unbound hbind =>
      rw [hbind]
      refine iff_of_true (namesOccupied_of_bind_eq_error hbind) fun o ho => ?_
      cases ho
  | @refused o p hbind hsome =>
      rw [hbind, namesOccupied_conflict_iff, hf.get?_arity_iff hsome]
      simp
  | @inserted o _ hbind hnone =>
      rw [hbind]
      refine iff_of_true (namesOccupied_ok _ _) fun q hq => ?_
      cases hq
      exact hf.not_isSecondVariadic hnone

end Callable

/-! ## Tables and callables that edits lead to -/

/-- A conflict at a strict insertion or addition, to a table or to a callable, names an arity that
the table has an overload of just when the refused overload is not a second variadic one at a free
arity. -/
theorem namesOccupied_iff_not_isSecondVariadic {t : OverloadTable σ} (ht : t.Reachable)
    {f : Callable σ} (hf : f.Reachable) :
    (∀ o, t.NamesOccupied (t.insert o .strict) ↔ ¬t.IsSecondVariadic o) ∧
    ∀ serial d r,
      (∀ owner, t.NamesOccupied (t.add serial owner d r .strict) ↔
        ∀ o, Overload.bind serial owner d r = .ok o → ¬t.IsSecondVariadic o) ∧
      (f.table.NamesOccupied (f.add serial d r .strict) ↔
        ∀ o, Overload.bind serial f.owner d r = .ok o → ¬f.table.IsSecondVariadic o) := by
  refine ⟨fun o => ht.sound.namesOccupied_insert_iff, fun serial d r => ⟨fun owner => ?_, ?_⟩⟩
  · exact ht.sound.namesOccupied_add_iff serial owner d r
  · exact Callable.namesOccupied_add_iff_of_sound hf.table.sound serial d r

namespace OverloadTable

open Callable (collect)

/-- Takes a copy of one cell before the number and the cells behind it. -/
def gatherAfter : Declaration Unit :=
  { gather with parameters := single.parameters ++ gather.parameters }

/-- A variadic overload of arity three, and nothing else. -/
def gathering : OverloadTable Unit := empty.after (empty.add 0 "" gatherAfter .builtin .strict)

/-- The same overload, registered under a name. -/
def gatherer : Callable Unit :=
  (Callable.function "gather").after
    ((Callable.function "gather").add 0 gatherAfter .builtin .strict)

theorem gathering_reachable : gathering.Reachable := .add 0 "" gatherAfter .builtin .strict .empty

theorem gatherer_reachable : gatherer.Reachable :=
  .add 0 gatherAfter .builtin .strict (.function "gather")

theorem gatherer_owner : gatherer.owner = "" := by
  rw [Callable.owner, Callable.className?, gatherer, Callable.declaring_after_add]
  rfl

theorem gatherer_table : gatherer.table = gathering := by
  rw [gatherer, Callable.table_after_add]
  rfl

/-- The overload of a declaration that takes all cells is a second variadic one, at arity one. -/
theorem exists_isSecondVariadic :
    ∃ o, Overload.bind 1 "" collect .builtin = .ok o ∧ gathering.IsSecondVariadic o := by
  obtain ⟨p, hp, hpv⟩ : ∃ p, gathering.get? 3 = some p ∧ p.isVariadic = true :=
    (Option.any_eq_true _ _).mp (by decide +kernel)
  obtain ⟨o, hbind, hcheck⟩ := Overload.exists_bind_of_check
    (show (Overload.bind 1 "" collect .builtin).toOption.any
      (fun o => o.isVariadic && o.arity == 1) = true by decide +kernel)
  obtain ⟨hv, harity⟩ := (Bool.and_eq_true _ _).mp hcheck
  have hfree : gathering.get? o.arity = none := by
    rw [beq_iff_eq.mp harity]
    exact Option.isNone_iff_eq_none.mp (by decide +kernel)
  exact ⟨o, hbind, hv, hfree, p, ⟨3, hp⟩, hpv⟩

/-- The same declaration again meets a taken arity.  One that takes all cells is told that there is
an overload which takes one argument, and no overload does. -/
theorem namesOccupied_iff_not_isSecondVariadic_gathering :
    gathering.NamesOccupied (gathering.add 1 "" gatherAfter .builtin .strict) ∧
      ¬gathering.NamesOccupied (gathering.add 1 "" collect .builtin .strict) ∧
      gathering.find? 1 = none ∧
      ¬gatherer.table.NamesOccupied (gatherer.add 1 collect .builtin .strict) := by
  obtain ⟨o, hbind, hsecond⟩ := exists_isSecondVariadic
  obtain ⟨-, hadd⟩ := namesOccupied_iff_not_isSecondVariadic gathering_reachable gatherer_reachable
  refine ⟨?_, fun hnames => ?_, Option.isNone_iff_eq_none.mp (by decide +kernel),
    fun hnames => ?_⟩
  · refine ((hadd 1 gatherAfter .builtin).1 "").mpr fun q hq hq' => ?_
    obtain ⟨q', hbind', hcheck⟩ := Overload.exists_bind_of_check
      (show (Overload.bind 1 "" gatherAfter .builtin).toOption.any
        (fun q => (gathering.get? q.arity).isSome) = true by decide +kernel)
    cases hq.symm.trans hbind'
    rw [hq'.free] at hcheck
    cases hcheck
  · exact ((hadd 1 collect .builtin).1 "").mp hnames o hbind hsecond
  · refine (hadd 1 collect .builtin).2.mp hnames o ?_ (gatherer_table ▸ hsecond)
    rw [gatherer_owner]
    exact hbind

/-- A variadic overload refused at a free arity: the conflict names an arity where nothing is. -/
theorem not_forall_namesOccupied :
    ¬(∀ t : OverloadTable Unit, t.Reachable → ∀ o, o.Bound → t.NamesOccupied (t.insert o .strict)) ∧
    ¬(∀ t : OverloadTable Unit, t.Reachable → ∀ serial owner d r,
      t.NamesOccupied (t.add serial owner d r .strict)) ∧
    ¬(∀ f : Callable Unit, f.Reachable → ∀ serial d r,
      f.table.NamesOccupied (f.add serial d r .strict)) := by
  obtain ⟨o, hbind, hsecond⟩ := exists_isSecondVariadic
  refine ⟨fun hall => ?_, fun hall => ?_, fun hall => ?_⟩
  · have hnames := hall gathering gathering_reachable o ⟨1, "", collect, .builtin, hbind⟩
    exact gathering_reachable.sound.namesOccupied_insert_iff.mp hnames hsecond
  · have hnames := hall gathering gathering_reachable 1 "" collect .builtin
    exact (gathering_reachable.sound.namesOccupied_add_iff 1 "" collect .builtin).mp hnames o hbind
      hsecond
  · have hnames := hall gatherer gatherer_reachable 1 collect .builtin
    refine (Callable.namesOccupied_add_iff_of_sound gatherer_reachable.table.sound 1 collect
      .builtin).mp hnames o ?_ (gatherer_table ▸ hsecond)
    rw [gatherer_owner]
    exact hbind

end OverloadTable

end HostCall
