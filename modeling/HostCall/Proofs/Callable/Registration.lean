import HostCall.Proofs.Callable.Reachable

/-!
# Registering declarations

Whether a declaration is accepted is read off the size of the table, and the identity of the
callable follows it.  In a reachable table that reading is right: the table grows exactly when the
new overload clashes with none that is registered, and an addition that does not insert leaves
everything as it was.
-/

namespace HostCall

variable {σ : Type}

/-! ## Clashes -/

/-- Two overloads that cannot stand in one table: both take as many arguments, or both are
variadic. -/
def Overload.Clashes (o p : Overload σ) : Prop :=
  o.arity = p.arity ∨ (o.isVariadic = true ∧ p.isVariadic = true)

namespace OverloadTable

variable {t : OverloadTable σ} {o p : Overload σ}

def Registers (t : OverloadTable σ) (o : Overload σ) : Prop := ∃ k, t.get? k = some o

theorem Sound.get?_of_registers (h : t.Sound) (hp : t.Registers p) : t.get? p.arity = some p := by
  obtain ⟨k, hk⟩ := hp
  rw [h.arity_eq k p hk]
  exact hk

theorem obstacle?_of_get? (h : t.get? o.arity = some p) : t.obstacle? o = some p := by
  rw [obstacle?, h]

theorem obstacle?_of_variadic (hfree : t.get? o.arity = none) (ho : o.isVariadic = true) :
    t.obstacle? o = t.variadic? := by
  rw [obstacle?, hfree]
  exact if_pos ho

namespace Sound

/-- What keeps an overload out is registered and clashes with it. -/
theorem of_obstacle? (h : t.Sound) (hp : t.obstacle? o = some p) :
    t.Registers p ∧ o.Clashes p := by
  unfold obstacle? at hp
  split at hp
  · next q hq =>
    cases hp
    exact ⟨⟨o.arity, hq⟩, .inl (h.arity_eq o.arity p hq).symm⟩
  · split at hp
    · next ho =>
      obtain ⟨k, hk, hv⟩ := h.variadic?_eq_some_iff.mp hp
      exact ⟨⟨k, hk⟩, .inr ⟨ho, hv⟩⟩
    · cases hp

/-- Nothing keeps an overload out just when it clashes with none that is registered. -/
theorem obstacle?_eq_none_iff_forall (h : t.Sound) :
    t.obstacle? o = none ↔ ∀ p, t.Registers p → ¬o.Clashes p := by
  constructor
  · intro hnone p hp hclash
    obtain ⟨hfree, hmark⟩ := h.obstacle?_eq_none_iff.mp hnone
    have hget : t.get? p.arity = some p := h.get?_of_registers hp
    rcases hclash with harity | ⟨ho, hv⟩
    · rw [harity, hget] at hfree
      cases hfree
    · have hmarked : t.variadic = some p.arity := (h.marked_iff p.arity).mpr ⟨p, hget, hv⟩
      rw [hmark ho] at hmarked
      cases hmarked
  · intro hall
    cases hp : t.obstacle? o with
    | none => rfl
    | some p =>
        obtain ⟨hregisters, hclash⟩ := h.of_obstacle? hp
        exact absurd hclash (hall p hregisters)

end Sound

theorem insert_of_obstacle?_eq_none {mode : ConflictMode} (h : t.obstacle? o = none) :
    t.insert o mode = .ok (o, t.put o.arity o) := by
  unfold OverloadTable.insert
  rw [h]

theorem insert_of_obstacle?_eq_some {mode : ConflictMode} (h : t.obstacle? o = some p) :
    t.insert o mode =
      match mode with
      | .tolerant => .ok (p, t)
      | .strict => .error (.conflict o.name o.arity) := by
  cases mode <;> simp only [OverloadTable.insert, h]

theorem size_put (hfree : t.get? o.arity = none) : (t.put o.arity o).size = t.size + 1 :=
  ArityMap.size_insert o hfree

end OverloadTable

namespace Callable

open OverloadTable (Registers)

variable {f f' : Callable σ} {serial : Nat} {d : Declaration σ} {r : Registry}
  {mode : ConflictMode} {o p : Overload σ} {e : BindingError}

/-! ## The ways an addition ends -/

/-- What an addition makes of a callable: it refuses or skips what does not bind, refuses an
overload that something stands against or answers what stands there, and inserts every other. -/
inductive Adds (f : Callable σ) (serial : Nat) (d : Declaration σ) (r : Registry) :
    ConflictMode → Except BindingError (Option (Overload σ) × Callable σ) → Prop
  | unbound {e : BindingError} :
      Overload.bind serial f.owner d r = .error e → Adds f serial d r .strict (.error e)
  | skipped {e : BindingError} :
      Overload.bind serial f.owner d r = .error e → Adds f serial d r .tolerant (.ok (none, f))
  | refused {o p : Overload σ} :
      Overload.bind serial f.owner d r = .ok o → f.table.obstacle? o = some p →
      Adds f serial d r .strict (.error (.conflict o.name o.arity))
  | kept {o p : Overload σ} :
      Overload.bind serial f.owner d r = .ok o → f.table.obstacle? o = some p →
      Adds f serial d r .tolerant (.ok (some p, f))
  | inserted {o : Overload σ} (mode : ConflictMode) :
      Overload.bind serial f.owner d r = .ok o → f.table.obstacle? o = none →
      Adds f serial d r mode
        (.ok (some o, { f with identity := .ofDeclaration d, table := f.table.put o.arity o }))

theorem adds (hf : f.table.Sound) (serial : Nat) (d : Declaration σ) (r : Registry)
    (mode : ConflictMode) : f.Adds serial d r mode (f.add serial d r mode) := by
  unfold add
  cases hbind : Overload.bind serial f.owner d r with
  | error e =>
      cases mode with
      | strict => exact .unbound hbind
      | tolerant => exact .skipped hbind
  | ok o =>
      dsimp only
      cases hobstacle : f.table.obstacle? o with
      | none =>
          have hfree : f.table.get? o.arity = none :=
            (hf.obstacle?_eq_none_iff.mp hobstacle).1
          have hgrows : f.table.size < (f.table.put o.arity o).size := by
            rw [OverloadTable.size_put hfree]
            exact Nat.lt_succ_self _
          rw [OverloadTable.insert_of_obstacle?_eq_none hobstacle]
          dsimp only
          rw [if_pos hgrows]
          exact .inserted mode hbind hobstacle
      | some p =>
          rw [OverloadTable.insert_of_obstacle?_eq_some hobstacle]
          cases mode with
          | strict => exact .refused hbind hobstacle
          | tolerant =>
              dsimp only
              rw [if_neg (Nat.lt_irrefl _)]
              exact .kept hbind hobstacle

theorem add_of_obstacle?_eq_none (hf : f.table.Sound)
    (hbind : Overload.bind serial f.owner d r = .ok o) (hnone : f.table.obstacle? o = none) :
    f.add serial d r mode =
      .ok (some o, { f with identity := .ofDeclaration d, table := f.table.put o.arity o }) := by
  have hadds := adds hf serial d r mode
  generalize f.add serial d r mode = answer at hadds ⊢
  cases hadds with
  | inserted _ hbind' _ =>
      cases hbind.symm.trans hbind'
      rfl
  | unbound hbind' => cases hbind.symm.trans hbind'
  | skipped hbind' => cases hbind.symm.trans hbind'
  | refused hbind' hsome =>
      cases hbind.symm.trans hbind'
      cases hnone.symm.trans hsome
  | kept hbind' hsome =>
      cases hbind.symm.trans hbind'
      cases hnone.symm.trans hsome

/-! ## Runs of edits -/

/-- An edit of a callable.  Linking may meet the entries of the other callable in any order. -/
inductive Edit (σ : Type)
  | add (serial : Nat) (d : Declaration σ) (r : Registry) (mode : ConflictMode)
  | remove (arity : Nat)
  | setPrototype {parent : Callable σ} {order : List (Nat × Overload σ)} :
      parent.Reachable → order.Perm parent.table.overloads.entries → Edit σ

def edit (f : Callable σ) : Edit σ → Callable σ
  | .add serial d r mode => f.after (f.add serial d r mode)
  | .remove arity => (f.remove arity).2
  | @Edit.setPrototype _ parent order _ _ =>
      { f with
        table := order.foldl OverloadTable.inherit f.table
        prototype := some parent.signature }

def edits (f : Callable σ) (es : List (Edit σ)) : Callable σ := es.foldl edit f

theorem Reachable.edit (h : f.Reachable) (e : Edit σ) : (f.edit e).Reachable := by
  cases e with
  | add serial d r mode => exact .add serial d r mode h
  | remove arity => exact .remove arity h
  | setPrototype hparent horder => exact .setPrototype h hparent horder

theorem Reachable.edits (h : f.Reachable) (es : List (Edit σ)) : (f.edits es).Reachable := by
  induction es generalizing f with
  | nil => exact h
  | cons e es ih => exact ih (h.edit e)

/-- An edit newly inserts a declaration: what is answered was not registered before. -/
inductive Inserts (f : Callable σ) : Edit σ → Declaration σ → Prop
  | add {serial : Nat} {d : Declaration σ} {r : Registry} {mode : ConflictMode} {o : Overload σ}
      {f' : Callable σ} :
      f.add serial d r mode = .ok (some o, f') → ¬Registers f.table o →
      Inserts f (.add serial d r mode) d

/-- The declarations that a run of edits newly inserts, in order. -/
inductive Insertions : Callable σ → List (Edit σ) → List (Declaration σ) → Prop
  | nil (f : Callable σ) : Insertions f [] []
  | inserted {f : Callable σ} {e : Edit σ} {es : List (Edit σ)} {d : Declaration σ}
      {ds : List (Declaration σ)} :
      f.Inserts e d → Insertions (f.edit e) es ds → Insertions f (e :: es) (d :: ds)
  | other {f : Callable σ} {e : Edit σ} {es : List (Edit σ)} {ds : List (Declaration σ)} :
      (∀ d, ¬f.Inserts e d) → Insertions (f.edit e) es ds → Insertions f (e :: es) ds

theorem exists_insertions (f : Callable σ) (es : List (Edit σ)) : ∃ ds, Insertions f es ds := by
  induction es generalizing f with
  | nil => exact ⟨[], .nil f⟩
  | cons e es ih =>
      obtain ⟨ds, hds⟩ := ih (f.edit e)
      by_cases hinserts : ∃ d, f.Inserts e d
      · obtain ⟨d, hd⟩ := hinserts
        exact ⟨d :: ds, .inserted hd hds⟩
      · exact ⟨ds, .other (fun d hd => hinserts ⟨d, hd⟩) hds⟩

theorem inserts_add_iff {d' : Declaration σ} (hf : f.table.Sound) :
    f.Inserts (.add serial d r mode) d' ↔
      d' = d ∧ ∃ o, Overload.bind serial f.owner d r = .ok o ∧ f.table.obstacle? o = none := by
  constructor
  · rintro ⟨hadd, hnew⟩
    have hadds := adds hf serial d r mode
    rw [hadd] at hadds
    cases hadds with
    | kept _ hsome => exact absurd (hf.of_obstacle? hsome).1 hnew
    | inserted _ hbind hnone => exact ⟨rfl, _, hbind, hnone⟩
  · rintro ⟨rfl, o, hbind, hnone⟩
    refine .add (add_of_obstacle?_eq_none hf hbind hnone) fun hregisters => ?_
    exact hf.obstacle?_eq_none_iff_forall.mp hnone o hregisters (.inl rfl)

/-- Whether an addition newly inserts its declaration, as a check that can be run. -/
theorem inserts_add_iff_any (hf : f.table.Sound) :
    f.Inserts (.add serial d r mode) d ↔
      (Overload.bind serial f.owner d r).toOption.any
        (fun o => (f.table.obstacle? o).isNone) = true := by
  rw [inserts_add_iff hf]
  cases hbind : Overload.bind serial f.owner d r with
  | error e => simp [Except.toOption]
  | ok o => simp [Except.toOption]

/-- An addition that inserts nothing new leaves the callable as it was. -/
theorem edit_add_of_not_inserts (hf : f.table.Sound)
    (h : ∀ d', ¬f.Inserts (.add serial d r mode) d') : f.edit (.add serial d r mode) = f := by
  have hadds := adds hf serial d r mode
  change f.after (f.add serial d r mode) = f
  generalize hanswer : f.add serial d r mode = answer at hadds ⊢
  cases hadds with
  | unbound _ => rfl
  | skipped _ => rfl
  | refused _ _ => rfl
  | kept _ _ => rfl
  | inserted _ hbind hnone =>
      exact absurd ((inserts_add_iff hf).mpr ⟨rfl, _, hbind, hnone⟩) (h d)

theorem identity_edit_of_inserts {ed : Edit σ} (hf : f.table.Sound) (h : f.Inserts ed d) :
    (f.edit ed).identity = .ofDeclaration d := by
  cases h with
  | @add serial d r mode o f' hadd hnew =>
      obtain ⟨-, o, hbind, hnone⟩ := (inserts_add_iff hf).mp (.add hadd hnew)
      change (f.after (f.add serial d r mode)).identity = _
      rw [add_of_obstacle?_eq_none hf hbind hnone]
      rfl

theorem identity_edit_of_not_inserts {ed : Edit σ} (hf : f.table.Sound)
    (h : ∀ d, ¬f.Inserts ed d) : (f.edit ed).identity = f.identity := by
  cases ed with
  | add serial d r mode => rw [edit_add_of_not_inserts hf h]
  | remove arity => rfl
  | setPrototype _ _ => rfl

/-- The identity after a run is that of the last declaration that was newly inserted. -/
theorem Insertions.identity_eq {es : List (Edit σ)} {ds : List (Declaration σ)}
    (h : Insertions f es ds) (hf : f.Reachable) :
    (f.edits es).identity = (ds.getLast?.map Identity.ofDeclaration).getD f.identity := by
  induction h with
  | nil f => rfl
  | @inserted f ed es d ds hinserts _ ih =>
      have hlater := ih (hf.edit ed)
      rw [identity_edit_of_inserts hf.table.sound hinserts] at hlater
      refine hlater.trans ?_
      rw [List.getLast?_cons]
      cases ds.getLast? with
      | none => rfl
      | some last => rfl
  | @other f ed es ds hnone _ ih =>
      have hlater := ih (hf.edit ed)
      rw [identity_edit_of_not_inserts hf.table.sound hnone] at hlater
      exact hlater

/-! ## Acceptance -/

theorem add_strict_eq_error_iff (hf : f.table.Sound) :
    f.add serial d r .strict = .error e ↔
      Overload.bind serial f.owner d r = .error e ∨
      ∃ o, Overload.bind serial f.owner d r = .ok o ∧ e = .conflict o.name o.arity ∧
        ∃ p, Registers f.table p ∧ o.Clashes p := by
  have hadds := adds hf serial d r .strict
  generalize f.add serial d r .strict = answer at hadds ⊢
  cases hadds with
  | unbound hbind =>
      rw [hbind]
      constructor
      · intro h
        cases h
        exact .inl rfl
      · rintro (h | ⟨o, h, -⟩)
        · cases h
          rfl
        · cases h
  | @refused o p hbind hsome =>
      rw [hbind]
      constructor
      · intro h
        cases h
        exact .inr ⟨o, rfl, rfl, p, hf.of_obstacle? hsome⟩
      · rintro (h | ⟨q, h, rfl, -⟩)
        · cases h
        · cases h
          rfl
  | inserted _ hbind hnone =>
      rw [hbind]
      constructor
      · intro h
        cases h
      · rintro (h | ⟨q, h, -, p, hp, hclash⟩)
        · cases h
        · cases h
          exact absurd hclash (hf.obstacle?_eq_none_iff_forall.mp hnone p hp)

/-- A tolerant addition always answers: with nothing when the declaration does not bind, and with
what stands in the place of an overload that cannot be inserted. -/
theorem exists_add_tolerant (hf : f.table.Sound) (serial : Nat) (d : Declaration σ) (r : Registry) :
    ∃ answer f', f.add serial d r .tolerant = .ok (answer, f') ∧
      (answer = none ↔ ∃ e, Overload.bind serial f.owner d r = .error e) ∧
      ∀ o, Overload.bind serial f.owner d r = .ok o → ∀ p, f.table.obstacle? o = some p →
        answer = some p := by
  have hadds := adds hf serial d r .tolerant
  generalize f.add serial d r .tolerant = added at hadds ⊢
  cases hadds with
  | skipped hbind =>
      refine ⟨none, f, rfl, ⟨fun _ => ⟨_, hbind⟩, fun _ => rfl⟩, fun o ho => ?_⟩
      cases hbind.symm.trans ho
  | @kept o p hbind hsome =>
      refine ⟨some p, f, rfl, ⟨fun h => ?_, fun ⟨e, he⟩ => ?_⟩, fun o' ho' p' hp' => ?_⟩
      · cases h
      · cases hbind.symm.trans he
      · cases hbind.symm.trans ho'
        exact hsome.symm.trans hp'
  | @inserted o _ hbind hnone =>
      refine ⟨some o, _, rfl, ⟨fun h => ?_, fun ⟨e, he⟩ => ?_⟩, fun o' ho' p' hp' => ?_⟩
      · cases h
      · cases hbind.symm.trans he
      · cases hbind.symm.trans ho'
        cases hnone.symm.trans hp'

/-- Registration is atomic, and the identity follows acceptance.  Whatever was added, removed or
inherited before, the identity is that of the last declaration that was newly inserted, in every
field, and that of a new callable when there was none.  An addition that is refused, skipped or answered with an
overload that was registered leaves the callable as it was.  A strict addition fails just when the
declaration does not bind or its overload clashes with a registered one.  A tolerant one never
fails: it answers nothing just when the declaration does not bind, and where there is a clash the
registered overload of the same arity, or else the registered variadic one.  An overload that
clashes with none is put at its arity. -/
theorem registration_atomic {start : Callable σ} {name : String}
    (hstart : start = .function name ∨ ∃ c, start = .method name c) (es : List (Edit σ))
    (hf : start.edits es = f) :
    (∃ ds, Insertions start es ds) ∧
    (∀ ds, Insertions start es ds →
      f.identity = (ds.getLast?.map Identity.ofDeclaration).getD (.ofName name)) ∧
    (∀ ds d, Insertions start es ds → ds.getLast? = some d →
      f.identity.name = d.name ∧
      f.identity.internalName = d.internalName.getD d.name ∧
      f.identity.isStatic = d.modifiers.isStatic ∧
      f.identity.isAbstract = d.modifiers.isAbstract ∧
      f.identity.isFinal = d.modifiers.isFinal ∧
      f.identity.isDeprecated = d.modifiers.isDeprecated ∧
      f.identity.returnsReference = d.modifiers.returnsReference ∧
      f.identity.visibility = d.modifiers.visibility) ∧
    ∀ serial d r,
      (∀ mode,
        (∀ o f', f.add serial d r mode = .ok (some o, f') → Registers f.table o) →
        f.edit (.add serial d r mode) = f) ∧
      (∀ e, f.add serial d r .strict = .error e ↔
        Overload.bind serial f.owner d r = .error e ∨
        ∃ o, Overload.bind serial f.owner d r = .ok o ∧ e = .conflict o.name o.arity ∧
          ∃ p, Registers f.table p ∧ o.Clashes p) ∧
      (∃ answer f', f.add serial d r .tolerant = .ok (answer, f') ∧
        (answer = none ↔ ∃ e, Overload.bind serial f.owner d r = .error e) ∧
        ∀ o, Overload.bind serial f.owner d r = .ok o → ∀ p, Registers f.table p →
          (p.arity = o.arity → answer = some p) ∧
          (o.isVariadic = true → p.isVariadic = true →
            (∀ q, Registers f.table q → q.arity ≠ o.arity) → answer = some p)) ∧
      ∀ mode o, Overload.bind serial f.owner d r = .ok o →
        (∀ p, Registers f.table p → ¬o.Clashes p) →
        f.add serial d r mode =
          .ok (some o, { f with
            identity := .ofDeclaration d, table := f.table.put o.arity o }) := by
  have hnew : start.Reachable := by
    rcases hstart with rfl | ⟨c, rfl⟩
    · exact .function name
    · exact .method name c
  have hidentity : start.identity = .ofName name := by
    rcases hstart with rfl | ⟨c, rfl⟩
    · rfl
    · rfl
  have hsound : f.table.Sound := by
    rw [← hf]
    exact (hnew.edits es).table.sound
  have hlast : ∀ ds, Insertions start es ds →
      f.identity = (ds.getLast?.map Identity.ofDeclaration).getD (.ofName name) := by
    intro ds hds
    rw [← hf, hds.identity_eq hnew, hidentity]
  refine ⟨exists_insertions start es, hlast, fun ds d hds hd => ?_,
    fun serial d r => ⟨fun mode hold => ?_, fun e => add_strict_eq_error_iff hsound, ?_,
      fun mode o hbind hnone => ?_⟩⟩
  · rw [hlast ds hds, hd]
    simp
  · apply edit_add_of_not_inserts hsound
    rintro d' ⟨hadd, hunregistered⟩
    exact hunregistered (hold _ _ hadd)
  · obtain ⟨answer, f', hadd, hskipped, hkept⟩ := exists_add_tolerant hsound serial d r
    refine ⟨answer, f', hadd, hskipped, fun o hbind p hp => ⟨fun harity => ?_, fun ho hv hfree => ?_⟩⟩
    · apply hkept o hbind p
      apply OverloadTable.obstacle?_of_get?
      rw [← harity]
      exact hsound.get?_of_registers hp
    · apply hkept o hbind p
      have hnone : f.table.get? o.arity = none := by
        cases hget : f.table.get? o.arity with
        | none => rfl
        | some q => exact absurd (hsound.arity_eq _ q hget) (hfree q ⟨_, hget⟩)
      rw [OverloadTable.obstacle?_of_variadic hnone ho]
      exact hsound.variadic?_eq_some_iff.mpr ⟨p.arity, hsound.get?_of_registers hp, hv⟩
  · exact add_of_obstacle?_eq_none hsound hbind
      (hsound.obstacle?_eq_none_iff_forall.mpr hnone)

/-- Takes all cells; a second variadic declaration beside the first. -/
def collect : Declaration Unit :=
  { OverloadTable.gather with
    name := "collect"
    modifiers := { isPrivate := true }
    parameters := [{ type := .cells }] }

/-- Adds a variadic declaration, skips another one, and removes the overload of the first. -/
def gatherEdits : List (Edit Unit) :=
  [.add 0 OverloadTable.gather .builtin .strict, .add 1 collect .builtin .tolerant, .remove 2]

/-- The callable keeps the identity of the declaration whose overload it has lost. -/
theorem registration_atomic_gatherEdits :
    ((function "gather").edits gatherEdits).identity = .ofDeclaration OverloadTable.gather ∧
      ((function "gather").edits gatherEdits).table.isEmpty = true := by
  have hempty : ((function "gather").edits gatherEdits).table.isEmpty = true := by decide +kernel
  have hnew : (function "gather" : Callable Unit).Reachable := .function "gather"
  have hadded : ((function "gather").edit
      (.add 0 OverloadTable.gather .builtin .strict)).Reachable := hnew.edit _
  have hfirst : (function "gather").Inserts (.add 0 OverloadTable.gather .builtin .strict)
      OverloadTable.gather :=
    (inserts_add_iff_any hnew.table.sound).mpr (by decide +kernel)
  have hsecond : ∀ d, ¬((function "gather").edit
      (.add 0 OverloadTable.gather .builtin .strict)).Inserts
        (.add 1 collect .builtin .tolerant) d := by
    intro d hd
    obtain ⟨rfl, -⟩ := (inserts_add_iff hadded.table.sound).mp hd
    rw [inserts_add_iff_any hadded.table.sound] at hd
    exact absurd hd (by decide +kernel)
  have hrun : Insertions (function "gather") gatherEdits [OverloadTable.gather] :=
    .inserted hfirst (.other hsecond (.other (fun d hd => by cases hd) (.nil _)))
  obtain ⟨-, hidentity, -⟩ := registration_atomic (.inl rfl) gatherEdits rfl
  exact ⟨hidentity _ hrun, hempty⟩

end Callable

end HostCall
