import HostCall.Proofs.Callable.Entry
import HostCall.Proofs.Callable.Registration
import HostCall.Proofs.Overload.Inheritance

/-!
# Abstract declarations

An abstract callable refuses every call.  The flag that it looks at is the one of the last
declaration that it newly inserted, while the overloads stay when the flag changes and go to other
callables without it.  So whether a call can run the native code of an abstract declaration depends
on the history, and on nothing in the overload.
-/

namespace HostCall

variable {σ : Type}

theorem Overload.serial_of_bind {o : Overload σ} {serial : Nat} {owner : String}
    {d : Declaration σ} {r : Registry} (h : Overload.bind serial owner d r = .ok o) :
    o.serial = serial := by
  unfold Overload.bind at h
  split at h
  · cases h
  · split at h
    · cases h
    · cases h
      rfl

/-! ## Where overloads come from -/

namespace OverloadTable

variable {t parent : OverloadTable σ} {o p : Overload σ} {order : List (Nat × Overload σ)}

theorem registers_of_find? {n : Nat} (h : t.find? n = some o) : t.Registers o := by
  rcases find?_eq_some_iff.mp h with hget | ⟨-, hvariadic, -⟩
  · exact ⟨n, hget⟩
  · obtain ⟨k, -, hget⟩ := Option.bind_eq_some_iff.mp hvariadic
    exact ⟨k, hget⟩

theorem Registers.of_put {k : Nat} (h : (t.put k p).Registers o) : o = p ∨ t.Registers o := by
  obtain ⟨j, hj⟩ := h
  rw [get?_put] at hj
  split at hj
  · exact .inl (Option.some.inj hj).symm
  · exact .inr ⟨j, hj⟩

theorem Registers.of_add {serial : Nat} {owner : String} {d : Declaration σ} {r : Registry}
    {mode : ConflictMode} (h : (t.after (t.add serial owner d r mode)).Registers o) :
    Overload.bind serial owner d r = .ok o ∨ t.Registers o := by
  unfold add at h
  cases hbind : Overload.bind serial owner d r with
  | error e =>
      rw [hbind] at h
      exact .inr h
  | ok p =>
      rw [hbind] at h
      dsimp only at h
      cases hobstacle : t.obstacle? p with
      | none =>
          rw [insert_of_obstacle?_eq_none hobstacle] at h
          exact h.of_put.imp_left fun heq => by rw [heq]
      | some q =>
          rw [insert_of_obstacle?_eq_some hobstacle] at h
          cases mode <;> exact .inr h

theorem Registers.of_remove {k : Nat} (h : (t.remove k).2.Registers o) : t.Registers o := by
  obtain ⟨j, hj⟩ := h
  rw [get?_remove] at hj
  split at hj
  · cases hj
  · exact ⟨j, hj⟩

theorem Registers.of_foldl_inherit (h : (order.foldl inherit t).Registers o) :
    t.Registers o ∨ ∃ k, (k, o) ∈ order := by
  induction order generalizing t with
  | nil => exact .inl h
  | cons entry order ih =>
      rcases ih h with ⟨k, hk⟩ | ⟨k, hk⟩
      · rcases get?_inherit_eq_some_iff.mp hk with hget | ⟨heq, -⟩
        · exact .inl ⟨k, hget⟩
        · exact .inr ⟨k, heq ▸ List.mem_cons_self⟩
      · exact .inr ⟨k, List.mem_cons_of_mem _ hk⟩

theorem Registers.of_merged (horder : order.Perm parent.overloads.entries)
    (h : (order.foldl inherit t).Registers o) : t.Registers o ∨ parent.Registers o :=
  h.of_foldl_inherit.imp_right fun ⟨k, hk⟩ =>
    ⟨k, (parent.overloads.mem_entries_iff k o).mp (horder.mem_iff.mp hk)⟩

end OverloadTable

namespace Callable

open OverloadTable (Registers)

variable {decls : Nat → Declaration σ} {start f : Callable σ} {es : List (Edit σ)}
  {ds : List (Declaration σ)} {receiver : Option ObjectRef} {args : List CellRef} {w : World σ}
  {o : Overload σ}

/-- The callables that edits lead to when the additions with a serial are all of one declaration,
here and in every callable that overloads are inherited from. -/
inductive DeclaredBy (decls : Nat → Declaration σ) : Callable σ → Prop
  | function (name : String) : DeclaredBy decls (.function name)
  | method (name : String) (c : DeclaringClass σ) : DeclaredBy decls (.method name c)
  | add {f : Callable σ} (serial : Nat) (r : Registry) (mode : ConflictMode) :
      DeclaredBy decls f → DeclaredBy decls (f.after (f.add serial (decls serial) r mode))
  | remove {f : Callable σ} (arity : Nat) : DeclaredBy decls f → DeclaredBy decls (f.remove arity).2
  | setPrototype {f parent : Callable σ} {order : List (Nat × Overload σ)} :
      DeclaredBy decls f → DeclaredBy decls parent → order.Perm parent.table.overloads.entries →
      DeclaredBy decls { f with
        table := order.foldl OverloadTable.inherit f.table
        prototype := some parent.signature }

theorem DeclaredBy.reachable (h : f.DeclaredBy decls) : f.Reachable := by
  induction h with
  | function name => exact .function name
  | method name c => exact .method name c
  | add serial r mode _ ih => exact .add serial (decls serial) r mode ih
  | remove arity _ ih => exact .remove arity ih
  | setPrototype _ _ horder ih ihp => exact .setPrototype ih ihp horder

/-- Whichever callable bound it, an overload was bound from the declaration of its serial. -/
theorem DeclaredBy.exists_bind (h : f.DeclaredBy decls) (ho : Registers f.table o) :
    ∃ owner r, Overload.bind o.serial owner (decls o.serial) r = .ok o := by
  induction h with
  | function name =>
      obtain ⟨k, hk⟩ := ho
      cases hk
  | method name c =>
      obtain ⟨k, hk⟩ := ho
      cases hk
  | @add f serial r mode _ ih =>
      rw [table_after_add] at ho
      rcases ho.of_add with hbind | hold
      · have hserial : o.serial = serial := Overload.serial_of_bind hbind
        exact ⟨f.owner, r, hserial ▸ hbind⟩
      · exact ih hold
  | remove arity _ ih => exact ih ho.of_remove
  | setPrototype _ _ horder ih ihp => exact (ho.of_merged horder).elim ih ihp

/-- An edit that adds the declaration of its serial, or inherits from a callable that such edits
lead to. -/
def Edit.Follows (decls : Nat → Declaration σ) : Edit σ → Prop
  | .add serial d _ _ => d = decls serial
  | .remove _ => True
  | @Edit.setPrototype _ parent _ _ _ => parent.DeclaredBy decls

theorem DeclaredBy.edit {e : Edit σ} (h : f.DeclaredBy decls) (he : e.Follows decls) :
    (f.edit e).DeclaredBy decls := by
  cases e with
  | add serial d r mode =>
      cases he
      exact .add serial r mode h
  | remove arity => exact .remove arity h
  | setPrototype _ horder => exact .setPrototype h he horder

theorem DeclaredBy.edits (h : f.DeclaredBy decls) (hes : ∀ e ∈ es, e.Follows decls) :
    (f.edits es).DeclaredBy decls := by
  induction es generalizing f with
  | nil => exact h
  | cons e es ih =>
      obtain ⟨he, hrest⟩ := List.forall_mem_cons.mp hes
      exact ih (h.edit he) hrest

/-! ## What a call runs -/

/-- The call runs native code of no abstract declaration. -/
def SparesAbstract (decls : Nat → Declaration σ) (f : Callable σ) (receiver : Option ObjectRef)
    (args : List CellRef) (w : World σ) : Prop :=
  ∀ o frame, .native o frame ∈ f.journal receiver args w →
    (decls o.serial).modifiers.isAbstract = false

/-- The call gets as far as an overload of an abstract declaration, and can marshal its arguments
for it; whether the callable itself is abstract is left aside. -/
def MeetsAbstract (decls : Nat → Declaration σ) (f : Callable σ) (receiver : Option ObjectRef)
    (args : List CellRef) (w : World σ) : Prop :=
  ∃ o r w₁, f.resolveReceiver receiver w = some (.done r, w₁) ∧
    f.table.find? args.length = some o ∧ (decls o.serial).modifiers.isAbstract = true ∧
    (marshal w₁.env.location args.length 0 o.slots args ⟨w₁.store, []⟩).any (·.1.isOk) = true

/-- Only the flag of the callable keeps a call out of an abstract overload that it meets. -/
theorem sparesAbstract_iff_of_flag :
    f.SparesAbstract decls receiver args w ↔
      f.identity.isAbstract = true ∨ ¬f.MeetsAbstract decls receiver args w := by
  constructor
  · intro hspares
    cases habs : f.identity.isAbstract with
    | true => exact .inl rfl
    | false =>
        right
        rintro ⟨o, r, w₁, hr, hfind, hdecl, hok⟩
        obtain ⟨bound, s, henters⟩ := exists_enters habs hr hfind hok
        have hnot := hspares o s.frame (native_mem_journal_iff.mpr ⟨w₁, bound, s, henters, rfl⟩)
        rw [hdecl] at hnot
        cases hnot
  · intro hcases o frame hmem
    obtain ⟨w₁, bound, s, henters, -⟩ := native_mem_journal_iff.mp hmem
    rw [Bool.eq_false_iff]
    intro hdecl
    rcases hcases with habs | hmeets
    · rw [henters.isAbstract_eq] at habs
      cases habs
    · exact hmeets ⟨o, _, w₁, henters.resolveReceiver_eq, henters.find?_eq, hdecl,
        henters.isOk_marshal⟩

/-- After any history, over any callables that took part in it, what a call finds was bound from
the declaration of its serial.  The call runs no abstract declaration just when the last
declaration that was newly inserted is abstract, or it does not get as far as an overload of an
abstract one with its arguments marshalled. -/
theorem sparesAbstract_iff {name : String}
    (hstart : start = .function name ∨ ∃ c, start = .method name c)
    (hes : ∀ e ∈ es, e.Follows decls) (hds : Insertions start es ds)
    (receiver : Option ObjectRef) (args : List CellRef) (w : World σ) :
    (∀ n o, (start.edits es).table.find? n = some o →
      ∃ owner r, Overload.bind o.serial owner (decls o.serial) r = .ok o) ∧
    ((start.edits es).SparesAbstract decls receiver args w ↔
      (∃ d, ds.getLast? = some d ∧ d.modifiers.isAbstract = true) ∨
      ¬(start.edits es).MeetsAbstract decls receiver args w) := by
  have hnew : start.DeclaredBy decls := by
    rcases hstart with rfl | ⟨c, rfl⟩
    · exact .function name
    · exact .method name c
  have hflag : start.identity.isAbstract = false := by
    rcases hstart with rfl | ⟨c, rfl⟩
    · rfl
    · rfl
  refine ⟨fun n o hfind => ?_, ?_⟩
  · exact (hnew.edits hes).exists_bind (OverloadTable.registers_of_find? hfind)
  · rw [sparesAbstract_iff_of_flag, hds.identity_eq hnew.reachable]
    cases ds.getLast? with
    | none => simp [hflag]
    | some d => simp

/-! ## Abstract declarations that run -/

theorem meetsAbstract_of_check (hfree : f.declaring = none)
    (h : (f.table.find? args.length).any (fun o => (decls o.serial).modifiers.isAbstract &&
      (marshal w.env.location args.length 0 o.slots args ⟨w.store, []⟩).any (·.1.isOk)) =
        true) :
    f.MeetsAbstract decls receiver args w := by
  obtain ⟨o, hfind, hcheck⟩ := (Option.any_eq_true _ _).mp h
  obtain ⟨hdecl, hok⟩ := (Bool.and_eq_true _ _).mp hcheck
  have hreceiver : f.resolveReceiver receiver w = some (.done receiver, w) :=
    resolveReceiver_eq_self fun c hc => by cases hfree.symm.trans hc.declaring_eq
  exact ⟨o, receiver, w, hreceiver, hfind, hdecl, hok⟩

def outline : Declaration Unit :=
  { OverloadTable.gather with
    name := "draw"
    modifiers := { isAbstract := true }
    parameters := [] }

def drawings : Nat → Declaration Unit
  | 0 => outline
  | _ => { OverloadTable.single with name := "draw" }

def drafting : List (Edit Unit) := [.add 0 outline .builtin .strict]

/-- Inherits the abstract overload, and nothing else. -/
def tracing : List (Edit Unit) := [.setPrototype (declared_reachable outline) (.refl _)]

def blankWorld : World Unit := ⟨.empty, .standard, [], ()⟩

theorem declaredBy_outline : (declared outline).DeclaredBy drawings :=
  .add 0 .builtin .strict (.function "draw")

/-- A function of the abstract declaration refuses the call that one inheriting from it runs. -/
theorem sparesAbstract_iff_tracing :
    ((function "draw").edits drafting).SparesAbstract drawings none [] blankWorld ∧
      ¬((function "draw").edits tracing).SparesAbstract drawings none [] blankWorld := by
  have hnew : (function "draw" : Callable Unit).Reachable := .function "draw"
  constructor
  · have hes : ∀ e ∈ drafting, e.Follows drawings := by simp [drafting, Edit.Follows, drawings]
    have hinserts : (function "draw").Inserts (.add 0 outline .builtin .strict) outline :=
      (inserts_add_iff_any hnew.table.sound).mpr (by decide +kernel)
    have hds : Insertions (function "draw") drafting [outline] := .inserted hinserts (.nil _)
    rw [(sparesAbstract_iff (.inl rfl) hes hds none [] blankWorld).2]
    exact .inl ⟨outline, rfl, rfl⟩
  · have hes : ∀ e ∈ tracing, e.Follows drawings := by
      simpa [tracing, Edit.Follows] using declaredBy_outline
    have hds : Insertions (function "draw") tracing [] := .other (fun d hd => by cases hd) (.nil _)
    have hmeets : ((function "draw").edits tracing).MeetsAbstract drawings none [] blankWorld :=
      meetsAbstract_of_check rfl (by decide +kernel)
    rw [(sparesAbstract_iff (.inl rfl) hes hds none [] blankWorld).2]
    rintro (⟨d, hd, -⟩ | hnot)
    · cases hd
    · exact hnot hmeets

/-- The function of the abstract declaration, after a declaration of another arity that is not. -/
def redrawn : Callable Unit :=
  (declared outline).after ((declared outline).add 1 (drawings 1) .builtin .strict)

/-- A later declaration lifts the flag, and the abstract overload that is still there runs. -/
theorem not_forall_sparesAbstract :
    ¬∀ (decls : Nat → Declaration Unit) (f : Callable Unit), f.DeclaredBy decls →
      ∀ receiver args w, f.SparesAbstract decls receiver args w := by
  intro hall
  have hspares := hall drawings redrawn (.add 1 .builtin .strict declaredBy_outline) none []
    blankWorld
  have hfree : redrawn.declaring = none := by
    rw [redrawn, declaring_after_add, declaring_declared]
  rcases sparesAbstract_iff_of_flag.mp hspares with hflag | hnot
  · exact absurd hflag (by decide +kernel)
  · exact hnot (meetsAbstract_of_check hfree (by decide +kernel))

end Callable

end HostCall
