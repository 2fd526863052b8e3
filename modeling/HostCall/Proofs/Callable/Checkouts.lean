import HostCall.Proofs.Callable.Effects
import HostCall.Proofs.Callable.Handover
import HostCall.Proofs.Store.Checkouts

/-!
# Bindings of cells passed by reference

Every active binding of a cell has a guard: the native side holds it, or a call in progress does.
While native code runs, a call holds one guard for every argument position that it passes by
reference; at its end, however it ends, it holds none.  So in every run the count of a cell is the
number of its guards.
-/

namespace HostCall

variable {σ α : Type}

/-! ## What marshalling binds -/

/-- The cells that a call of the overload passes by reference, one for every argument position. -/
def Overload.boundCells (o : Overload σ) (args : List CellRef) : List CellRef :=
  ((o.handed args).filter fun x => x.1.byRef).map Prod.snd

/-- From some bindings to later ones just the given cells were bound. -/
structure Bindings.Binds (b : Bindings) (cs : List CellRef) (b' : Bindings) : Prop where
  checkouts_eq : ∀ c, b'.store.checkouts c = b.store.checkouts c + cs.count c
  count_bound : ∀ c, b'.bound.count c = b.bound.count c + cs.count c

namespace Bindings.Binds

variable {b b' b'' : Bindings} {cs ds : List CellRef}

theorem nil (b : Bindings) : b.Binds [] b := ⟨fun _ => rfl, fun _ => rfl⟩

theorem append (h : b.Binds cs b') (h' : b'.Binds ds b'') : b.Binds (cs ++ ds) b'' := by
  refine ⟨fun c => ?_, fun c => ?_⟩
  · rw [h'.checkouts_eq, h.checkouts_eq, List.count_append, Nat.add_assoc]
  · rw [h'.count_bound, h.count_bound, List.count_append, Nat.add_assoc]

/-- Releasing what was bound from the start brings every count back. -/
theorem checkouts_release {s : Store} (h : Binds ⟨s, []⟩ cs b) (c : CellRef) :
    b.release.checkouts c = s.checkouts c := by
  have hcheckouts : b.store.checkouts c = s.checkouts c + cs.count c := h.checkouts_eq c
  have hbound : b.bound.count c = cs.count c := (h.count_bound c).trans (Nat.zero_add _)
  rw [release, Store.checkouts_checkInAll]
  omega

end Bindings.Binds

theorem Passing.Hands.binds {p : Passing} {c d : CellRef} {b b' : Bindings}
    (h : p.Hands c b d b') (hc : b.store.holdsCell c = true) :
    b.Binds (if p.byRef then [c] else []) b' := by
  cases h with
  | shared isMutable c b =>
      refine ⟨Store.checkouts_checkOut hc, fun x => ?_⟩
      change ([c] ++ b.bound).count x = b.bound.count x + [c].count x
      rw [List.count_append, Nat.add_comm]
  | @copied isMutable c d b s hcopy =>
      exact ⟨Store.checkouts_of_copy hcopy, fun x => rfl⟩

theorem Passing.HandsEach.binds {hs : List (Passing × CellRef)} {ds : List CellRef}
    {b b' : Bindings} (h : HandsEach hs b ds b')
    (hgood : ∀ x ∈ hs, b.store.holdsCell x.2 = true) :
    b.Binds ((hs.filter fun x => x.1.byRef).map Prod.snd) b' := by
  induction h with
  | nil b => exact .nil b
  | @cons p c d hs ds b b₁ b' hc _ ih =>
      have hfirst := hc.binds (hgood (p, c) List.mem_cons_self)
      have hrest := ih fun x hx => hc.keeps.grows x.2 (hgood x (List.mem_cons_of_mem _ hx))
      have hsplit : (((p, c) :: hs).filter fun x => x.1.byRef).map Prod.snd =
          (if p.byRef then [c] else []) ++ (hs.filter fun x => x.1.byRef).map Prod.snd := by
        cases hp : p.byRef <;> simp [hp]
      rw [hsplit]
      exact hfirst.append hrest

/-! ## Guards -/

/-- Every active binding is one that the native side holds or one of some others. -/
def Store.Guarded (s : Store) (held : List CellRef) (others : CellRef → Nat) : Prop :=
  ∀ c, s.checkouts c = held.count c + others c

namespace Store.Guarded

variable {s s' : Store} {held held' : List CellRef} {others : CellRef → Nat}

theorem of_checkouts_eq (h : s.Guarded held others) (hs : ∀ c, s'.checkouts c = s.checkouts c) :
    s'.Guarded held others := fun c => (hs c).trans (h c)

/-- Native code takes and gives back guards of its own, and no others. -/
theorem effect {target : Option CellRef} (h : s.Guarded held others)
    (he : Request.Effect s held target s' held') :
    s'.Guarded held' others := by
  cases he with
  | none => exact h
  | alloc immutable _ => exact h.of_checkouts_eq (s.checkouts_alloc _ immutable)
  | assign _ _ hassign => exact h.of_checkouts_eq (checkouts_assign hassign)
  | copy hcopy => exact h.of_checkouts_eq (checkouts_of_copy hcopy)
  | newObject className _ => exact h
  | @checkOut c hc =>
      intro d
      have hd := h d
      change _ = ([c] ++ held).count d + others d
      rw [checkouts_checkOut hc, List.count_append]
      omega
  | @checkIn c hc =>
      intro d
      have hpos : [c].count d ≤ held.count d :=
        (List.singleton_sublist.mpr hc).count_le d
      have herase : (held.erase c).count d = held.count d - [c].count d := by
        rw [List.count_erase, List.count_singleton]
      have hd := h d
      rw [checkouts_checkIn, herase]
      omega

end Store.Guarded

/-- Every active binding has a guard, held by the native side or by others. -/
def World.Guarded (w : World σ) (others : CellRef → Nat) : Prop := w.store.Guarded w.held others

theorem Behavior.run_guarded {others : CellRef → Nat} {b : Behavior σ α} {s s' : Scene σ}
    {ending : Ending α} (hrun : b.run s = some (ending, s')) (h : s.world.Guarded others) :
    s'.world.Guarded others :=
  run_invariant (P := fun s held => s.Guarded held others) (fun _ _ _ _ _ hs he => hs.effect he)
    hrun h

theorem Overload.Settles.guarded {o : Overload σ} {signature : String} {l : Location}
    {translatesPanics : Bool} {ending : Ending (Except HostError Unit)} {s : Scene σ}
    {result : CallResult} {w : World σ} {others : CellRef → Nat}
    (h : o.Settles signature l translatesPanics ending s result w)
    (hs : s.world.Guarded others) : w.Guarded others := by
  cases h with
  | translated _ => exact hs
  | unwound _ => exact hs
  | raised _ => exact hs
  | unreturnable _ => exact hs
  | @returned produced s _ =>
      cases produced with
      | shared c => exact hs
      | fresh v => exact hs.of_checkouts_eq fun c => Store.checkouts_build false c v s.world.store

theorem World.Guarded.givesUp {w : World σ} {others : CellRef → Nat} (h : w.Guarded others)
    (d : Diagnostic) : (w.report d).returnNull.2.Guarded others :=
  h.of_checkouts_eq (w.store.checkouts_alloc .null false)

theorem Overload.call_guarded {o : Overload σ} {signature : String}
    {receiver : Option ObjectRef} {args : List CellRef} {w w' : World σ} {result : CallResult}
    {others : CellRef → Nat} (hbound : o.Bound) (haccepts : o.accepts args.length = true)
    (hargs : ∀ c ∈ args, w.store.holdsCell c = true)
    (hcall : o.call signature receiver args w = some (result, w')) (h : w.Guarded others) :
    w'.Guarded others := by
  have hshares : ∀ c ∈ (o.shares args).flatten, w.store.holdsCell c = true := by
    rw [hbound.flatten_shares haccepts]
    exact hargs
  rcases call_cases hbound haccepts hcall with
    ⟨i, e, b, hrefuse, rfl⟩ | ⟨arguments, b, ending, s, w₁, hfill, hrun, hsettles, rfl⟩
  · obtain ⟨hs, ds, hhands, hmem⟩ := hrefuse.handsEach
    have hbinds := hhands.binds fun x hx => hshares x.2 (hmem x hx)
    exact h.of_checkouts_eq hbinds.checkouts_release
  · have hbinds := hfill.handsEach.binds fun x hx =>
      hshares x.2 (Overload.snd_mem_of_mem_handed hx)
    have hcount : ∀ c, b.bound.count c = (o.boundCells args).count c := fun c =>
      (hbinds.count_bound c).trans (Nat.zero_add _)
    have hentry : World.Guarded { w with store := b.store }
        fun c => others c + b.bound.count c := by
      intro c
      have hw : w.store.checkouts c = w.held.count c + others c := h c
      have hb : b.store.checkouts c = w.store.checkouts c + (o.boundCells args).count c :=
        hbinds.checkouts_eq c
      have hc := hcount c
      change b.store.checkouts c = w.held.count c + (others c + b.bound.count c)
      omega
    have hend : s.world.Guarded fun c => others c + b.bound.count c :=
      Behavior.run_guarded hrun hentry
    have hsettled := hsettles.guarded hend
    intro c
    have hc : w₁.store.checkouts c = w₁.held.count c + (others c + b.bound.count c) := hsettled c
    change (w₁.store.checkInAll b.bound).checkouts c = w₁.held.count c + others c
    rw [Store.checkouts_checkInAll]
    omega

namespace Callable

variable {f : Callable σ} {receiver : Option ObjectRef} {args : List CellRef} {w w₁ w' : World σ}
  {o : Overload σ} {bound : List CellRef} {s : Scene σ} {others : CellRef → Nat}

theorem guarded_of_resolveReceiver {ending : Ending (Option ObjectRef)}
    (hr : f.resolveReceiver receiver w = some (ending, w₁)) (h : w.Guarded others) :
    w₁.Guarded others :=
  resolveReceiver_invariant (P := fun s held => s.Guarded held others)
    (fun _ _ _ _ _ hs he => hs.effect he) hr h

/-- A call leaves no guard of its own behind, however it ends. -/
theorem guarded_of_invoke (hf : f.Reachable) {result : CallResult}
    (hinvoke : f.invoke receiver args w = some (result, w'))
    (hargs : ∀ c ∈ args, w.store.holdsCell c = true) (h : w.Guarded others) :
    w'.Guarded others := by
  apply invoke_invariant (P := fun w' => w'.Guarded others) hinvoke h
    (fun _ _ hr => guarded_of_resolveReceiver hr h) fun _ d hw => hw.givesUp d
  intro r w₁ o result w' hr hfind hw hcall
  obtain ⟨hbound, haccepts⟩ := hf.bound_of_find? hfind
  have hgrows := grows_of_resolveReceiver hr
  exact Overload.call_guarded hbound haccepts (fun c hc => hgrows c (hargs c hc)) hcall hw

theorem Enters.binds (h : f.Enters receiver args w o w₁ bound s) (hf : f.Reachable)
    (hargs : ∀ c ∈ args, w.store.holdsCell c = true) :
    Bindings.Binds ⟨w₁.store, []⟩ (o.boundCells args) ⟨s.world.store, bound⟩ := by
  refine (h.fillAll hf).handsEach.binds fun x hx => ?_
  have hx : x.2 ∈ args := h.flatten_shares hf ▸ Overload.snd_mem_of_mem_handed hx
  exact h.grows x.2 (hargs x.2 hx)

/-- Native code starts with the guards of its call beside the others. -/
theorem Enters.guarded (h : f.Enters receiver args w o w₁ bound s) (hf : f.Reachable)
    (hargs : ∀ c ∈ args, w.store.holdsCell c = true) (hw : w.Guarded others) :
    s.world.Guarded fun c => others c + bound.count c := by
  have hguarded := guarded_of_resolveReceiver h.resolveReceiver_eq hw
  have hbinds := h.binds hf hargs
  intro c
  have hw₁ : w₁.store.checkouts c = w₁.held.count c + others c := hguarded c
  have hs : s.world.store.checkouts c = w₁.store.checkouts c + (o.boundCells args).count c :=
    hbinds.checkouts_eq c
  have hb : bound.count c = (o.boundCells args).count c :=
    (hbinds.count_bound c).trans (Nat.zero_add _)
  change s.world.store.checkouts c = s.world.held.count c + (others c + bound.count c)
  rw [h.held_eq]
  omega

end Callable

/-! ## Runs -/

/-- What a host and its native code can come to, with the cells bound for each call in progress, the
innermost first.  Between the steps of a call that was entered there may be anything that native
code can ask for, and whole calls. -/
inductive Session : World σ → List (List CellRef) → Prop
  | start {s : Store} (env : Environment) (host : σ) :
      (∀ c, s.checkouts c = 0) → Session ⟨s, env, [], host⟩ []
  | environment {w : World σ} {calls : List (List CellRef)} (env : Environment) :
      Session w calls → Session { w with env } calls
  | request {w : World σ} {calls : List (List CellRef)} {r : Request σ} {f : Frame}
      {a : r.Answer} {s : Scene σ} :
      Session w calls → r.perform ⟨f, w⟩ = some (a, s) → Session s.world calls
  | call {w w' : World σ} {calls : List (List CellRef)} {f : Callable σ}
      {receiver : Option ObjectRef} {args : List CellRef} {result : CallResult} :
      Session w calls → f.Reachable → (∀ c ∈ args, w.store.holdsCell c = true) →
      f.invoke receiver args w = some (result, w') → Session w' calls
  | enter {w w₁ : World σ} {calls : List (List CellRef)} {f : Callable σ}
      {receiver : Option ObjectRef} {args : List CellRef} {o : Overload σ} {bound : List CellRef}
      {s : Scene σ} :
      Session w calls → f.Reachable → (∀ c ∈ args, w.store.holdsCell c = true) →
      f.Enters receiver args w o w₁ bound s → Session s.world (bound :: calls)
  | leave {w : World σ} {bound : List CellRef} {calls : List (List CellRef)} :
      Session w (bound :: calls) →
      Session { w with store := w.store.checkInAll bound } calls

/-- In every run each active binding is guarded by the native side or by a call in progress. -/
theorem Session.guarded {w : World σ} {calls : List (List CellRef)} (h : Session w calls) :
    w.Guarded fun c => calls.flatten.count c := by
  induction h with
  | start env host hzero => exact hzero
  | environment env _ ih => exact ih
  | request _ hperform ih => exact Store.Guarded.effect ih (Request.perform_effect hperform)
  | call _ hf hargs hinvoke ih => exact Callable.guarded_of_invoke hf hinvoke hargs ih
  | @enter _ _ calls _ _ _ _ bound s _ hf hargs henters ih =>
      intro c
      have hc : s.world.store.checkouts c =
          s.world.held.count c + (calls.flatten.count c + bound.count c) :=
        henters.guarded hf hargs ih c
      change s.world.store.checkouts c = s.world.held.count c + (bound :: calls).flatten.count c
      rw [List.flatten_cons, List.count_append]
      omega
  | @leave w bound calls _ ih =>
      intro c
      have hc : w.store.checkouts c = w.held.count c + (bound :: calls).flatten.count c := ih c
      rw [List.flatten_cons, List.count_append] at hc
      change (w.store.checkInAll bound).checkouts c = w.held.count c + calls.flatten.count c
      rw [Store.checkouts_checkInAll]
      omega

theorem Store.isCheckedOut_iff {s : Store} {c : CellRef} :
    s.isCheckedOut c = true ↔ 0 < s.checkouts c := decide_eq_true_iff

namespace Callable

variable {f : Callable σ} {args : List CellRef} {w : World σ}

/-- Bindings are balanced.  When native code is entered, the count of each cell is what it was just
before marshalling and one more for every argument position that passes the cell by reference.
When the call has ended, in whatever way, the count has changed by just the guards that the native
side has taken or given back.  And in every run, calls in progress included, the count of a cell is
the number of guards that live, so a cell is checked out exactly while one does. -/
theorem invoke_balances_checkouts (hf : f.Reachable) (receiver : Option ObjectRef)
    (hargs : ∀ c ∈ args, w.store.holdsCell c = true)
    (hheld : ∀ c, w.held.count c ≤ w.store.checkouts c) :
    (∀ o w₁ bound s, f.Enters receiver args w o w₁ bound s → ∀ c,
      s.world.store.checkouts c = w₁.store.checkouts c + (o.boundCells args).count c) ∧
    (∀ result w', f.invoke receiver args w = some (result, w') → ∀ c,
      w'.store.checkouts c + w.held.count c = w.store.checkouts c + w'.held.count c) ∧
    (∀ (v : World σ) calls, Session v calls → ∀ c,
      v.store.checkouts c = v.held.count c + calls.flatten.count c ∧
      (v.store.isCheckedOut c = true ↔ c ∈ v.held ∨ c ∈ calls.flatten)) := by
  refine ⟨fun o w₁ bound s h c => (h.binds hf hargs).checkouts_eq c,
    fun result w' hinvoke c => ?_, fun v calls h c => ?_⟩
  · have hw : w.Guarded fun c => w.store.checkouts c - w.held.count c := by
      intro d
      have hd := hheld d
      change w.store.checkouts d = w.held.count d + (w.store.checkouts d - w.held.count d)
      omega
    have hc : w'.store.checkouts c =
        w'.held.count c + (w.store.checkouts c - w.held.count c) :=
      guarded_of_invoke hf hinvoke hargs hw c
    have hle := hheld c
    omega
  · have hc : v.store.checkouts c = v.held.count c + calls.flatten.count c := h.guarded c
    refine ⟨hc, ?_⟩
    rw [Store.isCheckedOut_iff, hc, Nat.add_pos_iff_pos_or_pos, List.count_pos_iff,
      List.count_pos_iff]

/-- A world whose native side holds a guard of the null cell. -/
def guardedWorld : World Unit := ⟨numberStore.checkOut ⟨1⟩, .standard, [⟨1⟩], ()⟩

/-- The null cell, passed twice by reference, has three guards while native code runs and the one it
had when the call is over. -/
theorem invoke_balances_checkouts_gather :
    gatherCallable.Reachable ∧
      (∃ o bound s,
        gatherCallable.Enters none [⟨0⟩, ⟨1⟩, ⟨1⟩] guardedWorld o guardedWorld bound s ∧
          s.world.store.checkouts ⟨1⟩ = 3) ∧
      ∃ result w, gatherCallable.invoke none [⟨0⟩, ⟨1⟩, ⟨1⟩] guardedWorld = some (result, w) ∧
        w.store.checkouts ⟨1⟩ = 1 := by
  have hargs : ∀ c ∈ ([⟨0⟩, ⟨1⟩, ⟨1⟩] : List CellRef), guardedWorld.store.holdsCell c = true := by
    decide +kernel
  have hcount : guardedWorld.store.checkouts ⟨1⟩ = 1 := by decide +kernel
  have hheld : ∀ c, guardedWorld.held.count c ≤ guardedWorld.store.checkouts c := by
    intro c
    by_cases hc : c = ⟨1⟩
    · rw [hc, hcount]
      decide
    · have hzero : guardedWorld.held.count c = 0 :=
        List.count_eq_zero.mpr fun hmem => hc (List.mem_singleton.mp hmem)
      rw [hzero]
      exact Nat.zero_le _
  obtain ⟨hentry, hend, -⟩ :=
    invoke_balances_checkouts gatherCallable_reachable none hargs hheld
  have hcheck : ∃ o bound s, Overload.bind 0 "" OverloadTable.gather .builtin = .ok o ∧
      decide ((o.boundCells [⟨0⟩, ⟨1⟩, ⟨1⟩]).count ⟨1⟩ = 2) = true ∧
      gatherCallable.Enters none [⟨0⟩, ⟨1⟩, ⟨1⟩] guardedWorld o guardedWorld bound s :=
    exists_enters_of_check rfl (by decide +kernel)
  obtain ⟨o, bound, s, -, htwice, henters⟩ := hcheck
  have htwice : (o.boundCells [⟨0⟩, ⟨1⟩, ⟨1⟩]).count ⟨1⟩ = 2 := of_decide_eq_true htwice
  refine ⟨gatherCallable_reachable, ⟨o, bound, s, henters, ?_⟩, ?_⟩
  · have hs := hentry o guardedWorld bound s henters ⟨1⟩
    omega
  · have hrun : (gatherCallable.invoke none [⟨0⟩, ⟨1⟩, ⟨1⟩] guardedWorld).any
        (fun x => x.2.held = [⟨1⟩]) = true := by
      decide +kernel
    obtain ⟨⟨result, w⟩, hinvoke, hkept⟩ := (Option.any_eq_true _ _).mp hrun
    have hkept : w.held = [⟨1⟩] := of_decide_eq_true hkept
    refine ⟨result, w, hinvoke, ?_⟩
    have hbalance := hend result w hinvoke ⟨1⟩
    rw [hkept, hcount] at hbalance
    simpa [guardedWorld] using hbalance

end Callable
end HostCall
