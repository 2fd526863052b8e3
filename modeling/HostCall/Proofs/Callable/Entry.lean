import HostCall.Proofs.Callable.Effects
import HostCall.Proofs.Callable.Journal
import HostCall.Proofs.Callable.Marshalling

/-!
# The entry into native code

A call that gets as far as native code has found an overload and marshalled the arguments for it.
`Callable.Enters` says so, with the world just before marshalling and the scene that native code
starts in.  It holds exactly when the journal of the call notes the entry.
-/

namespace HostCall.Callable

variable {σ : Type} {f : Callable σ} {receiver : Option ObjectRef} {args : List CellRef}
  {w w₁ : World σ} {o : Overload σ} {bound : List CellRef} {s : Scene σ}

/-- A call comes to the native code of an overload.  After the overload follow the world just before
marshalling, the cells bound for the call, and the scene that the native code starts in. -/
inductive Enters (f : Callable σ) (receiver : Option ObjectRef) (args : List CellRef)
    (w : World σ) : Overload σ → World σ → List CellRef → Scene σ → Prop
  | intro {o : Overload σ} {w₁ : World σ} {r : Option ObjectRef} {arguments : List Argument}
      {b : Bindings} :
      f.identity.isAbstract = false →
      f.resolveReceiver receiver w = some (.done r, w₁) →
      f.table.find? args.length = some o →
      marshal w₁.env.location args.length 0 o.slots args ⟨w₁.store, []⟩ =
        some (.ok arguments, b) →
      Enters f receiver args w o w₁ b.bound ⟨.start r arguments, { w₁ with store := b.store }⟩

theorem Enters.journal_eq (h : f.Enters receiver args w o w₁ bound s) :
    f.journal receiver args w = f.asked receiver ++ [.native o s.frame] := by
  cases h with
  | intro habs hr hfind hm =>
      rw [journal_of_find?_eq_some habs hr hfind, Overload.entered, hm]

theorem native_not_mem_asked (frame : Frame) : .native o frame ∉ f.asked receiver := by
  unfold asked
  split
  · split <;> simp
  · simp

/-- A call enters native code exactly when its journal says so. -/
theorem native_mem_journal_iff {frame : Frame} :
    .native o frame ∈ f.journal receiver args w ↔
      ∃ w₁ bound s, f.Enters receiver args w o w₁ bound s ∧ s.frame = frame := by
  constructor
  · intro hmem
    cases habs : f.identity.isAbstract with
    | true =>
        rw [journal_of_isAbstract habs] at hmem
        cases hmem
    | false =>
        cases hr : f.resolveReceiver receiver w with
        | none =>
            rw [journal_of_stalled habs hr] at hmem
            exact absurd hmem (native_not_mem_asked frame)
        | some x =>
            obtain ⟨ending, w₁⟩ := x
            cases ending with
            | panicked p =>
                rw [journal_of_panicked habs hr] at hmem
                exact absurd hmem (native_not_mem_asked frame)
            | done r =>
                cases hfind : f.table.find? args.length with
                | none =>
                    rw [journal_of_find?_eq_none habs hr hfind] at hmem
                    exact absurd hmem (native_not_mem_asked frame)
                | some p =>
                    rw [journal_of_find?_eq_some habs hr hfind] at hmem
                    have hentered : .native o frame ∈ p.entered r args w₁ :=
                      (List.mem_append.mp hmem).resolve_left (native_not_mem_asked frame)
                    obtain ⟨arguments, b, hm, heq⟩ := Overload.mem_entered hentered
                    cases heq
                    exact ⟨_, _, _, .intro habs hr hfind hm, rfl⟩
  · rintro ⟨w₁, bound, s, h, rfl⟩
    rw [h.journal_eq]
    exact List.mem_append_right _ List.mem_cons_self

theorem exists_enters {r : Option ObjectRef} (habs : f.identity.isAbstract = false)
    (hr : f.resolveReceiver receiver w = some (.done r, w₁))
    (hfind : f.table.find? args.length = some o)
    (hok : (marshal w₁.env.location args.length 0 o.slots args ⟨w₁.store, []⟩).any (·.1.isOk) =
      true) :
    ∃ bound s, f.Enters receiver args w o w₁ bound s := by
  obtain ⟨⟨answer, b⟩, hm, hok⟩ := (Option.any_eq_true _ _).mp hok
  cases answer with
  | ok arguments => exact ⟨_, _, .intro habs hr hfind hm⟩
  | error e => cases hok

namespace Enters

theorem find?_eq (h : f.Enters receiver args w o w₁ bound s) :
    f.table.find? args.length = some o := by
  cases h with
  | intro _ _ hfind _ => exact hfind

theorem resolveReceiver_eq (h : f.Enters receiver args w o w₁ bound s) :
    f.resolveReceiver receiver w = some (.done s.frame.receiver, w₁) := by
  cases h with
  | intro _ hr _ _ => exact hr

theorem isAbstract_eq (h : f.Enters receiver args w o w₁ bound s) :
    f.identity.isAbstract = false := by
  cases h with
  | intro habs _ _ _ => exact habs

theorem isOk_marshal (h : f.Enters receiver args w o w₁ bound s) :
    (marshal w₁.env.location args.length 0 o.slots args ⟨w₁.store, []⟩).any (·.1.isOk) = true := by
  cases h with
  | intro _ _ _ hm =>
      rw [hm]
      rfl

theorem grows (h : f.Enters receiver args w o w₁ bound s) : w.store.Grows w₁.store :=
  grows_of_resolveReceiver h.resolveReceiver_eq

theorem closed (h : f.Enters receiver args w o w₁ bound s) (hw : w.store.Closed) :
    w₁.store.Closed :=
  closed_of_resolveReceiver h.resolveReceiver_eq hw

theorem held_eq (h : f.Enters receiver args w o w₁ bound s) : s.world.held = w₁.held := by
  cases h with
  | intro _ _ _ _ => rfl

theorem env_eq (h : f.Enters receiver args w o w₁ bound s) : s.world.env = w₁.env := by
  cases h with
  | intro _ _ _ _ => rfl

theorem fillAll (h : f.Enters receiver args w o w₁ bound s) (hf : f.Reachable) :
    Slot.FillAll w₁.env.location o.slots (o.shares args) ⟨w₁.store, []⟩ s.frame.arguments
      ⟨s.world.store, bound⟩ := by
  obtain ⟨hbound, -⟩ := hf.bound_of_find? h.find?_eq
  rw [o.shares_eq_deal hbound.tailLast]
  cases h with
  | intro _ _ _ hm => exact marshal_eq_ok_iff.mp hm

theorem flatten_shares (h : f.Enters receiver args w o w₁ bound s) (hf : f.Reachable) :
    (o.shares args).flatten = args := by
  obtain ⟨hbound, haccepts⟩ := hf.bound_of_find? h.find?_eq
  exact hbound.flatten_shares haccepts

end Enters

/-! ## Functions of one declaration -/

/-- A free function with a single declaration. -/
def declared (d : Declaration σ) : Callable σ :=
  (function d.name).after ((function d.name).add 0 d .builtin .strict)

variable {d : Declaration σ}

theorem declared_reachable (d : Declaration σ) : (declared d).Reachable :=
  .add 0 d .builtin .strict (.function d.name)

theorem declaring_declared (d : Declaration σ) : (declared d).declaring = none :=
  declaring_after_add (function d.name) 0 d .builtin .strict

theorem isAbstract_declared (h : d.modifiers.isAbstract = false) :
    (declared d).identity.isAbstract = false := by
  unfold declared add
  cases Overload.bind 0 (function d.name).owner d .builtin with
  | error e => rfl
  | ok o =>
      dsimp only
      cases (function d.name).table.insert o .strict with
      | error e => rfl
      | ok answer =>
          dsimp only [after]
          split
          · exact h
          · rfl

theorem find?_declared {n : Nat} (hbind : Overload.bind 0 "" d .builtin = .ok o)
    (haccepts : o.accepts n = true) : (declared d).table.find? n = some o := by
  have htable : (declared d).table = OverloadTable.empty.put o.arity o := by
    have hadd : (OverloadTable.empty : OverloadTable σ).add 0 "" d .builtin .strict =
        .ok (o, OverloadTable.empty.put o.arity o) := by
      have hfree : (OverloadTable.empty : OverloadTable σ).obstacle? o = none :=
        OverloadTable.sound_empty.obstacle?_eq_none_iff.mpr ⟨rfl, fun _ => rfl⟩
      rw [OverloadTable.add, hbind]
      simp only [OverloadTable.insert, hfree]
    calc
      (declared d).table =
          (OverloadTable.empty : OverloadTable σ).after
            (OverloadTable.empty.add 0 "" d .builtin .strict) := table_after_add _ _ _ _ _
      _ = OverloadTable.empty.put o.arity o := by rw [hadd]; rfl
  have hsound : (declared d).table.Sound := (declared_reachable d).table.sound
  have hget : (declared d).table.get? o.arity = some o := by
    rw [htable, OverloadTable.get?_put, if_pos rfl]
  cases hfind : (declared d).table.find? n with
  | none =>
      rw [hsound.accepts_eq_false_of_find? hfind hget] at haccepts
      cases haccepts
  | some p =>
      have hp : (declared d).table.get? p.arity = some p := (hsound.find?_sound hfind).1
      rw [htable, OverloadTable.get?_put] at hp
      split at hp
      · exact hp.symm
      · cases hp

/-- A function of one declaration enters its native code when it can marshal the arguments. -/
theorem exists_enters_declared (hbind : Overload.bind 0 "" d .builtin = .ok o)
    (habs : d.modifiers.isAbstract = false) (haccepts : o.accepts args.length = true)
    (hok : (marshal w.env.location args.length 0 o.slots args ⟨w.store, []⟩).any (·.1.isOk) =
      true) :
    ∃ bound s, (declared d).Enters none args w o w bound s := by
  have hreceiver : (declared d).resolveReceiver none w = some (.done none, w) :=
    resolveReceiver_eq_self fun c hc => by
      cases (declaring_declared d).symm.trans hc.declaring_eq
  exact exists_enters (isAbstract_declared habs) hreceiver (find?_declared hbind haccepts) hok

/-- The same as a check that can be run, with anything else that it should find of the overload. -/
theorem exists_enters_of_check {check : Overload σ → Bool} (habs : d.modifiers.isAbstract = false)
    (h : (Overload.bind 0 "" d .builtin).toOption.any (fun o =>
      (o.accepts args.length && check o) &&
        (marshal w.env.location args.length 0 o.slots args ⟨w.store, []⟩).any (·.1.isOk)) =
          true) :
    ∃ o bound s, Overload.bind 0 "" d .builtin = .ok o ∧ check o = true ∧
      (declared d).Enters none args w o w bound s := by
  obtain ⟨o, hbind, hall⟩ := Overload.exists_bind_of_check h
  obtain ⟨hboth, hok⟩ := (Bool.and_eq_true _ _).mp hall
  obtain ⟨haccepts, hcheck⟩ := (Bool.and_eq_true _ _).mp hboth
  obtain ⟨bound, s, henters⟩ := exists_enters_declared hbind habs haccepts hok
  exact ⟨o, bound, s, hbind, hcheck, henters⟩

end HostCall.Callable
