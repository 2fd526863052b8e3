import HostCall.Proofs.Callable.Outcome
import HostCall.Proofs.Environment.Log

/-!
# Reports of a whole run

The log of an environment is written by its caller, by calls that give up or lack a receiver, and by
native code, which may look at the log and take it as well.  Every one of them leaves events, which
are told here from what was done and not from what the log says.  The log undergoes just these.
-/

namespace HostCall

variable {σ α : Type}

/-! ## Native code -/

/-- What the log sees of a request that was answered. -/
def Request.logEvents : (r : Request σ) → r.Answer → List LogEvent
  | .inspect, s => [.seen s.world.env.diagnostics]
  | .report d, _ => [.reported d]
  | .takeDiagnostics, log => [.taken log]
  | .alloc .., _ | .assign .., _ | .copy .., _ | .checkOut _, _ | .checkIn _, _ | .newObject .., _
  | .take .., _ | .setResult _, _ | .setHost _, _ => []

def Behavior.logEvents : Behavior σ α → Scene σ → List LogEvent
  | .done _, _ | .panic _, _ => []
  | .ask r next, s =>
      match r.perform s with
      | some (answer, s) => r.logEvents answer ++ (next answer).logEvents s
      | none => []

theorem Request.undergoes_perform {r : Request σ} {s s' : Scene σ} {a : r.Answer}
    (h : r.perform s = some (a, s')) :
    s.world.env.diagnostics.Undergoes (r.logEvents a) s'.world.env.diagnostics := by
  rw [env_of_perform h]
  cases r with
  | inspect => cases h; exact .seen (.nil _)
  | report d => exact .reported (.nil _)
  | takeDiagnostics => cases h; exact .taken (.nil _)
  | _ => exact .nil _

theorem Behavior.undergoes_run {b : Behavior σ α} {s s' : Scene σ} {ending : Ending α}
    (hrun : b.run s = some (ending, s')) :
    s.world.env.diagnostics.Undergoes (b.logEvents s) s'.world.env.diagnostics := by
  induction b generalizing s with
  | done a =>
      cases hrun
      exact .nil _
  | panic p =>
      cases hrun
      exact .nil _
  | ask r next ih =>
      rw [run] at hrun
      rw [logEvents]
      split at hrun
      · cases hrun
      · cases hr : r.perform s with
        | none =>
            rw [hr] at hrun
            cases hrun
            exact .nil _
        | some x =>
            rw [hr] at hrun
            obtain ⟨a, s₁⟩ := x
            exact (Request.undergoes_perform hr).append (ih a hrun)

/-! ## Calls -/

namespace Overload

def logEvents (o : Overload σ) (receiver : Option ObjectRef) (args : List CellRef)
    (w : World σ) : List LogEvent :=
  match marshal w.env.location args.length 0 o.slots args ⟨w.store, []⟩ with
  | some (.ok arguments, b) =>
      o.implementation.body.logEvents ⟨.start receiver arguments, { w with store := b.store }⟩
  | _ => []

variable {o : Overload σ} {signature : String} {receiver : Option ObjectRef} {args : List CellRef}
  {w w' : World σ} {result : CallResult}

theorem env_of_settle {l : Location} {ending : Ending (Except HostError Unit)} {s : Scene σ}
    (h : o.settle signature l ending s = some (result, w)) : w.env = s.world.env := by
  cases settles_of_settle h <;> rfl

theorem undergoes_call (h : o.call signature receiver args w = some (result, w')) :
    w.env.diagnostics.Undergoes (o.logEvents receiver args w) w'.env.diagnostics := by
  unfold logEvents
  cases hm : marshal w.env.location args.length 0 o.slots args ⟨w.store, []⟩ with
  | none =>
      rw [call_of_none hm] at h
      cases h
  | some x =>
      obtain ⟨answer, b⟩ := x
      cases answer with
      | error e =>
          rw [call_of_error hm] at h
          obtain ⟨failure, -, ⟨⟩⟩ := Option.map_eq_some_iff.mp h
          exact .nil _
      | ok arguments =>
          rw [call_of_ok hm] at h
          obtain ⟨⟨ending, s⟩, hrun, hsettled⟩ := Option.bind_eq_some_iff.mp h
          obtain ⟨⟨result₁, w₁⟩, hsettle, ⟨⟩⟩ := Option.map_eq_some_iff.mp hsettled
          have hran := Behavior.undergoes_run hrun
          rw [← env_of_settle hsettle] at hran
          exact hran

end Overload

namespace Callable

/-- What the log sees of a placeholder factory and of a placeholder that is missing. -/
def receiverEvents (f : Callable σ) (receiver : Option ObjectRef) (w : World σ) : List LogEvent :=
  match receiver, f.declaring with
  | none, some c =>
      if f.identity.isStatic then []
      else
        c.newMock.logEvents ⟨.start none [], w⟩ ++
        match c.newMock.run ⟨.start none [], w⟩ with
        | some (.done none, _) =>
            [.reported ⟨.fatal,
              "Non-static method " ++ f.signature ++ "() cannot be called statically",
              w.env.location⟩]
        | _ => []
  | _, _ => []

def logEvents (f : Callable σ) (receiver : Option ObjectRef) (args : List CellRef)
    (w : World σ) : List LogEvent :=
  if f.identity.isAbstract then
    [.reported ⟨.fatal, "Cannot call abstract method " ++ f.signature, w.env.location⟩]
  else
    f.receiverEvents receiver w ++
    match f.resolveReceiver receiver w with
    | some (.done receiver, w₁) =>
      match f.table.find? args.length with
      | none =>
          [.reported ⟨.warning, (f.table.countProblem args.length).message f.name args.length,
            w.env.location⟩]
      | some o => o.logEvents receiver args w₁
    | _ => []

variable {f : Callable σ} {receiver : Option ObjectRef} {args : List CellRef} {w w' : World σ}

theorem undergoes_resolveReceiver {ending : Ending (Option ObjectRef)}
    (hr : f.resolveReceiver receiver w = some (ending, w')) :
    w.env.diagnostics.Undergoes (f.receiverEvents receiver w) w'.env.diagnostics := by
  by_cases hneeds : ∃ c, f.NeedsPlaceholder receiver c
  · obtain ⟨c, h⟩ := hneeds
    rw [resolveReceiver_of_needsPlaceholder h] at hr
    obtain ⟨⟨made, s⟩, hrun, heq⟩ := Option.map_eq_some_iff.mp hr
    have hran := Behavior.undergoes_run hrun
    obtain ⟨rfl, hc, hs⟩ := h
    simp only [receiverEvents, hc, hs, Bool.false_eq_true, ↓reduceIte, hrun]
    cases made with
    | panicked p =>
        cases heq
        exact hran.append (.nil _)
    | done made =>
        cases made with
        | some o =>
            cases heq
            exact hran.append (.nil _)
        | none =>
            cases heq
            exact hran.append (.reported (.nil _))
  · rw [resolveReceiver_eq_self fun c hc => hneeds ⟨c, hc⟩] at hr
    cases hr
    unfold receiverEvents
    split
    · next c hc =>
        split
        · exact .nil _
        · next hs => exact absurd ⟨c, rfl, hc, Bool.of_not_eq_true hs⟩ hneeds
    · exact .nil _

theorem undergoes_invoke {result : CallResult}
    (h : f.invoke receiver args w = some (result, w')) :
    w.env.diagnostics.Undergoes (f.logEvents receiver args w) w'.env.diagnostics := by
  unfold logEvents
  cases habs : f.identity.isAbstract with
  | true =>
      rw [invoke_of_isAbstract habs] at h
      cases h
      exact .reported (.nil _)
  | false =>
      simp only [Bool.false_eq_true, ↓reduceIte]
      cases hr : f.resolveReceiver receiver w with
      | none =>
          rw [invoke_of_stalled habs hr] at h
          cases h
      | some x =>
          obtain ⟨ending, w₁⟩ := x
          have hreceived := undergoes_resolveReceiver hr
          cases ending with
          | panicked p =>
              rw [invoke_of_panicked habs hr] at h
              cases h
              exact hreceived.append (.nil _)
          | done r =>
              cases hfind : f.table.find? args.length with
              | none =>
                  rw [invoke_of_find?_eq_none habs hr hfind] at h
                  cases h
                  exact hreceived.append (.reported (.nil _))
              | some o =>
                  rw [invoke_of_find?_eq_some habs hr hfind] at h
                  exact hreceived.append (Overload.undergoes_call h)

end Callable

/-! ## Runs -/

/-- What a caller does with one environment, and what may happen elsewhere in between. -/
inductive EnvironmentUse (σ : Type)
  | warn (l : Location) (message : String)
  | error (l : Location) (severity : Severity) (message : String)
  | invoke (f : Callable σ) (receiver : Option ObjectRef) (args : List CellRef)
  | diagnostics
  | takeDiagnostics
  | setLocation (l : Location)
  | elsewhere (store : Store) (held : List CellRef) (host : σ)

namespace World

open LogEvent (reports batched)

/-- One use of an environment: what its log sees, and the world afterwards, unless it never comes
back. -/
def use (w : World σ) : EnvironmentUse σ → Option (List LogEvent × World σ)
  | .warn l message =>
      some ([.reported ⟨.warning, message, l⟩], { w with env := w.env.warn l message })
  | .error l severity message =>
      some ([.reported ⟨severity, message, l⟩], w.report ⟨severity, message, l⟩)
  | .invoke f receiver args =>
      (f.invoke receiver args w).map fun (_, w') => (f.logEvents receiver args w, w')
  | .diagnostics => some ([.seen w.env.diagnostics], w)
  | .takeDiagnostics =>
      some ([.taken w.env.takeDiagnostics.1], { w with env := w.env.takeDiagnostics.2 })
  | .setLocation l => some ([], { w with env := w.env.setLocation l })
  | .elsewhere store held host => some ([], ⟨store, w.env, held, host⟩)

def useAll (w : World σ) : List (EnvironmentUse σ) → Option (List LogEvent × World σ)
  | [] => some ([], w)
  | u :: us =>
    match w.use u with
    | none => none
    | some (events, w) => (w.useAll us).map fun (events', w) => (events ++ events', w)

variable {w w' : World σ} {us : List (EnvironmentUse σ)} {events : List LogEvent}

theorem undergoes_use {u : EnvironmentUse σ} (h : w.use u = some (events, w')) :
    w.env.diagnostics.Undergoes events w'.env.diagnostics := by
  cases u with
  | warn l message => cases h; exact .reported (.nil _)
  | error l severity message => cases h; exact .reported (.nil _)
  | diagnostics => cases h; exact .seen (.nil _)
  | takeDiagnostics => cases h; exact .taken (.nil _)
  | setLocation l => cases h; exact .nil _
  | elsewhere store held host => cases h; exact .nil _
  | invoke f receiver args =>
      obtain ⟨x, hinvoke, ⟨⟩⟩ := Option.map_eq_some_iff.mp h
      exact Callable.undergoes_invoke hinvoke

theorem undergoes_useAll (h : w.useAll us = some (events, w')) :
    w.env.diagnostics.Undergoes events w'.env.diagnostics := by
  induction us generalizing w events with
  | nil =>
      cases h
      exact .nil _
  | cons u us ih =>
      rw [useAll] at h
      cases hu : w.use u with
      | none =>
          rw [hu] at h
          cases h
      | some x =>
          rw [hu] at h
          obtain ⟨y, hus, ⟨⟩⟩ := Option.map_eq_some_iff.mp h
          exact (undergoes_use hu).append (ih hus)

/-- However a new environment is used, the batches taken from its log and what is left in it are all
reports, each once and in order.  A log that is handed out in between holds the reports up to then
that no batch before it has.  And the flag of each of these logs is right, whatever its holder adds
to it or clears. -/
theorem reports_conserved {l : Location} {translatesPanics : Bool}
    (hnew : w.env = .new l translatesPanics) (huses : w.useAll us = some (events, w')) :
    batched events ++ w'.env.diagnostics.entries = reports events ∧
    (∀ before e after log, events = before ++ e :: after → e.handed? = some log →
      batched before ++ log.entries = reports before) ∧
    ∀ log, (log = w'.env.diagnostics ∨ ∃ e ∈ events, e.handed? = some log) →
      ∀ edits : List DiagnosticLog.Edit, (edits.foldl DiagnosticLog.edit log).Exact := by
  have hrun := undergoes_useAll huses
  rw [hnew] at hrun
  refine ⟨hrun.batched_append_entries, fun before e after log hevents he => ?_,
    fun log hlog edits => ?_⟩
  · rw [hevents] at hrun
    obtain ⟨log', hbefore, hafter⟩ := hrun.exists_of_append
    rw [hafter.eq_of_handed? he]
    exact hbefore.batched_append_entries
  · apply DiagnosticLog.Exact.edits
    rcases hlog with rfl | ⟨e, hmem, he⟩
    · exact hrun.keeps_exact DiagnosticLog.exact_empty
    · obtain ⟨before, after, hevents⟩ := List.append_of_mem hmem
      rw [hevents] at hrun
      obtain ⟨log', hbefore, hafter⟩ := hrun.exists_of_append
      rw [hafter.eq_of_handed? he]
      exact hbefore.keeps_exact DiagnosticLog.exact_empty

/-- The placeholder factory warns, takes the log, reports that, and makes nothing. -/
def clockClass : DeclaringClass Unit where
  name := "Clock"
  mock := some <|
    .ask (.report ⟨.warning, "no clock", .unknown⟩) fun _ =>
    .ask .takeDiagnostics fun _ =>
    .ask (.report ⟨.notice, "log taken", .unknown⟩) fun _ => .done none

def tick : Declaration Unit :=
  { OverloadTable.gather with
    name := "tick"
    parameters := []
    implementation :=
      ⟨2, .ask (.report ⟨.recoverable, "late", .unknown⟩) fun _ =>
        .ask .inspect fun _ => .done (.ok ())⟩ }

def ticking : Callable Unit :=
  (Callable.method "tick" clockClass).after
    ((Callable.method "tick" clockClass).add 0 tick .builtin .strict)

def clockUses : List (EnvironmentUse Unit) :=
  [.warn .unknown "start", .diagnostics, .invoke ticking none [],
    .error .unknown .deprecated "end"]

def clockWorld : World Unit := ⟨.empty, .new .unknown true, [], ()⟩

def lateLog : DiagnosticLog :=
  ⟨[⟨.notice, "log taken", .unknown⟩,
    ⟨.fatal, "Non-static method Clock::tick() cannot be called statically", .unknown⟩,
    ⟨.recoverable, "late", .unknown⟩], true⟩

/-- The events of these uses. -/
def clockEvents : List LogEvent :=
  [.reported ⟨.warning, "start", .unknown⟩,
    .seen ⟨[⟨.warning, "start", .unknown⟩], false⟩,
    .reported ⟨.warning, "no clock", .unknown⟩,
    .taken ⟨[⟨.warning, "start", .unknown⟩, ⟨.warning, "no clock", .unknown⟩], false⟩,
    .reported ⟨.notice, "log taken", .unknown⟩,
    .reported ⟨.fatal, "Non-static method Clock::tick() cannot be called statically", .unknown⟩,
    .reported ⟨.recoverable, "late", .unknown⟩,
    .seen lateLog,
    .reported ⟨.deprecated, "end", .unknown⟩]

/-- The first two reports are taken while the call looks for a receiver, the others are still there,
and native code sees the three that were made by then. -/
theorem reports_conserved_clockWorld :
    ∃ w, clockWorld.useAll clockUses = some (clockEvents, w) ∧
      batched clockEvents ++ w.env.diagnostics.entries = reports clockEvents ∧
      w.env.diagnostics.entries = lateLog.entries ++ [⟨.deprecated, "end", .unknown⟩] ∧
      batched (clockEvents.take 7) ++ lateLog.entries = reports (clockEvents.take 7) ∧
      ((lateLog.edit .clear).edit (.add ⟨.core, "again", .unknown⟩)).Exact := by
  have hrun : (clockWorld.useAll clockUses).any (fun x => decide (x.1 = clockEvents)) = true := by
    decide +kernel
  obtain ⟨⟨events, w⟩, huses, hevents⟩ := (Option.any_eq_true _ _).mp hrun
  obtain rfl : events = clockEvents := of_decide_eq_true hevents
  obtain ⟨hall, hhanded, hexact⟩ := reports_conserved (w := clockWorld) rfl huses
  have hreports : reports clockEvents = batched clockEvents ++
      (lateLog.entries ++ [⟨.deprecated, "end", .unknown⟩]) := rfl
  refine ⟨w, huses, hall, List.append_cancel_left (hall.trans hreports),
    hhanded (clockEvents.take 7) (.seen lateLog) (clockEvents.drop 8) lateLog rfl rfl, ?_⟩
  have hmem : .seen lateLog ∈ clockEvents :=
    List.mem_append_right (clockEvents.take 7) List.mem_cons_self
  exact hexact lateLog (.inr ⟨_, hmem, rfl⟩) [.clear, .add ⟨.core, "again", .unknown⟩]

end World

end HostCall
