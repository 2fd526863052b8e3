import HostCall.Diagnostic

/-!
# What becomes of reports

Reports are added to a log, the log is looked at, and it is emptied when it is taken.  Each of these
is an event, and the event of looking or taking holds the log that was handed out.  A log that goes
through a list of events has lost nothing: the batches that were taken and what is left are the
reports, in their order.  The flag for errors is kept apart from the entries, and agrees with them.
-/

namespace HostCall

namespace DiagnosticLog

/-- The flag tells whether there is an error among the entries. -/
def Exact (log : DiagnosticLog) : Prop :=
  log.hasErrors = true ↔ ∃ d ∈ log.entries, d.toClass = .error

/-- What the holder of a log can do with it. -/
inductive Edit
  | add (d : Diagnostic)
  | clear

def edit (log : DiagnosticLog) : Edit → DiagnosticLog
  | .add d => log.add d
  | .clear => log.clear

variable {log : DiagnosticLog}

theorem exact_empty : empty.Exact := by
  simp [Exact, empty]

theorem Exact.add (h : log.Exact) (d : Diagnostic) : (log.add d).Exact := by
  unfold Exact at h ⊢
  simp [DiagnosticLog.add, h, Diagnostic.isError, or_and_right, exists_or]

theorem Exact.edit (h : log.Exact) (e : Edit) : (log.edit e).Exact := by
  cases e with
  | add d => exact h.add d
  | clear => exact exact_empty

theorem Exact.edits (h : log.Exact) (es : List Edit) : (es.foldl DiagnosticLog.edit log).Exact := by
  induction es generalizing log with
  | nil => exact h
  | cons e es ih => exact ih (h.edit e)

end DiagnosticLog

/-- Something that happens to a log: a report, a copy that is handed out, or the log itself that is
handed out and leaves an empty one behind. -/
inductive LogEvent
  | reported (d : Diagnostic)
  | seen (log : DiagnosticLog)
  | taken (log : DiagnosticLog)
deriving DecidableEq

namespace LogEvent

def report? : LogEvent → Option Diagnostic
  | reported d => some d
  | _ => none

def batch? : LogEvent → Option DiagnosticLog
  | taken log => some log
  | _ => none

def handed? : LogEvent → Option DiagnosticLog
  | reported _ => none
  | seen log | taken log => some log

def reports (events : List LogEvent) : List Diagnostic := events.filterMap report?

/-- What the batches hold that were taken, one batch behind the other. -/
def batched (events : List LogEvent) : List Diagnostic :=
  (events.filterMap batch?).flatMap DiagnosticLog.entries

end LogEvent

namespace DiagnosticLog

open LogEvent (reports batched)

/-- A log goes through events, each of which hands out the log as it is then. -/
inductive Undergoes : DiagnosticLog → List LogEvent → DiagnosticLog → Prop
  | nil (log : DiagnosticLog) : Undergoes log [] log
  | reported {log log' : DiagnosticLog} {d : Diagnostic} {es : List LogEvent} :
      Undergoes (log.add d) es log' → Undergoes log (.reported d :: es) log'
  | seen {log log' : DiagnosticLog} {es : List LogEvent} :
      Undergoes log es log' → Undergoes log (.seen log :: es) log'
  | taken {log log' : DiagnosticLog} {es : List LogEvent} :
      Undergoes empty es log' → Undergoes log (.taken log :: es) log'

namespace Undergoes

variable {log log' log'' l : DiagnosticLog} {e : LogEvent} {es es' : List LogEvent}

theorem append (h : log.Undergoes es log') (h' : log'.Undergoes es' log'') :
    log.Undergoes (es ++ es') log'' := by
  induction h with
  | nil _ => exact h'
  | reported _ ih => exact .reported (ih h')
  | seen _ ih => exact .seen (ih h')
  | taken _ ih => exact .taken (ih h')

theorem exists_of_append (h : log.Undergoes (es ++ es') log'') :
    ∃ log', log.Undergoes es log' ∧ log'.Undergoes es' log'' := by
  induction es generalizing log with
  | nil => exact ⟨log, .nil log, h⟩
  | cons e es ih =>
      cases h with
      | reported h =>
          obtain ⟨log', hes, hes'⟩ := ih h
          exact ⟨log', .reported hes, hes'⟩
      | seen h =>
          obtain ⟨log', hes, hes'⟩ := ih h
          exact ⟨log', .seen hes, hes'⟩
      | taken h =>
          obtain ⟨log', hes, hes'⟩ := ih h
          exact ⟨log', .taken hes, hes'⟩

theorem eq_of_handed? (h : log.Undergoes (e :: es) log') (he : e.handed? = some l) : l = log := by
  cases h with
  | reported _ => cases he
  | seen _ => exact (Option.some.inj he).symm
  | taken _ => exact (Option.some.inj he).symm

theorem keeps_exact (h : log.Undergoes es log') (hlog : log.Exact) : log'.Exact := by
  induction h with
  | nil _ => exact hlog
  | reported _ ih => exact ih (hlog.add _)
  | seen _ ih => exact ih hlog
  | taken _ ih => exact ih exact_empty

/-- Whatever was in the log and whatever was reported is in a batch or still there, in order. -/
theorem batched_append_entries (h : log.Undergoes es log') :
    batched es ++ log'.entries = log.entries ++ reports es := by
  induction h with
  | nil log => exact (List.append_nil log.entries).symm
  | @reported log log' d es _ ih =>
      calc
        batched es ++ log'.entries = (log.entries ++ [d]) ++ reports es := ih
        _ = log.entries ++ d :: reports es := List.append_assoc ..
  | seen _ ih => exact ih
  | @taken log log' es _ ih =>
      calc
        (log.entries ++ batched es) ++ log'.entries
          = log.entries ++ (batched es ++ log'.entries) := List.append_assoc ..
        _ = log.entries ++ reports es := congrArg (log.entries ++ ·) ih

end Undergoes

end DiagnosticLog

end HostCall
