import HostCall.Location

/-!
# Diagnostics

Problems that do not stop a call are reported to a log.  The log keeps every report in order and
remembers, as reports arrive, whether one of them was an error.
-/

namespace HostCall

inductive Severity
  | fatal | core | recoverable | warning | notice | deprecated
deriving DecidableEq

inductive SeverityClass
  | error | warning | info
deriving DecidableEq

namespace Severity

def text : Severity → String
  | .fatal => "fatal error"
  | .core => "core error"
  | .recoverable => "recoverable error"
  | .warning => "warning"
  | .notice => "notice"
  | .deprecated => "deprecated"

def toClass : Severity → SeverityClass
  | .fatal | .core | .recoverable => .error
  | .warning => .warning
  | .notice | .deprecated => .info

end Severity

structure Diagnostic where
  severity : Severity
  message : String
  location : Location
deriving DecidableEq

namespace Diagnostic

def toClass (d : Diagnostic) : SeverityClass := d.severity.toClass

def isError (d : Diagnostic) : Bool := decide (d.toClass = .error)

def isWarning (d : Diagnostic) : Bool := decide (d.toClass = .warning)

def text (d : Diagnostic) : String :=
  d.location.text ++ ": " ++ d.severity.text ++ ": " ++ d.message

end Diagnostic

/-- Reported problems in order of report. -/
structure DiagnosticLog where
  entries : List Diagnostic
  /-- Kept up to date by every insertion, so that asking does not search. -/
  hasErrors : Bool
deriving DecidableEq

namespace DiagnosticLog

def empty : DiagnosticLog := ⟨[], false⟩

def add (log : DiagnosticLog) (d : Diagnostic) : DiagnosticLog :=
  ⟨log.entries ++ [d], log.hasErrors || d.isError⟩

def clear (_ : DiagnosticLog) : DiagnosticLog := empty

def size (log : DiagnosticLog) : Nat := log.entries.length

def isEmpty (log : DiagnosticLog) : Bool := log.entries.isEmpty

def errors (log : DiagnosticLog) : List Diagnostic := log.entries.filter Diagnostic.isError

def warnings (log : DiagnosticLog) : List Diagnostic := log.entries.filter Diagnostic.isWarning

def hasWarnings (log : DiagnosticLog) : Bool := log.entries.any Diagnostic.isWarning

def text (log : DiagnosticLog) : String := "\n".intercalate (log.entries.map Diagnostic.text)

end DiagnosticLog

end HostCall
