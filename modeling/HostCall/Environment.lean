import HostCall.Diagnostic
import HostCall.Error

/-!
# Calling environments

What a caller brings to a call: the current location, a log for problems that do not stop the call,
and whether a panic inside native code is turned into an exception.
-/

namespace HostCall

structure Environment where
  location : Location
  diagnostics : DiagnosticLog
  translatesPanics : Bool
deriving DecidableEq

namespace Environment

def new (location : Location) (translatesPanics : Bool) : Environment :=
  ⟨location, .empty, translatesPanics⟩

/-- The environment of a caller that says nothing: no location, and panics are translated. -/
def standard : Environment := new .unknown true

def setLocation (env : Environment) (l : Location) : Environment := { env with location := l }

def report (env : Environment) (d : Diagnostic) : Environment :=
  { env with diagnostics := env.diagnostics.add d }

/-- A report is one more entry, behind those that were there. -/
@[simp] theorem entries_report (env : Environment) (d : Diagnostic) :
    (env.report d).diagnostics.entries = env.diagnostics.entries ++ [d] := rfl

def warn (env : Environment) (l : Location) (message : String) : Environment :=
  env.report ⟨.warning, message, l⟩

def takeDiagnostics (env : Environment) : DiagnosticLog × Environment :=
  (env.diagnostics, { env with diagnostics := .empty })

def describe (env : Environment) : String :=
  Text.record "Environment"
    [("trace", env.location.describe), ("diagnostics", toString env.diagnostics.size),
     ("translate_panics", if env.translatesPanics then "true" else "false")]

end Environment

/-- The exception that a host failure becomes.  A thrown object names its own class and a thrown
text is the message itself; every other thrown value is described. -/
def HostError.toException (e : HostError) (s : Store) (l : Location) : Option Exception :=
  match e with
  | .thrown c =>
      let className :=
        match s.payload c with
        | .scalar (.object o) => s.className o
        | _ => e.exceptionClass
      let message :=
        match s.payload c with
        | .scalar (.text t) => some t
        | p => s.describePayload p
      message.map fun m => ⟨className, m, some c, l⟩
  | e => (e.message s).map fun m => ⟨e.exceptionClass, m, none, l⟩

end HostCall
