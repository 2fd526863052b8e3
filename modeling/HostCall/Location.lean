import HostCall.Text.Quoted
import HostCall.Text.Record

/-!
# Locations of calls

Where in interpreted source a call happened: a file, a line and a column, both counted from one and
zero when unknown.
-/

namespace HostCall

structure Location where
  file : String
  line : Nat
  column : Nat
deriving DecidableEq

namespace Location

def unknown : Location := ⟨"<unknown>", 0, 0⟩

/-- Whether neither line nor column is known, whatever the file. -/
def isUnknown (l : Location) : Bool := l.line == 0 && l.column == 0

def text (l : Location) : String := l.file ++ ":" ++ toString l.line ++ ":" ++ toString l.column

def describe (l : Location) : String :=
  Text.record "TraceInfo"
    [("file", Text.quoted l.file), ("line", toString l.line), ("col", toString l.column)]

end Location

end HostCall
