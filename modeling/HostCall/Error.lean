import HostCall.Store.Tree
import HostCall.Location

/-!
# Failures

Failures are kept by cause, and each has one text.  Binding failures are found when a declaration
is registered; conversion failures when a value changes sides; host failures are what native code
raises during a call.  A call that fails does so in one of two ways: with an exception that
interpreted code may catch, or with a defect of the binding itself.
-/

namespace HostCall

inductive BindingError
  /-- The number of consumed arguments is taken. -/
  | conflict (member : String) (arity : Nat)
  | unsupportedType (type : String)
  | unsupportedReturnType (type : String)
  /-- A list of raw cells stands before the last parameter. -/
  | misplacedTail (member : String) (position : Nat)
deriving DecidableEq

def BindingError.message : BindingError → String
  | .conflict member arity =>
      "overload conflict: " ++ member ++ " already has an overload taking " ++ toString arity ++
        " argument(s)"
  | .unsupportedType type => "unsupported type for binding - " ++ type
  | .unsupportedReturnType type => "unsupported return type for binding - " ++ type
  | .misplacedTail member position =>
      "vararg parameter must be last, found at position " ++ toString position ++ " of " ++ member

inductive ConversionError
  | typeMismatch (expected actual : String)
  | nullValue (target : String)
  | integerOverflow (value : Int) (target : String)
  | failed (reason : String)
deriving DecidableEq

def ConversionError.message : ConversionError → String
  | .typeMismatch expected actual => "type mismatch: expected " ++ expected ++ ", got " ++ actual
  | .nullValue target => "null cannot be converted to " ++ target
  | .integerOverflow value target =>
      "integer overflow: value " ++ toString value ++ " does not fit in " ++ target
  | .failed reason => "conversion failed: " ++ reason

inductive HostError
  | conversion (source : ConversionError)
  | assignment (source : AssignError)
  | indexOutOfBounds (index count : Nat)
  /-- An argument was read as a kind that it is not. -/
  | kindMismatch (index : Nat) (expected actual : String)
  | invalidReceiver (reason : String)
  | panicked (reason : String)
  /-- A value of the interpreted language, thrown as it is. -/
  | thrown (value : CellRef)
  | other (reason : String)
deriving DecidableEq

namespace HostError

/-- The text of a host failure; a thrown value is described as the store now holds it. -/
def message (s : Store) : HostError → Option String
  | .conversion source => some ("conversion error: " ++ source.message)
  | .assignment source => some ("value error: " ++ source.message)
  | .indexOutOfBounds index count =>
      some ("argument index " ++ toString index ++ " out of bounds (function has " ++
        toString count ++ " arguments)")
  | .kindMismatch index expected actual =>
      some ("argument " ++ toString index ++ " is " ++ actual ++ ", not " ++ expected)
  | .invalidReceiver reason => some ("invalid 'this' reference: " ++ reason)
  | .panicked reason => some ("native function panicked: " ++ reason)
  | .thrown value => (s.describe value).map ("exception thrown: " ++ ·)
  | .other reason => some reason

def exceptionClass : HostError → String
  | .conversion _ | .kindMismatch .. => "TypeError"
  | .assignment _ => "ValueError"
  | .indexOutOfBounds .. => "ArgumentCountError"
  | .invalidReceiver _ | .panicked _ => "Error"
  | .thrown _ | .other _ => "Exception"

def cause? : HostError → Option String
  | .conversion source => some source.message
  | .assignment source => some source.message
  | _ => none

end HostError

structure Exception where
  className : String
  message : String
  /-- The thrown value, when native code threw one itself. -/
  value : Option CellRef
  location : Location
deriving DecidableEq

def Exception.text (e : Exception) : String :=
  e.className ++ ": " ++ e.message ++ " at " ++ e.location.text

/-- A failure of the binding itself, which interpreted code cannot catch. -/
inductive Defect
  | argumentsExhausted (member : String) (slot available : Nat)
  | returnConversion (member : String) (source : ConversionError)
deriving DecidableEq

namespace Defect

def message : Defect → String
  | .argumentsExhausted member slot available =>
      member ++ ": ran out of arguments at slot " ++ toString slot ++ " (" ++ toString available ++
        " available)"
  | .returnConversion member source =>
      member ++ ": return value conversion failed: " ++ source.message

def cause? : Defect → Option String
  | .argumentsExhausted .. => none
  | .returnConversion _ source => some source.message

end Defect

inductive CallFailure
  | exception (e : Exception)
  | defect (d : Defect)
deriving DecidableEq

namespace CallFailure

def message : CallFailure → String
  | .exception e => e.text
  | .defect d => "internal failure: " ++ d.message

def isCatchable : CallFailure → Bool
  | .exception _ => true
  | .defect _ => false

def exception? : CallFailure → Option Exception
  | .exception e => some e
  | .defect _ => none

end CallFailure

end HostCall
