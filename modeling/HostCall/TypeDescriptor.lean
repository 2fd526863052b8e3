import HostCall.Fingerprint
import HostCall.HostType

/-!
# Type descriptors

Declarations name their types.  A type is its fingerprint: two descriptors with one name are the
same type, however they came about.
-/

namespace HostCall

/-- A host type as it appears in a declaration. -/
structure TypeDescriptor where
  name : String
deriving DecidableEq

namespace TypeDescriptor

def fingerprint (t : TypeDescriptor) : Fingerprint := .ofName t.name

def same (t u : TypeDescriptor) : Bool := decide (t.fingerprint = u.fingerprint)

def void : TypeDescriptor := ⟨"void"⟩

def cell : TypeDescriptor := ⟨"Memory"⟩

/-- A list of raw cells, which takes all remaining arguments. -/
def cells : TypeDescriptor := ⟨"Vec<Memory>"⟩

def environment : TypeDescriptor := ⟨"Environment"⟩

def location : TypeDescriptor := ⟨"TraceInfo"⟩

/-- The generic list; which list it is, an element type beside it tells. -/
def list : TypeDescriptor := ⟨"Vec"⟩

def isCell (t : TypeDescriptor) : Bool := t.same cell

def isCells (t : TypeDescriptor) : Bool := t.same cells

def isEnvironment (t : TypeDescriptor) : Bool := t.same environment

def isLocation (t : TypeDescriptor) : Bool := t.same location

def describe (t : TypeDescriptor) : String := "NativeType(" ++ t.name ++ ")"

/-- The descriptors without repetition; of one type the first stays. -/
def distinct : List TypeDescriptor → List TypeDescriptor
  | [] => []
  | t :: ts => t :: (distinct ts).filter fun u => !t.same u

end TypeDescriptor

/-- The name that a data type is registered under; lists share one name. -/
def DataType.descriptor : DataType → TypeDescriptor
  | .unit => .void
  | .bool => ⟨"bool"⟩
  | .int k => ⟨k.name⟩
  | .float32 => ⟨"f32"⟩
  | .float64 => ⟨"f64"⟩
  | .text => ⟨"String"⟩
  | .object => ⟨"Instance"⟩
  | .list _ => .list

end HostCall
