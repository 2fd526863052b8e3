import HostCall.Store.Basic

/-!
# Equality of cells

Two cells are equal when they are the same cell or their payloads are equal; arrays are compared
element by element as cells, so the shortcut for one cell met twice applies at every depth.  The
levels are as many as arrays have that do not contain themselves; of others nothing is said.
-/

namespace HostCall.Store

def pairwiseEqual (eq : CellRef → CellRef → Bool) : List CellRef → List CellRef → Bool
  | [], [] => true
  | a :: as, b :: bs => eq a b && pairwiseEqual eq as bs
  | _, _ => false

def payloadEqualBy (eq : CellRef → CellRef → Bool) : Payload → Payload → Bool
  | .scalar x, .scalar y => x.same y
  | .array as, .array bs => pairwiseEqual eq as bs
  | _, _ => false

/-- Equality of cells, followed through `depth` levels. -/
def equalWithin (s : Store) : (depth : Nat) → CellRef → CellRef → Bool
  | 0, a, b => decide (a = b)
  | depth + 1, a, b =>
      decide (a = b) || payloadEqualBy (s.equalWithin depth) (s.payload a) (s.payload b)

def equal (s : Store) (a b : CellRef) : Bool := s.equalWithin s.cells.size a b

def payloadEqual (s : Store) (p q : Payload) : Bool := payloadEqualBy s.equal p q

end HostCall.Store
