import HostCall.Overload.ArityMap
import HostCall.Overload.Basic

/-!
# Overload tables

The overloads of one callable, at most one to an arity and at most one variadic.  The table marks
where the variadic overload stands, so that looking up an argument count needs two steps: the
overload of exactly that arity, and failing that the variadic one if it takes so many.
-/

namespace HostCall

inductive ConflictMode
  | strict
  /-- The overload that holds the place stands in for it. -/
  | tolerant
deriving DecidableEq

structure OverloadTable (σ : Type) where
  overloads : ArityMap (Overload σ)
  /-- The arity of the variadic overload. -/
  variadic : Option Nat

namespace OverloadTable

variable {σ : Type}

def empty : OverloadTable σ := ⟨.empty, none⟩

def get? (t : OverloadTable σ) (arity : Nat) : Option (Overload σ) := t.overloads.get? arity

def variadic? (t : OverloadTable σ) : Option (Overload σ) := t.variadic.bind t.get?

/-- The overload that a call with `argc` arguments reaches. -/
def find? (t : OverloadTable σ) (argc : Nat) : Option (Overload σ) :=
  match t.get? argc with
  | some o => some o
  | none => t.variadic?.filter fun o => decide (o.minArgs ≤ argc)

def size (t : OverloadTable σ) : Nat := t.overloads.size

def isEmpty (t : OverloadTable σ) : Bool := t.overloads.isEmpty

def arities (t : OverloadTable σ) : List Nat := t.overloads.keys

/-- The overload that keeps another from being inserted: the one of its arity, or for a variadic
one the variadic one there is. -/
def obstacle? (t : OverloadTable σ) (o : Overload σ) : Option (Overload σ) :=
  match t.get? o.arity with
  | some other => some other
  | none => if o.isVariadic then t.variadic? else none

def put (t : OverloadTable σ) (arity : Nat) (o : Overload σ) : OverloadTable σ where
  overloads := t.overloads.insert arity o
  variadic := if o.isVariadic then some arity else t.variadic

/-- Inserts an overload at its arity.  The answer is the overload that now stands for it. -/
def insert (t : OverloadTable σ) (o : Overload σ) (mode : ConflictMode) :
    Except BindingError (Overload σ × OverloadTable σ) :=
  match t.obstacle? o with
  | none => .ok (o, t.put o.arity o)
  | some other =>
    match mode with
    | .tolerant => .ok (other, t)
    | .strict => .error (.conflict o.name o.arity)

def add (t : OverloadTable σ) (serial : Nat) (owner : String) (d : Declaration σ) (r : Registry)
    (mode : ConflictMode) : Except BindingError (Overload σ × OverloadTable σ) :=
  match Overload.bind serial owner d r with
  | .error e => .error e
  | .ok o => t.insert o mode

def remove (t : OverloadTable σ) (arity : Nat) : Option (Overload σ) × OverloadTable σ :=
  match t.get? arity with
  | none => (none, t)
  | some o =>
      (some o, ⟨t.overloads.erase arity, if t.variadic = some arity then none else t.variadic⟩)

/-- Takes over one entry of a parent, unless its arity is taken or it would be a second variadic
overload. -/
def inherit (t : OverloadTable σ) (entry : Nat × Overload σ) : OverloadTable σ :=
  if (t.get? entry.1).isSome then t
  else if entry.2.isVariadic && t.variadic.isSome then t
  else t.put entry.1 entry.2

/-- Shares the overloads of a parent whose places are free here. -/
def merge (t parent : OverloadTable σ) : OverloadTable σ :=
  parent.overloads.entries.foldl inherit t

/-- The fewest arguments that any overload accepts, zero when there is none. -/
def minArgs (t : OverloadTable σ) : Nat :=
  (t.overloads.values.map Overload.minArgs).min?.getD 0

/-- The most arguments that any overload accepts; `none` when there is no bound or no overload. -/
def maxArgs (t : OverloadTable σ) : Option Nat :=
  if t.variadic.isSome then none else t.arities.max?

end OverloadTable

/-- What is wrong with a number of arguments that no overload takes. -/
inductive CountProblem
  | notExactly (max : Nat)
  | notAtLeast (min : Nat)
deriving DecidableEq

namespace CountProblem

def message (member : String) (argc : Nat) : CountProblem → String
  | .notExactly max =>
      member ++ "() expects exactly " ++ toString max ++ " parameter(s), " ++ toString argc ++
        " given"
  | .notAtLeast min =>
      member ++ "() expects at least " ++ toString min ++ " parameter(s), " ++ toString argc ++
        " given"

end CountProblem

/-- The problem with `argc` arguments: more than any overload takes, or else put down to too few. -/
def OverloadTable.countProblem {σ : Type} (t : OverloadTable σ) (argc : Nat) : CountProblem :=
  match t.maxArgs with
  | some max => if max < argc then .notExactly max else .notAtLeast t.minArgs
  | none => .notAtLeast t.minArgs

end HostCall
