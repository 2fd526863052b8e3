import HostCall.Call.Frame
import HostCall.Environment

/-!
# Behaviors of native code

Native code is given by what it does: it asks the world for something, goes on with the answer, and
in the end returns or panics.  The requests are all there is, so native code of every kind keeps
what the world guards: an immutable cell stays as it is, and bindings that a call made are not
native code's to release.  Besides the store and the environment the world carries a state that
belongs to the native side alone.
-/

namespace HostCall

inductive PanicPayload
  | message (text : String)
  | other
deriving DecidableEq

def PanicPayload.text : PanicPayload → String
  | .message text => text
  | .other => "unknown panic payload"

structure World (σ : Type) where
  store : Store
  env : Environment
  /-- The by-reference bindings that the native side holds itself. -/
  held : List CellRef
  host : σ

structure Scene (σ : Type) where
  frame : Frame
  world : World σ

inductive Request (σ : Type)
  | inspect
  | alloc (p : Payload) (immutable : Bool)
  | assign (c : CellRef) (p : Payload)
  | copy (c : CellRef) (immutable : Bool)
  | checkOut (c : CellRef)
  | checkIn (c : CellRef)
  | newObject (className : String) (data : Boxed)
  | report (d : Diagnostic)
  | takeDiagnostics
  | take (t : HostType) (i : Nat)
  | setResult (b : Boxed)
  | setHost (h : σ)

namespace Request

variable {σ : Type}

@[reducible] def Answer : Request σ → Type
  | .inspect => Scene σ
  | .alloc .. | .copy .. => CellRef
  | .assign .. => Except AssignError Unit
  | .checkOut _ | .report _ | .setResult _ | .setHost _ => Unit
  | .checkIn _ => Bool
  | .newObject .. => ObjectRef
  | .takeDiagnostics => DiagnosticLog
  | .take t _ => Except HostError t.Carrier

/-- Whether a request is for a copy that never ends. -/
def stalls : Request σ → Scene σ → Bool
  | .copy c _, s => !s.world.store.ends c
  | _, _ => false

/-- The answer to a request and the scene after it; `none` when the request names a cell or an
object that the store does not hold, or stalls. -/
def perform : (r : Request σ) → Scene σ → Option (r.Answer × Scene σ)
  | .inspect, s => some (s, s)
  | .alloc p immutable, ⟨f, w⟩ =>
      if w.store.holdsPayload p then
        let (c, store) := w.store.alloc p immutable
        some (c, ⟨f, { w with store }⟩)
      else none
  | .assign c p, ⟨f, w⟩ =>
      if w.store.holdsCell c && w.store.holdsPayload p then
        match w.store.assign c p with
        | .ok store => some (.ok (), ⟨f, { w with store }⟩)
        | .error e => some (.error e, ⟨f, w⟩)
      else none
  | .copy c immutable, ⟨f, w⟩ =>
      if w.store.holdsCell c then
        (w.store.copy immutable c).map fun (d, store) => (d, ⟨f, { w with store }⟩)
      else none
  | .checkOut c, ⟨f, w⟩ =>
      if w.store.holdsCell c then
        some ((), ⟨f, { w with store := w.store.checkOut c, held := c :: w.held }⟩)
      else none
  | .checkIn c, ⟨f, w⟩ =>
      if c ∈ w.held then
        some (true, ⟨f, { w with store := w.store.checkIn c, held := w.held.erase c }⟩)
      else some (false, ⟨f, w⟩)
  | .newObject className data, ⟨f, w⟩ =>
      if w.store.holdsBoxed data then
        let (o, store) := w.store.newObject className data
        some (o, ⟨f, { w with store }⟩)
      else none
  | .report d, ⟨f, w⟩ => some ((), ⟨f, { w with env := w.env.report d }⟩)
  | .takeDiagnostics, ⟨f, w⟩ =>
      let (log, env) := w.env.takeDiagnostics
      some (log, ⟨f, { w with env }⟩)
  | .take t i, ⟨f, w⟩ =>
      let (r, f) := f.take t i
      some (r, ⟨f, w⟩)
  | .setResult b, ⟨f, w⟩ =>
      if w.store.holdsBoxed b then some ((), ⟨f.setResult b, w⟩) else none
  | .setHost h, ⟨f, w⟩ => some ((), ⟨f, { w with host := h }⟩)

end Request

/-- What native code does, with a result of type `α`. -/
inductive Behavior (σ : Type) (α : Type)
  | done (a : α)
  | panic (p : PanicPayload)
  | ask (r : Request σ) (next : r.Answer → Behavior σ α)

inductive Ending (α : Type)
  | done (a : α)
  | panicked (p : PanicPayload)

namespace Behavior

variable {σ α β : Type}

/-- Runs a behavior to its end, unless it stalls on the way.  A request that names nothing in the
store ends it with a panic. -/
def run : Behavior σ α → Scene σ → Option (Ending α × Scene σ)
  | .done a, s => some (.done a, s)
  | .panic p, s => some (.panicked p, s)
  | .ask r next, s =>
      if r.stalls s then none
      else
        match r.perform s with
        | some (answer, s) => run (next answer) s
        | none => some (.panicked .other, s)

def bind : Behavior σ α → (α → Behavior σ β) → Behavior σ β
  | .done a, f => f a
  | .panic p, _ => .panic p
  | .ask r next, f => .ask r fun answer => bind (next answer) f

instance : Monad (Behavior σ) where
  pure := .done
  bind := bind

def request (r : Request σ) : Behavior σ r.Answer := .ask r .done

end Behavior

/-- A native function; copies of one share the key. -/
structure Implementation (σ : Type) where
  key : Nat
  body : Behavior σ (Except HostError Unit)

namespace Implementation

variable {σ : Type}

def same (f g : Implementation σ) : Bool := f.key == g.key

def describe (_ : Implementation σ) : String := Text.openRecord "NativeFn" []

end Implementation

end HostCall
