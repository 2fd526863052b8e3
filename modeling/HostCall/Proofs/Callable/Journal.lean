import HostCall.Proofs.Callable.Steps

/-!
# A journal of what a call enters

To say how often a call runs native code, the native side is given a journal beside its own state.
Every native function and every placeholder factory first notes that it was entered and then does
what it does anyway.  Nothing a call does depends on the journal, so the run with a journal is the
run without one, and what it notes is what the call entered, in order.
-/

namespace HostCall

variable {σ τ ε α : Type}

/-! ## State beside the state of the native side -/

def World.beside (w : World σ) (j : τ) : World (σ × τ) := ⟨w.store, w.env, w.held, (w.host, j)⟩

def World.forget (w : World (σ × τ)) : World σ := ⟨w.store, w.env, w.held, w.host.1⟩

def Scene.beside (s : Scene σ) (j : τ) : Scene (σ × τ) := ⟨s.frame, s.world.beside j⟩

def Scene.forget (s : Scene (σ × τ)) : Scene σ := ⟨s.frame, s.world.forget⟩

namespace Request

/-- The same request where there is more state on the native side, which it keeps. -/
def beside (j : τ) : Request σ → Request (σ × τ)
  | .inspect => .inspect
  | .setHost h => .setHost (h, j)
  | .alloc p immutable => .alloc p immutable
  | .assign c p => .assign c p
  | .copy c immutable => .copy c immutable
  | .checkOut c => .checkOut c
  | .checkIn c => .checkIn c
  | .newObject className data => .newObject className data
  | .report d => .report d
  | .takeDiagnostics => .takeDiagnostics
  | .take t i => .take t i
  | .setResult b => .setResult b

def answer (j : τ) : (r : Request σ) → (r.beside j).Answer → r.Answer
  | .inspect, s => s.forget
  | .setHost _, a | .alloc .., a | .assign .., a | .copy .., a | .checkOut _, a | .checkIn _, a
  | .newObject .., a | .report _, a | .takeDiagnostics, a | .take .., a | .setResult _, a => a

end Request

namespace Behavior

/-- The same behavior where there is more state on the native side, which it keeps. -/
def beside (j : τ) : Behavior σ α → Behavior (σ × τ) α
  | .done a => .done a
  | .panic p => .panic p
  | .ask r next => .ask (r.beside j) fun a => (next (r.answer j a)).beside j

/-- First notes what it is entered with, then behaves as before. -/
def noting (entry : Frame → ε) (b : Behavior σ α) : Behavior (σ × List ε) α :=
  .ask .inspect fun s =>
    let noted := s.world.host.2 ++ [entry s.frame]
    .ask (.setHost (s.world.host.1, noted)) fun _ => b.beside noted

end Behavior

/-! ## What a call enters -/

/-- What a call can enter: the placeholder factory of a class, or the native code of an overload
with a frame. -/
inductive Entry (σ : Type)
  | placeholder (className : String)
  | native (o : Overload σ) (f : Frame)

/-- The class whose placeholder factory notes that it is asked. -/
def DeclaringClass.journaled (c : DeclaringClass σ) : DeclaringClass (σ × List (Entry σ)) :=
  ⟨c.name, some (c.newMock.noting fun _ => .placeholder c.name)⟩

/-- The overload whose native code notes that it is entered. -/
def Overload.journaled (o : Overload σ) : Overload (σ × List (Entry σ)) where
  serial := o.serial
  name := o.name
  slots := o.slots
  parameters := o.parameters
  returnConversion := o.returnConversion
  implementation := ⟨o.implementation.key, o.implementation.body.noting (.native o)⟩
  linkage := o.linkage

def ArityMap.map {β : Type} (g : α → β) (m : ArityMap α) : ArityMap β :=
  ⟨m.entries.map fun e => (e.1, g e.2), List.pairwise_map.mpr m.sorted⟩

def OverloadTable.journaled (t : OverloadTable σ) : OverloadTable (σ × List (Entry σ)) :=
  ⟨t.overloads.map Overload.journaled, t.variadic⟩

/-- The callable whose native code, and whose class, keep a journal. -/
def Callable.journaled (f : Callable σ) : Callable (σ × List (Entry σ)) :=
  ⟨f.identity, f.declaring.map DeclaringClass.journaled, f.prototype, f.table.journaled⟩

namespace OverloadTable

end OverloadTable

/-! ## The run that keeps a journal -/

namespace Overload

/-- The native code that a call of the overload enters. -/
def entered (o : Overload σ) (receiver : Option ObjectRef) (args : List CellRef) (w : World σ) :
    List (Entry σ) :=
  match marshal w.env.location args.length 0 o.slots args ⟨w.store, []⟩ with
  | some (.ok arguments, _) => [.native o (.start receiver arguments)]
  | _ => []

theorem mem_entered {o : Overload σ} {receiver : Option ObjectRef} {args : List CellRef}
    {w : World σ} {x : Entry σ} (h : x ∈ o.entered receiver args w) :
    ∃ arguments b, marshal w.env.location args.length 0 o.slots args ⟨w.store, []⟩ =
        some (.ok arguments, b) ∧ x = .native o (.start receiver arguments) := by
  unfold entered at h
  split at h
  · next arguments b hm => exact ⟨arguments, b, hm, List.mem_singleton.mp h⟩
  · cases h

end Overload

namespace Callable

variable {f : Callable σ} {receiver : Option ObjectRef} {args : List CellRef} {w : World σ}

/-- The placeholder factory that a call with this receiver asks. -/
def asked (f : Callable σ) (receiver : Option ObjectRef) : List (Entry σ) :=
  match receiver, f.declaring with
  | none, some c => if f.identity.isStatic then [] else [.placeholder c.name]
  | _, _ => []

/-- What a call enters, in order, by the steps of the call.  Of a call that ends it is what the call
with a journal has noted (`invoke_journaled`). -/
def journal (f : Callable σ) (receiver : Option ObjectRef) (args : List CellRef) (w : World σ) :
    List (Entry σ) :=
  if f.identity.isAbstract then []
  else
    match f.resolveReceiver receiver w with
    | some (.done r, w) =>
      match f.table.find? args.length with
      | none => f.asked receiver
      | some o => f.asked receiver ++ o.entered r args w
    | _ => f.asked receiver

theorem journal_of_isAbstract (h : f.identity.isAbstract = true) :
    f.journal receiver args w = [] := by
  unfold journal
  rw [if_pos h]

theorem journal_of_stalled (h : f.identity.isAbstract = false)
    (hr : f.resolveReceiver receiver w = none) : f.journal receiver args w = f.asked receiver := by
  unfold journal
  simp only [h, Bool.false_eq_true, ↓reduceIte, hr]

theorem journal_of_panicked {p : PanicPayload} {w₁ : World σ}
    (h : f.identity.isAbstract = false)
    (hr : f.resolveReceiver receiver w = some (.panicked p, w₁)) :
    f.journal receiver args w = f.asked receiver := by
  unfold journal
  simp only [h, Bool.false_eq_true, ↓reduceIte, hr]

theorem journal_of_find?_eq_none {r : Option ObjectRef} {w₁ : World σ}
    (h : f.identity.isAbstract = false)
    (hr : f.resolveReceiver receiver w = some (.done r, w₁))
    (hfind : f.table.find? args.length = none) :
    f.journal receiver args w = f.asked receiver := by
  unfold journal
  simp only [h, Bool.false_eq_true, ↓reduceIte, hr, hfind]

theorem journal_of_find?_eq_some {r : Option ObjectRef} {w₁ : World σ} {o : Overload σ}
    (h : f.identity.isAbstract = false)
    (hr : f.resolveReceiver receiver w = some (.done r, w₁))
    (hfind : f.table.find? args.length = some o) :
    f.journal receiver args w = f.asked receiver ++ o.entered r args w₁ := by
  unfold journal
  simp only [h, Bool.false_eq_true, ↓reduceIte, hr, hfind]

end Callable
end HostCall
