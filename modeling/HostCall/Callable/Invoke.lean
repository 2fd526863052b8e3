import HostCall.Callable.Basic
import HostCall.Callable.Marshal

/-!
# Calls

A call looks at the callable first, then at the receiver, then for an overload, and only then
marshals the arguments and runs native code.  Structural problems are reported and the call returns
null; failures of conversion and of native code become exceptions; a result that cannot be
converted is a defect.  Whatever happens, the bindings made for the call are released.

A call may also wait for ever for a copy or a description of an array that contains itself; then it
has no result, and `none` stands for it.
-/

namespace HostCall

inductive CallResult
  | returned (c : CellRef)
  | failed (f : CallFailure)
  /-- A panic went through the call. -/
  | unwound (p : PanicPayload)

variable {σ : Type}

namespace World

def report (w : World σ) (d : Diagnostic) : World σ := { w with env := w.env.report d }

def returnNull (w : World σ) : CallResult × World σ :=
  let (c, store) := w.store.alloc .null false
  (.returned c, { w with store })

def raise (w : World σ) (e : HostError) (l : Location) : Option (CallResult × World σ) :=
  (e.toException w.store l).map fun x => (.failed (.exception x), w)

end World

namespace MarshalError

def toFailure (signature : String) (s : Store) (l : Location) : MarshalError → Option CallFailure
  | .exhausted slot available => some (.defect (.argumentsExhausted signature slot available))
  | .refused e => ((HostError.conversion e).toException s l).map .exception

end MarshalError

namespace Overload

/-- What a call makes of the end of native code. -/
def settle (o : Overload σ) (signature : String) (l : Location) :
    Ending (Except HostError Unit) → Scene σ → Option (CallResult × World σ)
  | .panicked p, ⟨_, w⟩ =>
      if w.env.translatesPanics then w.raise (.panicked p.text) l else some (.unwound p, w)
  | .done (.error e), ⟨_, w⟩ => w.raise e l
  | .done (.ok ()), ⟨f, w⟩ =>
      match o.returnConversion.fromHost w.store f.result with
      | .error e => some (.failed (.defect (.returnConversion signature e)), w)
      | .ok produced =>
          let (c, store) := produced.realize w.store
          some (.returned c, { w with store })

def call (o : Overload σ) (signature : String) (receiver : Option ObjectRef) (args : List CellRef)
    (w : World σ) : Option (CallResult × World σ) :=
  let l := w.env.location
  match marshal l args.length 0 o.slots args ⟨w.store, []⟩ with
  | none => none
  | some (.error e, b) =>
      (e.toFailure signature b.store l).map fun failure =>
        (.failed failure, { w with store := b.release })
  | some (.ok arguments, b) =>
    match o.implementation.body.run ⟨.start receiver arguments, { w with store := b.store }⟩ with
    | none => none
    | some (ending, scene) =>
        (o.settle signature l ending scene).map fun (result, w) =>
          (result, { w with store := w.store.checkInAll b.bound })

end Overload

namespace Callable

/-- The receiver of a call.  A method that is not static and has none asks its class for a
placeholder, and reports when there is no placeholder either. -/
def resolveReceiver (f : Callable σ) (receiver : Option ObjectRef) (w : World σ) :
    Option (Ending (Option ObjectRef) × World σ) :=
  match receiver, f.declaring with
  | none, some c =>
      if f.identity.isStatic then some (.done none, w)
      else
        let l := w.env.location
        match c.newMock.run ⟨.start none [], w⟩ with
        | none => none
        | some (.done none, ⟨_, w⟩) =>
            some (.done none,
              w.report ⟨.fatal,
                "Non-static method " ++ f.signature ++ "() cannot be called statically", l⟩)
        | some (ending, ⟨_, w⟩) => some (ending, w)
  | receiver, _ => some (.done receiver, w)

def invoke (f : Callable σ) (receiver : Option ObjectRef) (args : List CellRef) (w : World σ) :
    Option (CallResult × World σ) :=
  let l := w.env.location
  if f.identity.isAbstract then
    some (w.report ⟨.fatal, "Cannot call abstract method " ++ f.signature, l⟩).returnNull
  else
    match f.resolveReceiver receiver w with
    | none => none
    | some (.panicked p, w) => some (.unwound p, w)
    | some (.done receiver, w) =>
      match f.table.find? args.length with
      | none =>
          let problem := f.table.countProblem args.length
          some (w.report ⟨.warning, problem.message f.name args.length, l⟩).returnNull
      | some o => o.call f.signature receiver args w

end Callable

end HostCall
