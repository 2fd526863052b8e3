import HostCall.Conversion.Basic

/-!
# Call frames

The frame of a call holds what native code can reach by position: the receiver, one argument per
declared parameter, and the result once it is set.  The readers below check that an argument is of
the kind and the type that is asked for and change nothing; only `Frame.take` moves an argument
out, leaving null in its place.  It does so before it looks at the argument, and puts back what it
cannot give.
-/

namespace HostCall

structure Frame where
  receiver : Option ObjectRef
  arguments : List Argument
  result : Option Boxed

namespace Frame

def start (receiver : Option ObjectRef) (arguments : List Argument) : Frame :=
  ⟨receiver, arguments, none⟩

def argCount (f : Frame) : Nat := f.arguments.length

def slot (f : Frame) (i : Nat) : Except HostError Argument :=
  match f.arguments[i]? with
  | some a => .ok a
  | none => .error (.indexOutOfBounds i f.argCount)

/-- The argument at a position as a host value of a type.  A cell reads as the cell type. -/
def arg (t : HostType) (f : Frame) (i : Nat) : Except HostError t.Carrier :=
  match f.slot i with
  | .error e => .error e
  | .ok (.host b) =>
      match b.open? t with
      | some v => .ok v
      | none => .error (.conversion (Conversion.foreign t.path))
  | .ok (.cell c) =>
      match Boxed.open? t ⟨.cell, c⟩ with
      | some v => .ok v
      | none => .error (.kindMismatch i t.path (Argument.cell c).kindName)
  | .ok .null => .error (.conversion (.nullValue t.path))
  | .ok a => .error (.kindMismatch i t.path a.kindName)

/-- The argument of a nullable parameter; null reads as `none`. -/
def optArg (t : HostType) (f : Frame) (i : Nat) : Except HostError (Option t.Carrier) :=
  match f.slot i with
  | .error e => .error e
  | .ok .null => .ok none
  | .ok _ => (f.arg t i).map some

def setArgument (f : Frame) (i : Nat) (a : Argument) : Frame :=
  { f with arguments := f.arguments.set i a }

def clear (f : Frame) (i : Nat) : Frame := f.setArgument i .null

/-- Moves a converted argument out: the place is cleared, and filled again when the argument is not
a host value of the type. -/
def take (t : HostType) (f : Frame) (i : Nat) : Except HostError t.Carrier × Frame :=
  match f.slot i with
  | .error e => (.error e, f)
  | .ok (.host b) =>
      match b.open? t with
      | some v => (.ok v, f.clear i)
      | none =>
          (.error (.conversion (Conversion.foreign t.path)), (f.clear i).setArgument i (.host b))
  | .ok a => (.error (.kindMismatch i t.path a.kindName), (f.clear i).setArgument i a)

def cell (f : Frame) (i : Nat) : Except HostError CellRef :=
  match f.slot i with
  | .error e => .error e
  | .ok (.cell c) => .ok c
  | .ok a => .error (.kindMismatch i "runtime value" a.kindName)

def tail (f : Frame) (i : Nat) : Except HostError (List CellRef) :=
  match f.slot i with
  | .error e => .error e
  | .ok (.tail cs) => .ok cs
  | .ok a => .error (.kindMismatch i "vararg tail" a.kindName)

def environment (f : Frame) (i : Nat) : Except HostError Unit :=
  match f.slot i with
  | .error e => .error e
  | .ok .environment => .ok ()
  | .ok a => .error (.kindMismatch i "environment" a.kindName)

def location (f : Frame) (i : Nat) : Except HostError Location :=
  match f.slot i with
  | .error e => .error e
  | .ok (.location l) => .ok l
  | .ok a => .error (.kindMismatch i "trace" a.kindName)

def this (t : HostType) (f : Frame) (s : Store) : Except HostError t.Carrier :=
  match f.receiver with
  | none => .error (.invalidReceiver "called without a receiver")
  | some o =>
      match (s.object? o).bind fun d => d.data.open? t with
      | some v => .ok v
      | none =>
          .error (.invalidReceiver
            ("type mismatch: expected " ++ t.path ++ ", got " ++ s.className o))

def setResult (f : Frame) (b : Boxed) : Frame := { f with result := some b }

def describe (f : Frame) : String :=
  Text.record "CallContext"
    [("arg_count", toString f.argCount),
     ("has_receiver", if f.receiver.isSome then "true" else "false")]

end Frame

end HostCall
