import HostCall.Call.Frame

/-!
# Sequences of accesses

Native code may ask for its arguments in any order, at any type, as often as it likes.  One access
alone changes the frame, a `take` that finds a host value of its type, and it changes one position:
null stays there for good.  So what is moved out is moved out once, and what fails is as if it had
not been tried.
-/

namespace HostCall

/-- What native code can ask a frame for at one position. -/
inductive Access
  | arg (t : HostType) (i : Nat)
  | optArg (t : HostType) (i : Nat)
  | take (t : HostType) (i : Nat)
  | cell (i : Nat)
  | tail (i : Nat)
  | environment (i : Nat)
  | location (i : Nat)

namespace Access

@[reducible] def Answer : Access → Type
  | .arg t _ | .take t _ => t.Carrier
  | .optArg t _ => Option t.Carrier
  | .cell _ => CellRef
  | .tail _ => List CellRef
  | .environment _ => Unit
  | .location _ => Location

def index : Access → Nat
  | .arg _ i | .optArg _ i | .take _ i | .cell i | .tail i | .environment i | .location i => i

end Access

namespace Frame

variable {f g : Frame} {x : Access} {xs : List Access} {t u : HostType} {i j : Nat} {v : t.Carrier}

/-- The answer to an access, and the frame after it. -/
def access (f : Frame) : (x : Access) → Except HostError x.Answer × Frame
  | .arg t i => (f.arg t i, f)
  | .optArg t i => (f.optArg t i, f)
  | .take t i => f.take t i
  | .cell i => (f.cell i, f)
  | .tail i => (f.tail i, f)
  | .environment i => (f.environment i, f)
  | .location i => (f.location i, f)

def accesses (f : Frame) (xs : List Access) : Frame := xs.foldl (fun f x => (f.access x).2) f

/-- The position that an access moves the argument out of, when it does. -/
def moves (f : Frame) : Access → Option Nat
  | .take t i => if (f.take t i).1.isOk then some i else none
  | _ => none

/-- The positions that a sequence of accesses moves arguments out of, in order. -/
def moved (f : Frame) : List Access → List Nat
  | [] => []
  | x :: xs => (f.moves x).toList ++ (f.access x).2.moved xs

/-! ## One access -/

theorem slot_eq_ok_iff {a : Argument} : f.slot i = .ok a ↔ f.arguments[i]? = some a := by
  unfold slot
  cases f.arguments[i]? <;> simp

theorem slot_of_le (h : f.argCount ≤ i) : f.slot i = .error (.indexOutOfBounds i f.argCount) := by
  rw [slot, List.getElem?_eq_none h]

@[simp] theorem argCount_clear (f : Frame) (i : Nat) : (f.clear i).argCount = f.argCount :=
  List.length_set

/-- An argument that is put back where it was leaves no trace. -/
theorem setArgument_clear {a : Argument} (h : f.slot i = .ok a) :
    (f.clear i).setArgument i a = f := by
  have hset : (f.arguments.set i .null).set i a = f.arguments := by
    rw [List.set_set]
    obtain ⟨hi, ha⟩ := List.getElem?_eq_some_iff.mp (slot_eq_ok_iff.mp h)
    rw [← ha, List.set_getElem_self]
  simp only [clear, setArgument, hset]

theorem slot_clear (h : i < f.argCount) : (f.clear i).slot i = .ok .null := by
  rw [slot_eq_ok_iff]
  exact List.getElem?_set_self h

theorem slot_clear_of_ne (h : j ≠ i) : (f.clear i).slot j = f.slot j := by
  have hget : (f.clear i).arguments[j]? = f.arguments[j]? := List.getElem?_set_ne h.symm
  rw [slot, slot, hget, argCount_clear]

theorem lt_argCount_of_slot {a : Argument} (h : f.slot i = .ok a) : i < f.argCount :=
  (List.getElem?_eq_some_iff.mp (slot_eq_ok_iff.mp h)).1

theorem take_of_host (h : f.slot i = .ok (.host ⟨t, v⟩)) : f.take t i = (.ok v, f.clear i) := by
  simp only [take, h, Boxed.open?_mk]

theorem arg_of_host (h : f.slot i = .ok (.host ⟨t, v⟩)) : f.arg t i = .ok v := by
  simp only [arg, h, Boxed.open?_mk]

/-- A take finds a host value of its type, or fails and leaves the frame as it was. -/
theorem take_cases (f : Frame) (t : HostType) (i : Nat) :
    (∃ v, f.slot i = .ok (.host ⟨t, v⟩)) ∨ ∃ e, f.take t i = (.error e, f) := by
  cases hslot : f.slot i with
  | error e =>
      right
      exact ⟨e, by rw [take, hslot]⟩
  | ok a =>
      cases a with
      | host b =>
          cases hopen : b.open? t with
          | some v =>
              left
              exact ⟨v, by rw [Boxed.eq_mk_of_open? hopen]⟩
          | none =>
              right
              exact ⟨_, by simp only [take, hslot, hopen, setArgument_clear hslot]; rfl⟩
      | _ =>
          right
          exact ⟨_, by simp only [take, hslot, setArgument_clear hslot]; rfl⟩

theorem take_eq_ok_iff : (f.take t i).1 = .ok v ↔ f.slot i = .ok (.host ⟨t, v⟩) := by
  constructor
  · intro h
    rcases f.take_cases t i with ⟨w, hw⟩ | ⟨e, he⟩
    · rw [take_of_host hw] at h
      cases h
      exact hw
    · rw [he] at h
      cases h
  · intro h
    rw [take_of_host h]

theorem snd_access (f : Frame) (x : Access) :
    (f.access x).2 = match f.moves x with
      | some i => f.clear i
      | none => f := by
  cases x with
  | take t i =>
      rcases f.take_cases t i with ⟨v, hv⟩ | ⟨e, he⟩
      · simp only [access, moves, take_of_host hv]
        rfl
      · simp only [access, moves, he]
        rfl
  | _ => rfl

theorem exists_of_moves (h : f.moves x = some i) :
    ∃ t v, x = .take t i ∧ f.slot i = .ok (.host ⟨t, v⟩) := by
  cases x with
  | take t j =>
      rcases f.take_cases t j with ⟨v, hv⟩ | ⟨e, he⟩
      · simp only [moves, take_of_host hv] at h
        cases h
        exact ⟨t, v, rfl, hv⟩
      · simp only [moves, he] at h
        cases h
  | _ => cases h

theorem slot_access (f : Frame) (x : Access) (j : Nat) :
    (f.access x).2.slot j = if j ∈ (f.moves x).toList then .ok .null else f.slot j := by
  rw [snd_access]
  cases hmoves : f.moves x with
  | none => simp
  | some i =>
      obtain ⟨t, v, -, hv⟩ := exists_of_moves hmoves
      by_cases hj : j = i
      · rw [hj, slot_clear (lt_argCount_of_slot hv)]
        simp
      · rw [slot_clear_of_ne hj]
        simp [hj]

theorem argCount_access (f : Frame) (x : Access) : (f.access x).2.argCount = f.argCount := by
  rw [snd_access]
  cases f.moves x with
  | none => rfl
  | some i => exact f.argCount_clear i

theorem fst_access_of_le (h : f.argCount ≤ x.index) :
    (f.access x).1 = .error (.indexOutOfBounds x.index f.argCount) := by
  have hslot : f.slot x.index = .error (.indexOutOfBounds x.index f.argCount) := slot_of_le h
  cases x <;>
    simp only [access, arg, optArg, take, cell, tail, environment, location, hslot, Access.index]
      at hslot ⊢

/-- Null reads as such at every type, and cannot be moved out. -/
theorem answers_of_null (h : f.slot i = .ok .null) (u : HostType) :
    f.arg u i = .error (.conversion (.nullValue u.path)) ∧ f.optArg u i = .ok none ∧
      (f.take u i).1 = .error (.kindMismatch i u.path "null") := by
  rw [arg, optArg, take, h]
  exact ⟨rfl, rfl, rfl⟩

/-! ## Sequences -/

theorem accesses_cons (f : Frame) (x : Access) (xs : List Access) :
    f.accesses (x :: xs) = (f.access x).2.accesses xs := rfl

theorem argCount_accesses (f : Frame) (xs : List Access) :
    (f.accesses xs).argCount = f.argCount := by
  induction xs generalizing f with
  | nil => rfl
  | cons x xs ih => rw [accesses_cons, ih, argCount_access]

/-- A sequence puts null where it moved an argument out, and leaves the others. -/
theorem slot_accesses (f : Frame) (xs : List Access) (j : Nat) :
    (f.accesses xs).slot j = if j ∈ f.moved xs then .ok .null else f.slot j := by
  induction xs generalizing f with
  | nil => rfl
  | cons x xs ih =>
      rw [accesses_cons, ih, slot_access, moved]
      by_cases hrest : j ∈ (f.access x).2.moved xs
      · simp [hrest]
      · simp [hrest]

theorem slot_accesses_of_null (h : f.slot i = .ok .null) (xs : List Access) :
    (f.accesses xs).slot i = .ok .null := by
  rw [slot_accesses, h, ite_self]

theorem notMem_moved_of_null (h : f.slot i = .ok .null) (xs : List Access) :
    i ∉ f.moved xs := by
  induction xs generalizing f with
  | nil => exact List.not_mem_nil
  | cons x xs ih =>
      rw [moved, List.mem_append, not_or]
      constructor
      · intro hmem
        obtain ⟨t, v, -, hv⟩ := exists_of_moves (Option.mem_toList.mp hmem)
        rw [h] at hv
        cases hv
      · apply ih
        rw [slot_access, h, ite_self]

theorem nodup_moved (f : Frame) (xs : List Access) : (f.moved xs).Nodup := by
  induction xs generalizing f with
  | nil => exact List.nodup_nil
  | cons x xs ih =>
      refine List.nodup_append.mpr ⟨?_, ih _, fun i hi j hj hij => ?_⟩
      · cases f.moves x with
        | none => exact List.nodup_nil
        | some i => exact List.nodup_cons.mpr ⟨List.not_mem_nil, List.nodup_nil⟩
      · have hnull : (f.access x).2.slot i = .ok .null := by rw [slot_access, if_pos hi]
        exact notMem_moved_of_null hnull xs (hij ▸ hj)

/-- After any accesses the frame has as many positions as before, with null in those that an
argument was moved out of, each of them once, and the argument from before in the others.  The next
access leaves it as it is unless it is a take that succeeds.  A take succeeds just where a host
value of its type is; it answers what reading the position would, leaves null there and the rest as
it is, and whatever is asked from then on, the position reads as null and cannot be taken again.
Past the last position every access fails with the position and the number of arguments. -/
theorem arguments_moved_once (hg : f.accesses xs = g) :
    g.argCount = f.argCount ∧
    (f.moved xs).Nodup ∧
    (∀ j, g.slot j = if j ∈ f.moved xs then .ok .null else f.slot j) ∧
    (∀ x, (g.access x).2 = g ∨ ∃ t i v, x = .take t i ∧ (g.take t i).1 = .ok v) ∧
    (∀ t i v, (g.take t i).1 = .ok v ↔ g.slot i = .ok (.host ⟨t, v⟩)) ∧
    (∀ t i v, (g.take t i).1 = .ok v →
      g.arg t i = .ok v ∧
      (g.take t i).2.slot i = .ok .null ∧
      (∀ j, j ≠ i → (g.take t i).2.slot j = g.slot j) ∧
      ∀ ys u,
        ((g.take t i).2.accesses ys).arg u i = .error (.conversion (.nullValue u.path)) ∧
        ((g.take t i).2.accesses ys).optArg u i = .ok none ∧
        (((g.take t i).2.accesses ys).take u i).1 = .error (.kindMismatch i u.path "null")) ∧
    ∀ x, f.argCount ≤ x.index →
      (g.access x).1 = .error (.indexOutOfBounds x.index f.argCount) := by
  subst hg
  have hcount := f.argCount_accesses xs
  refine ⟨hcount, f.nodup_moved xs, f.slot_accesses xs, fun x => ?_, fun t i v => take_eq_ok_iff,
    fun t i v hv => ?_, fun x hx => ?_⟩
  · cases hmoves : (f.accesses xs).moves x with
    | none =>
        left
        rw [snd_access, hmoves]
    | some i =>
        obtain ⟨t, v, rfl, hv⟩ := exists_of_moves hmoves
        exact .inr ⟨t, i, v, rfl, take_eq_ok_iff.mpr hv⟩
  · have hslot := take_eq_ok_iff.mp hv
    rw [take_of_host hslot]
    have hnull := slot_clear (lt_argCount_of_slot hslot)
    exact ⟨arg_of_host hslot, hnull, fun j => slot_clear_of_ne,
      fun ys => answers_of_null (slot_accesses_of_null hnull ys)⟩
  · rw [← hcount] at hx ⊢
    exact fst_access_of_le hx

/-- A frame with a text, a cell, null and the environment. -/
def mixedFrame : Frame :=
  .start none [.host ⟨.data .text, "s"⟩, .cell ⟨0⟩, .null, .environment]

/-- The text survives being asked for as a number and comes out once. -/
theorem arguments_moved_once_mixedFrame :
    mixedFrame.accesses [.take (.data (.int .i64)) 0, .take .cell 1] = mixedFrame ∧
    mixedFrame.arg (.data .text) 0 = .ok "s" ∧
    (∀ ys, ((mixedFrame.take (.data .text) 0).2.accesses ys).optArg (.data .text) 0 = .ok none ∧
      (((mixedFrame.take (.data .text) 0).2.accesses ys).take (.data .text) 0).1 =
        .error (.kindMismatch 0 "alloc::string::String" "null")) ∧
    (mixedFrame.access (.location 4)).1 = .error (.indexOutOfBounds 4 4) := by
  have hsame : mixedFrame.accesses [.take (.data (.int .i64)) 0, .take .cell 1] = mixedFrame := rfl
  obtain ⟨-, -, -, -, htake, honce, hpast⟩ := arguments_moved_once hsame
  obtain ⟨harg, -, -, hnull⟩ := honce (.data .text) 0 "s" ((htake (.data .text) 0 "s").mpr rfl)
  exact ⟨hsame, harg, fun ys => (hnull ys (.data .text)).2, hpast (.location 4) (by decide)⟩

end Frame

end HostCall
