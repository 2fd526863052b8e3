import HostCall.Callable.Basic
import HostCall.Proofs.Overload.Dispatch

/-!
# Reachable callables

A callable starts without overloads and is edited by adding declarations, removing arities and
linking it to another callable.  Its table is then a reachable table, so whatever overload a call
finds there was bound and takes as many arguments as the call has.
-/

namespace HostCall.Callable

variable {σ : Type} {f : Callable σ}

/-- The callable that an addition leaves behind; one that is refused changes nothing. -/
def after (f : Callable σ) : Except BindingError (Option (Overload σ) × Callable σ) → Callable σ
  | .ok (_, f') => f'
  | .error _ => f

/-- The callables that edits lead to.  Linking may meet the entries of the other callable in any
order. -/
inductive Reachable : Callable σ → Prop
  | function (name : String) : Reachable (.function name)
  | method (name : String) (c : DeclaringClass σ) : Reachable (.method name c)
  | add {f : Callable σ} (serial : Nat) (d : Declaration σ) (r : Registry) (mode : ConflictMode) :
      Reachable f → Reachable (f.after (f.add serial d r mode))
  | remove {f : Callable σ} (arity : Nat) : Reachable f → Reachable (f.remove arity).2
  | setPrototype {f parent : Callable σ} {order : List (Nat × Overload σ)} :
      Reachable f → Reachable parent → order.Perm parent.table.overloads.entries →
      Reachable { f with
        table := order.foldl OverloadTable.inherit f.table
        prototype := some parent.signature }

theorem table_after_add (f : Callable σ) (serial : Nat) (d : Declaration σ) (r : Registry)
    (mode : ConflictMode) :
    (f.after (f.add serial d r mode)).table =
      f.table.after (f.table.add serial f.owner d r mode) := by
  unfold add OverloadTable.add
  cases hbind : Overload.bind serial f.owner d r with
  | error e => cases mode <;> rfl
  | ok o =>
      simp only
      cases hinsert : f.table.insert o mode with
      | error e => rfl
      | ok answer => rfl

/-- A declaration never moves a callable to another class. -/
theorem declaring_after_add (f : Callable σ) (serial : Nat) (d : Declaration σ) (r : Registry)
    (mode : ConflictMode) : (f.after (f.add serial d r mode)).declaring = f.declaring := by
  unfold add
  cases hbind : Overload.bind serial f.owner d r with
  | error e => cases mode <;> rfl
  | ok o =>
      simp only
      cases hinsert : f.table.insert o mode with
      | error e => rfl
      | ok answer => rfl

/-- The table of a reachable callable is reachable by edits of tables. -/
theorem Reachable.table (h : f.Reachable) : f.table.Reachable := by
  induction h with
  | function name => exact .empty
  | method name c => exact .empty
  | @add f serial d r mode _ ih =>
      rw [table_after_add]
      exact .add serial f.owner d r mode ih
  | remove arity _ ih => exact .remove arity ih
  | setPrototype _ _ horder ih ihp => exact .merge ih ihp horder

/-- What a call finds was bound and takes as many arguments as the call has. -/
theorem Reachable.bound_of_find? (h : f.Reachable) {o : Overload σ} {n : Nat}
    (hfind : f.table.find? n = some o) : o.Bound ∧ o.accepts n = true := by
  have hsound : f.table.Sound := h.table.sound
  obtain ⟨hget, haccepts⟩ := hsound.find?_sound hfind
  exact ⟨hsound.bound o.arity o hget, haccepts⟩

end HostCall.Callable
