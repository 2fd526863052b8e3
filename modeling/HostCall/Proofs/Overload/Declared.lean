import HostCall.Proofs.Conversion.Builtin
import HostCall.Proofs.Overload.Binding

/-!
# Declared types and slots

With the builtin registry the declared type of a parameter alone says how native code reads it, and
a parameter that binds gets the slot for that reading.  The one exception is a parameter of the type
of nothing: it binds, to a conversion that refuses every argument.
-/

namespace HostCall

/-- The ways in which native code reads a parameter. -/
inductive Reading
  | cell
  | cells
  | environment
  | location
  | data (d : DataType)

def Reading.descriptor : Reading → TypeDescriptor
  | .cell => .cell
  | .cells => .cells
  | .environment => .environment
  | .location => .location
  | .data d => d.descriptor

namespace Parameter

variable {p : Parameter} {r r' : Reading} {member : String} {position : Nat} {isLast : Bool}
  {spec : ParameterSpec} {slot : Slot}

/-- What the declared type of a parameter says that it is read as. -/
inductive ReadsAs (p : Parameter) : Reading → Prop
  | cell : p.type.isCell = true → ReadsAs p .cell
  | cells : p.type.isCells = true → ReadsAs p .cells
  | environment : p.type.isEnvironment = true → ReadsAs p .environment
  | location : p.type.isLocation = true → ReadsAs p .location
  | data {d : DataType} : p.type.Denotes p.element d → ReadsAs p (.data d)

namespace ReadsAs

theorem same (h : p.ReadsAs r) : p.type.same r.descriptor = true := by
  cases h with
  | cell hp => exact hp
  | cells hp => exact hp
  | environment hp => exact hp
  | location hp => exact hp
  | data hp =>
      cases hp with
      | plain _ ht => exact ht
      | list _ ht _ _ => exact ht

theorem descriptor_mem_known (h : p.ReadsAs r) : r.descriptor ∈ TypeDescriptor.known := by
  cases h with
  | cell _ => decide
  | cells _ => decide
  | environment _ => decide
  | location _ => decide
  | data hp =>
      cases hp with
      | plain hd _ => exact DataType.descriptor_mem_known hd
      | list _ _ _ _ =>
          change TypeDescriptor.list ∈ TypeDescriptor.known
          decide

/-- A data type is registered under a name that is none of those with a meaning for calls. -/
theorem descriptor_ne {d : DataType} (h : p.ReadsAs (.data d)) :
    d.descriptor ≠ .cell ∧ d.descriptor ≠ .cells ∧ d.descriptor ≠ .environment ∧
      d.descriptor ≠ .location := by
  cases h with
  | data hp =>
      cases hp with
      | plain hd _ =>
          have hall : ∀ d ∈ Registry.builtinTypes, d.descriptor ≠ .cell ∧ d.descriptor ≠ .cells ∧
              d.descriptor ≠ .environment ∧ d.descriptor ≠ .location := by decide
          exact hall d hd
      | list _ _ _ _ =>
          change TypeDescriptor.list ≠ .cell ∧ TypeDescriptor.list ≠ .cells ∧
            TypeDescriptor.list ≠ .environment ∧ TypeDescriptor.list ≠ .location
          decide

theorem unique (h : p.ReadsAs r) (h' : p.ReadsAs r') : r = r' := by
  have hdescriptor : r.descriptor = r'.descriptor :=
    TypeDescriptor.eq_of_fingerprint h.descriptor_mem_known h'.descriptor_mem_known
      ((TypeDescriptor.same_iff.mp h.same).symm.trans (TypeDescriptor.same_iff.mp h'.same))
  cases h with
  | cell _ =>
      cases h' with
      | cell _ => rfl
      | data hp' => exact absurd hdescriptor.symm (descriptor_ne (.data hp')).1
      | _ => exact absurd hdescriptor (by decide)
  | cells _ =>
      cases h' with
      | cells _ => rfl
      | data hp' => exact absurd hdescriptor.symm (descriptor_ne (.data hp')).2.1
      | _ => exact absurd hdescriptor (by decide)
  | environment _ =>
      cases h' with
      | environment _ => rfl
      | data hp' => exact absurd hdescriptor.symm (descriptor_ne (.data hp')).2.2.1
      | _ => exact absurd hdescriptor (by decide)
  | location _ =>
      cases h' with
      | location _ => rfl
      | data hp' => exact absurd hdescriptor.symm (descriptor_ne (.data hp')).2.2.2
      | _ => exact absurd hdescriptor (by decide)
  | data hp =>
      have hne := descriptor_ne (.data hp)
      cases h' with
      | data hp' => exact congrArg Reading.data (hp.unique hp')
      | cell _ => exact absurd hdescriptor hne.1
      | cells _ => exact absurd hdescriptor hne.2.1
      | environment _ => exact absurd hdescriptor hne.2.2.1
      | location _ => exact absurd hdescriptor hne.2.2.2

end ReadsAs

/-- The slot of a parameter that is read in a given way. -/
def slotFor (p : Parameter) (spec : ParameterSpec) : Reading → Slot
  | .cell => .passthrough p.passing
  | .cells => .tail p.passing
  | .environment => .injected .environment
  | .location => .injected .location
  | .data d => .converted (.ofData d) spec

theorem classify_builtin (h : p.classify member .builtin position isLast spec = .ok slot) :
    (∃ r, p.ReadsAs r ∧ slot = p.slotFor spec r) ∨
      (p.type.same .void = true ∧ slot = .converted .void spec) := by
  rcases classify_ok h with
    ⟨hp, rfl⟩ | ⟨hp, c, hc, rfl⟩ | ⟨-, -, ⟨hp, rfl⟩ | ⟨-, hp, rfl⟩ | ⟨-, -, hp, -, rfl⟩⟩
  · exact .inl ⟨.cell, .cell hp, rfl⟩
  · rcases Registry.resolve_builtin hc with ⟨d, hd, rfl⟩ | ⟨hvoid, rfl⟩ | hcell
    · exact .inl ⟨.data d, .data hd, rfl⟩
    · exact .inr ⟨hvoid, rfl⟩
    · rw [TypeDescriptor.isCell, hcell] at hp
      cases hp
  · exact .inl ⟨.environment, .environment hp, rfl⟩
  · exact .inl ⟨.location, .location hp, rfl⟩
  · exact .inl ⟨.cells, .cells hp, rfl⟩

/-- The slot that a parameter gets from the builtin registry. -/
def BoundTo (p : Parameter) (slot : Slot) : Prop :=
  ∃ spec : ParameterSpec, spec.nullable = p.isNullable ∧
    ((∃ r, p.ReadsAs r ∧ slot = p.slotFor spec r) ∨
      (p.type.same .void = true ∧ slot = .converted .void spec))

end Parameter

theorem forall₂_boundTo_of_classifyFrom {member : String} {position consumed : Nat}
    {ps : List Parameter} {slots : List Slot} {specs : List ParameterSpec}
    (h : classifyFrom member .builtin position consumed ps = .ok (slots, specs)) :
    List.Forall₂ Parameter.BoundTo ps slots := by
  induction ps generalizing position consumed slots specs with
  | nil =>
      cases h
      exact .nil
  | cons p ps ih =>
      obtain ⟨slot, slots', specs', hslot, hrest, rfl, -⟩ := classifyFrom_cons_ok h
      exact .cons ⟨.positional consumed p.isNullable, rfl, Parameter.classify_builtin hslot⟩
        (ih hrest)

/-- Every parameter of a declaration that binds with the builtin registry gets the slot of its
reading. -/
theorem Overload.forall₂_boundTo {σ : Type} {o : Overload σ} {serial : Nat} {owner : String}
    {d : Declaration σ} (h : Overload.bind serial owner d .builtin = .ok o) :
    List.Forall₂ Parameter.BoundTo d.parameters o.slots :=
  forall₂_boundTo_of_classifyFrom (classifyFrom_of_bind h)

end HostCall
