import HostCall.Proofs.Callable.Marshalling
import HostCall.Proofs.Conversion.Roundtrip
import HostCall.Proofs.Overload.Declared
import HostCall.Proofs.Store.DeepCopy
import HostCall.Proofs.Store.Mirrors

/-!
# Marshalling depends on values

What is passed by value can be seen by its value alone.  Cells in its place that read as the same
value are converted to the same or refused with the same error, and are copied to the same new
cells up to their numbers, whatever their flags and whatever cells they share.  So two calls that
pass the same cells by reference, and the same values otherwise, are marshalled alike.
-/

namespace HostCall

/-- An argument with every handle renamed. -/
def Argument.rename (f : CellRef → CellRef) : Argument → Argument
  | .null => .null
  | .host b => .host b
  | .cell c => .cell (f c)
  | .tail cs => .tail (cs.map f)
  | .environment => .environment
  | .location l => .location l

/-! ## Cells and arguments that cannot be told apart -/

/-- Two good handles that make no difference where they are passed: by reference they are to one
cell, and otherwise to cells that read as one value. -/
inductive Store.Alike (s s' : Store) : Bool → CellRef → CellRef → Prop
  | shared {c : CellRef} :
      s.holdsCell c = true → s'.holdsCell c = true → Alike s s' true c c
  | copied {c c' : CellRef} {v : Value} :
      s.holdsCell c = true → s'.holdsCell c' = true → s.Reads c v → s'.Reads c' v →
      Alike s s' false c c'

namespace Slot

/-- Whether the slot that takes the argument at a position takes it by reference. -/
def byRefAt : List Slot → Nat → Bool
  | [], _ => false
  | .injected _ :: slots, k => byRefAt slots k
  | .tail p :: _, _ => p.byRef
  | .passthrough p :: _, 0 => p.byRef
  | .converted _ _ :: _, 0 => false
  | .passthrough _ :: slots, k + 1 | .converted _ _ :: slots, k + 1 => byRefAt slots k

/-- As many arguments in one store as in the other: the same cells in the places that are passed by
reference, and cells with the same values in all others. -/
structure SameValues (s s' : Store) (slots : List Slot) (args args' : List CellRef) : Prop where
  length_eq : args'.length = args.length
  alike : ∀ (k : Nat) (c c' : CellRef), args[k]? = some c → args'[k]? = some c' →
    s.Alike s' (byRefAt slots k) c c'

end Slot

/-! ## Conversions -/

theorem Payload.Matches.isNull_eq {p q : Payload} (h : p.Matches q) : q.isNull = p.isNull := by
  cases h <;> rfl

theorem Payload.Matches.kind_eq {p q : Payload} (h : p.Matches q) : q.kind = p.kind := by
  cases h <;> rfl

namespace Conversion

/-- A conversion that answers alike for cells that read as one value, and with no handle. -/
structure DependsOnValue (conv : Conversion) : Prop where
  toHost_eq : ∀ (t t' : Store) (spec : ParameterSpec) (c c' : CellRef) (v : Value),
    t.Reads c v → t'.Reads c' v → conv.toHost t' spec c' = conv.toHost t spec c
  rename_eq : ∀ (t : Store) (spec : ParameterSpec) (c : CellRef) (a : Argument)
    (f : CellRef → CellRef), conv.toHost t spec c = .ok a → a.rename f = a

theorem dependsOnValue_ofData (d : DataType) : (ofData d).DependsOnValue where
  toHost_eq := by
    intro t t' spec c c' v hc hc'
    unfold ofData
    dsimp only
    rw [(hc.matches hc').isNull_eq, DataType.decode_valueWithin hc, DataType.decode_valueWithin hc']
  rename_eq := by
    intro t spec c a f ha
    rcases toHost_ofData_eq_ok_iff.mp ha with ⟨rfl, -⟩ | ⟨⟨v, rfl, -⟩, -⟩
    · rfl
    · rfl

theorem dependsOnValue_void : void.DependsOnValue where
  toHost_eq := by
    intro t t' spec c c' v hc hc'
    unfold void
    dsimp only
    rw [(hc.matches hc').kind_eq]
  rename_eq := by
    intro t spec c a f ha
    cases ha

end Conversion

/-- A slot whose conversion, if it has one, depends on values. -/
def Slot.DependsOnValue (slot : Slot) : Prop :=
  ∀ conv spec, slot = .converted conv spec → conv.DependsOnValue

theorem Parameter.BoundTo.dependsOnValue {p : Parameter} {slot : Slot} (h : p.BoundTo slot) :
    slot.DependsOnValue := by
  obtain ⟨spec, -, ⟨r, -, rfl⟩ | ⟨-, rfl⟩⟩ := h
  · rintro conv spec' heq
    cases r with
    | data d =>
        cases heq
        exact Conversion.dependsOnValue_ofData d
    | _ => cases heq
  · rintro conv spec' heq
    cases heq
    exact Conversion.dependsOnValue_void

/-! ## Two calls side by side -/

namespace Bindings

variable {s s' : Store} {b b' : Bindings} {p : Passing} {c c' d : CellRef}

/-- Marshalling so far has left the cells that were there as they were, but for the bindings that it
counted. -/
structure Since (s : Store) (b : Bindings) : Prop where
  objects_eq : b.store.objects = s.objects
  cell? : ∀ c, s.holdsCell c = true → b.store.cell? c =
    (s.cell? c).map fun cell => { cell with checkouts := cell.checkouts + b.bound.count c }

namespace Since

theorem nil (s : Store) : Since s ⟨s, []⟩ := by
  refine ⟨rfl, fun c _ => ?_⟩
  cases s.cell? c <;> simp

theorem keeps (h : b.Since s) : s.Keeps b.store := by
  refine ⟨fun c cell hc => ?_, h.objects_eq⟩
  refine ⟨{ cell with checkouts := cell.checkouts + b.bound.count c }, ?_, rfl, rfl⟩
  rw [h.cell? c (Store.holdsCell_iff.mpr ⟨cell, hc⟩), hc]
  rfl

theorem hands (h : b.Since s) (hands : p.Hands c b d b') : b'.Since s := by
  cases hands with
  | shared isMutable c b =>
      refine ⟨h.objects_eq, fun e he => ?_⟩
      rw [Store.checkOut, Store.cell?_modify, h.cell? e he, List.count_cons]
      by_cases hce : c = e
      · cases s.cell? e <;> simp [hce, Nat.add_assoc]
      · simp [hce]
  | @copied isMutable _ _ _ t hcopy =>
      refine ⟨(Store.keeps_of_copy hcopy).objects_eq.trans h.objects_eq, fun e he => ?_⟩
      exact (Store.cell?_of_copy hcopy (h.keeps.grows e he)).trans (h.cell? e he)

end Since

/-- Marshalling so far has done the same to two stores: it bound the same cells, and what it added
to the one mirrors what it added to the other. -/
structure Mirrors (s s' : Store) (b b' : Bindings) : Prop where
  since : b.Since s
  since' : b'.Since s'
  store : s.Mirrors s' b.store b'.store
  bound_eq : b'.bound = b.bound

theorem Mirrors.nil (s s' : Store) : Mirrors s s' ⟨s, []⟩ ⟨s', []⟩ :=
  ⟨.nil s, .nil s', .refl s s', rfl⟩

end Bindings

section Run

variable {s s' : Store} {b b' : Bindings} {c c' : CellRef} {cs cs' args args' : List CellRef}
  {slot : Slot} {slots : List Slot} {l : Location} {index available : Nat}

theorem Passing.pass_of_reads (isMutable : Bool) {v : Value} (hv : b.store.Reads c v) :
    (Passing.mk false isMutable).pass c b =
      some ((Store.build (!isMutable) v b.store).1,
        ⟨(Store.build (!isMutable) v b.store).2, b.bound⟩) := by
  have hcopy : b.store.copy (!isMutable) c = some (Store.build (!isMutable) v b.store) := by
    rw [Store.copy, if_pos (Store.ends_iff.mpr hv.acyclicFrom), hv.value_eq]
  rw [pass, if_neg Bool.false_ne_true, hcopy]
  rfl

theorem Passing.pass_mirrors (p : Passing) (hclosed : s.Closed) (hclosed' : s'.Closed)
    (hb : b.Mirrors s s' b') (hc : s.Alike s' p.byRef c c') :
    ∃ d b₁ b₁', p.pass c b = some (d, b₁) ∧ p.pass c' b' = some (s.relocate s' d, b₁') ∧
      b₁.Mirrors s s' b₁' := by
  obtain ⟨byRef, isMutable⟩ := p
  cases hc with
  | shared hc hc' =>
      have hpass : ∀ b : Bindings, (Passing.mk true isMutable).pass c b =
          some (c, ⟨b.store.checkOut c, c :: b.bound⟩) := fun _ => rfl
      refine ⟨c, _, ⟨b'.store.checkOut c, c :: b'.bound⟩, hpass b, ?_, ?_⟩
      · rw [Store.relocate_of_holdsCell hc]
        exact hpass b'
      · exact ⟨hb.since.hands (pass_eq_some_iff.mp (hpass b)),
          hb.since'.hands (pass_eq_some_iff.mp (hpass b')), hb.store.checkOut hc hc',
          congrArg (c :: ·) hb.bound_eq⟩
  | @copied _ _ v hc hc' hv hv' =>
      have hpass := pass_of_reads isMutable (hb.since.keeps.reads hclosed hc hv)
      have hpass' := pass_of_reads isMutable (hb.since'.keeps.reads hclosed' hc' hv')
      obtain ⟨href, hmirrors⟩ := hb.store.build (!isMutable) v
      refine ⟨_, _, _, hpass, href ▸ hpass', ?_⟩
      exact ⟨hb.since.hands (pass_eq_some_iff.mp hpass),
        hb.since'.hands (pass_eq_some_iff.mp hpass'), hmirrors, hb.bound_eq⟩

theorem Passing.passAll_mirrors (p : Passing) (hclosed : s.Closed) (hclosed' : s'.Closed)
    (hb : b.Mirrors s s' b') (hcs : List.Forall₂ (s.Alike s' p.byRef) cs cs') :
    ∃ ds b₁ b₁', p.passAll cs b = some (ds, b₁) ∧
      p.passAll cs' b' = some (ds.map (s.relocate s'), b₁') ∧ b₁.Mirrors s s' b₁' := by
  induction hcs generalizing b b' with
  | nil => exact ⟨[], b, b', rfl, rfl, hb⟩
  | cons hc _ ih =>
      obtain ⟨d, b₁, b₁', hpass, hpass', hb₁⟩ := p.pass_mirrors hclosed hclosed' hb hc
      obtain ⟨ds, b₂, b₂', hpassAll, hpassAll', hb₂⟩ := ih hb₁
      refine ⟨d :: ds, b₂, b₂', ?_, ?_, hb₂⟩
      · simp only [passAll, hpass, hpassAll, Option.map_some]
      · simp only [passAll, hpass', hpassAll', Option.map_some, List.map_cons]

namespace Slot

theorem SameValues.behind (h : SameValues s s' (slot :: slots) args args') :
    SameValues s s' slots (slot.behind args) (slot.behind args') := by
  have hlength := h.length_eq
  cases slot with
  | injected k => exact ⟨hlength, h.alike⟩
  | tail p => exact ⟨rfl, fun k c c' hk => by cases hk⟩
  | passthrough p | converted conv spec =>
      refine ⟨by simp [Slot.behind, hlength], fun k c c' hk hk' => ?_⟩
      rw [Slot.behind, List.getElem?_drop, Nat.add_comm] at hk hk'
      exact h.alike (k + 1) c c' hk hk'

theorem SameValues.forall₂_of_tail {p : Passing}
    (h : SameValues s s' (.tail p :: slots) args args') :
    List.Forall₂ (s.Alike s' p.byRef) args args' := by
  refine List.forall₂_iff_get.mpr ⟨h.length_eq.symm, fun k hk hk' => ?_⟩
  exact h.alike k _ _ (List.getElem?_eq_getElem hk) (List.getElem?_eq_getElem hk')

/-- A slot makes the same of two shares with the same values, or refuses both with one error. -/
theorem fill_mirrors (l : Location) (index available : Nat) (hslot : slot.DependsOnValue)
    (huse : UseUp (slot :: slots) args.length) (hclosed : s.Closed) (hclosed' : s'.Closed)
    (hb : b.Mirrors s s' b') (h : SameValues s s' (slot :: slots) args args') :
    (∃ e, slot.fill l index available args b = some (.error e) ∧
      slot.fill l index available args' b' = some (.error e)) ∨
    ∃ a b₁ b₁', slot.fill l index available args b = some (.ok (a, slot.behind args, b₁)) ∧
      slot.fill l index available args' b' =
        some (.ok (a.rename (s.relocate s'), slot.behind args', b₁')) ∧
      b₁.Mirrors s s' b₁' := by
  cases slot with
  | injected k =>
      right
      cases k with
      | environment => exact ⟨.environment, b, b', rfl, rfl, hb⟩
      | location => exact ⟨.location l, b, b', rfl, rfl, hb⟩
  | tail p =>
      right
      obtain ⟨ds, b₁, b₁', hpass, hpass', hb₁⟩ :=
        p.passAll_mirrors hclosed hclosed' hb h.forall₂_of_tail
      refine ⟨.tail ds, b₁, b₁', ?_, ?_, hb₁⟩
      · rw [fill, hpass]
        rfl
      · rw [fill, hpass']
        rfl
  | passthrough p =>
      right
      obtain ⟨c, rest, rfl⟩ := List.exists_cons_of_length_pos huse.1
      obtain ⟨c', rest', rfl⟩ := List.exists_cons_of_length_pos (h.length_eq ▸ huse.1)
      obtain ⟨d, b₁, b₁', hpass, hpass', hb₁⟩ :=
        p.pass_mirrors hclosed hclosed' hb (h.alike 0 c c' rfl rfl)
      refine ⟨.cell d, b₁, b₁', ?_, ?_, hb₁⟩
      · rw [fill, hpass]
        rfl
      · rw [fill, hpass']
        rfl
  | converted conv spec =>
      obtain ⟨c, rest, rfl⟩ := List.exists_cons_of_length_pos huse.1
      obtain ⟨c', rest', rfl⟩ := List.exists_cons_of_length_pos (h.length_eq ▸ huse.1)
      have hconv := hslot conv spec rfl
      have halike : s.Alike s' false c c' := h.alike 0 c c' rfl rfl
      cases halike with
      | @copied _ _ v hc hc' hv hv' =>
          have hanswer := hconv.toHost_eq b.store b'.store spec c c' v
            (hb.since.keeps.reads hclosed hc hv) (hb.since'.keeps.reads hclosed' hc' hv')
          cases ha : conv.toHost b.store spec c with
          | error e =>
              rw [ha] at hanswer
              exact .inl ⟨.refused e, by simp [fill, ha], by simp [fill, hanswer]⟩
          | ok a =>
              rw [ha] at hanswer
              refine .inr ⟨a, b, b', by simp [fill, ha, Slot.behind], ?_, hb⟩
              rw [hconv.rename_eq b.store spec c a _ ha]
              simp [fill, hanswer, Slot.behind]

end Slot

theorem marshal_cons_of_error {e : MarshalError}
    (h : slot.fill l index available args b = some (.error e)) :
    marshal l available index (slot :: slots) args b = some (.error e, b) := by
  rw [marshal, h]

theorem marshal_cons_of_ok {a : Argument} {rest : List CellRef} {b₁ b₂ : Bindings}
    {answer : Except MarshalError (List Argument)}
    (h : slot.fill l index available args b = some (.ok (a, rest, b₁)))
    (hrest : marshal l available (index + 1) slots rest b₁ = some (answer, b₂)) :
    marshal l available index (slot :: slots) args b = some (answer.map (a :: ·), b₂) := by
  rw [marshal, h]
  simp only [hrest, Option.map_some]
  cases answer <;> rfl

/-- Slots make the same of arguments with the same values, or refuse both with one error. -/
theorem marshal_mirrors (l : Location) (index available : Nat)
    (hslots : ∀ slot ∈ slots, slot.DependsOnValue) (huse : Slot.UseUp slots args.length)
    (hclosed : s.Closed) (hclosed' : s'.Closed) (hb : b.Mirrors s s' b')
    (h : Slot.SameValues s s' slots args args') :
    ∃ answer b₁ b₁', marshal l available index slots args b = some (answer, b₁) ∧
      marshal l available index slots args' b' =
        some (answer.map (List.map (Argument.rename (s.relocate s'))), b₁') ∧
      b₁.Mirrors s s' b₁' := by
  induction slots generalizing index args args' b b' with
  | nil => exact ⟨.ok [], b, b', rfl, rfl, hb⟩
  | cons slot slots ih =>
      obtain ⟨hslot, hslots⟩ := List.forall_mem_cons.mp hslots
      rcases Slot.fill_mirrors l index available hslot huse hclosed hclosed' hb h with
        ⟨e, hfill, hfill'⟩ | ⟨a, b₁, b₁', hfill, hfill', hb₁⟩
      · exact ⟨.error e, b, b', marshal_cons_of_error hfill, marshal_cons_of_error hfill', hb⟩
      · obtain ⟨answer, b₂, b₂', hrest, hrest', hb₂⟩ :=
          ih (index + 1) hslots (Slot.useUp_behind huse) hb₁ h.behind
        refine ⟨_, b₂, b₂', marshal_cons_of_ok hfill hrest, ?_, hb₂⟩
        rw [marshal_cons_of_ok hfill' hrest']
        cases answer <;> rfl

end Run

/-! ## Overloads of the builtin registry -/

theorem Argument.rename_of_fixed {f : CellRef → CellRef} (h : ∀ c, f c = c) (a : Argument) :
    a.rename f = a := by
  obtain rfl : f = id := funext h
  cases a with
  | tail cs => exact congrArg Argument.tail (List.map_id cs)
  | _ => rfl

namespace Bindings.Mirrors

variable {s s' : Store} {b b' : Bindings} {c : CellRef}

/-- Doing the same twice to one store leads to one store. -/
theorem eq_of_self (h : b.Mirrors s s b') : b' = b := by
  have hstore : b'.store = b.store := by
    refine h.store.eq_of_self (h.since'.objects_eq.trans h.since.objects_eq.symm) fun c hc => ?_
    rw [h.since'.cell? c hc, h.since.cell? c hc, h.bound_eq]
  obtain ⟨store, bound⟩ := b
  obtain ⟨store', bound'⟩ := b'
  obtain rfl : store' = store := hstore
  obtain rfl : bound' = bound := h.bound_eq
  rfl

/-- A cell that was added and its mirror have the same flags, and the same value at every depth. -/
theorem of_new (h : b.Mirrors s s' b') (hc : s.holdsCell c = false) :
    s'.holdsCell (s.relocate s' c) = false ∧
      b'.store.isImmutable (s.relocate s' c) = b.store.isImmutable c ∧
      b'.store.checkouts (s.relocate s' c) = b.store.checkouts c ∧
      ∀ depth, b'.store.valueWithin depth (s.relocate s' c) = b.store.valueWithin depth c := by
  have hle : s.cells.size ≤ c.index := Nat.not_lt.mp (of_decide_eq_false hc)
  have hcell := h.store.cell? c hle
  refine ⟨?_, ?_, ?_, h.store.valueWithin hle⟩
  · rw [Store.relocate_of_le hle]
    exact decide_eq_false (Nat.not_lt.mpr (Nat.le_add_left _ _))
  · rw [Store.isImmutable, Store.isImmutable, hcell]
    cases b.store.cell? c <;> rfl
  · rw [Store.checkouts, Store.checkouts, hcell]
    cases b.store.cell? c <;> rfl

end Bindings.Mirrors

/-- What is passed by value is passed by its value alone.  Let two lists of as many arguments as an
overload of the builtin registry accepts, in two stores, have the same cells in the places that are
passed by reference and cells with the same values in all others, whatever their flags and whatever
cells they share.  Then both are refused with one error, or the arguments made of the second are
those made of the first up to the numbers of the new cells.  What was there is left as it was but
for the same bindings, and a new cell and its mirror have the same flags and at every depth the same
value.  In one store the two come to the very same. -/
theorem marshal_depends_on_values {σ : Type} {o : Overload σ} {serial : Nat} {owner : String}
    {d : Declaration σ} (hbind : Overload.bind serial owner d .builtin = .ok o) {s s' : Store}
    (hclosed : s.Closed) (hclosed' : s'.Closed) {args args' : List CellRef}
    (haccepts : o.accepts args.length = true) (h : Slot.SameValues s s' o.slots args args')
    (l : Location) :
    (∃ b b' : Bindings, b.Mirrors s s' b' ∧
      ((∃ e, marshal l args.length 0 o.slots args ⟨s, []⟩ = some (.error (.refused e), b) ∧
          marshal l args'.length 0 o.slots args' ⟨s', []⟩ = some (.error (.refused e), b')) ∨
        ∃ as, marshal l args.length 0 o.slots args ⟨s, []⟩ = some (.ok as, b) ∧
          marshal l args'.length 0 o.slots args' ⟨s', []⟩ =
            some (.ok (as.map (Argument.rename (s.relocate s'))), b')) ∧
      (∀ c, s.holdsCell c = true → s.relocate s' c = c) ∧
      ∀ c, s.holdsCell c = false → s'.holdsCell (s.relocate s' c) = false ∧
        b'.store.isImmutable (s.relocate s' c) = b.store.isImmutable c ∧
        b'.store.checkouts (s.relocate s' c) = b.store.checkouts c ∧
        ∀ depth, b'.store.valueWithin depth (s.relocate s' c) = b.store.valueWithin depth c) ∧
    (s' = s → marshal l args'.length 0 o.slots args' ⟨s', []⟩ =
      marshal l args.length 0 o.slots args ⟨s, []⟩) := by
  have huse : Slot.UseUp o.slots args.length := Overload.Bound.useUp ⟨_, _, _, _, hbind⟩ haccepts
  have hslots : ∀ slot ∈ o.slots, slot.DependsOnValue := by
    intro slot hmem
    have hbound := Overload.forall₂_boundTo hbind
    obtain ⟨i, hi, rfl⟩ := List.mem_iff_getElem.mp hmem
    exact (hbound.get (hbound.length_eq ▸ hi) hi).dependsOnValue
  obtain ⟨answer, b, b', hrun, hrun', hmirrors⟩ :=
    marshal_mirrors l 0 args.length hslots huse hclosed hclosed' (.nil s s') h
  rw [h.length_eq]
  refine ⟨⟨b, b', hmirrors, ?_, fun c => Store.relocate_of_holdsCell, fun c => hmirrors.of_new⟩, ?_⟩
  · cases answer with
    | ok as => exact .inr ⟨as, hrun, hrun'⟩
    | error e =>
        cases e with
        | exhausted k m => exact absurd hrun (marshal_ne_exhausted huse)
        | refused e => exact .inl ⟨e, hrun, hrun'⟩
  · rintro rfl
    have hfixed : Argument.rename (s'.relocate s') = id :=
      funext (Argument.rename_of_fixed s'.relocate_self)
    rw [hrun, hrun', hfixed, List.map_id_fun, hmirrors.eq_of_self]
    cases answer <;> rfl

def four : Scalar := .int ⟨4, by decide, by decide⟩

/-- A number that is constant and checked out, a constant list with the number twice, the same
number in two cells of its own, and a list of these. -/
def foursStore : Store where
  cells := #[⟨.scalar four, true, 1⟩, ⟨.array [⟨0⟩, ⟨0⟩], true, 0⟩, ⟨.scalar four, false, 0⟩,
    ⟨.scalar four, false, 0⟩, ⟨.array [⟨2⟩, ⟨3⟩], false, 0⟩]
  objects := #[]

/-- Takes one cell by reference, a copy of another that it may change, a list of numbers, and copies
of all others. -/
def sampler : Declaration Unit :=
  { OverloadTable.gather with
    name := "sampler"
    parameters := [{ type := .cell, isReference := true }, { type := .cell, isMutable := true },
      { type := .list, element := some ⟨"i64"⟩ }, { type := .cells }] }

/-- The number that is checked out, the constant list twice, and both once more. -/
def sharedArgs : List CellRef := [⟨0⟩, ⟨1⟩, ⟨1⟩, ⟨0⟩, ⟨1⟩]

/-- The same cell by reference, and cells without sharing in all other places. -/
def ownArgs : List CellRef := [⟨0⟩, ⟨4⟩, ⟨4⟩, ⟨2⟩, ⟨4⟩]

theorem foursStore_closed : foursStore.Closed :=
  (Store.closed_and_acyclic_of_all (by decide +kernel)).1

/-- The cells for the two lists read as one value, and so do those for the numbers. -/
theorem sameValues_foursStore {slots : List Slot}
    (h : (List.range 5).map (Slot.byRefAt slots) = [true, false, false, false, false]) :
    Slot.SameValues foursStore foursStore slots sharedArgs ownArgs := by
  have hfour : ∀ i ∈ [0, 2, 3], foursStore.Reads ⟨i⟩ (.scalar four) := by
    intro i hi
    simp only [List.mem_cons, List.not_mem_nil, or_false] at hi
    rcases hi with rfl | rfl | rfl <;> exact .scalar rfl
  have hlists : foursStore.Alike foursStore false ⟨1⟩ ⟨4⟩ := by
    refine .copied rfl rfl (.array rfl (.cons (hfour 0 ?_) (.cons (hfour 0 ?_) .nil)))
      (.array rfl (.cons (hfour 2 ?_) (.cons (hfour 3 ?_) .nil))) <;> decide
  have hnumbers : foursStore.Alike foursStore false ⟨0⟩ ⟨2⟩ :=
    .copied rfl rfl (hfour 0 (by decide)) (hfour 2 (by decide))
  simp only [List.range_succ, List.range_zero, List.nil_append, List.cons_append, List.map_cons,
    List.map_nil, List.cons.injEq, and_true] at h
  obtain ⟨h₀, h₁, h₂, h₃, h₄⟩ := h
  refine ⟨rfl, fun k c c' hk hk' => ?_⟩
  rcases k with _ | _ | _ | _ | _ | k <;> cases hk <;> cases hk'
  · rw [h₀]
    exact .shared rfl rfl
  · rw [h₁]
    exact hlists
  · rw [h₂]
    exact hlists
  · rw [h₃]
    exact hnumbers
  · rw [h₄]
    exact hlists

/-- Both calls are marshalled, and to the same. -/
theorem marshal_depends_on_values_sampler :
    ∃ o, Overload.bind 0 "" sampler .builtin = .ok o ∧
      (∃ as b, marshal .unknown sharedArgs.length 0 o.slots sharedArgs ⟨foursStore, []⟩ =
        some (.ok as, b)) ∧
      marshal .unknown ownArgs.length 0 o.slots ownArgs ⟨foursStore, []⟩ =
        marshal .unknown sharedArgs.length 0 o.slots sharedArgs ⟨foursStore, []⟩ := by
  obtain ⟨o, hbind, hcheck⟩ := Overload.exists_bind_of_check
    (show (Overload.bind 0 "" sampler .builtin).toOption.any (fun o =>
      (o.accepts sharedArgs.length && decide
        ((List.range 5).map (Slot.byRefAt o.slots) = [true, false, false, false, false])) &&
        (marshal .unknown sharedArgs.length 0 o.slots sharedArgs ⟨foursStore, []⟩).any
          (·.1.isOk)) = true
      by decide +kernel)
  obtain ⟨hboth, hok⟩ := (Bool.and_eq_true _ _).mp hcheck
  obtain ⟨haccepts, hplaces⟩ := (Bool.and_eq_true _ _).mp hboth
  obtain ⟨⟨b, b', -, hrun, -⟩, hsame⟩ := marshal_depends_on_values hbind foursStore_closed
    foursStore_closed haccepts (sameValues_foursStore (of_decide_eq_true hplaces)) .unknown
  refine ⟨o, hbind, ?_, hsame rfl⟩
  rcases hrun with ⟨e, hrefused, -⟩ | ⟨as, has, -⟩
  · rw [hrefused] at hok
    cases hok
  · exact ⟨as, b, has⟩

end HostCall
