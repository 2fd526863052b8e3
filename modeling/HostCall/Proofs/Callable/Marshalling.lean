import HostCall.Proofs.Callable.Reachable
import HostCall.Proofs.Overload.Shares
import HostCall.Proofs.Store.Reads

/-!
# Marshalling

Marshalling fills each slot from its share of the arguments alone, in order, and stops only where
a conversion refuses its share.  It never comes back where it copies an array that contains itself.
That is said by relations between the bindings before and after, one constructor to a kind of slot;
the function that a call runs agrees with them.
-/

namespace HostCall

/-! ## Filling slots -/

/-- Handing over one cell: the cell itself, checked out, or a copy of it. -/
inductive Passing.Hands : Passing → CellRef → Bindings → CellRef → Bindings → Prop
  | shared (isMutable : Bool) (c : CellRef) (b : Bindings) :
      Hands ⟨true, isMutable⟩ c b c ⟨b.store.checkOut c, c :: b.bound⟩
  | copied {isMutable : Bool} {c d : CellRef} {b : Bindings} {s : Store} :
      b.store.copy (!isMutable) c = some (d, s) → Hands ⟨false, isMutable⟩ c b d ⟨s, b.bound⟩

/-- Handing over several cells, in order. -/
inductive Passing.HandsAll (p : Passing) :
    List CellRef → Bindings → List CellRef → Bindings → Prop
  | nil (b : Bindings) : HandsAll p [] b [] b
  | cons {c d : CellRef} {cs ds : List CellRef} {b b' b'' : Bindings} :
      p.Hands c b d b' → HandsAll p cs b' ds b'' → HandsAll p (c :: cs) b (d :: ds) b''

/-- What a slot makes of its share of the arguments. -/
inductive Slot.Fills (l : Location) :
    Slot → List CellRef → Bindings → Argument → Bindings → Prop
  | passthrough {p : Passing} {c d : CellRef} {b b' : Bindings} :
      p.Hands c b d b' → Fills l (.passthrough p) [c] b (.cell d) b'
  | converted {conv : Conversion} {spec : ParameterSpec} {c : CellRef} {a : Argument}
      {b : Bindings} :
      conv.toHost b.store spec c = .ok a → Fills l (.converted conv spec) [c] b a b
  | environment (b : Bindings) : Fills l (.injected .environment) [] b .environment b
  | location (b : Bindings) : Fills l (.injected .location) [] b (.location l) b
  | tail {p : Passing} {cs ds : List CellRef} {b b' : Bindings} :
      p.HandsAll cs b ds b' → Fills l (.tail p) cs b (.tail ds) b'

/-- Every slot filled from its own share, in order. -/
inductive Slot.FillAll (l : Location) :
    List Slot → List (List CellRef) → Bindings → List Argument → Bindings → Prop
  | nil (b : Bindings) : FillAll l [] [] b [] b
  | cons {slot : Slot} {slots : List Slot} {share : List CellRef} {shares : List (List CellRef)}
      {a : Argument} {as : List Argument} {b b' b'' : Bindings} :
      slot.Fills l share b a b' → FillAll l slots shares b' as b'' →
      FillAll l (slot :: slots) (share :: shares) b (a :: as) b''

/-- The slots before position `i` filled, and the conversion at position `i` refusing its share. -/
inductive Slot.RefuseAt (l : Location) :
    Nat → List Slot → List (List CellRef) → Bindings → ConversionError → Bindings → Prop
  | here {conv : Conversion} {spec : ParameterSpec} {c : CellRef} {e : ConversionError}
      {slots : List Slot} {shares : List (List CellRef)} {b : Bindings} :
      conv.toHost b.store spec c = .error e →
      RefuseAt l 0 (.converted conv spec :: slots) ([c] :: shares) b e b
  | later {i : Nat} {slot : Slot} {slots : List Slot} {share : List CellRef}
      {shares : List (List CellRef)} {a : Argument} {e : ConversionError} {b b' b'' : Bindings} :
      slot.Fills l share b a b' → RefuseAt l i slots shares b' e b'' →
      RefuseAt l (i + 1) (slot :: slots) (share :: shares) b e b''

/-- A slot passes a cell by value below which an array contains itself. -/
inductive Slot.Stalls (s : Store) : Slot → List CellRef → Prop
  | passthrough {p : Passing} {c : CellRef} :
      p.byRef = false → ¬s.AcyclicFrom c → Stalls s (.passthrough p) [c]
  | tail {p : Passing} {c : CellRef} {cs : List CellRef} :
      p.byRef = false → c ∈ cs → ¬s.AcyclicFrom c → Stalls s (.tail p) cs

/-- The slots before position `i` filled, and the slot there to be filled with a copy that never
ends. -/
inductive Slot.StallAt (l : Location) (s : Store) :
    Nat → List Slot → List (List CellRef) → Bindings → Prop
  | here {slot : Slot} {slots : List Slot} {share : List CellRef}
      {shares : List (List CellRef)} {b : Bindings} :
      slot.Stalls s share → StallAt l s 0 (slot :: slots) (share :: shares) b
  | later {i : Nat} {slot : Slot} {slots : List Slot} {share : List CellRef}
      {shares : List (List CellRef)} {a : Argument} {b b' : Bindings} :
      slot.Fills l share b a b' → StallAt l s i slots shares b' →
      StallAt l s (i + 1) (slot :: slots) (share :: shares) b

namespace Passing

variable {p : Passing} {c d e : CellRef} {cs ds : List CellRef} {b b' : Bindings}

theorem pass_eq_some_iff : p.pass c b = some (d, b') ↔ p.Hands c b d b' := by
  obtain ⟨byRef, isMutable⟩ := p
  cases byRef with
  | true =>
      constructor
      · intro h
        cases h
        exact .shared isMutable c b
      · intro h
        cases h
        rfl
  | false =>
      have hpass : pass ⟨false, isMutable⟩ c b =
          (b.store.copy (!isMutable) c).map fun x => (x.1, { b with store := x.2 }) := rfl
      rw [hpass, Option.map_eq_some_iff]
      constructor
      · rintro ⟨⟨d, s⟩, hcopy, ⟨⟩⟩
        exact .copied hcopy
      · intro h
        cases h with
        | copied hcopy => exact ⟨_, hcopy, rfl⟩

theorem pass_eq_none_iff : p.pass c b = none ↔ p.byRef = false ∧ ¬b.store.AcyclicFrom c := by
  unfold pass
  cases p.byRef with
  | true => simp
  | false => simp [Store.copy_eq_none_iff]

/-- Handing over a cell makes no loop. -/
theorem Hands.acyclicFrom_iff (h : p.Hands c b d b') :
    b'.store.AcyclicFrom e ↔ b.store.AcyclicFrom e := by
  cases h with
  | shared isMutable c b => exact b.store.acyclicFrom_checkOut c
  | copied hcopy => exact Store.acyclicFrom_of_copy hcopy

theorem HandsAll.acyclicFrom_iff (h : p.HandsAll cs b ds b') :
    b'.store.AcyclicFrom e ↔ b.store.AcyclicFrom e := by
  induction h with
  | nil b => rfl
  | cons hc _ ih => exact ih.trans hc.acyclicFrom_iff

theorem passAll_eq_some_iff : p.passAll cs b = some (ds, b') ↔ p.HandsAll cs b ds b' := by
  induction cs generalizing b ds b' with
  | nil =>
      constructor
      · intro h
        cases h
        exact .nil b
      · intro h
        cases h
        rfl
  | cons c cs ih =>
      rw [passAll]
      constructor
      · intro h
        cases hc : p.pass c b with
        | none =>
            rw [hc] at h
            cases h
        | some x =>
            rw [hc] at h
            obtain ⟨y, hcs, ⟨⟩⟩ := Option.map_eq_some_iff.mp h
            exact .cons (pass_eq_some_iff.mp hc) (ih.mp hcs)
      · intro h
        cases h with
        | cons hc hcs =>
            rw [pass_eq_some_iff.mpr hc]
            simp only
            rw [ih.mpr hcs, Option.map_some]

theorem passAll_eq_none_iff :
    p.passAll cs b = none ↔ p.byRef = false ∧ ∃ c ∈ cs, ¬b.store.AcyclicFrom c := by
  induction cs generalizing b with
  | nil => simp [passAll]
  | cons c cs ih =>
      rw [passAll]
      cases hc : p.pass c b with
      | none =>
          obtain ⟨hvalue, hloop⟩ := pass_eq_none_iff.mp hc
          exact iff_of_true rfl ⟨hvalue, c, List.mem_cons_self, hloop⟩
      | some x =>
          obtain ⟨d, b'⟩ := x
          have hends : ¬(p.byRef = false ∧ ¬b.store.AcyclicFrom c) := by
            rw [← pass_eq_none_iff, hc]
            nofun
          simp only [Option.map_eq_none_iff, ih, List.exists_mem_cons_iff, and_or_left, hends,
            false_or, (pass_eq_some_iff.mp hc).acyclicFrom_iff]

end Passing

namespace Slot

variable {l : Location} {slots : List Slot} {shares : List (List CellRef)} {args : List CellRef}
  {as : List Argument} {e : ConversionError} {b b' : Bindings} {i n : Nat}

theorem FillAll.length_eq (h : FillAll l slots shares b as b') : as.length = slots.length := by
  induction h with
  | nil b => rfl
  | cons _ _ ih => simp [ih]

/-! ## Marshalling fills every slot from its share -/

theorem fill_eq_ok_iff {slot : Slot} {index available : Nat} {a : Argument}
    {rest : List CellRef} :
    slot.fill l index available args b = some (.ok (a, rest, b')) ↔
      slot.Fills l (slot.front args) b a b' ∧ rest = slot.behind args := by
  cases slot with
  | passthrough p =>
      cases args with
      | nil =>
          constructor
          · intro h
            cases h
          · rintro ⟨h, -⟩
            change Fills l (.passthrough p) [] b a b' at h
            cases h
      | cons c args =>
          change (p.pass c b).map _ = _ ↔ Fills l (.passthrough p) [c] b a b' ∧ rest = args
          rw [Option.map_eq_some_iff]
          constructor
          · rintro ⟨x, hc, ⟨⟩⟩
            exact ⟨.passthrough (Passing.pass_eq_some_iff.mp hc), rfl⟩
          · rintro ⟨h, rfl⟩
            cases h with
            | passthrough hc => exact ⟨_, Passing.pass_eq_some_iff.mpr hc, rfl⟩
  | converted conv spec =>
      cases args with
      | nil =>
          constructor
          · intro h
            cases h
          · rintro ⟨h, -⟩
            change Fills l (.converted conv spec) [] b a b' at h
            cases h
      | cons c args =>
          change _ ↔ Fills l (.converted conv spec) [c] b a b' ∧ rest = args
          constructor
          · intro h
            cases hconv : conv.toHost b.store spec c with
            | error e => simp [fill, hconv] at h
            | ok v =>
                simp only [fill, hconv] at h
                cases h
                exact ⟨.converted hconv, rfl⟩
          · rintro ⟨h, rfl⟩
            cases h with
            | converted hconv => simp [fill, hconv]
  | injected k =>
      change _ ↔ Fills l (.injected k) [] b a b' ∧ rest = args
      constructor
      · intro h
        cases k with
        | environment =>
            cases h
            exact ⟨.environment b, rfl⟩
        | location =>
            cases h
            exact ⟨.location b, rfl⟩
      · rintro ⟨h, rfl⟩
        cases h <;> rfl
  | tail p =>
      change (p.passAll args b).map _ = _ ↔ Fills l (.tail p) args b a b' ∧ rest = []
      rw [Option.map_eq_some_iff]
      constructor
      · rintro ⟨x, hcs, ⟨⟩⟩
        exact ⟨.tail (Passing.passAll_eq_some_iff.mp hcs), rfl⟩
      · rintro ⟨h, rfl⟩
        cases h with
        | tail hcs => exact ⟨_, Passing.passAll_eq_some_iff.mpr hcs, rfl⟩

/-- A slot fails when no argument is left for it, or when its conversion refuses the next. -/
theorem fill_eq_error_iff {slot : Slot} {index available : Nat} {e : MarshalError} :
    slot.fill l index available args b = some (.error e) ↔
      (e = .exhausted index available ∧ args = [] ∧ slot.consumes = true ∧ slot.isTail = false) ∨
      ∃ conv spec c err, slot = .converted conv spec ∧ slot.front args = [c] ∧
        conv.toHost b.store spec c = .error err ∧ e = .refused err := by
  cases slot with
  | passthrough p => cases args <;> simp [fill, consumes, isTail, eq_comm]
  | injected k => cases k <;> simp [fill, consumes]
  | tail p => simp [fill, isTail]
  | converted conv spec =>
      cases args with
      | nil => simp [fill, front, consumes, isTail, eq_comm]
      | cons c args =>
          constructor
          · intro h
            cases hconv : conv.toHost b.store spec c with
            | ok a => simp [fill, hconv] at h
            | error err =>
                simp only [fill, hconv] at h
                cases h
                exact .inr ⟨conv, spec, c, err, rfl, rfl, hconv, rfl⟩
          · rintro (⟨-, ⟨⟩, -⟩ | ⟨_, _, _, _, ⟨⟩, ⟨⟩, hconv, rfl⟩)
            simp only [fill, hconv]

theorem fill_eq_none_iff {slot : Slot} {index available : Nat} :
    slot.fill l index available args b = none ↔ slot.Stalls b.store (slot.front args) := by
  cases slot with
  | passthrough p =>
      cases args with
      | nil =>
          refine iff_of_false nofun fun h => ?_
          change Stalls b.store (.passthrough p) [] at h
          cases h
      | cons c args =>
          change (p.pass c b).map _ = none ↔ Stalls b.store (.passthrough p) [c]
          rw [Option.map_eq_none_iff, Passing.pass_eq_none_iff]
          constructor
          · rintro ⟨hvalue, hloop⟩
            exact .passthrough hvalue hloop
          · intro h
            cases h with
            | passthrough hvalue hloop => exact ⟨hvalue, hloop⟩
  | converted conv spec =>
      refine iff_of_false (fun h => ?_) nofun
      cases args with
      | nil => cases h
      | cons c args =>
          simp only [fill] at h
          split at h <;> cases h
  | injected k => exact iff_of_false (by cases k <;> nofun) nofun
  | tail p =>
      change (p.passAll args b).map _ = none ↔ Stalls b.store (.tail p) args
      rw [Option.map_eq_none_iff, Passing.passAll_eq_none_iff]
      constructor
      · rintro ⟨hvalue, c, hc, hloop⟩
        exact .tail hvalue hc hloop
      · intro h
        cases h with
        | tail hvalue hc hloop => exact ⟨hvalue, _, hc, hloop⟩

theorem fill_ne_exhausted {slot : Slot} {index available k m : Nat}
    (h : UseUp (slot :: slots) args.length) :
    slot.fill l index available args b ≠ some (.error (.exhausted k m)) := by
  intro hfill
  rcases fill_eq_error_iff.mp hfill with ⟨-, rfl, hconsumes, htail⟩ | ⟨_, _, _, _, -, -, -, he⟩
  · cases slot with
    | injected k => cases hconsumes
    | tail p => cases htail
    | passthrough p => exact absurd h.1 (Nat.lt_irrefl 0)
    | converted conv spec => exact absurd h.1 (Nat.lt_irrefl 0)
  · cases he

theorem Fills.acyclicFrom_iff {slot : Slot} {share : List CellRef} {a : Argument} {c : CellRef}
    (h : slot.Fills l share b a b') : b'.store.AcyclicFrom c ↔ b.store.AcyclicFrom c := by
  cases h with
  | passthrough hc => exact hc.acyclicFrom_iff
  | tail hcs => exact hcs.acyclicFrom_iff
  | converted _ => rfl
  | environment b => rfl
  | location b => rfl

/-- Which slots stall can be told before anything is filled. -/
theorem stalls_congr {s s' : Store} (h : ∀ c, s'.AcyclicFrom c ↔ s.AcyclicFrom c) {slot : Slot}
    {share : List CellRef} (hstalls : slot.Stalls s share) : slot.Stalls s' share := by
  cases hstalls with
  | passthrough hvalue hloop => exact .passthrough hvalue (mt (h _).mp hloop)
  | tail hvalue hc hloop => exact .tail hvalue hc (mt (h _).mp hloop)

theorem StallAt.congr {s s' : Store} (h : ∀ c, s'.AcyclicFrom c ↔ s.AcyclicFrom c)
    (hstall : StallAt l s i slots shares b) : StallAt l s' i slots shares b := by
  induction hstall with
  | here hstalls => exact .here (stalls_congr h hstalls)
  | later hfills _ ih => exact .later hfills ih

end Slot

open Slot

section Marshal

variable {l : Location} {slots : List Slot} {args : List CellRef} {as : List Argument}
  {e : ConversionError} {b b' : Bindings} {index available : Nat}

theorem marshal_cons_eq_ok_iff {slot : Slot} :
    marshal l available index (slot :: slots) args b = some (.ok as, b') ↔
      ∃ a as' b₁, slot.Fills l (slot.front args) b a b₁ ∧
        marshal l available (index + 1) slots (slot.behind args) b₁ = some (.ok as', b') ∧
        as = a :: as' := by
  rw [marshal]
  constructor
  · intro h
    split at h
    · cases h
    · cases h
    · next a rest b₁ hfill =>
        obtain ⟨hfills, rfl⟩ := fill_eq_ok_iff.mp hfill
        obtain ⟨⟨answer, b₂⟩, hrest, heq⟩ := Option.map_eq_some_iff.mp h
        cases answer with
        | error e => cases heq
        | ok as' =>
            cases heq
            exact ⟨a, as', b₁, hfills, hrest, rfl⟩
  · rintro ⟨a, as', b₁, hfills, hrest, rfl⟩
    rw [fill_eq_ok_iff.mpr ⟨hfills, rfl⟩]
    simp only [hrest, Option.map_some]

theorem marshal_cons_eq_error_iff {slot : Slot} {e : MarshalError} :
    marshal l available index (slot :: slots) args b = some (.error e, b') ↔
      (slot.fill l index available args b = some (.error e) ∧ b' = b) ∨
      ∃ a b₁, slot.Fills l (slot.front args) b a b₁ ∧
        marshal l available (index + 1) slots (slot.behind args) b₁ = some (.error e, b') := by
  rw [marshal]
  constructor
  · intro h
    split at h
    · cases h
    · next hfill =>
        cases h
        exact .inl ⟨hfill, rfl⟩
    · next a rest b₁ hfill =>
        obtain ⟨hfills, rfl⟩ := fill_eq_ok_iff.mp hfill
        obtain ⟨⟨answer, b₂⟩, hrest, heq⟩ := Option.map_eq_some_iff.mp h
        cases answer with
        | ok as' => cases heq
        | error e' =>
            cases heq
            exact .inr ⟨a, b₁, hfills, hrest⟩
  · rintro (⟨hfill, rfl⟩ | ⟨a, b₁, hfills, hrest⟩)
    · rw [hfill]
    · rw [fill_eq_ok_iff.mpr ⟨hfills, rfl⟩]
      simp only [hrest, Option.map_some]

theorem marshal_cons_eq_none_iff {slot : Slot} :
    marshal l available index (slot :: slots) args b = none ↔
      slot.Stalls b.store (slot.front args) ∨
      ∃ a b₁, slot.Fills l (slot.front args) b a b₁ ∧
        marshal l available (index + 1) slots (slot.behind args) b₁ = none := by
  rw [marshal]
  constructor
  · intro h
    split at h
    · next hfill => exact .inl (fill_eq_none_iff.mp hfill)
    · cases h
    · next a rest b₁ hfill =>
        obtain ⟨hfills, rfl⟩ := fill_eq_ok_iff.mp hfill
        exact .inr ⟨a, b₁, hfills, Option.map_eq_none_iff.mp h⟩
  · rintro (hstalls | ⟨a, b₁, hfills, hrest⟩)
    · rw [fill_eq_none_iff.mpr hstalls]
    · rw [fill_eq_ok_iff.mpr ⟨hfills, rfl⟩]
      simp only [hrest, Option.map_none]

/-- Marshalling succeeds exactly when every slot is filled from what is dealt to it. -/
theorem marshal_eq_ok_iff :
    marshal l available index slots args b = some (.ok as, b') ↔
      FillAll l slots (deal slots args) b as b' := by
  induction slots generalizing index args b as with
  | nil =>
      constructor
      · intro h
        cases h
        exact .nil _
      · intro h
        cases h
        rfl
  | cons slot slots ih =>
      rw [marshal_cons_eq_ok_iff, deal]
      constructor
      · rintro ⟨a, as', b₁, hfills, hrest, rfl⟩
        exact .cons hfills (ih.mp hrest)
      · intro h
        cases h with
        | cons hfills hrest => exact ⟨_, _, _, hfills, ih.mpr hrest, rfl⟩

/-- Marshalling is refused exactly when the slots before some position are filled and the
conversion there refuses what is dealt to it. -/
theorem marshal_eq_refused_iff :
    marshal l available index slots args b = some (.error (.refused e), b') ↔
      ∃ i, RefuseAt l i slots (deal slots args) b e b' := by
  induction slots generalizing index args b with
  | nil =>
      constructor
      · intro h
        cases h
      · rintro ⟨i, h⟩
        cases h
  | cons slot slots ih =>
      rw [marshal_cons_eq_error_iff, deal]
      constructor
      · rintro (⟨hfill, rfl⟩ | ⟨a, b₁, hfills, hrest⟩)
        · obtain ⟨⟨⟩, -⟩ | ⟨conv, spec, c, err, rfl, hfront, hconv, ⟨⟩⟩ :=
            fill_eq_error_iff.mp hfill
          rw [hfront]
          exact ⟨0, .here hconv⟩
        · obtain ⟨i, hrefuse⟩ := ih.mp hrest
          exact ⟨i + 1, .later hfills hrefuse⟩
      · rintro ⟨i, h⟩
        generalize hfront : slot.front args = share at h
        cases h with
        | here hconv =>
            exact .inl ⟨fill_eq_error_iff.mpr (.inr ⟨_, _, _, _, rfl, hfront, hconv, rfl⟩), rfl⟩
        | later hfills hrefuse => exact .inr ⟨_, _, hfills, ih.mpr ⟨_, hrefuse⟩⟩

/-- Marshalling never comes back exactly when the slots before some position are filled and the
slot there passes a cell by value below which an array contains itself. -/
theorem marshal_eq_none_iff :
    marshal l available index slots args b = none ↔
      ∃ i, StallAt l b.store i slots (deal slots args) b := by
  induction slots generalizing index args b with
  | nil =>
      refine iff_of_false nofun ?_
      rintro ⟨i, h⟩
      cases h
  | cons slot slots ih =>
      rw [marshal_cons_eq_none_iff, deal]
      constructor
      · rintro (hstalls | ⟨a, b₁, hfills, hrest⟩)
        · exact ⟨0, .here hstalls⟩
        · obtain ⟨i, hstall⟩ := ih.mp hrest
          exact ⟨i + 1, .later hfills (hstall.congr fun c => hfills.acyclicFrom_iff.symm)⟩
      · rintro ⟨i, h⟩
        generalize hfront : slot.front args = share at h ⊢
        cases h with
        | here hstalls => exact .inl hstalls
        | later hfills hstall =>
            exact .inr ⟨_, _, hfills, ih.mpr ⟨_, hstall.congr fun c => hfills.acyclicFrom_iff⟩⟩

/-- Slots that use up the arguments never run out of them. -/
theorem marshal_ne_exhausted {k m : Nat} (h : UseUp slots args.length) :
    marshal l available index slots args b ≠ some (.error (.exhausted k m), b') := by
  induction slots generalizing index args b with
  | nil =>
      intro hm
      cases hm
  | cons slot slots ih =>
      intro hm
      obtain ⟨hfill, -⟩ | ⟨a, b₁, -, hrest⟩ := marshal_cons_eq_error_iff.mp hm
      · exact fill_ne_exhausted h hfill
      · exact ih (useUp_behind h) hrest

/-- Arguments that are used up are marshalled where no conversion refuses its share and no copy
never ends. -/
theorem exists_marshal_eq_ok (index available : Nat) (h : UseUp slots args.length)
    (hnone : ¬∃ i e b', RefuseAt l i slots (deal slots args) b e b')
    (hends : ¬∃ i, StallAt l b.store i slots (deal slots args) b) :
    ∃ as b', marshal l available index slots args b = some (.ok as, b') ∧
      FillAll l slots (deal slots args) b as b' := by
  cases hm : marshal l available index slots args b with
  | none => exact absurd (marshal_eq_none_iff.mp hm) hends
  | some x =>
      obtain ⟨answer, b'⟩ := x
      cases answer with
      | ok as => exact ⟨as, b', rfl, marshal_eq_ok_iff.mp hm⟩
      | error e =>
          cases e with
          | exhausted k m => exact absurd hm (marshal_ne_exhausted h)
          | refused e =>
              obtain ⟨i, hrefuse⟩ := marshal_eq_refused_iff.mp hm
              exact absurd ⟨i, e, b', hrefuse⟩ hnone

end Marshal

/-- A function that reads a number and takes all cells behind it. -/
def gatherCallable : Callable Unit :=
  (Callable.function "gather").after
    ((Callable.function "gather").add 0 OverloadTable.gather .builtin .strict)

theorem gatherCallable_reachable : gatherCallable.Reachable :=
  .add 0 OverloadTable.gather .builtin .strict (.function "gather")

/-- A number, and an immutable null. -/
def numberStore : Store where
  cells := #[⟨.scalar (.int ⟨7, by decide, by decide⟩), false, 0⟩, ⟨.null, true, 0⟩]
  objects := #[]

end HostCall
