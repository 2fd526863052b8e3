import HostCall.Proofs.Callable.Handover
import HostCall.Proofs.Conversion.Roundtrip
import HostCall.Proofs.Overload.Consumption

/-!
# What native code can read

Nothing but the registry links the declared type of a parameter to the argument that native code
finds in its place.  With the builtin registry the link holds: whatever the reading of a parameter
is, its slot only ever makes arguments that this reading answers to.
-/

namespace HostCall

variable {σ : Type}

/-! ## Readings and arguments -/

/-- The arguments that a parameter of each reading can get. -/
inductive Reading.Answers : Reading → Argument → Prop
  | cell (c : CellRef) : Answers .cell (.cell c)
  | cells (cs : List CellRef) : Answers .cells (.tail cs)
  | environment : Answers .environment .environment
  | location (l : Location) : Answers .location (.location l)
  | null (d : DataType) : Answers (.data d) .null
  | host {d : DataType} (v : d.Carrier) : Answers (.data d) (.host ⟨.data d, v⟩)

theorem Conversion.ofData_toHost {d : DataType} {st : Store} {spec : ParameterSpec} {c : CellRef}
    {a : Argument} (h : (ofData d).toHost st spec c = .ok a) :
    (a = .null ∧ spec.nullable = true ∧ (st.payload c).isNull = true) ∨
      ((∃ v, a = .host ⟨.data d, v⟩) ∧ ¬(spec.nullable = true ∧ (st.payload c).isNull = true)) := by
  rcases toHost_ofData_eq_ok_iff.mp h with hnull | ⟨⟨v, ha, -⟩, hnull⟩
  · exact .inl hnull
  · exact .inr ⟨⟨v, ha⟩, hnull⟩

theorem Conversion.void_toHost_ne_ok (st : Store) (spec : ParameterSpec) (c : CellRef)
    (a : Argument) : void.toHost st spec c ≠ .ok a := by
  intro h
  cases h

theorem Parameter.answers_of_fills {p : Parameter} {spec : ParameterSpec} {r : Reading}
    {l : Location} {share : List CellRef} {b b' : Bindings} {a : Argument}
    (h : (p.slotFor spec r).Fills l share b a b') : r.Answers a := by
  cases r with
  | cell =>
      cases h with
      | passthrough _ => exact .cell _
  | cells =>
      cases h with
      | tail _ => exact .cells _
  | environment =>
      cases h with
      | environment b => exact .environment
  | location =>
      cases h with
      | location b => exact .location l
  | data d =>
      cases h with
      | converted hconv =>
          rcases Conversion.ofData_toHost hconv with ⟨rfl, -⟩ | ⟨⟨v, rfl⟩, -⟩
          · exact .null d
          · exact .host v

namespace Frame

variable {f : Frame} {i : Nat} {a : Argument} {r : Reading}

theorem slot_of_getElem? (h : f.arguments[i]? = some a) : f.slot i = .ok a := by
  rw [slot, h]

/-- The readers that ask for one kind of argument refuse an argument of another. -/
theorem kindMismatch_of_answers (h : f.slot i = .ok a) (hr : r.Answers a) :
    (r ≠ .cell → f.cell i = .error (.kindMismatch i "runtime value" a.kindName)) ∧
    (r ≠ .cells → f.tail i = .error (.kindMismatch i "vararg tail" a.kindName)) ∧
    (r ≠ .environment → f.environment i = .error (.kindMismatch i "environment" a.kindName)) ∧
    (r ≠ .location → f.location i = .error (.kindMismatch i "trace" a.kindName)) := by
  rw [cell, tail, environment, location, h]
  cases hr with
  | cell c => exact ⟨fun hne => absurd rfl hne, fun _ => rfl, fun _ => rfl, fun _ => rfl⟩
  | cells cs => exact ⟨fun _ => rfl, fun hne => absurd rfl hne, fun _ => rfl, fun _ => rfl⟩
  | environment => exact ⟨fun _ => rfl, fun _ => rfl, fun hne => absurd rfl hne, fun _ => rfl⟩
  | location l => exact ⟨fun _ => rfl, fun _ => rfl, fun _ => rfl, fun hne => absurd rfl hne⟩
  | null d => exact ⟨fun _ => rfl, fun _ => rfl, fun _ => rfl, fun _ => rfl⟩
  | host v => exact ⟨fun _ => rfl, fun _ => rfl, fun _ => rfl, fun _ => rfl⟩

end Frame

/-- A tail takes every argument but those of the other slots that take one. -/
theorem Overload.length_share_tail {o : Overload σ} {args : List CellRef} {i : Nat} {p : Passing}
    (haccepts : o.accepts args.length = true) (hi : o.slots[i]? = some (.tail p)) :
    (o.share args i).length + o.arity = args.length + 1 := by
  have hmin : o.minArgs ≤ args.length := of_decide_eq_true ((Bool.and_eq_true _ _).mp haccepts).1
  have harity : o.arity - 1 ≤ o.minArgs := by
    unfold minArgs
    split <;> omega
  have hpos : 0 < o.arity := by
    rw [arity_eq_countP]
    exact List.countP_pos_iff.mpr ⟨.tail p, List.mem_of_getElem? hi, rfl⟩
  have hlength : (o.share args i).length = args.length - (o.arity - 1) := by
    rw [share, hi, List.length_drop]
  omega

namespace Callable

variable {f : Callable σ} {receiver : Option ObjectRef} {args : List CellRef} {w w₁ : World σ}
  {o : Overload σ} {bound : List CellRef} {s : Scene σ} {d : Declaration σ} {serial : Nat}
  {owner : String}

/-- What was declared is what native code can read.  On entry there is one argument per declared
parameter, and the declared type of each leaves just one reading.  The reader for it succeeds: a raw
cell reads as one cell in both ways, a tail as all arguments but those of the parameters before it,
the environment as such, a location as that of the environment, and a data type as a value of this
type, or as nothing exactly where null was given to a nullable parameter.  The readers for the other
kinds of argument fail with a mismatch of kinds. -/
theorem declared_parameters_readable (hf : f.Reachable)
    (hbind : Overload.bind serial owner d .builtin = .ok o)
    (h : f.Enters receiver args w o w₁ bound s)
    (hargs : ∀ c ∈ args, w.store.holdsCell c = true) :
    s.frame.argCount = d.parameters.length ∧
    ∀ (i : Nat) p, d.parameters[i]? = some p → ∃ r a,
      p.ReadsAs r ∧ (∀ r', p.ReadsAs r' → r' = r) ∧ s.frame.slot i = .ok a ∧
      (r = .cell → ∃ c, s.frame.cell i = .ok c ∧ s.frame.arg .cell i = .ok c) ∧
      (r = .cells → ∃ cs, s.frame.tail i = .ok cs ∧ cs.length + o.arity = args.length + 1) ∧
      (r = .environment → s.frame.environment i = .ok ()) ∧
      (r = .location → s.frame.location i = .ok s.world.env.location) ∧
      (∀ t, r = .data t → ∃ c v,
        args[(d.parameters.take i).countP fun p => !p.isInjected]? = some c ∧
        s.frame.optArg (.data t) i = .ok v ∧
        (v = none ↔ p.isNullable = true ∧ (w₁.store.payload c).isNull = true)) ∧
      (r ≠ .cell → s.frame.cell i = .error (.kindMismatch i "runtime value" a.kindName)) ∧
      (r ≠ .cells → s.frame.tail i = .error (.kindMismatch i "vararg tail" a.kindName)) ∧
      (r ≠ .environment →
        s.frame.environment i = .error (.kindMismatch i "environment" a.kindName)) ∧
      (r ≠ .location → s.frame.location i = .error (.kindMismatch i "trace" a.kindName)) := by
  obtain ⟨hbound, haccepts⟩ := hf.bound_of_find? h.find?_eq
  have hfill := h.fillAll hf
  have hslots := Overload.forall₂_boundTo hbind
  refine ⟨hfill.length_eq.trans hslots.length_eq.symm, fun i p hp => ?_⟩
  obtain ⟨hlt, hget⟩ := List.getElem?_eq_some_iff.mp hp
  have hlt' : i < o.slots.length := hslots.length_eq ▸ hlt
  have hi : o.slots[i]? = some o.slots[i] := List.getElem?_eq_getElem hlt'
  have hboundTo : p.BoundTo o.slots[i] := hget ▸ hslots.get hlt hlt'
  obtain ⟨share, a, b₁, b₂, hshare, ha, hkeeps, hfills⟩ := hfill.getElem? hi
  have hslot : s.frame.slot i = .ok a := Frame.slot_of_getElem? ha
  obtain ⟨spec, hspec, ⟨r, hr, hslotFor⟩ | ⟨-, hvoid⟩⟩ := hboundTo
  · rw [hslotFor] at hfills hi
    have hanswers : r.Answers a := Parameter.answers_of_fills hfills
    refine ⟨r, a, hr, fun r' hr' => hr'.unique hr, hslot, ?_, ?_, ?_, ?_, ?_,
      Frame.kindMismatch_of_answers hslot hanswers⟩
    · rintro rfl
      cases hanswers with
      | cell c => exact ⟨c, by rw [Frame.cell, hslot], by rw [Frame.arg, hslot]; simp⟩
    · rintro rfl
      cases hfills with
      | @tail _ cs ds _ _ hcs =>
          have hcells : o.share args i = share :=
            Option.some.inj ((Overload.getElem?_shares hi).symm.trans hshare)
          refine ⟨ds, by rw [Frame.tail, hslot], ?_⟩
          rw [hcs.length_eq, ← hcells]
          exact Overload.length_share_tail haccepts hi
    · rintro rfl
      cases hanswers with
      | environment => rw [Frame.environment, hslot]
    · rintro rfl
      cases hfills with
      | location b => rw [Frame.location, hslot, h.env_eq]
    · rintro t rfl
      obtain ⟨c, hc, hsingle⟩ := Overload.getElem?_shares_single (hbound.useUp haccepts) hi rfl rfl
      obtain rfl : share = [c] := Option.some.inj (hshare.symm.trans hsingle)
      have hcount : (o.slots.take i).countP Slot.consumes =
          (d.parameters.take i).countP fun p => !p.isInjected :=
        countP_consumes_of_forall₂ (List.forall₂_take i hslots)
      have hgood : w₁.store.holdsCell c = true := h.grows c (hargs c (List.mem_of_getElem? hc))
      have hpayload : b₁.store.payload c = w₁.store.payload c := hkeeps.payload_eq hgood
      cases hfills with
      | converted hconv =>
          have hmade := Conversion.ofData_toHost hconv
          rw [hspec, hpayload] at hmade
          rw [← hcount]
          rcases hmade with ⟨rfl, hnull⟩ | ⟨⟨v, rfl⟩, hnull⟩
          · exact ⟨c, none, hc, by rw [Frame.optArg, hslot], fun _ => hnull, fun _ => rfl⟩
          · refine ⟨c, some v, hc, ?_, iff_of_false (by simp) hnull⟩
            rw [Frame.optArg, hslot, Frame.arg, hslot]
            simp [Except.map]
  · rw [hvoid] at hfills
    cases hfills with
    | converted hconv => exact absurd hconv (Conversion.void_toHost_ne_ok _ _ _ _)

/-- Reads a raw cell, a list of integers and a text or null, sees the environment and the location,
and takes all cells behind. -/
def survey : Declaration Unit :=
  { OverloadTable.gather with
    name := "survey"
    parameters := [{ type := .cell }, { type := .list, element := some ⟨"i64"⟩ },
      { type := ⟨"String"⟩, isNullable := true }, { type := .environment }, { type := .location },
      { type := .cells, isReference := true }] }

/-- A world with the number seven, null and a list of the number. -/
def listWorld : World Unit where
  store := { numberStore with cells := numberStore.cells.push ⟨.array [⟨0⟩], false, 0⟩ }
  env := .standard
  held := []
  host := ()

/-- With all kinds of parameters each is read as declared: the null as no text, the two last cells
as the tail; and the raw cell is no environment. -/
theorem declared_parameters_readable_survey :
    (declared survey).Reachable ∧ ∃ o bound s,
      (declared survey).Enters none [⟨0⟩, ⟨2⟩, ⟨1⟩, ⟨0⟩, ⟨0⟩] listWorld o listWorld bound s ∧
      s.frame.argCount = 6 ∧
      s.frame.optArg (.data .text) 2 = .ok none ∧
      (∃ cs, s.frame.tail 5 = .ok cs ∧ cs.length = 2) ∧
      s.frame.environment 0 =
        .error (.kindMismatch 0 "environment" "runtime value") := by
  have hargs : ∀ c ∈ ([⟨0⟩, ⟨2⟩, ⟨1⟩, ⟨0⟩, ⟨0⟩] : List CellRef),
      listWorld.store.holdsCell c = true := by
    decide +kernel
  have hnull : (listWorld.store.payload ⟨1⟩).isNull = true := by decide +kernel
  have hentry : ∃ o bound s, Overload.bind 0 "" survey .builtin = .ok o ∧ (o.arity == 4) = true ∧
      (declared survey).Enters none [⟨0⟩, ⟨2⟩, ⟨1⟩, ⟨0⟩, ⟨0⟩] listWorld o listWorld bound s :=
    exists_enters_of_check rfl (by decide +kernel)
  obtain ⟨o, bound, s, hbind, harity, henters⟩ := hentry
  have harity : o.arity = 4 := beq_iff_eq.mp harity
  obtain ⟨hcount, hread⟩ :=
    declared_parameters_readable (declared_reachable survey) hbind henters hargs
  refine ⟨declared_reachable survey, o, bound, s, henters, hcount, ?_, ?_, ?_⟩
  · obtain ⟨r, a, -, hunique, -, -, -, -, -, hdata, -⟩ := hread 2 _ rfl
    obtain rfl : Reading.data .text = r :=
      hunique _ (.data (.plain (by decide) (by decide +kernel)))
    obtain ⟨c, v, hc, hv, hnone⟩ := hdata .text rfl
    obtain rfl : (⟨1⟩ : CellRef) = c := by
      have hthird : (survey.parameters.take 2).countP (fun p => !p.isInjected) = 2 := by
        decide +kernel
      rw [hthird] at hc
      exact Option.some.inj hc
    rw [hv, hnone.mpr ⟨rfl, hnull⟩]
  · obtain ⟨r, a, -, hunique, -, -, hcells, -⟩ := hread 5 _ rfl
    obtain ⟨cs, hcs, hlength⟩ := hcells (hunique .cells (.cells (by decide +kernel))).symm
    refine ⟨cs, hcs, ?_⟩
    rw [harity] at hlength
    simpa using hlength
  · obtain ⟨r, a, -, hunique, hslot, hcell, -, -, -, -, -, -, henvironment, -⟩ :=
      hread 0 _ rfl
    obtain rfl : Reading.cell = r := hunique .cell (.cell (by decide +kernel))
    obtain ⟨c, hc, -⟩ := hcell rfl
    have ha : a.kindName = "runtime value" := by
      rw [Frame.cell, hslot] at hc
      cases a <;> first | rfl | cases hc
    rw [henvironment nofun, ha]

end Callable

end HostCall
