import HostCall.Proofs.Callable.Journal
import HostCall.Proofs.Callable.Marshalling
import HostCall.Proofs.Store.Extension

/-!
# The outcome of a call

A call has one outcome for each way through its steps: it gives up with a report, it is refused
while it marshals, or it runs native code once and settles the end of it.  On the way it may wait
for ever, for native code or for an array that contains itself.  The journal says which code was
entered.
-/

namespace HostCall

variable {σ : Type}

/-! ## Marshalling keeps the store -/

section Keeps

variable {p : Passing} {c d : CellRef} {cs ds : List CellRef} {b b' : Bindings} {l : Location}
  {slot : Slot} {slots : List Slot} {share : List CellRef} {shares : List (List CellRef)}
  {a : Argument} {as : List Argument} {i : Nat} {e : ConversionError}

theorem Passing.Hands.keeps (h : p.Hands c b d b') : b.store.Keeps b'.store := by
  cases h with
  | shared isMutable c b => exact b.store.keeps_checkOut c
  | copied hcopy => exact Store.keeps_of_copy hcopy

theorem Passing.HandsAll.keeps (h : p.HandsAll cs b ds b') : b.store.Keeps b'.store := by
  induction h with
  | nil b => rfl
  | cons hc _ ih => exact hc.keeps.trans ih

theorem Slot.Fills.keeps (h : slot.Fills l share b a b') : b.store.Keeps b'.store := by
  cases h with
  | passthrough hc => exact hc.keeps
  | tail hcs => exact hcs.keeps
  | converted _ => rfl
  | environment b => rfl
  | location b => rfl

theorem Slot.FillAll.keeps (h : FillAll l slots shares b as b') : b.store.Keeps b'.store := by
  induction h with
  | nil b => rfl
  | cons hfills _ ih => exact hfills.keeps.trans ih

theorem Slot.RefuseAt.keeps (h : RefuseAt l i slots shares b e b') : b.store.Keeps b'.store := by
  induction h with
  | here _ => rfl
  | later hfills _ ih => exact hfills.keeps.trans ih

theorem Bindings.keeps_release (b : Bindings) : b.store.Keeps b.release :=
  b.store.keeps_checkInAll b.bound

end Keeps

/-! ## Ends of a call -/

/-- What becomes of the end of native code: a panic is translated or goes on, a failure is raised
as an exception, and a result is returned unless it cannot be converted. -/
inductive Overload.Settles (o : Overload σ) (signature : String) (l : Location)
    (translatesPanics : Bool) :
    Ending (Except HostError Unit) → Scene σ → CallResult → World σ → Prop
  | translated {p : PanicPayload} {s : Scene σ} :
      translatesPanics = true →
      Settles o signature l translatesPanics (.panicked p) s
        (.failed (.exception ⟨"Error", "native function panicked: " ++ p.text, none, l⟩)) s.world
  | unwound {p : PanicPayload} {s : Scene σ} :
      translatesPanics = false →
      Settles o signature l translatesPanics (.panicked p) s (.unwound p) s.world
  | raised {e : HostError} {x : Exception} {s : Scene σ} :
      e.toException s.world.store l = some x →
      Settles o signature l translatesPanics (.done (.error e)) s
        (.failed (.exception x)) s.world
  | unreturnable {e : ConversionError} {s : Scene σ} :
      o.returnConversion.fromHost s.world.store s.frame.result = .error e →
      Settles o signature l translatesPanics (.done (.ok ())) s
        (.failed (.defect (.returnConversion signature e))) s.world
  | returned {produced : Produced} {s : Scene σ} :
      o.returnConversion.fromHost s.world.store s.frame.result = .ok produced →
      Settles o signature l translatesPanics (.done (.ok ())) s
        (.returned (produced.realize s.world.store).1)
        { s.world with store := (produced.realize s.world.store).2 }

/-- A failure is raised unless it throws a cell below which an array contains itself: the
description of that never ends. -/
theorem HostError.toException_eq_none_iff {e : HostError} {s : Store} {l : Location} :
    e.toException s l = none ↔ ∃ c, e = .thrown c ∧ ¬s.AcyclicFrom c := by
  cases e with
  | thrown c =>
      have hdescribe := s.describePayload_eq_none_iff (c := c)
      simp only [toException, Option.map_eq_none_iff, thrown.injEq, exists_eq_left', ← hdescribe]
      split
      · next t ht =>
          refine iff_of_false nofun ?_
          rw [ht]
          nofun
      · rfl
  | _ => exact iff_of_false nofun fun ⟨_, h, _⟩ => nomatch h

/-- The end of native code settles, or it is a failure whose exception would describe an array that
contains itself. -/
theorem Overload.settle_cases (o : Overload σ) (signature : String) (l : Location)
    (ending : Ending (Except HostError Unit)) (s : Scene σ) :
    (∃ result w, o.settle signature l ending s = some (result, w) ∧
      o.Settles signature l s.world.env.translatesPanics ending s result w) ∨
    ∃ c, ending = .done (.error (.thrown c)) ∧ ¬s.world.store.AcyclicFrom c ∧
      o.settle signature l ending s = none := by
  obtain ⟨f, w⟩ := s
  cases ending with
  | panicked p =>
      by_cases h : w.env.translatesPanics = true
      · exact .inl ⟨_, _, by simp only [settle, if_pos h]; rfl, .translated h⟩
      · refine .inl ⟨_, _, by simp only [settle, if_neg h]; rfl, ?_⟩
        exact .unwound (Bool.of_not_eq_true h)
  | done r =>
      cases r with
      | error e =>
          cases he : e.toException w.store l with
          | none =>
              obtain ⟨c, rfl, hloop⟩ := HostError.toException_eq_none_iff.mp he
              exact .inr ⟨c, rfl, hloop, by simp only [settle, World.raise, he, Option.map_none]⟩
          | some x =>
              exact .inl ⟨_, _, by simp only [settle, World.raise, he, Option.map_some], .raised he⟩
      | ok u =>
          cases h : o.returnConversion.fromHost w.store f.result with
          | error e => exact .inl ⟨_, _, by simp only [settle, h], .unreturnable h⟩
          | ok produced => exact .inl ⟨_, _, by simp only [settle, h], .returned h⟩

theorem Overload.settles_of_settle {o : Overload σ} {signature : String} {l : Location}
    {ending : Ending (Except HostError Unit)} {s : Scene σ} {result : CallResult} {w : World σ}
    (h : o.settle signature l ending s = some (result, w)) :
    o.Settles signature l s.world.env.translatesPanics ending s result w := by
  rcases o.settle_cases signature l ending s with ⟨_, _, hsettle, hsettles⟩ | ⟨_, -, -, hsettle⟩
  · cases h.symm.trans hsettle
    exact hsettles
  · cases h.symm.trans hsettle

namespace Overload

variable {o : Overload σ} {receiver : Option ObjectRef} {args : List CellRef} {w : World σ}
  {signature : String}

/-- Where a conversion refuses its share, no native code runs, and the call ends with an exception
and every binding released. -/
theorem call_of_refuseAt {i : Nat} {e : ConversionError} {b : Bindings} (signature : String)
    (htail : Slot.TailLast o.slots)
    (h : Slot.RefuseAt w.env.location i o.slots (o.shares args) ⟨w.store, []⟩ e b) :
    o.entered receiver args w = [] ∧ w.store.Keeps b.release ∧
      o.call signature receiver args w =
        some (.failed (.exception
          ⟨"TypeError", "conversion error: " ++ e.message, none, w.env.location⟩),
          { w with store := b.release }) := by
  have hkeeps : w.store.Keeps b.release := h.keeps.trans b.keeps_release
  rw [o.shares_eq_deal htail] at h
  have hm : marshal w.env.location args.length 0 o.slots args ⟨w.store, []⟩ =
      some (.error (.refused e), b) := marshal_eq_refused_iff.mpr ⟨i, h⟩
  refine ⟨?_, hkeeps, call_of_error hm⟩
  unfold entered
  rw [hm]

/-- Where a copy never ends, no native code runs and the call never comes back. -/
theorem call_of_stallAt {i : Nat} (signature : String) (htail : Slot.TailLast o.slots)
    (h : Slot.StallAt w.env.location w.store i o.slots (o.shares args) ⟨w.store, []⟩) :
    o.entered receiver args w = [] ∧ o.call signature receiver args w = none := by
  rw [o.shares_eq_deal htail] at h
  have hm : marshal w.env.location args.length 0 o.slots args ⟨w.store, []⟩ = none :=
    marshal_eq_none_iff.mpr ⟨i, h⟩
  refine ⟨?_, call_of_none hm⟩
  unfold entered
  rw [hm]

/-- Where native code runs in the scene that marshalling has made, the call ends as the end of it
settles, with every binding released. -/
theorem call_of_fillAll {arguments : List Argument} {b : Bindings} (signature : String)
    (receiver : Option ObjectRef) (htail : Slot.TailLast o.slots)
    (h : Slot.FillAll w.env.location o.slots (o.shares args) ⟨w.store, []⟩ arguments b) :
    o.entered receiver args w = [.native o (.start receiver arguments)] ∧
    (o.implementation.body.run ⟨.start receiver arguments, { w with store := b.store }⟩ = none →
      o.call signature receiver args w = none) ∧
    ∀ ending s, o.implementation.body.run
        ⟨.start receiver arguments, { w with store := b.store }⟩ = some (ending, s) →
      (∃ result w', o.Settles signature w.env.location w.env.translatesPanics ending s result w' ∧
        o.call signature receiver args w =
          some (result, { w' with store := w'.store.checkInAll b.bound })) ∨
      ∃ c, ending = .done (.error (.thrown c)) ∧ ¬s.world.store.AcyclicFrom c ∧
        o.call signature receiver args w = none := by
  rw [o.shares_eq_deal htail] at h
  have hm : marshal w.env.location args.length 0 o.slots args ⟨w.store, []⟩ =
      some (.ok arguments, b) := marshal_eq_ok_iff.mpr h
  refine ⟨?_, fun hrun => ?_, fun ending s hrun => ?_⟩
  · unfold entered
    rw [hm]
  · rw [call_of_ok hm, hrun, Option.bind_none]
  · have hsame := Behavior.run_sameCaller hrun
    rw [call_of_ok hm, hrun, Option.bind_some]
    rcases o.settle_cases signature w.env.location ending s with
      ⟨result, w', hsettle, hsettles⟩ | ⟨c, hc, hloop, hsettle⟩
    · rw [hsame.translatesPanics_eq] at hsettles
      exact .inl ⟨result, w', hsettles, by rw [hsettle, Option.map_some]⟩
    · exact .inr ⟨c, hc, hloop, by rw [hsettle, Option.map_none]⟩

/-- Slots that are neither refused nor stalled are filled, each from its share. -/
theorem exists_fillAll (hbound : o.Bound) (haccepts : o.accepts args.length = true)
    (hnone : ¬∃ i e b,
      Slot.RefuseAt w.env.location i o.slots (o.shares args) ⟨w.store, []⟩ e b)
    (hends : ¬∃ i,
      Slot.StallAt w.env.location w.store i o.slots (o.shares args) ⟨w.store, []⟩) :
    ∃ arguments b,
      Slot.FillAll w.env.location o.slots (o.shares args) ⟨w.store, []⟩ arguments b := by
  rw [o.shares_eq_deal hbound.tailLast] at hnone hends ⊢
  obtain ⟨arguments, b, -, hfill⟩ :=
    exists_marshal_eq_ok 0 args.length (hbound.useUp haccepts) hnone hends
  exact ⟨arguments, b, hfill⟩

/-- A call that ends was refused, or has run native code to an end that settled. -/
theorem call_cases {result : CallResult} {w' : World σ} (hbound : o.Bound)
    (haccepts : o.accepts args.length = true)
    (h : o.call signature receiver args w = some (result, w')) :
    (∃ i e b, Slot.RefuseAt w.env.location i o.slots (o.shares args) ⟨w.store, []⟩ e b ∧
      w' = { w with store := b.release }) ∨
    ∃ arguments b ending s w₁,
      Slot.FillAll w.env.location o.slots (o.shares args) ⟨w.store, []⟩ arguments b ∧
      o.implementation.body.run ⟨.start receiver arguments, { w with store := b.store }⟩ =
        some (ending, s) ∧
      o.Settles signature w.env.location w.env.translatesPanics ending s result w₁ ∧
      w' = { w₁ with store := w₁.store.checkInAll b.bound } := by
  by_cases hrefuse : ∃ i e b,
      Slot.RefuseAt w.env.location i o.slots (o.shares args) ⟨w.store, []⟩ e b
  · obtain ⟨i, e, b, hrefuse⟩ := hrefuse
    cases h.symm.trans (call_of_refuseAt signature hbound.tailLast hrefuse).2.2
    exact .inl ⟨i, e, b, hrefuse, rfl⟩
  · by_cases hstall : ∃ i,
        Slot.StallAt w.env.location w.store i o.slots (o.shares args) ⟨w.store, []⟩
    · obtain ⟨i, hstall⟩ := hstall
      cases h.symm.trans (call_of_stallAt signature hbound.tailLast hstall).2
    · obtain ⟨arguments, b, hfill⟩ := exists_fillAll hbound haccepts hrefuse hstall
      obtain ⟨-, hwaits, hends⟩ := call_of_fillAll signature receiver
        hbound.tailLast hfill
      cases hrun : o.implementation.body.run
          ⟨.start receiver arguments, { w with store := b.store }⟩ with
      | none => cases h.symm.trans (hwaits hrun)
      | some x =>
          obtain ⟨ending, s⟩ := x
          rcases hends ending s hrun with ⟨result', w₁, hsettles, hcall⟩ | ⟨c, -, -, hcall⟩
          · cases h.symm.trans hcall
            exact .inr ⟨arguments, b, ending, s, w₁, hfill, hrun, hsettles, rfl⟩
          · cases h.symm.trans hcall

end Overload

namespace Callable

variable {f : Callable σ} {receiver : Option ObjectRef} {args : List CellRef} {w : World σ}

end Callable
end HostCall
