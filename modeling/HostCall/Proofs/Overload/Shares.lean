import HostCall.Callable.Marshal
import HostCall.Proofs.Overload.Binding

/-!
# The shares of slots

Every slot of an overload has a share of the arguments that is known before the call: one argument
for a slot that takes one, everything from the last such argument on for a tail, nothing for what
the call supplies.  The shares are what dealing from the front gives, and for every number of
arguments that an overload accepts they use the arguments up.
-/

namespace HostCall

namespace Slot

variable {slots : List Slot} {args : List CellRef} {i n : Nat}

/-! ## Dealing from the front -/

/-- What a slot takes from the front of the arguments. -/
def front : Slot → List CellRef → List CellRef
  | .injected _, _ => []
  | .tail _, args => args
  | .passthrough _, args | .converted _ _, args => args.take 1

/-- What a slot leaves to the slots behind it. -/
def behind : Slot → List CellRef → List CellRef
  | .injected _, args => args
  | .tail _, _ => []
  | .passthrough _, args | .converted _ _, args => args.drop 1

/-- The arguments dealt out from the front. -/
def deal : List Slot → List CellRef → List (List CellRef)
  | [], _ => []
  | slot :: slots, args => slot.front args :: deal slots (slot.behind args)

/-- Whether slots use up so many arguments, each that takes one getting one. -/
def UseUp : List Slot → Nat → Prop
  | [], n => n = 0
  | .injected _ :: slots, n => UseUp slots n
  | .tail _ :: slots, _ => slots = []
  | .passthrough _ :: slots, n | .converted _ _ :: slots, n => 0 < n ∧ UseUp slots (n - 1)

theorem front_append_behind (slot : Slot) (args : List CellRef) :
    slot.front args ++ slot.behind args = args := by
  cases slot with
  | injected k => rfl
  | tail p => exact List.append_nil args
  | passthrough p => exact List.take_append_drop 1 args
  | converted conv spec => exact List.take_append_drop 1 args

theorem useUp_cons_tail {slot : Slot} (h : slot.isTail = true) :
    UseUp (slot :: slots) n ↔ slots = [] := by
  cases slot with
  | tail p => exact Iff.rfl
  | injected k => cases h
  | passthrough p => cases h
  | converted conv spec => cases h

theorem useUp_cons_injected {slot : Slot} (h : slot.consumes = false) :
    UseUp (slot :: slots) n ↔ UseUp slots n := by
  cases slot with
  | injected k => exact Iff.rfl
  | tail p => cases h
  | passthrough p => cases h
  | converted conv spec => cases h

theorem useUp_cons_single {slot : Slot} (hc : slot.consumes = true) (ht : slot.isTail = false) :
    UseUp (slot :: slots) n ↔ 0 < n ∧ UseUp slots (n - 1) := by
  cases slot with
  | passthrough p => exact Iff.rfl
  | converted conv spec => exact Iff.rfl
  | injected k => cases hc
  | tail p => cases ht

theorem useUp_behind {slot : Slot} (h : UseUp (slot :: slots) args.length) :
    UseUp slots (slot.behind args).length := by
  cases slot with
  | injected k => exact h
  | tail p =>
      have hslots : slots = [] := h
      rw [hslots]
      rfl
  | passthrough p => simpa [behind] using h.2
  | converted conv spec => simpa [behind] using h.2

/-- Slots that use up the arguments leave none out, and give none to two. -/
theorem flatten_deal (h : UseUp slots args.length) : (deal slots args).flatten = args := by
  induction slots generalizing args with
  | nil =>
      have hargs : args = [] := List.eq_nil_of_length_eq_zero h
      rw [hargs]
      rfl
  | cons slot slots ih =>
      rw [deal, List.flatten_cons, ih (useUp_behind h), front_append_behind]

theorem any_isTail_cons {slot : Slot} (h : slot.isTail = false) :
    (slot :: slots).getLast?.any isTail = slots.getLast?.any isTail := by
  cases slots <;> simp [h]

/-- Slots with a tail in the last place use up one argument less than they have slots that take
any, and upwards; slots without a tail use up exactly so many. -/
theorem useUp_of_tailLast (h : TailLast slots)
    (hfixed : slots.getLast?.any isTail = false → n = slots.countP consumes)
    (hvariadic : slots.getLast?.any isTail = true → slots.countP consumes ≤ n + 1) :
    UseUp slots n := by
  induction slots generalizing n with
  | nil => exact hfixed rfl
  | cons slot slots ih =>
      obtain ⟨hlast, hrest⟩ := tailLast_cons.mp h
      cases ht : slot.isTail with
      | true => exact (useUp_cons_tail ht).mpr (hlast ht)
      | false =>
          rw [any_isTail_cons ht, List.countP_cons] at hfixed hvariadic
          cases hc : slot.consumes with
          | false =>
              refine (useUp_cons_injected hc).mpr (ih hrest (fun hv => ?_) fun hv => ?_)
              · simpa [hc] using hfixed hv
              · simpa [hc] using hvariadic hv
          | true =>
              have hpos : 0 < n := by
                cases hv : slots.getLast?.any isTail with
                | false =>
                    have hn := hfixed hv
                    simp only [hc, if_true] at hn
                    omega
                | true =>
                    have hn := hvariadic hv
                    have hcount := countP_consumes_pos hv
                    simp only [hc, if_true] at hn
                    omega
              refine (useUp_cons_single hc ht).mpr ⟨hpos, ih hrest (fun hv => ?_) fun hv => ?_⟩
              · have hn := hfixed hv
                simp only [hc, if_true] at hn
                omega
              · have hn := hvariadic hv
                simp only [hc, if_true] at hn
                omega

/-- There is an argument for every slot that takes one. -/
theorem countP_take_lt {slot : Slot} (h : UseUp slots n) (hi : slots[i]? = some slot)
    (hc : slot.consumes = true) (ht : slot.isTail = false) :
    (slots.take i).countP consumes < n := by
  induction slots generalizing i n with
  | nil => simp at hi
  | cons first slots ih =>
      cases i with
      | zero =>
          have hfirst : first = slot := by simpa using hi
          rw [hfirst] at h
          exact ((useUp_cons_single hc ht).mp h).1
      | succ i =>
          have hi : slots[i]? = some slot := by simpa using hi
          rw [List.take_succ_cons, List.countP_cons]
          cases hft : first.isTail with
          | true =>
              rw [(useUp_cons_tail hft).mp h] at hi
              simp at hi
          | false =>
              cases hfc : first.consumes with
              | false => simpa using ih ((useUp_cons_injected hfc).mp h) hi
              | true =>
                  have hlt := ih ((useUp_cons_single hfc hft).mp h).2 hi
                  rw [if_pos rfl]
                  omega

/-- The share of a slot before which `k` slots take arguments. -/
def shareAfter (k : Nat) (args : List CellRef) : Slot → List CellRef
  | .injected _ => []
  | .tail _ => args.drop k
  | .passthrough _ | .converted _ _ => args[k]?.toList

theorem front_eq_shareAfter (slot : Slot) (args : List CellRef) :
    slot.front args = slot.shareAfter 0 args := by
  cases slot <;> simp [front, shareAfter, List.take_one, List.head?_eq_getElem?]

theorem shareAfter_behind (slot other : Slot) (hslot : slot.isTail = false) (k : Nat) (args : List CellRef) :
    other.shareAfter k (slot.behind args) =
      other.shareAfter (if slot.consumes then k + 1 else k) args := by
  cases slot <;> cases other <;> simp_all [shareAfter, behind, consumes, isTail]

theorem getElem?_deal (h : TailLast slots) (args : List CellRef) (i : Nat) :
    (deal slots args)[i]? =
      slots[i]?.map (shareAfter ((slots.take i).countP consumes) args) := by
  induction slots generalizing args i with
  | nil => simp [deal]
  | cons slot slots ih =>
      obtain ⟨hlast, hrest⟩ := tailLast_cons.mp h
      cases i with
      | zero => simp [deal, front_eq_shareAfter]
      | succ i =>
          rw [deal, List.getElem?_cons_succ, ih hrest, List.getElem?_cons_succ,
            List.take_succ_cons, List.countP_cons]
          cases hslot : slot.isTail with
          | true => simp [hlast hslot]
          | false =>
              congr 1
              funext other
              rw [shareAfter_behind slot other hslot]
              cases slot.consumes <;> simp

end Slot

/-! ## The shares of an overload -/

open Slot

namespace Overload

variable {σ : Type} {o : Overload σ} {args : List CellRef}

/-- The arguments that the slot at position `i` is filled from.  A slot that takes one argument
gets the one whose number is that of the slots before it that take any. -/
def share (o : Overload σ) (args : List CellRef) (i : Nat) : List CellRef :=
  match o.slots[i]? with
  | none | some (.injected _) => []
  | some (.tail _) => args.drop (o.arity - 1)
  | some (.passthrough _) | some (.converted _ _) =>
      args[(o.slots.take i).countP Slot.consumes]?.toList

/-- The shares of all slots, in order. -/
def shares (o : Overload σ) (args : List CellRef) : List (List CellRef) :=
  (List.range o.slots.length).map (o.share args)

/-- In front of a tail there is one slot fewer that takes arguments than there are in all. -/
theorem countP_take_of_tail (h : TailLast o.slots) {i : Nat} {p : Passing}
    (hi : o.slots[i]? = some (.tail p)) :
    (o.slots.take i).countP Slot.consumes = o.arity - 1 := by
  have hlen : i + 1 = o.slots.length := h i _ hi rfl
  have hsplit : o.slots = o.slots.take i ++ [.tail p] := by
    obtain ⟨hlt, hget⟩ := List.getElem?_eq_some_iff.mp hi
    rw [← hget, List.take_append_getElem hlt, hlen, List.take_length]
  have hcount : o.arity = (o.slots.take i).countP Slot.consumes + 1 := by
    calc
      o.arity = o.slots.countP Slot.consumes := o.arity_eq_countP
      _ = (o.slots.take i ++ [Slot.tail p]).countP Slot.consumes := congrArg _ hsplit
      _ = (o.slots.take i).countP Slot.consumes + 1 := by
        rw [List.countP_append]
        rfl
  omega

theorem shares_eq_deal (h : TailLast o.slots) (args : List CellRef) :
    o.shares args = deal o.slots args := by
  apply List.ext_getElem?
  intro i
  rw [getElem?_deal h, shares, List.getElem?_map]
  cases hi : o.slots[i]? with
  | none =>
      have hlen : o.slots.length ≤ i := List.getElem?_eq_none_iff.mp hi
      rw [List.getElem?_eq_none_iff.mpr (by simpa using hlen)]
      rfl
  | some slot =>
      obtain ⟨hlt, -⟩ := List.getElem?_eq_some_iff.mp hi
      rw [List.getElem?_range hlt, Option.map_some, Option.map_some, share, hi]
      cases slot with
      | injected k => rfl
      | passthrough p => rfl
      | converted conv spec => rfl
      | tail p => rw [shareAfter, countP_take_of_tail h hi]

/-- An overload uses up every number of arguments that it accepts. -/
theorem Bound.useUp (h : o.Bound) {n : Nat} (haccepts : o.accepts n = true) :
    UseUp o.slots n := by
  apply useUp_of_tailLast h.tailLast
  · intro hv
    rw [← arity_eq_countP]
    exact (accepts_iff_of_fixed hv).mp haccepts
  · intro hv
    have hv : o.isVariadic = true := hv
    have hmin : o.minArgs ≤ n := (accepts_iff_of_variadic hv).mp haccepts
    rw [minArgs, if_pos hv] at hmin
    rw [← arity_eq_countP]
    omega

/-- The shares put together are the arguments. -/
theorem Bound.flatten_shares (h : o.Bound) (haccepts : o.accepts args.length = true) :
    (o.shares args).flatten = args := by
  rw [o.shares_eq_deal h.tailLast]
  exact flatten_deal (h.useUp haccepts)

theorem getElem?_shares {slot : Slot} {i : Nat} (hi : o.slots[i]? = some slot) :
    (o.shares args)[i]? = some (o.share args i) := by
  obtain ⟨hlt, -⟩ := List.getElem?_eq_some_iff.mp hi
  rw [shares, List.getElem?_map, List.getElem?_range hlt]
  rfl

/-- The share of a slot that takes one argument is the argument at its place. -/
theorem getElem?_shares_single (huse : UseUp o.slots args.length) {slot : Slot} {i : Nat}
    (hi : o.slots[i]? = some slot) (hc : slot.consumes = true) (ht : slot.isTail = false) :
    ∃ c, args[(o.slots.take i).countP Slot.consumes]? = some c ∧
      (o.shares args)[i]? = some [c] := by
  have hlt := countP_take_lt huse hi hc ht
  refine ⟨args[(o.slots.take i).countP Slot.consumes], List.getElem?_eq_getElem hlt, ?_⟩
  rw [getElem?_shares hi, share, hi]
  cases slot with
  | injected k => cases hc
  | tail p => cases ht
  | passthrough p => simp [List.getElem?_eq_getElem hlt]
  | converted conv spec => simp [List.getElem?_eq_getElem hlt]

end Overload

end HostCall
