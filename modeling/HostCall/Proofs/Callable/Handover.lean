import HostCall.Proofs.Callable.Entry
import HostCall.Proofs.Callable.Outcome

/-!
# The cells that a call hands over

Of all slots only those for raw cells and for tails hand cells of the caller to native code.  A call
hands over one cell after the other, each shared or copied as its slot says; what the other slots do
in between changes no binding and no cell.
-/

namespace HostCall

variable {σ : Type}

/-- The cells of its share that a slot hands over, with how it passes them. -/
def Slot.handed : Slot → List CellRef → List (Passing × CellRef)
  | .passthrough p, share | .tail p, share => share.map (p, ·)
  | .converted .., _ | .injected _, _ => []

/-- The cells of the caller that a call hands over, in order, with how it passes each: one for every
argument position of a raw cell or of a tail. -/
def Overload.handed (o : Overload σ) (args : List CellRef) : List (Passing × CellRef) :=
  (o.slots.zip (o.shares args)).flatMap fun x => x.1.handed x.2

/-- The handles to cells in an argument. -/
def Argument.cells : Argument → List CellRef
  | .cell c => [c]
  | .tail cs => cs
  | .host b => b.refs
  | .null | .environment | .location _ => []

/-- The cells that native code gets from a slot that hands cells over. -/
def Slot.given : Slot → Argument → List CellRef
  | .passthrough _, a | .tail _, a => a.cells
  | .converted .., _ | .injected _, _ => []

/-- Handing over cells one after the other, each in its own way. -/
inductive Passing.HandsEach : List (Passing × CellRef) → Bindings → List CellRef → Bindings → Prop
  | nil (b : Bindings) : HandsEach [] b [] b
  | cons {p : Passing} {c d : CellRef} {hs : List (Passing × CellRef)} {ds : List CellRef}
      {b b' b'' : Bindings} :
      p.Hands c b d b' → HandsEach hs b' ds b'' → HandsEach ((p, c) :: hs) b (d :: ds) b''

section

variable {p : Passing} {hs hs' : List (Passing × CellRef)} {cs ds ds' share : List CellRef}
  {b b' b'' : Bindings} {l : Location} {slot : Slot} {slots : List Slot}
  {shares : List (List CellRef)} {a : Argument} {as : List Argument} {i : Nat}
  {e : ConversionError}

open Passing (HandsEach)

namespace Passing.HandsEach

theorem keeps (h : HandsEach hs b ds b') : b.store.Keeps b'.store := by
  induction h with
  | nil b => rfl
  | cons hc _ ih => exact hc.keeps.trans ih

theorem append (h : HandsEach hs b ds b') (h' : HandsEach hs' b' ds' b'') :
    HandsEach (hs ++ hs') b (ds ++ ds') b'' := by
  induction h with
  | nil b => exact h'
  | cons hc _ ih => exact .cons hc (ih h')

end Passing.HandsEach

theorem Passing.HandsAll.length_eq (h : p.HandsAll cs b ds b') : ds.length = cs.length := by
  induction h with
  | nil b => rfl
  | cons _ _ ih => rw [List.length_cons, List.length_cons, ih]

theorem Passing.HandsAll.handsEach (h : p.HandsAll cs b ds b') :
    HandsEach (cs.map (p, ·)) b ds b' := by
  induction h with
  | nil b => exact .nil b
  | cons hc _ ih => exact .cons hc ih

theorem Slot.Fills.handsEach (h : slot.Fills l share b a b') :
    HandsEach (slot.handed share) b (slot.given a) b' := by
  cases h with
  | passthrough hc => exact .cons hc (.nil _)
  | tail hcs => exact hcs.handsEach
  | converted _ => exact .nil b
  | environment b => exact .nil b
  | location b => exact .nil b

theorem Slot.FillAll.handsEach (h : FillAll l slots shares b as b') :
    HandsEach ((slots.zip shares).flatMap fun x => x.1.handed x.2) b
      ((slots.zip as).flatMap fun x => x.1.given x.2) b' := by
  induction h with
  | nil b => exact .nil b
  | cons hfills _ ih => exact hfills.handsEach.append ih

/-- The slot at a position was filled from the share there, with every cell as it was before. -/
theorem Slot.FillAll.getElem? (h : FillAll l slots shares b as b') (hi : slots[i]? = some slot) :
    ∃ share a b₁ b₂, shares[i]? = some share ∧ as[i]? = some a ∧ b.store.Keeps b₁.store ∧
      slot.Fills l share b₁ a b₂ := by
  induction h generalizing i with
  | nil b => simp at hi
  | @cons first _ _ _ _ _ _ _ _ hfills _ ih =>
      cases i with
      | zero =>
          have hslot : first = slot := by simpa using hi
          subst hslot
          exact ⟨_, _, _, _, rfl, rfl, .refl _, hfills⟩
      | succ i =>
          obtain ⟨share, a, b₁, b₂, hshare, ha, hkeeps, hi⟩ := ih (by simpa using hi)
          exact ⟨share, a, b₁, b₂, by simpa using hshare, by simpa using ha,
            hfills.keeps.trans hkeeps, hi⟩

theorem Slot.snd_mem_of_mem_handed {x : Passing × CellRef} (h : x ∈ slot.handed share) :
    x.2 ∈ share := by
  have hmap : ∀ p : Passing, x ∈ share.map (p, ·) → x.2 ∈ share := by
    intro p hx
    obtain ⟨c, hc, rfl⟩ := List.mem_map.mp hx
    exact hc
  cases slot with
  | passthrough p => exact hmap p h
  | tail p => exact hmap p h
  | converted conv spec => cases h
  | injected k => cases h

theorem Overload.snd_mem_of_mem_handed {o : Overload σ} {args : List CellRef}
    {x : Passing × CellRef} (h : x ∈ o.handed args) : x.2 ∈ (o.shares args).flatten := by
  obtain ⟨⟨slot, share⟩, hmem, hx⟩ := List.mem_flatMap.mp h
  exact List.mem_flatten.mpr
    ⟨share, (List.of_mem_zip hmem).2, Slot.snd_mem_of_mem_handed hx⟩

/-- Also a call that is refused has handed over arguments up to then. -/
theorem Slot.RefuseAt.handsEach (h : RefuseAt l i slots shares b e b') :
    ∃ hs ds, HandsEach hs b ds b' ∧ ∀ x ∈ hs, x.2 ∈ shares.flatten := by
  induction h with
  | here _ => exact ⟨[], [], .nil _, by simp⟩
  | @later _ slot _ share shares _ _ _ _ _ hfills _ ih =>
      obtain ⟨hs, ds, hrest, hmem⟩ := ih
      refine ⟨_, _, hfills.handsEach.append hrest, fun x hx => ?_⟩
      rcases List.mem_append.mp hx with hx | hx
      · exact List.mem_append_left _ (Slot.snd_mem_of_mem_handed hx)
      · exact List.mem_append_right _ (hmem x hx)

end

end HostCall
