import HostCall.Fingerprint
import Mathlib.Data.UInt

/-!
# What a compound fingerprint tells of its components

Multiplication by an odd constant loses nothing, and neither do an addition and an exclusive or.
So each step of the mixing can be undone on either side, and a difference in one component, or in
the word that the mixing starts from, stays to the end.

Two neighbours change places without a trace when they weigh the same at their position.  The top
bit of a component has no weight: an odd multiple of it is the same bit again.
-/

namespace HostCall.Fingerprint

variable {a b : UInt64} {i : Nat} {p q : Fingerprint} {parts pre post : List Fingerprint}

/-! ## One step -/

theorem isUnit_separator : IsUnit separator :=
  isUnit_iff_exists_inv.mpr ⟨0xd3f20f0a40208825, by decide +kernel⟩

theorem mixOne_left_inj : mixOne a i p = mixOne b i p ↔ a = b := by
  unfold mixOne
  rw [add_left_inj, isUnit_separator.mul_left_inj]

theorem mixOne_right_inj : mixOne a i p = mixOne a i q ↔ p = q := by
  unfold mixOne
  rw [add_right_inj, UInt64.xor_right_inj, Fingerprint.mk.injEq]

/-! ## All steps -/

theorem mixFrom_append (i : Nat) (a : UInt64) (pre post : List Fingerprint) :
    mixFrom i a (pre ++ post) = mixFrom (i + pre.length) (mixFrom i a pre) post := by
  induction pre generalizing i a with
  | nil => rfl
  | cons p pre ih =>
      rw [List.cons_append, mixFrom, ih, mixFrom, List.length_cons, Nat.add_right_comm,
        Nat.add_assoc]

theorem mixFrom_inj : mixFrom i a parts = mixFrom i b parts ↔ a = b := by
  induction parts generalizing i a b with
  | nil => rfl
  | cons p parts ih => exact ih.trans mixOne_left_inj

theorem mixFrom_append_inj {xs ys : List Fingerprint} :
    mixFrom 0 a (pre ++ xs) = mixFrom 0 a (pre ++ ys) ↔
      mixFrom pre.length (mixFrom 0 a pre) xs = mixFrom pre.length (mixFrom 0 a pre) ys := by
  rw [mixFrom_append, mixFrom_append, Nat.zero_add]

theorem mixFrom_component_inj :
    mixFrom 0 a (pre ++ p :: post) = mixFrom 0 a (pre ++ q :: post) ↔ p = q :=
  mixFrom_append_inj.trans (mixFrom_inj.trans mixOne_right_inj)

theorem ofGeneric_eq_iff {base base' : Fingerprint} {xs ys : List Fingerprint} :
    ofGeneric base xs = ofGeneric base' ys ↔
      mixFrom 0 base.value xs = mixFrom 0 base'.value ys := by
  rw [ofGeneric, ofGeneric, Fingerprint.mk.injEq]

theorem ofOverload_eq_iff {owner member : String} {xs ys : List Fingerprint} :
    ofOverload owner member xs = ofOverload owner member ys ↔
      mixFrom 0 (overloadSeed owner member) xs = mixFrom 0 (overloadSeed owner member) ys := by
  rw [ofOverload, ofOverload, Fingerprint.mk.injEq]

/-- Two compound fingerprints that differ in one component, at whatever position and in however long
a list, or in the base alone, are different. -/
theorem eq_iff_component_eq (pre post parts : List Fingerprint) (p q : Fingerprint) :
    (∀ base, ofGeneric base (pre ++ p :: post) = ofGeneric base (pre ++ q :: post) ↔ p = q) ∧
    (∀ base base', ofGeneric base parts = ofGeneric base' parts ↔ base = base') ∧
    (∀ owner member,
      ofOverload owner member (pre ++ p :: post) = ofOverload owner member (pre ++ q :: post) ↔
        p = q) := by
  refine ⟨fun base => ?_, fun base base' => ?_, fun owner member => ?_⟩
  · exact ofGeneric_eq_iff.trans mixFrom_component_inj
  · rw [ofGeneric_eq_iff, mixFrom_inj, Fingerprint.mk.injEq]
  · exact ofOverload_eq_iff.trans mixFrom_component_inj

/-! ## The order of components -/

/-- What a component comes to once the next one is mixed in, less what it would add in the place of
that one. -/
def weight (i : Nat) (p : Fingerprint) : UInt64 :=
  (positionMarker i ^^^ p.value) * separator - (positionMarker (i + 1) ^^^ p.value)

theorem mixOne_mixOne_comm_iff :
    mixOne (mixOne a i p) (i + 1) q = mixOne (mixOne a i q) (i + 1) p ↔ weight i p = weight i q := by
  unfold mixOne weight
  rw [add_mul, add_mul, add_assoc, add_assoc, add_right_inj, sub_eq_sub_iff_add_eq_add]

theorem mixFrom_exchange_iff :
    mixFrom 0 a (pre ++ p :: q :: post) = mixFrom 0 a (pre ++ q :: p :: post) ↔
      weight pre.length p = weight pre.length q := by
  rw [mixFrom_append_inj, mixFrom, mixFrom, mixFrom, mixFrom, mixFrom_inj, mixOne_mixOne_comm_iff]

def topBit : UInt64 := 0x8000000000000000

def flipTop (p : Fingerprint) : Fingerprint := ⟨p.value ^^^ topBit⟩

theorem xor_topBit (x : UInt64) : x ^^^ topBit = x + topBit := by
  have hdiv : (x.toNat ^^^ 2 ^ 63) / 2 ^ 63 = x.toNat / 2 ^ 63 ^^^ 1 := Nat.xor_div_two_pow
  have hmod : (x.toNat ^^^ 2 ^ 63) % 2 ^ 63 = x.toNat % 2 ^ 63 := by
    rw [Nat.xor_mod_two_pow, Nat.mod_self, Nat.xor_zero]
  have hlt : x.toNat < 2 ^ 64 := x.toNat_lt
  have htop : topBit.toNat = 2 ^ 63 := by decide
  apply UInt64.toNat_inj.mp
  rw [UInt64.toNat_xor, UInt64.toNat_add, htop]
  rcases Nat.lt_or_ge x.toNat (2 ^ 63) with h | h
  · rw [Nat.div_eq_of_lt h, Nat.zero_xor] at hdiv
    omega
  · have hone : x.toNat / 2 ^ 63 = 1 := by omega
    rw [hone, Nat.xor_self] at hdiv
    omega

theorem flipTop_ne (p : Fingerprint) : p.flipTop ≠ p := by
  intro h
  have hvalue : p.value ^^^ topBit = p.value ^^^ 0 :=
    (congrArg value h).trans UInt64.xor_zero.symm
  cases (UInt64.xor_right_inj _).mp hvalue

theorem weight_flipTop (i : Nat) (p : Fingerprint) : weight i p.flipTop = weight i p := by
  have hodd : topBit * separator = topBit := by decide +kernel
  unfold weight flipTop
  rw [← UInt64.xor_assoc, ← UInt64.xor_assoc, xor_topBit, xor_topBit, add_mul, hodd,
    add_sub_add_right_eq_sub]

/-- Exchanging two neighbours changes a compound fingerprint just when they differ in weight at
their position.  Two that differ in their top bit alone never do. -/
theorem exchange_ne_iff_weight_ne (pre post : List Fingerprint) (p q : Fingerprint) :
    (∀ base, ofGeneric base (pre ++ p :: q :: post) ≠ ofGeneric base (pre ++ q :: p :: post) ↔
      weight pre.length p ≠ weight pre.length q) ∧
    (∀ owner member,
      ofOverload owner member (pre ++ p :: q :: post) ≠
          ofOverload owner member (pre ++ q :: p :: post) ↔
        weight pre.length p ≠ weight pre.length q) ∧
    p.flipTop ≠ p ∧ weight pre.length p.flipTop = weight pre.length p := by
  refine ⟨fun base => ?_, fun owner member => ?_, p.flipTop_ne, weight_flipTop _ p⟩
  · exact not_congr (ofGeneric_eq_iff.trans mixFrom_exchange_iff)
  · exact not_congr (ofOverload_eq_iff.trans mixFrom_exchange_iff)

/-- Two names of types whose fingerprints differ in the top bit: whichever comes first, a generic
type applied to both is the same, and so is an overload that takes both. -/
theorem not_forall_exchange_ne :
    ¬(∀ base pre post p q, p ≠ q →
      ofGeneric base (pre ++ p :: q :: post) ≠ ofGeneric base (pre ++ q :: p :: post)) ∧
    ¬(∀ owner member pre post p q, p ≠ q →
      ofOverload owner member (pre ++ p :: q :: post) ≠
        ofOverload owner member (pre ++ q :: p :: post)) := by
  have hflip : ofName "Tif4VGLS" = (ofName "Image58u").flipTop := by decide +kernel
  have hne : ofName "Tif4VGLS" ≠ ofName "Image58u" := by
    rw [hflip]
    exact flipTop_ne _
  have hsame : weight ([] : List Fingerprint).length (ofName "Tif4VGLS") =
      weight ([] : List Fingerprint).length (ofName "Image58u") := by
    rw [hflip, weight_flipTop]
  refine ⟨fun hall => ?_, fun hall => ?_⟩
  · apply hall (ofName "Map") [] [] _ _ hne
    exact ofGeneric_eq_iff.mpr (mixFrom_exchange_iff.mpr hsame)
  · apply hall "Canvas" "draw" [] [] _ _ hne
    exact ofOverload_eq_iff.mpr (mixFrom_exchange_iff.mpr hsame)

end HostCall.Fingerprint
