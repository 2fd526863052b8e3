import HostCall.Store.Equality
import HostCall.Proofs.Store.Reach
import Mathlib.Data.List.Forall2

/-!
# The laws of equality

Numbers compare as numbers, so not-a-number differs from itself; cells compare by identity first.
The comparison of cells is an equivalence all the same, at every depth that handles are followed to.
In a store without self-containing arrays the depth does not matter, and the comparison of two cells
is that of their payloads, except where one cell holds not-a-number and is compared with itself.
-/

namespace HostCall

namespace Floating

variable {f : Format} {x y : Floating f}

def IsZero (x : Floating f) : Prop := ∃ s e h, x = .finite s 0 e h

theorem isZero_finite_iff {s : Bool} {m : Nat} {e : Int} {h : f.Canonical m e} :
    (finite s m e h).IsZero ↔ m = 0 := by
  constructor
  · rintro ⟨_, _, _, heq⟩
    cases heq
    rfl
  · rintro rfl
    exact ⟨s, e, h, rfl⟩

/-- Numbers compare as equal when they are one number other than not-a-number, or two zeros. -/
theorem numEq_iff :
    x.numEq y = true ↔ (x = y ∧ x ≠ .nan) ∨ (x.IsZero ∧ y.IsZero) := by
  cases x with
  | nan => cases y <;> simp [numEq, IsZero]
  | infinite s => cases y <;> simp [numEq, IsZero]
  | finite s m e h =>
      cases y with
      | finite t n k h' => simp [numEq, isZero_finite_iff, or_comm, and_assoc]
      | _ => simp [numEq, IsZero]

end Floating

namespace Scalar

variable {x y z : Scalar}

def IsZero (x : Scalar) : Prop := ∃ a : Binary64, x = .float a ∧ a.IsZero

/-- Scalars compare as equal when they are one scalar other than not-a-number, or two zeros. -/
theorem same_iff :
    x.same y = true ↔ (x = y ∧ x ≠ .float .nan) ∨ (x.IsZero ∧ y.IsZero) := by
  cases x with
  | float a =>
      cases y with
      | float b => simp [same, Floating.numEq_iff, IsZero]
      | _ => simp [same, IsZero]
  | _ => simp [same, IsZero]

theorem same_symm (h : x.same y = true) : y.same x = true := by
  rw [same_iff] at h ⊢
  rcases h with ⟨rfl, hx⟩ | ⟨hx, hy⟩
  · exact .inl ⟨rfl, hx⟩
  · exact .inr ⟨hy, hx⟩

theorem same_trans (h : x.same y = true) (h' : y.same z = true) : x.same z = true := by
  rw [same_iff] at h h' ⊢
  rcases h with ⟨rfl, -⟩ | ⟨hx, hy⟩
  · exact h'
  · rcases h' with ⟨rfl, -⟩ | ⟨-, hz⟩
    · exact .inr ⟨hx, hy⟩
    · exact .inr ⟨hx, hz⟩

theorem same_self : x.same x = true ↔ x ≠ .float .nan := by
  rw [same_iff]
  constructor
  · rintro (⟨-, hx⟩ | ⟨⟨a, rfl, s, e, h, rfl⟩, -⟩)
    · exact hx
    · simp
  · exact fun hx => .inl ⟨rfl, hx⟩

end Scalar

namespace Store

variable {s : Store} {a b c : CellRef} {p q r : Payload} {n m : Nat}
  {eq eq' : CellRef → CellRef → Bool}

/-! ## Payloads, given a comparison of cells -/

theorem pairwiseEqual_iff {as bs : List CellRef} :
    pairwiseEqual eq as bs = true ↔ List.Forall₂ (fun a b => eq a b = true) as bs := by
  induction as generalizing bs with
  | nil => cases bs <;> simp [pairwiseEqual]
  | cons a as ih => cases bs <;> simp [pairwiseEqual, ih]

theorem pairwiseEqual_trans {as bs cs : List CellRef}
    (heq : ∀ a b c, eq a b = true → eq b c = true → eq a c = true)
    (h : pairwiseEqual eq as bs = true) (h' : pairwiseEqual eq bs cs = true) :
    pairwiseEqual eq as cs = true := by
  rw [pairwiseEqual_iff] at h h' ⊢
  induction h generalizing cs with
  | nil => exact h'
  | cons hab _ ih =>
      cases h' with
      | cons hbc htail => exact .cons (heq _ _ _ hab hbc) (ih htail)

theorem pairwiseEqual_congr {as bs : List CellRef} (h : ∀ a ∈ as, ∀ b, eq a b = eq' a b) :
    pairwiseEqual eq as bs = pairwiseEqual eq' as bs := by
  induction as generalizing bs with
  | nil => cases bs <;> rfl
  | cons a as ih =>
      cases bs with
      | nil => rfl
      | cons b bs =>
          have htail := @ih bs fun c hc => h c (List.mem_cons_of_mem a hc)
          rw [pairwiseEqual, pairwiseEqual, h a List.mem_cons_self, htail]

theorem payloadEqualBy_scalar_iff {x : Scalar} :
    payloadEqualBy eq (.scalar x) q = true ↔ ∃ y, q = .scalar y ∧ x.same y = true := by
  cases q <;> simp [payloadEqualBy]

theorem payloadEqualBy_array_iff {as : List CellRef} :
    payloadEqualBy eq (.array as) q = true ↔
      ∃ bs, q = .array bs ∧ pairwiseEqual eq as bs = true := by
  cases q <;> simp [payloadEqualBy]

theorem payloadEqualBy_symm (heq : ∀ a b, eq a b = true → eq b a = true)
    (h : payloadEqualBy eq p q = true) : payloadEqualBy eq q p = true := by
  cases p with
  | scalar x =>
      obtain ⟨y, rfl, hxy⟩ := payloadEqualBy_scalar_iff.mp h
      exact Scalar.same_symm hxy
  | array as =>
      obtain ⟨bs, rfl, hpairs⟩ := payloadEqualBy_array_iff.mp h
      have hback := (pairwiseEqual_iff.mp hpairs).imp fun a b => heq a b
      exact pairwiseEqual_iff.mpr hback.flip

theorem payloadEqualBy_trans (heq : ∀ a b c, eq a b = true → eq b c = true → eq a c = true)
    (h : payloadEqualBy eq p q = true) (h' : payloadEqualBy eq q r = true) :
    payloadEqualBy eq p r = true := by
  cases p with
  | scalar x =>
      obtain ⟨y, rfl, hxy⟩ := payloadEqualBy_scalar_iff.mp h
      obtain ⟨z, rfl, hyz⟩ := payloadEqualBy_scalar_iff.mp h'
      exact Scalar.same_trans hxy hyz
  | array as =>
      obtain ⟨bs, rfl, hab⟩ := payloadEqualBy_array_iff.mp h
      obtain ⟨cs, rfl, hbc⟩ := payloadEqualBy_array_iff.mp h'
      exact pairwiseEqual_trans heq hab hbc

theorem payloadEqualBy_self (heq : ∀ a, eq a a = true) :
    payloadEqualBy eq p p = true ↔ p ≠ .scalar (.float .nan) := by
  cases p with
  | scalar x => simpa [payloadEqualBy] using Scalar.same_self
  | array as => simpa [payloadEqualBy, pairwiseEqual_iff, List.forall₂_same] using fun a _ => heq a

theorem payloadEqualBy_congr (h : ∀ a ∈ p.refs, ∀ b, eq a b = eq' a b) :
    payloadEqualBy eq p q = payloadEqualBy eq' p q := by
  cases p with
  | scalar x => cases q <;> rfl
  | array as =>
      cases q with
      | scalar y => rfl
      | array bs => exact pairwiseEqual_congr h

/-! ## Cells -/

theorem equalWithin_succ (s : Store) (n : Nat) (a b : CellRef) :
    s.equalWithin (n + 1) a b =
      (decide (a = b) || payloadEqualBy (s.equalWithin n) (s.payload a) (s.payload b)) := rfl

theorem equalWithin_succ_iff :
    s.equalWithin (n + 1) a b = true ↔
      a = b ∨ payloadEqualBy (s.equalWithin n) (s.payload a) (s.payload b) = true := by
  simp [equalWithin_succ]

theorem equalWithin_self (s : Store) (n : Nat) (a : CellRef) : s.equalWithin n a a = true := by
  cases n <;> simp [equalWithin]

theorem equalWithin_symm (h : s.equalWithin n a b = true) : s.equalWithin n b a = true := by
  induction n generalizing a b with
  | zero => simpa [equalWithin, eq_comm] using h
  | succ n ih =>
      rw [equalWithin_succ_iff] at h ⊢
      rcases h with rfl | h
      · exact .inl rfl
      · exact .inr (payloadEqualBy_symm (fun _ _ => ih) h)

theorem equalWithin_trans (h : s.equalWithin n a b = true) (h' : s.equalWithin n b c = true) :
    s.equalWithin n a c = true := by
  induction n generalizing a b c with
  | zero =>
      have hab : a = b := by simpa [equalWithin] using h
      rwa [hab]
  | succ n ih =>
      rcases equalWithin_succ_iff.mp h with rfl | hab
      · exact h'
      · rcases equalWithin_succ_iff.mp h' with rfl | hbc
        · exact h
        · apply equalWithin_succ_iff.mpr
          exact .inr (payloadEqualBy_trans (fun _ _ _ => ih) hab hbc)

/-- Comparing deeper than there are cells below changes nothing. -/
theorem equalWithin_eq_of_card_lt (hclosed : s.Closed) (hacyclic : s.Acyclic)
    (hn : (s.below a).card < n) (hnm : n ≤ m) : s.equalWithin m a b = s.equalWithin n a b := by
  induction n generalizing a b m with
  | zero => omega
  | succ n ih =>
      obtain ⟨m, rfl⟩ : ∃ k, m = k + 1 := ⟨m - 1, by omega⟩
      rw [equalWithin_succ, equalWithin_succ]
      congr 1
      apply payloadEqualBy_congr
      intro d hd e
      have hcard := card_below_lt_of_holds (hacyclic d) (hclosed a d hd) hd
      apply ih
      · omega
      · omega

/-- Two cells are equal when they are one or their payloads are equal. -/
theorem equal_iff (hclosed : s.Closed) (hacyclic : s.Acyclic) (ha : s.holdsCell a = true) :
    s.equal a b = true ↔ a = b ∨ s.payloadEqual (s.payload a) (s.payload b) = true := by
  have hcard := card_below_lt (hacyclic a) ha
  have hdeeper : s.equal a b = s.equalWithin (s.cells.size + 1) a b :=
    (equalWithin_eq_of_card_lt hclosed hacyclic hcard (Nat.le_succ _)).symm
  rw [hdeeper, equalWithin_succ_iff]
  rfl

/-- Equality of cells is an equivalence, and that of payloads only lacks that not-a-number equals
itself.  In a store without self-containing arrays cells compare as their payloads do, but for one
case: a cell that holds not-a-number itself equals itself. -/
theorem equality_laws (hclosed : s.Closed) (hacyclic : s.Acyclic) :
    (∀ a, s.equal a a = true) ∧
    (∀ a b, s.equal a b = true → s.equal b a = true) ∧
    (∀ a b c, s.equal a b = true → s.equal b c = true → s.equal a c = true) ∧
    (∀ p q, s.payloadEqual p q = true → s.payloadEqual q p = true) ∧
    (∀ p q r, s.payloadEqual p q = true → s.payloadEqual q r = true →
      s.payloadEqual p r = true) ∧
    (∀ p, s.payloadEqual p p = false ↔ p = .scalar (.float .nan)) ∧
    (∀ a b, s.holdsCell a = true → s.holdsCell b = true →
      (s.equal a b ≠ s.payloadEqual (s.payload a) (s.payload b) ↔
        a = b ∧ s.payload a = .scalar (.float .nan))) := by
  have hself : ∀ p, s.payloadEqual p p = false ↔ p = .scalar (.float .nan) := by
    intro p
    have hself : s.payloadEqual p p = true ↔ p ≠ .scalar (.float .nan) :=
      payloadEqualBy_self (s.equalWithin_self _)
    rw [← Bool.not_eq_true, hself, not_not]
  refine ⟨s.equalWithin_self _, fun a b => equalWithin_symm, fun a b c => equalWithin_trans,
    fun p q => payloadEqualBy_symm fun a b => equalWithin_symm,
    fun p q r => payloadEqualBy_trans fun a b c => equalWithin_trans, hself, fun a b ha _ => ?_⟩
  have hequal := equal_iff (b := b) hclosed hacyclic ha
  by_cases hab : a = b
  · subst hab
    have htrue : s.equal a a = true := s.equalWithin_self _ a
    rw [htrue, ← hself]
    simp
  · have heq : s.equal a b = s.payloadEqual (s.payload a) (s.payload b) := by
      rw [Bool.eq_iff_iff, hequal]
      simp [hab]
    simp [heq, hab]

/-- Two cells with not-a-number, two lists of the one and a list of both. -/
def nanStore : Store where
  cells := #[⟨.scalar (.float .nan), false, 0⟩, ⟨.scalar (.float .nan), true, 0⟩,
    ⟨.array [⟨0⟩, ⟨0⟩], false, 0⟩, ⟨.array [⟨0⟩, ⟨0⟩], true, 0⟩, ⟨.array [⟨0⟩, ⟨1⟩], false, 0⟩]
  objects := #[]

/-- Lists that share the cell are equal, the payload of that cell differs from itself, and the list
with the other cell differs from both. -/
theorem equality_laws_nanStore :
    nanStore.Closed ∧ nanStore.Acyclic ∧
    nanStore.equal ⟨2⟩ ⟨3⟩ = true ∧ nanStore.equal ⟨3⟩ ⟨2⟩ = true ∧
    nanStore.equal ⟨0⟩ ⟨0⟩ ≠ nanStore.payloadEqual (nanStore.payload ⟨0⟩) (nanStore.payload ⟨0⟩) ∧
    nanStore.equal ⟨2⟩ ⟨4⟩ = false ∧ nanStore.equal ⟨3⟩ ⟨4⟩ = false := by
  obtain ⟨hclosed, hacyclic⟩ := closed_and_acyclic_of_all (s := nanStore) (by decide +kernel)
  obtain ⟨-, hsymm, htrans, -, -, -, hshortcut⟩ := equality_laws hclosed hacyclic
  have hshared : nanStore.equal ⟨2⟩ ⟨3⟩ = true := by decide +kernel
  have hother : nanStore.equal ⟨2⟩ ⟨4⟩ = false := by decide +kernel
  refine ⟨hclosed, hacyclic, hshared, hsymm _ _ hshared, ?_, hother, ?_⟩
  · exact (hshortcut ⟨0⟩ ⟨0⟩ (by decide +kernel) (by decide +kernel)).mpr ⟨rfl, rfl⟩
  · rw [← Bool.not_eq_true]
    intro hthree
    rw [htrans _ _ _ hshared hthree] at hother
    cases hother

end Store

end HostCall
