import HostCall.Proofs.Store.Reads

/-!
# Positions below a cell

A position is a list of indices, one for every array on the way down.  Two cells that read as one
value have the same positions, each with the same scalar or with arrays of one length.  Where no
array contains itself and no two of its elements share a cell, a position is told by the cell found
there.
-/

namespace HostCall

/-- The same scalar, or two arrays of one length. -/
inductive Payload.Matches : Payload → Payload → Prop
  | scalar (x : Scalar) : Matches (.scalar x) (.scalar x)
  | array {as bs : List CellRef} : as.length = bs.length → Matches (.array as) (.array bs)

namespace Store

variable {s s' : Store} {c d e : CellRef} {v : Value} {path path' : List Nat} {i : Nat}

/-- The cell at a position below a cell. -/
def locate (s : Store) : CellRef → List Nat → Option CellRef
  | c, [] => some c
  | c, i :: path => (s.payload c).refs[i]?.bind fun d => s.locate d path

@[simp] theorem locate_nil (s : Store) (c : CellRef) : s.locate c [] = some c := rfl

theorem locate_cons (s : Store) (c : CellRef) (i : Nat) (path : List Nat) :
    s.locate c (i :: path) = (s.payload c).refs[i]?.bind fun d => s.locate d path := rfl

theorem locate_cons_eq_some_iff :
    s.locate c (i :: path) = some e ↔
      ∃ d, (s.payload c).refs[i]? = some d ∧ s.locate d path = some e :=
  Option.bind_eq_some_iff

theorem reaches_of_locate (h : s.locate c path = some e) : s.Reaches c e := by
  induction path generalizing c with
  | nil =>
      obtain rfl : c = e := Option.some.inj h
      exact .refl s c
  | cons i path ih =>
      obtain ⟨d, hd, he⟩ := locate_cons_eq_some_iff.mp h
      exact .head (List.mem_of_getElem? hd) (ih he)

/-! ## Cells that read as one value -/

theorem ReadsAll.forall₂ {cs ds : List CellRef} {vs : List Value} : s.ReadsAll cs vs →
    s'.ReadsAll ds vs → List.Forall₂ (fun c d => ∃ v, s.Reads c v ∧ s'.Reads d v) cs ds
  | .nil, .nil => .nil
  | .cons hc hcs, .cons hd hds => .cons ⟨_, hc, hd⟩ (ReadsAll.forall₂ hcs hds)

theorem Reads.matches (h : s.Reads c v) (h' : s'.Reads d v) :
    (s.payload c).Matches (s'.payload d) := by
  cases h with
  | scalar hc =>
      cases h' with
      | scalar hd =>
          rw [hc, hd]
          exact .scalar _
  | array hc hcs =>
      cases h' with
      | array hd hds =>
          rw [hc, hd]
          exact .array (hcs.forall₂ hds).length_eq

/-- Cells that read as one value have the same positions, with matching payloads. -/
theorem locate_matches (h : s.Reads c v) (h' : s'.Reads d v) (path : List Nat) :
    (s.locate c path = none ∧ s'.locate d path = none) ∨
    ∃ a b, s.locate c path = some a ∧ s'.locate d path = some b ∧
      (s.payload a).Matches (s'.payload b) := by
  induction path generalizing c d v with
  | nil => exact .inr ⟨c, d, rfl, rfl, h.matches h'⟩
  | cons i path ih =>
      rw [locate_cons, locate_cons]
      cases h with
      | scalar hc =>
          cases h' with
          | scalar hd =>
              left
              rw [hc, hd]
              exact ⟨rfl, rfl⟩
      | @array _ cs _ hc hcs =>
          cases h' with
          | @array _ ds _ hd hds =>
              have hpairs := hcs.forall₂ hds
              rw [hc, hd]
              change (cs[i]?.bind _ = none ∧ ds[i]?.bind _ = none) ∨ ∃ a b, cs[i]?.bind _ = _ ∧
                ds[i]?.bind _ = _ ∧ _
              by_cases hi : i < cs.length
              · have hi' : i < ds.length := hpairs.length_eq ▸ hi
                obtain ⟨w, ha, hb⟩ := hpairs.get hi hi'
                rw [List.getElem?_eq_getElem hi, List.getElem?_eq_getElem hi']
                exact ih ha hb
              · have hi' : ¬i < ds.length := hpairs.length_eq ▸ hi
                left
                rw [List.getElem?_eq_none (Nat.le_of_not_lt hi),
                  List.getElem?_eq_none (Nat.le_of_not_lt hi')]
                exact ⟨rfl, rfl⟩

/-! ## Positions without sharing -/

theorem Unshared.of_holds (h : s.Unshared c) (hd : s.Holds c d) : s.Unshared d :=
  fun e items he hitems => h e items (.head hd he) hitems

theorem Unshared.getElem?_inj (h : s.Unshared c) {j : Nat} {a b : CellRef}
    (ha : (s.payload c).refs[i]? = some a) (hb : (s.payload c).refs[j]? = some b)
    (hae : s.Reaches a e) (hbe : s.Reaches b e) : i = j := by
  cases hc : s.payload c with
  | scalar x =>
      rw [hc] at ha
      cases ha
  | array items =>
      rw [hc] at ha hb
      have hapart := List.pairwise_iff_getElem.mp (h c items (.refl s c) hc)
      obtain ⟨hi, rfl⟩ := List.getElem?_eq_some_iff.mp ha
      obtain ⟨hj, rfl⟩ := List.getElem?_eq_some_iff.mp hb
      rcases Nat.lt_trichotomy i j with hlt | heq | hlt
      · exact absurd hbe (hapart i j hi hj hlt e hae)
      · exact heq
      · exact absurd hae (hapart j i hj hi hlt e hbe)

theorem AcyclicFrom.locate_ne_self (h : s.AcyclicFrom c) : s.locate c (i :: path) ≠ some c := by
  intro hc
  obtain ⟨d, hd, hback⟩ := locate_cons_eq_some_iff.mp hc
  apply h c (.refl s c)
  exact Relation.TransGen.head' (List.mem_of_getElem? hd) (reaches_of_locate hback)

/-- Below a cell without sharing and without loops, every position has a cell of its own. -/
theorem locate_injective (h : s.Unshared c) (hacyclic : s.AcyclicFrom c)
    (he : s.locate c path = some e) (he' : s.locate c path' = some e) : path = path' := by
  induction path generalizing c path' with
  | nil =>
      obtain rfl : c = e := Option.some.inj he
      cases path' with
      | nil => rfl
      | cons j path' => exact absurd he' hacyclic.locate_ne_self
  | cons i path ih =>
      cases path' with
      | nil =>
          obtain rfl : c = e := Option.some.inj he'
          exact absurd he hacyclic.locate_ne_self
      | cons j path' =>
          obtain ⟨a, ha, hae⟩ := locate_cons_eq_some_iff.mp he
          obtain ⟨b, hb, hbe⟩ := locate_cons_eq_some_iff.mp he'
          obtain rfl : i = j :=
            h.getElem?_inj ha hb (reaches_of_locate hae) (reaches_of_locate hbe)
          obtain rfl : a = b := Option.some.inj (ha.symm.trans hb)
          have hca : s.Holds c a := List.mem_of_getElem? ha
          rw [ih (h.of_holds hca) (hacyclic.of_holds hca) hae hbe]

end Store

end HostCall
