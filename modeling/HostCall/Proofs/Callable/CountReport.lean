import HostCall.Proofs.Callable.Marshalling
import HostCall.Proofs.Callable.Steps
import HostCall.Proofs.Overload.Bounds

/-!
# Reports of argument counts

A call that finds no overload reports a bound of the table.  The text of the report tells which
bound that is, so it can be read back: an exact number stands there when no greater count would do
either, and a least number of a table that is not empty leaves a greater count that would.
-/

namespace HostCall

variable {σ : Type}

theorem toString_inj {m n : Nat} (h : toString m = toString n) : m = n := by
  have hdigits := congrArg (fun s => Nat.ofDigitChars 10 s.toList 0) h
  simpa using hdigits

namespace CountProblem

variable {member : String} {argc : Nat} {p q : CountProblem}

/-- The text of a report tells the problem. -/
theorem message_inj (h : p.message member argc = q.message member argc) : p = q := by
  cases p with
  | notExactly m =>
      cases q with
      | notExactly n =>
          simp only [message, String.append_left_inj, String.append_right_inj] at h
          rw [toString_inj h]
      | notAtLeast n => simp [message, String.append_assoc, String.ext_iff] at h
  | notAtLeast m =>
      cases q with
      | notExactly n => simp [message, String.append_assoc, String.ext_iff] at h
      | notAtLeast n =>
          simp only [message, String.append_left_inj, String.append_right_inj] at h
          rw [toString_inj h]

end CountProblem

namespace Callable

variable {f : Callable σ} {receiver : Option ObjectRef} {args : List CellRef} {w w₁ : World σ}

/-- A call gets as far as the look-up, where no overload takes so many arguments.  The last world is
the one in which it looks. -/
def Misses (f : Callable σ) (receiver : Option ObjectRef) (args : List CellRef) (w w₁ : World σ) :
    Prop :=
  f.identity.isAbstract = false ∧ (∃ r, f.resolveReceiver receiver w = some (.done r, w₁)) ∧
    f.table.find? args.length = none

theorem Misses.invoke_eq (h : f.Misses receiver args w w₁) :
    f.invoke receiver args w =
      some (w₁.report ⟨.warning, (f.table.countProblem args.length).message f.name args.length,
        w.env.location⟩).returnNull := by
  obtain ⟨habs, ⟨r, hr⟩, hfind⟩ := h
  exact invoke_of_find?_eq_none habs hr hfind

/-- The reported bounds are those of dispatch.  The least count of a table that is not empty has an
overload and no lesser one has; so with the greatest count and greater ones, and without a greatest
count all have an overload from some count on.  A call that finds no overload returns null and adds
one warning to the log, behind the reports that were there.  It gives an exact number just when the table is not empty and no count from there on has
an overload, and a least number of such a table leaves a greater count that has one. -/
theorem reported_bounds :
    (∀ t : OverloadTable σ, t.Reachable → t.isEmpty = false →
      (t.find? t.minArgs).isSome = true ∧ (∀ n, n < t.minArgs → t.find? n = none) ∧
      (∀ m, t.maxArgs = some m →
        (t.find? m).isSome = true ∧ ∀ n, m < n → t.find? n = none) ∧
      (t.maxArgs = none → ∃ k, ∀ n, k ≤ n → (t.find? n).isSome = true)) ∧
    ∀ (f : Callable σ) (receiver : Option ObjectRef) (args : List CellRef) (w w₁ : World σ),
      f.Reachable → f.Misses receiver args w w₁ →
      ∃ text c w', f.invoke receiver args w = some (.returned c, w') ∧
        w'.env.diagnostics.entries =
          w₁.env.diagnostics.entries ++ [⟨.warning, text, w.env.location⟩] ∧
        w'.env = w₁.env.report ⟨.warning, text, w.env.location⟩ ∧
        (∃ p : CountProblem, text = p.message f.name args.length) ∧
        ((∃ max, text = (CountProblem.notExactly max).message f.name args.length) ↔
          f.table.isEmpty = false ∧ ∀ n, args.length ≤ n → f.table.find? n = none) ∧
        (∀ max, text = (CountProblem.notExactly max).message f.name args.length →
          f.table.maxArgs = some max) ∧
        ∀ min, text = (CountProblem.notAtLeast min).message f.name args.length →
          min = f.table.minArgs ∧ (f.table.isEmpty = false →
            ∃ n, args.length < n ∧ (f.table.find? n).isSome = true) := by
  refine ⟨fun t ht hne => ?_, fun f receiver args w w₁ hf hmiss => ?_⟩
  · have hsound := ht.sound
    refine ⟨hsound.isSome_find?_minArgs hne, fun n => hsound.find?_eq_none_of_lt_minArgs hne,
      fun m hm => ⟨OverloadTable.isSome_find?_maxArgs hm, fun n => ?_⟩,
      hsound.exists_forall_isSome_find? hne⟩
    exact hsound.find?_eq_none_of_maxArgs_lt hm
  · have hsound := hf.table.sound
    have hbeyond := hsound.exists_maxArgs_lt_iff (n := args.length)
    refine ⟨_, _, _, hmiss.invoke_eq, Environment.entries_report _ _, rfl, ⟨_, rfl⟩, ?_,
      fun max hmax => ?_, fun min hmin => ?_⟩
    · rw [← hbeyond]
      constructor
      · rintro ⟨max, hmax⟩
        exact ⟨max, OverloadTable.countProblem_eq_notExactly_iff.mp (CountProblem.message_inj hmax)⟩
      · rintro ⟨max, hmax⟩
        exact ⟨max, by rw [OverloadTable.countProblem_eq_notExactly_iff.mpr hmax]⟩
    · exact (OverloadTable.countProblem_eq_notExactly_iff.mp (CountProblem.message_inj hmax)).1
    · obtain ⟨hmin, hnot⟩ :=
        OverloadTable.countProblem_eq_notAtLeast_iff.mp (CountProblem.message_inj hmin)
      refine ⟨hmin, fun hne => ?_⟩
      have hmore : ¬∀ n, args.length ≤ n → f.table.find? n = none :=
        fun hall => hnot (hbeyond.mpr ⟨hne, hall⟩)
      obtain ⟨n, hle, hn⟩ := by simpa using hmore
      refine ⟨n, ?_, Option.isSome_iff_ne_none.mpr hn⟩
      rcases Nat.lt_or_eq_of_le hle with hlt | heq
      · exact hlt
      · exact absurd (heq ▸ hmiss.2.2) hn

/-- Takes three copies. -/
def triple : Declaration Unit :=
  { OverloadTable.single with
    name := "pick"
    parameters := List.replicate 3 ⟨.cell, none, false, true, false⟩ }

def pickOne : Callable Unit :=
  (function "pick").after ((function "pick").add 0 OverloadTable.single .builtin .strict)

/-- One overload for one argument and one for three. -/
def pick : Callable Unit := pickOne.after (pickOne.add 1 triple .builtin .strict)

theorem pick_reachable : pick.Reachable :=
  .add 1 triple .builtin .strict
    (.add 0 OverloadTable.single .builtin .strict (.function "pick"))

def pickWorld : World Unit := ⟨numberStore, .standard, [], ()⟩

theorem pick_misses {args : List CellRef} (hfind : (pick.table.find? args.length).isNone = true) :
    pick.Misses none args pickWorld pickWorld := by
  refine ⟨by decide +kernel, ⟨none, resolveReceiver_eq_self fun c hc => ?_⟩,
    Option.isNone_iff_eq_none.mp hfind⟩
  have hdeclaring := hc.declaring_eq
  rw [pick, declaring_after_add, pickOne, declaring_after_add] at hdeclaring
  cases hdeclaring

/-- Four arguments are reported as not exactly three, and two as less than one, though three would
do. -/
theorem reported_bounds_pick :
    pick.Reachable ∧ pick.Misses none (List.replicate 4 ⟨0⟩) pickWorld pickWorld ∧
    pick.Misses none [⟨0⟩, ⟨1⟩] pickWorld pickWorld ∧
    (pick.table.find? 1).isSome = true ∧ (∀ n, 3 < n → pick.table.find? n = none) ∧
    (∃ text c w, pick.invoke none (List.replicate 4 ⟨0⟩) pickWorld = some (.returned c, w) ∧
      w.env.diagnostics.entries = [⟨.warning, text, .unknown⟩] ∧
      text = (CountProblem.notExactly 3).message pick.name 4) ∧
    ∃ text c w, pick.invoke none [⟨0⟩, ⟨1⟩] pickWorld = some (.returned c, w) ∧
      w.env.diagnostics.entries = [⟨.warning, text, .unknown⟩] ∧
      text = (CountProblem.notAtLeast 1).message pick.name 2 ∧
      ∃ n, 2 < n ∧ (pick.table.find? n).isSome = true := by
  have hne : pick.table.isEmpty = false := by decide +kernel
  have hmin : pick.table.minArgs = 1 := by decide +kernel
  have hmax : pick.table.maxArgs = some 3 := by decide +kernel
  have hfour : pick.Misses none (List.replicate 4 ⟨0⟩) pickWorld pickWorld :=
    pick_misses (by decide +kernel)
  have htwo : pick.Misses none [⟨0⟩, ⟨1⟩] pickWorld pickWorld := pick_misses (by decide +kernel)
  obtain ⟨htable, hreport⟩ := reported_bounds (σ := Unit)
  obtain ⟨hleast, -, hgreatest, -⟩ := htable pick.table pick_reachable.table hne
  obtain ⟨hthree, hbeyond⟩ := hgreatest 3 hmax
  refine ⟨pick_reachable, hfour, htwo, hmin ▸ hleast, hbeyond, ?_, ?_⟩
  · obtain ⟨text, c, w, hinvoke, hentries, -, -, hexact, hnumber, -⟩ :=
      hreport pick _ _ _ _ pick_reachable hfour
    obtain ⟨max, htext⟩ := hexact.mpr ⟨hne, fun n hn => hbeyond n (Nat.lt_of_succ_le hn)⟩
    have hmax' : max = 3 := by simpa [hmax, eq_comm] using hnumber max htext
    exact ⟨text, c, w, hinvoke, hentries, hmax' ▸ htext⟩
  · obtain ⟨text, c, w, hinvoke, hentries, -, ⟨p, hp⟩, hexact, -, hfewest⟩ :=
      hreport pick _ _ _ _ pick_reachable htwo
    cases p with
    | notExactly max =>
        have hnone := (hexact.mp ⟨max, hp⟩).2 3 (by decide)
        rw [hnone] at hthree
        cases hthree
    | notAtLeast min =>
        obtain ⟨hmin', hmore⟩ := hfewest min hp
        have hone : min = 1 := hmin'.trans hmin
        exact ⟨text, c, w, hinvoke, hentries, hone ▸ hp, hmore hne⟩

end Callable

end HostCall
