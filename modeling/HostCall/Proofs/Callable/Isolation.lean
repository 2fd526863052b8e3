import HostCall.Proofs.Callable.Readable

/-!
# Arguments that are passed by value

A raw cell that is passed by value reaches native code as a copy.  The copies of one call lie one
behind the other at the end of the store, each closed under following handles, and what is passed by
reference leads to cells of the caller alone.  So no copy shares a cell with anything else that
native code gets, and nothing that is written to the one shows in the other.
-/

namespace HostCall

variable {σ : Type}

/-! ## Passages -/

/-- A raw cell of a call: its parameter, the cell that the caller gave, and the one that native code
got for it. -/
structure Passage where
  parameter : Parameter
  given : CellRef
  got : CellRef

/-- Whether a parameter takes cells as they are. -/
def Parameter.isRaw (p : Parameter) : Bool := p.type.isCell || p.type.isCells

/-- The arguments that are given for raw cells, each with its parameter. -/
def rawArguments (ps : List Parameter) (shares : List (List CellRef)) :
    List (Parameter × CellRef) :=
  (ps.zip shares).flatMap fun x => if x.1.isRaw then x.2.map (x.1, ·) else []

def Parameter.passages (p : Parameter) (share : List CellRef) (a : Argument) : List Passage :=
  (share.zip a.cells).map fun x => ⟨p, x.1, x.2⟩

/-- The passages of several parameters, in order. -/
def passagesOf : List Parameter → List (List CellRef) → List Argument → List Passage
  | p :: ps, share :: shares, a :: as => p.passages share a ++ passagesOf ps shares as
  | _, _, _ => []

/-- The passages of a call: what the caller gave for each parameter beside what the frame has. -/
def Overload.passages (o : Overload σ) (d : Declaration σ) (args : List CellRef) (f : Frame) :
    List Passage :=
  passagesOf d.parameters (o.shares args) f.arguments

namespace Passage

def handed (x : Passage) : Passing × CellRef := (x.parameter.passing, x.given)

def raw (x : Passage) : Parameter × CellRef := (x.parameter, x.given)

/-- Two passages lead to no cell in common, unless both are by reference. -/
def Apart (s : Store) (x y : Passage) : Prop :=
  x.parameter.isReference = false ∨ y.parameter.isReference = false →
    ∀ e, s.Reaches x.got e → ¬s.Reaches y.got e

end Passage

section Align

variable {p : Parameter} {ps : List Parameter} {slot : Slot} {slots : List Slot} {l : Location}
  {share : List CellRef} {shares : List (List CellRef)} {a : Argument} {as : List Argument}
  {b b' : Bindings}

namespace Parameter

theorem map_raw_passages (h : a.cells.length = share.length) :
    (p.passages share a).map Passage.raw = share.map (p, ·) := by
  calc
    (p.passages share a).map Passage.raw =
        ((share.zip a.cells).map Prod.fst).map (p, ·) := by simp [passages, Passage.raw]
    _ = share.map (p, ·) := by rw [List.map_fst_zip h.ge]

theorem map_handed_passages (h : a.cells.length = share.length) :
    (p.passages share a).map Passage.handed = share.map (p.passing, ·) := by
  calc
    (p.passages share a).map Passage.handed =
        ((share.zip a.cells).map Prod.fst).map (p.passing, ·) := by
      simp [passages, Passage.handed]
    _ = share.map (p.passing, ·) := by rw [List.map_fst_zip h.ge]

theorem map_got_passages (h : a.cells.length = share.length) :
    (p.passages share a).map Passage.got = a.cells := by
  calc
    (p.passages share a).map Passage.got = (share.zip a.cells).map Prod.snd := by simp [passages]
    _ = a.cells := List.map_snd_zip h.le

/-- A slot hands over the cells of its share when its parameter takes cells as they are, and no
others. -/
theorem passages_of_fills (hp : p.BoundTo slot) (h : slot.Fills l share b a b') :
    (p.passages share a).map Passage.raw = (if p.isRaw then share.map (p, ·) else []) ∧
    (p.passages share a).map Passage.handed = slot.handed share ∧
    (p.passages share a).map Passage.got = a.cells ∧ slot.given a = a.cells := by
  obtain ⟨spec, -, ⟨r, hr, rfl⟩ | ⟨-, rfl⟩⟩ := hp
  · cases r with
    | cell =>
        have htype : p.type.isCell = true := hr.same
        have hraw : p.isRaw = true := by rw [isRaw, htype]; rfl
        cases h with
        | passthrough _ =>
            rw [hraw]
            exact ⟨rfl, rfl, rfl, rfl⟩
    | cells =>
        have htype : p.type.isCells = true := hr.same
        have hraw : p.isRaw = true := by rw [isRaw, htype, Bool.or_true]
        cases h with
        | tail hcs =>
            rw [hraw]
            exact ⟨map_raw_passages hcs.length_eq, map_handed_passages hcs.length_eq,
              map_got_passages hcs.length_eq, rfl⟩
    | environment =>
        cases h with
        | environment b => exact ⟨by simp [passages], rfl, rfl, rfl⟩
    | location =>
        cases h with
        | location b => exact ⟨by simp [passages], rfl, rfl, rfl⟩
    | data t =>
        obtain ⟨hcell, hcells, -⟩ := hr.descriptor_ne
        have hknown := hr.descriptor_mem_known
        have htype : p.type.isCell = false :=
          TypeDescriptor.same_eq_false hr.same hknown (by decide) hcell
        have htype' : p.type.isCells = false :=
          TypeDescriptor.same_eq_false hr.same hknown (by decide) hcells
        have hraw : p.isRaw = false := by rw [isRaw, htype, htype']; rfl
        rw [hraw]
        have hanswers : (Reading.data t).Answers a := answers_of_fills h
        cases h with
        | converted _ => cases hanswers <;> exact ⟨rfl, rfl, rfl, rfl⟩
  · cases h with
    | converted hconv => exact absurd hconv (Conversion.void_toHost_ne_ok _ _ _ _)

end Parameter

theorem passagesOf_of_fillAll (h : Slot.FillAll l slots shares b as b')
    (hps : List.Forall₂ Parameter.BoundTo ps slots) :
    (passagesOf ps shares as).map Passage.raw = rawArguments ps shares ∧
    (passagesOf ps shares as).map Passage.handed =
      (slots.zip shares).flatMap (fun x => x.1.handed x.2) ∧
    (passagesOf ps shares as).map Passage.got = as.flatMap Argument.cells ∧
    (slots.zip as).flatMap (fun x => x.1.given x.2) = as.flatMap Argument.cells := by
  induction h generalizing ps with
  | nil b =>
      cases hps
      exact ⟨rfl, rfl, rfl, rfl⟩
  | cons hfills _ ih =>
      cases hps with
      | cons hp hps =>
          obtain ⟨hraw, hhanded, hgot, hgiven⟩ := Parameter.passages_of_fills hp hfills
          obtain ⟨hraws, hhandeds, hgots, hgivens⟩ := ih hps
          refine ⟨?_, ?_, ?_, ?_⟩
          · rw [passagesOf, List.map_append, hraw, hraws]
            rfl
          · rw [passagesOf, List.map_append, hhanded, hhandeds]
            rfl
          · rw [passagesOf, List.map_append, hgot, hgots]
            rfl
          · rw [List.zip_cons_cons, List.flatMap_cons, List.flatMap_cons, hgiven, hgivens]

end Align

/-! ## Copies and shared cells -/

theorem Passing.Hands.shared_or_copied {q : Passing} {c d : CellRef} {b b' : Bindings}
    (h : q.Hands c b d b') :
    (q.byRef = true ∧ d = c) ∨
      (q.byRef = false ∧ b.store.copy (!q.isMutable) c = some (d, b'.store)) := by
  cases h with
  | shared isMutable c b => exact .inl ⟨rfl, rfl⟩
  | copied hcopy => exact .inr ⟨rfl, hcopy⟩

/-- What is passed by reference is the cell itself; a copy lies in a block of its own from some
place on, and reads as the cell did. -/
inductive Passage.Placed (old s : Store) (lo : Nat) (x : Passage) : Prop
  | shared : x.parameter.isReference = true → x.got = x.given → Placed old s lo x
  | copied {lo' hi' : Nat} :
      x.parameter.isReference = false → lo ≤ lo' → s.Block (!x.parameter.isMutable) lo' hi' →
      lo' ≤ x.got.index → x.got.index < hi' →
      s.Reads x.got (old.value x.given) → Placed old s lo x

section Isolated

variable {old s : Store} {lo hi : Nat} {x y : Passage} {xs : List Passage} {b b' : Bindings}
  {e : CellRef}

namespace Passage.Placed

theorem mono (h : x.Placed old s lo) (hle : hi ≤ lo) : x.Placed old s hi := by
  cases h with
  | shared href hgot => exact .shared href hgot
  | copied hvalue hlo hblock hge hlt hread =>
      exact .copied hvalue (hle.trans hlo) hblock hge hlt hread

end Passage.Placed

/-- A passage leads to old cells when it is by reference, and to the cells of the copies made from
some place on when it is by value. -/
theorem Passage.Placed.reaches (h : x.Placed old s lo) (hkeeps : old.Keeps s)
    (hclosed : old.Closed) (hx : old.holdsCell x.given = true) (he : s.Reaches x.got e) :
    (x.parameter.isReference = true ∧ e.index < old.cells.size) ∨
      (x.parameter.isReference = false ∧ lo ≤ e.index) := by
  cases h with
  | shared href hgot =>
      rw [hgot] at he
      exact .inl ⟨href, of_decide_eq_true (hkeeps.holdsCell_of_reaches hclosed hx he)⟩
  | copied hvalue hlo hblock hge hlt _ =>
      have hin := hblock.reaches hge hlt he
      exact .inr ⟨hvalue, hlo.trans hin.1⟩

theorem Passing.Hands.placed {b₁ : Bindings} (h : x.handed.1.Hands x.given b x.got b₁)
    (hkeeps : old.Keeps b.store) (hlater : b₁.store.Keeps s) (hclosed : old.Closed)
    (hacyclic : old.Acyclic) (hx : old.holdsCell x.given = true) :
    x.Placed old s b.store.cells.size ∧
      ∀ e, s.Reaches x.got e → e.index < b₁.store.cells.size := by
  rcases h.shared_or_copied with ⟨href, hgot⟩ | ⟨hvalue, hcopy⟩
  · refine ⟨.shared href hgot, fun e he => ?_⟩
    rw [hgot] at he
    have hkeeps₁ := hkeeps.trans h.keeps
    have hlt := of_decide_eq_true ((hkeeps₁.trans hlater).holdsCell_of_reaches hclosed hx he)
    have hsize := hkeeps₁.grows.size_le
    omega
  · obtain ⟨hge, hlt⟩ := Store.index_of_copy hcopy
    have hblock := (Store.block_of_copy hcopy).keeps hlater
    have hread := (Store.reads_of_copy hcopy hlater).2
    rw [hkeeps.value_eq hclosed hx fun e _ => hacyclic e] at hread
    exact ⟨.copied hvalue (le_refl _) hblock hge hlt hread,
      fun e he => (hblock.reaches hge hlt he).2⟩

/-- Cells that are handed over one after the other are placed one behind the other, and no two lead
to a cell in common unless both are by reference. -/
theorem Passing.HandsEach.isolated
    (h : HandsEach (xs.map Passage.handed) b (xs.map Passage.got) b') (hkeeps : old.Keeps b.store)
    (hclosed : old.Closed) (hacyclic : old.Acyclic)
    (hxs : ∀ x ∈ xs, old.holdsCell x.given = true) :
    (∀ x ∈ xs, x.Placed old b'.store b.store.cells.size) ∧
      xs.Pairwise (Passage.Apart b'.store) := by
  induction xs generalizing b with
  | nil => exact ⟨by simp, .nil⟩
  | cons x xs ih =>
      cases h with
      | @cons _ _ _ _ _ _ b₁ _ hx hrest =>
          have hkeeps₁ := hkeeps.trans hx.keeps
          have hkeeps' := hkeeps₁.trans hrest.keeps
          have hgiven : old.holdsCell x.given = true := hxs x List.mem_cons_self
          have hxs : ∀ y ∈ xs, old.holdsCell y.given = true :=
            fun y hy => hxs y (List.mem_cons_of_mem _ hy)
          obtain ⟨hplaced, hapart⟩ := ih hrest hkeeps₁ hxs
          obtain ⟨hfirst, hend⟩ :=
            Passing.Hands.placed hx hkeeps hrest.keeps hclosed hacyclic hgiven
          have hsize := hkeeps.grows.size_le
          have hsize₁ := hx.keeps.grows.size_le
          refine ⟨fun y hy => ?_, List.pairwise_cons.mpr ⟨fun y hy hvalue e hxe hye => ?_, hapart⟩⟩
          · rcases List.mem_cons.mp hy with rfl | hy
            · exact hfirst
            · exact (hplaced y hy).mono hsize₁
          · have hlt := hend e hxe
            rcases (hplaced y hy).reaches hkeeps' hclosed (hxs y hy) hye with ⟨hyr, hye⟩ | ⟨-, hye⟩
            · rcases hfirst.reaches hkeeps' hclosed hgiven hxe with ⟨hxr, -⟩ | ⟨-, hxe⟩
              · simp [hxr, hyr] at hvalue
              · omega
            · omega

end Isolated

/-! ## What native code can make of it -/

section Writes

variable {old : Store} {s s' : Scene σ} {x : Passage} {xs : List Passage}

theorem Passage.Placed.byValue (h : x.Placed old s.world.store old.cells.size)
    (hx : x.parameter.isReference = false) :
    s.world.store.value x.got = old.value x.given ∧
    ∀ e, s.world.store.Reaches x.got e → s.world.store.holdsCell e = true ∧
      old.holdsCell e = false ∧ s.world.store.isImmutable e = !x.parameter.isMutable := by
  cases h with
  | shared href _ =>
      rw [hx] at href
      cases href
  | copied _ hlo hblock hge hlt hread =>
      refine ⟨hread.value_eq, fun e he => ?_⟩
      obtain ⟨hge, hlt⟩ := hblock.reaches hge hlt he
      refine ⟨hblock.holdsCell hlt, ?_, hblock.isImmutable_eq e hge hlt⟩
      exact decide_eq_false (by omega)

/-- What is written to copies and to cells made since leaves every other cell as it was. -/
theorem Scene.Writes.caller_unchanged
    (hwrites : s.Writes
      (fun e => (∃ x ∈ xs, x.parameter.isReference = false ∧ s.world.store.Reaches x.got e) ∨
        s.world.store.holdsCell e = false) s')
    (hkeeps : old.Keeps s.world.store) (hclosed : old.Closed) (hacyclic : old.Acyclic)
    (hplaced : ∀ x ∈ xs, x.Placed old s.world.store old.cells.size) {c : CellRef}
    (hc : old.holdsCell c = true) :
    s'.world.store.payload c = old.payload c ∧
      s'.world.store.isImmutable c = old.isImmutable c ∧
      s'.world.store.value c = old.value c := by
  have hcell : ∀ e, old.holdsCell e = true →
      s'.world.store.payload e = old.payload e ∧
        s'.world.store.isImmutable e = old.isImmutable e := by
    intro e he
    have hgood := hkeeps.grows e he
    have hnot : ¬((∃ x ∈ xs, x.parameter.isReference = false ∧ s.world.store.Reaches x.got e) ∨
        s.world.store.holdsCell e = false) := by
      rintro (⟨x, hx, hvalue, hxe⟩ | hnew)
      · have hfresh := (((hplaced x hx).byValue hvalue).2 e hxe).2.1
        rw [he] at hfresh
        cases hfresh
      · rw [hgood] at hnew
        cases hnew
    obtain ⟨hpayload, himm⟩ := hwrites.unchanged hgood hnot
    exact ⟨hpayload.trans (hkeeps.payload_eq he), himm.trans (hkeeps.isImmutable_eq he)⟩
  refine ⟨(hcell c hc).1, (hcell c hc).2, ?_⟩
  have hread : old.Reads c (old.value c) := Store.reads_value fun e _ => hacyclic e
  exact (hread.congr fun e he => (hcell e (hclosed.holdsCell_of_reaches hc he)).1).value_eq

/-- What is written to cells passed by reference and to cells made since shows in no copy. -/
theorem Scene.Writes.copy_unchanged
    (hwrites : s.Writes
      (fun e => (∃ y ∈ xs, y.parameter.isReference = true ∧ s.world.store.Reaches y.got e) ∨
        s.world.store.holdsCell e = false) s')
    (hkeeps : old.Keeps s.world.store) (hclosed : old.Closed)
    (hplaced : ∀ x ∈ xs, x.Placed old s.world.store old.cells.size)
    (hxs : ∀ x ∈ xs, old.holdsCell x.given = true) (hx : x ∈ xs)
    (hvalue : x.parameter.isReference = false) :
    s'.world.store.value x.got = old.value x.given := by
  have hcell : ∀ e, s.world.store.Reaches x.got e →
      s'.world.store.payload e = s.world.store.payload e := by
    intro e he
    obtain ⟨hgood, hfresh, -⟩ := ((hplaced x hx).byValue hvalue).2 e he
    refine (hwrites.unchanged hgood ?_).1
    rintro (⟨y, hy, hyr, hye⟩ | hnew)
    · rcases (hplaced y hy).reaches hkeeps hclosed (hxs y hy) hye with ⟨-, hlt⟩ | ⟨hyv, -⟩
      · exact absurd hlt (of_decide_eq_false hfresh)
      · rw [hyr] at hyv
        cases hyv
    · rw [hgood] at hnew
      cases hnew
  cases hplaced x hx with
  | shared href _ =>
      rw [hvalue] at href
      cases href
  | copied _ _ _ _ _ hread => exact (hread.congr hcell).value_eq

end Writes

namespace Callable

variable {f : Callable σ} {receiver : Option ObjectRef} {args : List CellRef} {w w₁ : World σ}
  {o : Overload σ} {bound : List CellRef} {s : Scene σ} {d : Declaration σ} {serial : Nat}
  {owner : String}

/-- Where no array contains itself just before marshalling, parameters that are passed by value are
isolated from the caller.  The passages of a call are all arguments that are given for raw cells,
with all cells that native code gets.  On entry the cell of a passage by value reads as the cell
that was given did just before marshalling; everything that it leads to is new and mutable just if
the parameter asks for it; and no other passage leads to any of it.  So whatever native code writes
to copies, and to cells that it makes, leaves the cells of the caller unchanged, and what it writes
to cells passed by reference shows in no copy. -/
theorem byValue_isolated (hf : f.Reachable)
    (hbind : Overload.bind serial owner d .builtin = .ok o)
    (h : f.Enters receiver args w o w₁ bound s)
    (hargs : ∀ c ∈ args, w.store.holdsCell c = true) (hclosed : w.store.Closed)
    (hacyclic : w₁.store.Acyclic) :
    (o.passages d args s.frame).map Passage.raw = rawArguments d.parameters (o.shares args) ∧
    (o.passages d args s.frame).map Passage.got = s.frame.arguments.flatMap Argument.cells ∧
    (∀ x ∈ o.passages d args s.frame, x.parameter.isReference = false →
      s.world.store.value x.got = w₁.store.value x.given ∧
      ∀ e, s.world.store.Reaches x.got e →
        s.world.store.holdsCell e = true ∧ w₁.store.holdsCell e = false ∧
        w.store.holdsCell e = false ∧
        s.world.store.isImmutable e = !x.parameter.isMutable) ∧
    (o.passages d args s.frame).Pairwise (Passage.Apart s.world.store) ∧
    (∀ s', s.Writes
        (fun e => (∃ x ∈ o.passages d args s.frame,
            x.parameter.isReference = false ∧ s.world.store.Reaches x.got e) ∨
          s.world.store.holdsCell e = false) s' →
      ∀ c, w₁.store.holdsCell c = true →
        s'.world.store.payload c = w₁.store.payload c ∧
        s'.world.store.isImmutable c = w₁.store.isImmutable c ∧
        s'.world.store.value c = w₁.store.value c) ∧
    (∀ s', s.Writes
        (fun e => (∃ y ∈ o.passages d args s.frame,
            y.parameter.isReference = true ∧ s.world.store.Reaches y.got e) ∨
          s.world.store.holdsCell e = false) s' →
      ∀ x ∈ o.passages d args s.frame, x.parameter.isReference = false →
        s'.world.store.value x.got = w₁.store.value x.given) := by
  have hfill := h.fillAll hf
  have hclosed₁ := h.closed hclosed
  have hkeeps : w₁.store.Keeps s.world.store := hfill.keeps
  obtain ⟨hraw, hhanded, hgot, hgiven⟩ :=
    passagesOf_of_fillAll hfill (Overload.forall₂_boundTo hbind)
  have hxs : ∀ x ∈ o.passages d args s.frame, w₁.store.holdsCell x.given = true := by
    intro x hx
    have hmem : x.handed ∈ o.handed args := by
      rw [Overload.handed, ← hhanded]
      exact List.mem_map_of_mem hx
    have harg : x.given ∈ args := by
      rw [← h.flatten_shares hf]
      exact Overload.snd_mem_of_mem_handed hmem
    exact h.grows _ (hargs _ harg)
  have hhands : Passing.HandsEach ((o.passages d args s.frame).map Passage.handed) ⟨w₁.store, []⟩
      ((o.passages d args s.frame).map Passage.got) ⟨s.world.store, bound⟩ := by
    rw [Overload.passages, hhanded, hgot, ← hgiven]
    exact hfill.handsEach
  obtain ⟨hplaced, hapart⟩ := hhands.isolated (.refl w₁.store) hclosed₁ hacyclic hxs
  refine ⟨hraw, hgot, fun x hx hvalue => ?_, hapart, fun s' hwrites c hc => ?_,
    fun s' hwrites x hx hvalue => ?_⟩
  · obtain ⟨hread, hreach⟩ := (hplaced x hx).byValue hvalue
    refine ⟨hread, fun e he => ?_⟩
    obtain ⟨hgood, hfresh, himm⟩ := hreach e he
    refine ⟨hgood, hfresh, ?_, himm⟩
    rw [Bool.eq_false_iff]
    intro hold
    rw [h.grows e hold] at hfresh
    cases hfresh
  · exact hwrites.caller_unchanged hkeeps hclosed₁ hacyclic hplaced hc
  · exact hwrites.copy_unchanged hkeeps hclosed₁ hplaced hxs hx hvalue

/-- Takes one cell by reference, a copy of another that it may change, and copies of all others. -/
def mixer : Declaration Unit :=
  { OverloadTable.gather with
    name := "mixer"
    parameters := [{ type := .cell, isReference := true }, { type := .cell, isMutable := true },
      { type := .cells }] }

/-- The number is passed by reference, inside of a list and in the tail: the copies of the list and
of the tail read as before whatever is written to the number. -/
theorem byValue_isolated_mixer :
    (declared mixer).Reachable ∧ listWorld.store.Closed ∧ listWorld.store.Acyclic ∧
    ∃ o bound s,
      (declared mixer).Enters none [⟨0⟩, ⟨2⟩, ⟨0⟩] listWorld o listWorld bound s ∧
      (o.passages mixer [⟨0⟩, ⟨2⟩, ⟨0⟩] s.frame).map Passage.raw =
        [({ type := .cell, isReference := true }, ⟨0⟩), ({ type := .cell, isMutable := true }, ⟨2⟩),
          ({ type := .cells }, ⟨0⟩)] ∧
      (o.passages mixer [⟨0⟩, ⟨2⟩, ⟨0⟩] s.frame).Pairwise (Passage.Apart s.world.store) ∧
      ∀ s', s.Writes (fun e => ∃ y ∈ o.passages mixer [⟨0⟩, ⟨2⟩, ⟨0⟩] s.frame,
          y.parameter.isReference = true ∧ s.world.store.Reaches y.got e) s' →
        ∀ x ∈ o.passages mixer [⟨0⟩, ⟨2⟩, ⟨0⟩] s.frame, x.parameter.isReference = false →
          s'.world.store.value x.got = listWorld.store.value x.given := by
  obtain ⟨hclosed, hacyclic⟩ := Store.closed_and_acyclic_of_all (s := listWorld.store)
    (by decide +kernel)
  have hargs : ∀ c ∈ ([⟨0⟩, ⟨2⟩, ⟨0⟩] : List CellRef), listWorld.store.holdsCell c = true := by
    decide +kernel
  have hentry : ∃ o bound s, Overload.bind 0 "" mixer .builtin = .ok o ∧
      decide (rawArguments mixer.parameters (o.shares [⟨0⟩, ⟨2⟩, ⟨0⟩]) =
        [({ type := .cell, isReference := true }, ⟨0⟩), ({ type := .cell, isMutable := true }, ⟨2⟩),
          ({ type := .cells }, ⟨0⟩)]) = true ∧
      (declared mixer).Enters none [⟨0⟩, ⟨2⟩, ⟨0⟩] listWorld o listWorld bound s :=
    exists_enters_of_check rfl (by decide +kernel)
  obtain ⟨o, bound, s, hbind, hraw, henters⟩ := hentry
  obtain ⟨hpassages, -, -, hapart, -, hcopies⟩ :=
    byValue_isolated (declared_reachable mixer) hbind henters hargs hclosed hacyclic
  refine ⟨declared_reachable mixer, hclosed, hacyclic, o, bound, s, henters,
    hpassages.trans (of_decide_eq_true hraw), hapart, fun s' hwrites => ?_⟩
  exact hcopies s' (hwrites.mono fun e he => .inl he)

end Callable

end HostCall
