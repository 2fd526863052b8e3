import HostCall.Proofs.Callable.Handover
import HostCall.Proofs.Callable.Readable
import HostCall.Proofs.Store.Reads

/-!
# Immutable cells

An immutable cell refuses assignments, and nothing else changes what a cell holds.  Everything that
an immutable copy leads to is immutable, so a world can go on in whatever way and the copy still
reads as the cell did that was copied.
-/

namespace HostCall

variable {σ : Type}

namespace Store

/-- Good handles stay good, and immutable cells stay immutable with what they hold. -/
structure KeepsFrozen (s s' : Store) : Prop where
  grows : s.Grows s'
  frozen : ∀ c, s.isImmutable c = true → s'.isImmutable c = true ∧ s'.payload c = s.payload c

variable {s s' s'' : Store} {c d e : CellRef} {lo hi : Nat}

theorem holdsCell_of_isImmutable (h : s.isImmutable c = true) : s.holdsCell c = true := by
  cases hc : s.holdsCell c with
  | true => rfl
  | false =>
      rw [isImmutable, holdsCell_eq_false_iff.mp hc] at h
      cases h

theorem KeepsFrozen.refl (s : Store) : s.KeepsFrozen s := ⟨.refl s, fun _ hc => ⟨hc, rfl⟩⟩

theorem KeepsFrozen.trans (h : s.KeepsFrozen s') (h' : s'.KeepsFrozen s'') :
    s.KeepsFrozen s'' := by
  refine ⟨fun c hc => h'.grows c (h.grows c hc), fun c hc => ?_⟩
  obtain ⟨himm, hpayload⟩ := h.frozen c hc
  obtain ⟨himm', hpayload'⟩ := h'.frozen c himm
  exact ⟨himm', hpayload'.trans hpayload⟩

theorem Keeps.keepsFrozen (h : s.Keeps s') : s.KeepsFrozen s' := by
  refine ⟨h.grows, fun c hc => ?_⟩
  have hgood := holdsCell_of_isImmutable hc
  exact ⟨(h.isImmutable_eq hgood).trans hc, h.payload_eq hgood⟩

theorem keepsFrozen_assign {p : Payload} (h : s.assign d p = .ok s') : s.KeepsFrozen s' := by
  refine ⟨grows_assign h, fun c hc => ?_⟩
  obtain ⟨hmutable, rfl⟩ := assign_eq_ok_iff.mp h
  have hne : d ≠ c := by
    rintro rfl
    rw [hc] at hmutable
    cases hmutable
  rw [isImmutable, payload, cell?_modify, if_neg hne]
  exact ⟨hc, rfl⟩

theorem Block.keepsFrozen (h : s.Block true lo hi) (hs : s.KeepsFrozen s') :
    s'.Block true lo hi := by
  refine ⟨h.le, h.le_size.trans hs.grows.size_le, fun c hlo hhi => ?_, fun c d hlo hhi hd => ?_⟩
  · exact (hs.frozen c (h.isImmutable_eq c hlo hhi)).1
  · apply h.holds c d hlo hhi
    rw [Holds, ← (hs.frozen c (h.isImmutable_eq c hlo hhi)).2]
    exact hd

end Store

theorem Request.Effect.keepsFrozen {s s' : Store} {held held' : List CellRef}
    {target : Option CellRef} (h : Effect s held target s' held') : s.KeepsFrozen s' := by
  cases h with
  | none => exact .refl s
  | alloc immutable _ => exact (s.keeps_alloc _ immutable).keepsFrozen
  | assign _ _ hassign => exact Store.keepsFrozen_assign hassign
  | copy hcopy => exact (Store.keeps_of_copy hcopy).keepsFrozen
  | checkOut _ => exact (s.keeps_checkOut _).keepsFrozen
  | checkIn _ => exact (s.keeps_checkIn _).keepsFrozen
  | newObject _ _ => exact ⟨.refl s, fun _ hc => ⟨hc, rfl⟩⟩

/-- An assignment to an immutable cell is refused and changes nothing at all. -/
theorem Request.perform_assign_of_isImmutable {c : CellRef} {p : Payload} {s : Scene σ}
    (hc : s.world.store.isImmutable c = true) (hp : s.world.store.holdsPayload p = true) :
    (assign c p).perform s = some (.error .immutable, s) := by
  have hgood := Store.holdsCell_of_isImmutable hc
  obtain ⟨f, w⟩ := s
  simp only [perform, hgood, hp, Store.assign, hc, Bool.and_self, ↓reduceIte]

/-! ## Calls -/

theorem Produced.keeps_realize (p : Produced) (s : Store) : s.Keeps (p.realize s).2 := by
  cases p with
  | shared c => exact .refl s
  | fresh v => exact Store.keeps_build false v s

theorem Overload.Settles.keeps {o : Overload σ} {signature : String} {l : Location}
    {translatesPanics : Bool} {ending : Ending (Except HostError Unit)} {s : Scene σ}
    {result : CallResult} {w : World σ}
    (h : o.Settles signature l translatesPanics ending s result w) :
    s.world.store.Keeps w.store := by
  cases h with
  | translated _ => rfl
  | unwound _ => rfl
  | raised _ => rfl
  | unreturnable _ => rfl
  | returned _ => exact Produced.keeps_realize _ _

theorem Behavior.run_keepsFrozen {α : Type} {b : Behavior σ α} {s s' : Scene σ}
    {ending : Ending α} (hrun : b.run s = some (ending, s')) :
    s.world.store.KeepsFrozen s'.world.store :=
  run_invariant (P := fun s' _ => s.world.store.KeepsFrozen s')
    (fun _ _ _ _ _ hs he => hs.trans he.keepsFrozen) hrun (.refl _)

theorem Overload.call_keepsFrozen {o : Overload σ} {signature : String}
    {receiver : Option ObjectRef} {args : List CellRef} {w w' : World σ} {result : CallResult}
    (hbound : o.Bound) (haccepts : o.accepts args.length = true)
    (hcall : o.call signature receiver args w = some (result, w')) :
    w.store.KeepsFrozen w'.store := by
  rcases call_cases hbound haccepts hcall with
    ⟨i, e, b, hrefuse, rfl⟩ | ⟨arguments, b, ending, s, w₁, hfill, hrun, hsettles, rfl⟩
  · exact (hrefuse.keeps.trans b.keeps_release).keepsFrozen
  · have hentry : w.store.KeepsFrozen b.store := hfill.keeps.keepsFrozen
    have hran : b.store.KeepsFrozen s.world.store := Behavior.run_keepsFrozen hrun
    have hend := hsettles.keeps.trans (w₁.store.keeps_checkInAll b.bound)
    exact (hentry.trans hran).trans hend.keepsFrozen

namespace Callable

variable {f : Callable σ} {receiver : Option ObjectRef} {args : List CellRef} {w w₁ : World σ}

theorem keepsFrozen_of_resolveReceiver {ending : Ending (Option ObjectRef)}
    (hr : f.resolveReceiver receiver w = some (ending, w₁)) : w.store.KeepsFrozen w₁.store :=
  resolveReceiver_invariant (P := fun s _ => w.store.KeepsFrozen s)
    (fun _ _ _ _ _ hs he => hs.trans he.keepsFrozen) hr (.refl _)

theorem keepsFrozen_of_invoke (hf : f.Reachable) {result : CallResult}
    (hinvoke : f.invoke receiver args w = some (result, w₁)) : w.store.KeepsFrozen w₁.store := by
  apply invoke_invariant (P := fun w' => w.store.KeepsFrozen w'.store) hinvoke (.refl _)
    fun _ _ => keepsFrozen_of_resolveReceiver
  · intro w₁ d hw
    exact hw.trans (w₁.store.keeps_alloc .null false).keepsFrozen
  · intro r w₁ o result w' _ hfind hw hcall
    obtain ⟨hbound, haccepts⟩ := hf.bound_of_find? hfind
    exact hw.trans (Overload.call_keepsFrozen hbound haccepts hcall)

theorem Enters.keepsFrozen {o : Overload σ} {bound : List CellRef} {s : Scene σ}
    (h : f.Enters receiver args w o w₁ bound s) (hf : f.Reachable) :
    w.store.KeepsFrozen s.world.store :=
  (keepsFrozen_of_resolveReceiver h.resolveReceiver_eq).trans (h.fillAll hf).keeps.keepsFrozen

end Callable

/-! ## Worlds that go on -/

/-- One thing that can happen in a world: another environment, a request of native code, a whole
call, the entry into a call, or the end of one that was entered. -/
inductive World.Step (w : World σ) : World σ → Prop
  | environment (env : Environment) : Step w { w with env }
  | request {r : Request σ} {f : Frame} {a : r.Answer} {s : Scene σ} :
      r.perform ⟨f, w⟩ = some (a, s) → Step w s.world
  | call {f : Callable σ} {receiver : Option ObjectRef} {args : List CellRef}
      {result : CallResult} {w' : World σ} :
      f.Reachable → (∀ c ∈ args, w.store.holdsCell c = true) →
      f.invoke receiver args w = some (result, w') → Step w w'
  | enter {f : Callable σ} {receiver : Option ObjectRef} {args : List CellRef} {o : Overload σ}
      {w₁ : World σ} {bound : List CellRef} {s : Scene σ} :
      f.Reachable → (∀ c ∈ args, w.store.holdsCell c = true) →
      f.Enters receiver args w o w₁ bound s → Step w s.world
  | leave {o : Overload σ} {signature : String} {l : Location}
      {ending : Ending (Except HostError Unit)} {f : Frame} {result : CallResult} {w' : World σ}
      (bound : List CellRef) :
      o.settle signature l ending ⟨f, w⟩ = some (result, w') →
      Step w { w' with store := w'.store.checkInAll bound }

/-- What a world can become. -/
def World.Evolves : World σ → World σ → Prop := Relation.ReflTransGen World.Step

namespace World

variable {w w' : World σ}

theorem Step.keepsFrozen (h : w.Step w') : w.store.KeepsFrozen w'.store := by
  cases h with
  | environment env => exact .refl _
  | request hperform => exact (Request.perform_effect hperform).keepsFrozen
  | call hf _ hinvoke => exact Callable.keepsFrozen_of_invoke hf hinvoke
  | enter hf _ henters => exact henters.keepsFrozen hf
  | leave bound hsettle =>
      have hkeeps := (Overload.settles_of_settle hsettle).keeps
      exact (hkeeps.trans (Store.keeps_checkInAll _ bound)).keepsFrozen

theorem Evolves.keepsFrozen (h : w.Evolves w') : w.store.KeepsFrozen w'.store := by
  induction h with
  | refl => exact .refl _
  | tail _ hstep ih => exact ih.trans hstep.keepsFrozen

/-- An immutable copy of a cell whose arrays do not contain themselves is made and is frozen:
however the world goes on from there, the copy reads as the cell did, all that it leads to was made
with it, and every assignment to any of this is refused and changes nothing. -/
theorem immutable_copy_frozen {s : Store} {m : CellRef} (hacyclic : s.AcyclicFrom m) :
    s.Reads m (s.value m) ∧ ∃ c s', s.copy true m = some (c, s') ∧
    ∀ w w' : World σ, w.store = s' → w.Evolves w' →
      w'.store.Reads c (s.value m) ∧ w'.store.value c = s.value m ∧
      ∀ e, w'.store.Reaches c e →
        w'.store.holdsCell e = true ∧ s.holdsCell e = false ∧
        ∀ (f : Frame) (p : Payload), w'.store.holdsPayload p = true →
          (Request.assign e p).perform ⟨f, w'⟩ = some (.error .immutable, ⟨f, w'⟩) := by
  obtain ⟨⟨c, s'⟩, hcopy⟩ := Option.ne_none_iff_exists'.mp
    fun hnone => Store.copy_eq_none_iff.mp hnone hacyclic
  refine ⟨Store.reads_value hacyclic, c, s', hcopy, ?_⟩
  rintro w w' rfl hrun
  have hfrozen := hrun.keepsFrozen
  have hblock := Store.block_of_copy hcopy
  obtain ⟨hge, hlt⟩ := Store.index_of_copy hcopy
  have hpayload : ∀ e, w.store.Reaches c e → w'.store.payload e = w.store.payload e := by
    intro e he
    obtain ⟨hge, hlt⟩ := hblock.reaches hge hlt he
    exact (hfrozen.frozen e (hblock.isImmutable_eq e hge hlt)).2
  have hreads : w'.store.Reads c (s.value m) :=
    (Store.reads_of_copy hcopy (.refl _)).2.congr hpayload
  refine ⟨hreads, hreads.value_eq, fun e he => ?_⟩
  have hblock' := hblock.keepsFrozen hfrozen
  obtain ⟨hge, hlt⟩ := hblock'.reaches hge hlt he
  refine ⟨hblock'.holdsCell hlt, decide_eq_false (Nat.not_lt.mpr hge), fun f p hp => ?_⟩
  apply Request.perform_assign_of_isImmutable _ hp
  exact hblock'.isImmutable_eq e hge hlt

/-- The world after an immutable copy of its list. -/
def copiedWorld : World Unit :=
  { Callable.listWorld with
    store := (Store.build true (Callable.listWorld.store.value ⟨2⟩) Callable.listWorld.store).2 }

/-- After the copy the number in the list is replaced by the copy itself, and then a call gets the
copied number and, by reference, the copy. -/
theorem immutable_copy_frozen_copiedWorld :
    Callable.listWorld.store.AcyclicFrom ⟨2⟩ ∧
    Callable.listWorld.store.copy true ⟨2⟩ = some (⟨4⟩, copiedWorld.store) ∧
    ∃ s : Scene Unit,
      (Request.assign ⟨0⟩ (.array [⟨4⟩])).perform ⟨.start none [], copiedWorld⟩ =
        some (.ok (), s) ∧
      ∃ result w, gatherCallable.invoke none [⟨3⟩, ⟨4⟩] s.world = some (result, w) ∧
        w.store.value ⟨4⟩ = .array [.scalar (.int ⟨7, by decide, by decide⟩)] ∧
        (Request.assign ⟨3⟩ .null).perform ⟨.start none [], w⟩ =
          some (.error .immutable, ⟨.start none [], w⟩) := by
  obtain ⟨-, hacyclic⟩ := Store.closed_and_acyclic_of_all (s := Callable.listWorld.store)
    (by decide +kernel)
  have hcopy : Callable.listWorld.store.copy true ⟨2⟩ = some (⟨4⟩, copiedWorld.store) :=
    Store.copy_eq_some_iff.mpr ⟨by decide +kernel, rfl⟩
  have hassign : ∃ s, (Request.assign ⟨0⟩ (.array [⟨4⟩])).perform
      (⟨.start none [], copiedWorld⟩ : Scene Unit) = some (.ok (), s) := ⟨_, rfl⟩
  obtain ⟨s, hs⟩ := hassign
  have hargs : ∀ c ∈ ([⟨3⟩, ⟨4⟩] : List CellRef), s.world.store.holdsCell c = true := by
    cases hs
    decide +kernel
  have hcall : (gatherCallable.invoke none [⟨3⟩, ⟨4⟩] s.world).any (fun x =>
      decide (⟨3⟩ ∈ (x.2.store.payload ⟨4⟩).refs)) = true := by
    cases hs
    decide +kernel
  obtain ⟨⟨result, w⟩, hinvoke, hholds⟩ := (Option.any_eq_true _ _).mp hcall
  have hholds : (⟨3⟩ : CellRef) ∈ (w.store.payload ⟨4⟩).refs := of_decide_eq_true hholds
  have hreaches : w.store.Reaches ⟨4⟩ ⟨3⟩ := Relation.ReflTransGen.single hholds
  have hrun : copiedWorld.Evolves w :=
    .tail (.single (.request hs)) (.call gatherCallable_reachable hargs hinvoke)
  obtain ⟨-, c, store, hmade, hall⟩ :=
    immutable_copy_frozen (σ := Unit) fun e (_ : Callable.listWorld.store.Reaches ⟨2⟩ e) =>
      hacyclic e
  obtain ⟨rfl, hstore⟩ := Prod.mk.inj (Option.some.inj (hcopy.symm.trans hmade))
  obtain ⟨-, hvalue, hfrozen⟩ := hall copiedWorld w hstore hrun
  exact ⟨fun e _ => hacyclic e, hcopy, s, hs, result, w, hinvoke, hvalue,
    (hfrozen ⟨3⟩ hreaches).2.2 (.start none []) .null rfl⟩

end World

end HostCall
