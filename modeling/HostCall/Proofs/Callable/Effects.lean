import HostCall.Proofs.Callable.Steps
import HostCall.Proofs.Store.Copy

/-!
# What native code does to the store

A request has one of seven effects on the store and on the bindings that the native side holds.
Whatever each of them keeps, a whole run keeps, and so does asking for a receiver.
-/

namespace HostCall

variable {σ α : Type}

/-- The cell that a request assigns to. -/
def Request.target : Request σ → Option CellRef
  | .assign c _ => some c
  | _ => none

/-- What one request with a given target can make of the store and of the bindings that the native
side holds. -/
inductive Request.Effect (s : Store) (held : List CellRef) (target : Option CellRef) :
    Store → List CellRef → Prop
  | none : Effect s held target s held
  | alloc {p : Payload} (immutable : Bool) :
      s.holdsPayload p = true → Effect s held target (s.alloc p immutable).2 held
  | assign {c : CellRef} {p : Payload} {s' : Store} :
      target = some c → s.holdsPayload p = true → s.assign c p = .ok s' →
      Effect s held target s' held
  | copy {c d : CellRef} {immutable : Bool} {s' : Store} :
      s.copy immutable c = some (d, s') → Effect s held target s' held
  | checkOut {c : CellRef} :
      s.holdsCell c = true → Effect s held target (s.checkOut c) (c :: held)
  | checkIn {c : CellRef} : c ∈ held → Effect s held target (s.checkIn c) (held.erase c)
  | newObject (className : String) {data : Boxed} :
      s.holdsBoxed data = true → Effect s held target (s.newObject className data).2 held

theorem Request.perform_effect {r : Request σ} {s s' : Scene σ} {a : r.Answer}
    (h : r.perform s = some (a, s')) :
    Effect s.world.store s.world.held r.target s'.world.store s'.world.held := by
  obtain ⟨f, w⟩ := s
  cases r with
  | inspect => cases h; exact .none
  | setHost x => cases h; exact .none
  | take t i => cases h; exact .none
  | report d => cases h; exact .none
  | takeDiagnostics => cases h; exact .none
  | setResult b =>
      simp only [perform] at h
      split at h
      · cases h; exact .none
      · cases h
  | alloc p immutable =>
      simp only [perform] at h
      split at h
      · next hp => cases h; exact .alloc immutable hp
      · cases h
  | copy c immutable =>
      simp only [perform] at h
      split at h
      · obtain ⟨x, hcopy, ⟨⟩⟩ := Option.map_eq_some_iff.mp h
        exact .copy hcopy
      · cases h
  | checkOut c =>
      simp only [perform] at h
      split at h
      · next hc => cases h; exact .checkOut hc
      · cases h
  | newObject className data =>
      simp only [perform] at h
      split at h
      · next hdata => cases h; exact .newObject className hdata
      · cases h
  | checkIn c =>
      simp only [perform] at h
      split at h
      · next hc => cases h; exact .checkIn hc
      · cases h; exact .none
  | assign c p =>
      simp only [perform] at h
      split at h
      · next hgood =>
        have hp : w.store.holdsPayload p = true := ((Bool.and_eq_true _ _).mp hgood).2
        split at h
        · next store hassign => cases h; exact .assign rfl hp hassign
        · cases h; exact .none
      · cases h

section Invariant

variable {P : Store → List CellRef → Prop}

/-- What every effect keeps, a run keeps. -/
theorem Behavior.run_invariant
    (hstep : ∀ s held t s' held', P s held → Request.Effect s held t s' held' → P s' held')
    {b : Behavior σ α} {s s' : Scene σ} {ending : Ending α} (hrun : b.run s = some (ending, s'))
    (h : P s.world.store s.world.held) : P s'.world.store s'.world.held :=
  run_induct (P := fun s s' => P s.world.store s.world.held → P s'.world.store s'.world.held) hrun
    (fun _ => id)
    (fun _ _ _ _ _ hr ih h => ih (hstep _ _ _ _ _ h (Request.perform_effect hr))) h

theorem Callable.resolveReceiver_invariant
    (hstep : ∀ s held t s' held', P s held → Request.Effect s held t s' held' → P s' held')
    {f : Callable σ} {receiver : Option ObjectRef} {w w₁ : World σ}
    {ending : Ending (Option ObjectRef)}
    (hr : f.resolveReceiver receiver w = some (ending, w₁)) (h : P w.store w.held) :
    P w₁.store w₁.held := by
  by_cases hneeds : ∃ c, f.NeedsPlaceholder receiver c
  · obtain ⟨c, hc⟩ := hneeds
    rw [resolveReceiver_of_needsPlaceholder hc] at hr
    obtain ⟨⟨made, s⟩, hrun, heq⟩ := Option.map_eq_some_iff.mp hr
    have hmade := Behavior.run_invariant hstep hrun h
    cases made with
    | panicked p =>
        cases heq
        exact hmade
    | done made => cases made <;> cases heq <;> exact hmade
  · rw [resolveReceiver_eq_self fun c hc => hneeds ⟨c, hc⟩] at hr
    cases hr
    exact h

end Invariant

namespace Request.Effect

variable {s s' : Store} {held held' : List CellRef} {target : Option CellRef} {c : CellRef}

theorem grows (h : Effect s held target s' held') : s.Grows s' := by
  cases h with
  | none => exact .refl s
  | alloc immutable _ => exact (s.keeps_alloc _ immutable).grows
  | assign _ _ hassign => exact Store.grows_assign hassign
  | copy hcopy => exact (Store.keeps_of_copy hcopy).grows
  | checkOut _ => exact (s.keeps_checkOut _).grows
  | checkIn _ => exact (s.keeps_checkIn _).grows
  | newObject _ _ => exact .refl s

/-- Native code never makes a bad handle. -/
theorem closed (h : Effect s held target s' held') (hs : s.Closed) : s'.Closed := by
  have hgood : ∀ p : Payload, s.holdsPayload p = true → ∀ d ∈ p.refs, s.holdsCell d = true := by
    intro p hp
    exact List.all_eq_true.mp ((Bool.and_eq_true _ _).mp hp).1
  cases h with
  | none => exact hs
  | alloc immutable hp => exact hs.alloc immutable (hgood _ hp)
  | assign _ hp hassign => exact hs.assign (hgood _ hp) hassign
  | copy hcopy => exact Store.closed_of_copy hcopy hs
  | checkOut _ =>
      exact hs.of_payload_eq (s.keeps_checkOut _).grows fun d => s.payload_modify _ d fun _ => rfl
  | checkIn _ =>
      exact hs.of_payload_eq (s.keeps_checkIn _).grows fun d => s.payload_modify _ d fun _ => rfl
  | newObject _ _ => exact hs

/-- A cell that is not assigned to stays as it is. -/
theorem unchanged (h : Effect s held target s' held') (hc : s.holdsCell c = true)
    (htarget : target ≠ some c) :
    s'.payload c = s.payload c ∧ s'.isImmutable c = s.isImmutable c := by
  have hkeeps : s.Keeps s' → s'.payload c = s.payload c ∧ s'.isImmutable c = s.isImmutable c :=
    fun hk => ⟨hk.payload_eq hc, hk.isImmutable_eq hc⟩
  cases h with
  | none => exact ⟨rfl, rfl⟩
  | alloc immutable _ => exact hkeeps (s.keeps_alloc _ immutable)
  | copy hcopy => exact hkeeps (Store.keeps_of_copy hcopy)
  | checkOut _ => exact hkeeps (s.keeps_checkOut _)
  | checkIn _ => exact hkeeps (s.keeps_checkIn _)
  | newObject _ _ => exact ⟨rfl, rfl⟩
  | @assign d p _ hd _ hassign =>
      have hne : d ≠ c := fun hdc => htarget (hdc ▸ hd)
      refine ⟨?_, ?_⟩
      · rw [Store.payload_assign hassign, if_neg fun hboth => hne hboth.1]
      · obtain ⟨-, rfl⟩ := Store.assign_eq_ok_iff.mp hassign
        unfold Store.isImmutable
        rw [Store.cell?_modify, if_neg hne]

end Request.Effect

namespace Callable

variable {f : Callable σ} {receiver : Option ObjectRef} {w w₁ : World σ}
  {ending : Ending (Option ObjectRef)}

theorem grows_of_resolveReceiver (hr : f.resolveReceiver receiver w = some (ending, w₁)) :
    w.store.Grows w₁.store :=
  resolveReceiver_invariant (P := fun s _ => w.store.Grows s)
    (fun _ _ _ _ _ hs he c hc => he.grows c (hs c hc)) hr (.refl _)

theorem closed_of_resolveReceiver (hr : f.resolveReceiver receiver w = some (ending, w₁))
    (h : w.store.Closed) : w₁.store.Closed :=
  resolveReceiver_invariant (P := fun s _ => s.Closed) (fun _ _ _ _ _ hs he => he.closed hs) hr h

end Callable

/-! ## Writing to some cells alone -/

/-- What native code can come to by requests that assign to some cells alone. -/
inductive Scene.Writes (allowed : CellRef → Prop) (s : Scene σ) : Scene σ → Prop
  | refl : Writes allowed s s
  | step {s' s'' : Scene σ} {r : Request σ} {a : r.Answer} :
      Writes allowed s s' → r.perform s' = some (a, s'') →
      (∀ c, r.target = some c → allowed c) → Writes allowed s s''

namespace Scene.Writes

variable {allowed more : CellRef → Prop} {s s' : Scene σ} {c : CellRef}

theorem mono (h : Writes allowed s s') (hmore : ∀ c, allowed c → more c) : Writes more s s' := by
  induction h with
  | refl => exact .refl
  | step _ hperform hallowed ih => exact .step ih hperform fun c hc => hmore c (hallowed c hc)

theorem grows (h : Writes allowed s s') : s.world.store.Grows s'.world.store := by
  induction h with
  | refl => exact .refl _
  | step _ hperform _ ih => exact fun c hc => (Request.perform_effect hperform).grows c (ih c hc)

theorem unchanged (h : Writes allowed s s') (hc : s.world.store.holdsCell c = true)
    (hnot : ¬allowed c) :
    s'.world.store.payload c = s.world.store.payload c ∧
      s'.world.store.isImmutable c = s.world.store.isImmutable c := by
  induction h with
  | refl => exact ⟨rfl, rfl⟩
  | @step s' s'' r a hwrites hperform hallowed ih =>
      have hkept := (Request.perform_effect hperform).unchanged (hwrites.grows c hc)
        fun htarget => hnot (hallowed c htarget)
      exact ⟨hkept.1.trans ih.1, hkept.2.trans ih.2⟩

end Scene.Writes

end HostCall
