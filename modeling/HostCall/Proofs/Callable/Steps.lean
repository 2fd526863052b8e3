import HostCall.Callable.Invoke

/-!
# The steps of a call

Each step of a call, with what it needs to know to be taken: whether a placeholder is asked for,
whether an overload is found, how marshalling ends.  A step that never comes back is the last.  Code
that runs in between reports to the environment of the call, but cannot give it another location or
another way with panics.
-/

namespace HostCall

variable {σ α : Type}

/-! ## The environment while native code runs -/

/-- Environments of one caller, with the same or different reports. -/
structure Environment.SameCaller (env env' : Environment) : Prop where
  location_eq : env'.location = env.location
  translatesPanics_eq : env'.translatesPanics = env.translatesPanics

namespace Environment.SameCaller

variable {env env' env'' : Environment}

@[refl] theorem refl (env : Environment) : env.SameCaller env := ⟨rfl, rfl⟩

theorem trans (h : env.SameCaller env') (h' : env'.SameCaller env'') : env.SameCaller env'' :=
  ⟨h'.location_eq.trans h.location_eq, h'.translatesPanics_eq.trans h.translatesPanics_eq⟩

end Environment.SameCaller

theorem Environment.sameCaller_report (env : Environment) (d : Diagnostic) :
    env.SameCaller (env.report d) := ⟨rfl, rfl⟩

/-- The environment after a request. -/
def Request.envAfter (env : Environment) : Request σ → Environment
  | .report d => env.report d
  | .takeDiagnostics => env.takeDiagnostics.2
  | _ => env

theorem Request.env_of_perform {r : Request σ} {s s' : Scene σ} {a : r.Answer}
    (h : r.perform s = some (a, s')) : s'.world.env = r.envAfter s.world.env := by
  obtain ⟨f, w⟩ := s
  cases r with
  | inspect => cases h; rfl
  | setHost x => cases h; rfl
  | take t i => cases h; rfl
  | report d => cases h; rfl
  | takeDiagnostics => cases h; rfl
  | assign c p =>
      simp only [perform] at h
      split at h
      · split at h
        · cases h; rfl
        · cases h; rfl
      · cases h
  | checkIn c =>
      simp only [perform] at h
      split at h
      · cases h; rfl
      · cases h; rfl
  | copy c immutable =>
      simp only [perform] at h
      split at h
      · obtain ⟨x, -, ⟨⟩⟩ := Option.map_eq_some_iff.mp h
        rfl
      · cases h
  | _ =>
      simp only [perform] at h
      split at h
      · cases h; rfl
      · cases h

theorem Request.perform_sameCaller {r : Request σ} {s s' : Scene σ} {a : r.Answer}
    (h : r.perform s = some (a, s')) : s.world.env.SameCaller s'.world.env := by
  rw [env_of_perform h]
  cases r with
  | report d => exact s.world.env.sameCaller_report d
  | takeDiagnostics => exact ⟨rfl, rfl⟩
  | _ => rfl

/-- What the steps of native code keep and its end does not undo, the whole run gives. -/
theorem Behavior.run_induct {P : Scene σ → Scene σ → Prop} {b : Behavior σ α} {s s' : Scene σ}
    {ending : Ending α} (hrun : b.run s = some (ending, s')) (hrefl : ∀ s, P s s)
    (hstep : ∀ (r : Request σ) (s s' s'' : Scene σ) (a : r.Answer),
      r.perform s = some (a, s') → P s' s'' → P s s'') : P s s' := by
  induction b generalizing s with
  | done a =>
      cases hrun
      exact hrefl _
  | panic p =>
      cases hrun
      exact hrefl _
  | ask r next ih =>
      rw [run] at hrun
      split at hrun
      · cases hrun
      · cases hr : r.perform s with
        | none =>
            rw [hr] at hrun
            cases hrun
            exact hrefl _
        | some x =>
            rw [hr] at hrun
            exact hstep r s x.2 s' x.1 hr (ih x.1 hrun)

/-- Native code runs in an environment of its caller to the end. -/
theorem Behavior.run_sameCaller {b : Behavior σ α} {s s' : Scene σ} {ending : Ending α}
    (h : b.run s = some (ending, s')) : s.world.env.SameCaller s'.world.env :=
  run_induct (P := fun s s' => s.world.env.SameCaller s'.world.env) h (fun s => .refl s.world.env)
    fun _ _ _ _ _ hr ih => (Request.perform_sameCaller hr).trans ih

/-! ## What a step gives -/

namespace Overload

variable {o : Overload σ} {signature : String} {receiver : Option ObjectRef} {args : List CellRef}
  {w : World σ} {b : Bindings}

theorem call_of_none
    (hm : marshal w.env.location args.length 0 o.slots args ⟨w.store, []⟩ = none) :
    o.call signature receiver args w = none := by
  unfold call
  simp only [hm]

theorem call_of_error {e : MarshalError}
    (hm : marshal w.env.location args.length 0 o.slots args ⟨w.store, []⟩ = some (.error e, b)) :
    o.call signature receiver args w =
      (e.toFailure signature b.store w.env.location).map fun failure =>
        (.failed failure, { w with store := b.release }) := by
  unfold call
  simp only [hm]

theorem call_of_ok {arguments : List Argument}
    (hm : marshal w.env.location args.length 0 o.slots args ⟨w.store, []⟩ =
      some (.ok arguments, b)) :
    o.call signature receiver args w =
      (o.implementation.body.run ⟨.start receiver arguments, { w with store := b.store }⟩).bind
        fun x => (o.settle signature w.env.location x.1 x.2).map fun y =>
          (y.1, { y.2 with store := y.2.store.checkInAll b.bound }) := by
  unfold call
  simp only [hm]
  split <;> simp_all

end Overload

namespace Callable

variable {f : Callable σ} {receiver : Option ObjectRef} {args : List CellRef} {w : World σ}

/-- A method that is not static is called without a receiver, so its class is asked for one. -/
structure NeedsPlaceholder (f : Callable σ) (receiver : Option ObjectRef) (c : DeclaringClass σ) :
    Prop where
  receiver_eq : receiver = none
  declaring_eq : f.declaring = some c
  isStatic_eq : f.identity.isStatic = false

/-- What a call makes of the end of a placeholder factory. -/
def received (f : Callable σ) (l : Location) :
    Ending (Option ObjectRef) → World σ → Ending (Option ObjectRef) × World σ
  | .done none, w =>
      (.done none, w.report ⟨.fatal,
        "Non-static method " ++ f.signature ++ "() cannot be called statically", l⟩)
  | ending, w => (ending, w)

theorem resolveReceiver_of_needsPlaceholder {c : DeclaringClass σ}
    (h : f.NeedsPlaceholder receiver c) :
    f.resolveReceiver receiver w = (c.newMock.run ⟨.start none [], w⟩).map fun x =>
      f.received w.env.location x.1 x.2.world := by
  obtain ⟨rfl, hc, hs⟩ := h
  unfold resolveReceiver
  simp only [hc, hs]
  cases c.newMock.run ⟨.start none [], w⟩ with
  | none => rfl
  | some x =>
      obtain ⟨ending, scene⟩ := x
      cases ending with
      | panicked p => rfl
      | done made => cases made <;> rfl

theorem resolveReceiver_eq_self (h : ∀ c, ¬f.NeedsPlaceholder receiver c) :
    f.resolveReceiver receiver w = some (.done receiver, w) := by
  unfold resolveReceiver
  cases receiver with
  | some o => rfl
  | none =>
      cases hc : f.declaring with
      | none => rfl
      | some c =>
          have hs : f.identity.isStatic = true :=
            Bool.of_not_eq_false fun hs => h c ⟨rfl, hc, hs⟩
          simp only [hs, ↓reduceIte]

theorem invoke_of_isAbstract (h : f.identity.isAbstract = true) :
    f.invoke receiver args w =
      some (w.report ⟨.fatal, "Cannot call abstract method " ++ f.signature,
        w.env.location⟩).returnNull := by
  unfold invoke
  simp only [h, ↓reduceIte]

theorem invoke_of_stalled (h : f.identity.isAbstract = false)
    (hr : f.resolveReceiver receiver w = none) : f.invoke receiver args w = none := by
  unfold invoke
  simp only [h, Bool.false_eq_true, ↓reduceIte, hr]

theorem invoke_of_panicked {p : PanicPayload} {w₁ : World σ}
    (h : f.identity.isAbstract = false) (hr : f.resolveReceiver receiver w = some (.panicked p, w₁)) :
    f.invoke receiver args w = some (.unwound p, w₁) := by
  unfold invoke
  simp only [h, Bool.false_eq_true, ↓reduceIte, hr]

theorem invoke_of_find?_eq_none {r : Option ObjectRef} {w₁ : World σ}
    (h : f.identity.isAbstract = false) (hr : f.resolveReceiver receiver w = some (.done r, w₁))
    (hfind : f.table.find? args.length = none) :
    f.invoke receiver args w =
      some (w₁.report ⟨.warning, (f.table.countProblem args.length).message f.name args.length,
        w.env.location⟩).returnNull := by
  unfold invoke
  simp only [h, Bool.false_eq_true, ↓reduceIte, hr, hfind]

theorem invoke_of_find?_eq_some {r : Option ObjectRef} {w₁ : World σ} {o : Overload σ}
    (h : f.identity.isAbstract = false) (hr : f.resolveReceiver receiver w = some (.done r, w₁))
    (hfind : f.table.find? args.length = some o) :
    f.invoke receiver args w = o.call f.signature r args w₁ := by
  unfold invoke
  simp only [h, Bool.false_eq_true, ↓reduceIte, hr, hfind]

/-- What is so after a receiver was asked for, and stays so when a call gives up or an overload is
called, is so after every call. -/
theorem invoke_invariant {P : World σ → Prop} {result : CallResult} {w' : World σ}
    (h : f.invoke receiver args w = some (result, w')) (hw : P w)
    (hreceived : ∀ ending w₁, f.resolveReceiver receiver w = some (ending, w₁) → P w₁)
    (hgivesUp : ∀ w₁ d, P w₁ → P (w₁.report d).returnNull.2)
    (hcall : ∀ r w₁ o result w', f.resolveReceiver receiver w = some (.done r, w₁) →
      f.table.find? args.length = some o → P w₁ →
      o.call f.signature r args w₁ = some (result, w') → P w') : P w' := by
  cases habs : f.identity.isAbstract with
  | true =>
      rw [invoke_of_isAbstract habs] at h
      cases h
      exact hgivesUp w _ hw
  | false =>
      cases hr : f.resolveReceiver receiver w with
      | none =>
          rw [invoke_of_stalled habs hr] at h
          cases h
      | some x =>
          obtain ⟨ending, w₁⟩ := x
          have hreceived := hreceived ending w₁ hr
          cases ending with
          | panicked p =>
              rw [invoke_of_panicked habs hr] at h
              cases h
              exact hreceived
          | done r =>
              cases hfind : f.table.find? args.length with
              | none =>
                  rw [invoke_of_find?_eq_none habs hr hfind] at h
                  cases h
                  exact hgivesUp w₁ _ hreceived
              | some o =>
                  rw [invoke_of_find?_eq_some habs hr hfind] at h
                  exact hcall r w₁ o result w' hr hfind hreceived h

end Callable
end HostCall
