import HostCall.Proofs.Callable.Entry
import HostCall.Proofs.Callable.Registration
import HostCall.Proofs.Overload.Inheritance

/-!
# Where calls go while declarations gather

An addition and a link put overloads where the place is free, and touch none that is there.  So
until something is removed every overload keeps its arity, the variadic one included, and a number
of arguments that reached an overload reaches another one in one case only: it went to the variadic
overload, and a fixed overload of exactly this number has come.
-/

namespace HostCall

variable {σ : Type}

namespace OverloadTable

variable {t u v : OverloadTable σ} {o p : Overload σ} {entry : Nat × Overload σ}
  {order : List (Nat × Overload σ)} {k n : Nat}

/-- Every overload of one table is in the other, at the same arity. -/
def Extends (t u : OverloadTable σ) : Prop := ∀ k o, t.get? k = some o → u.get? k = some o

namespace Extends

theorem refl (t : OverloadTable σ) : t.Extends t := fun _ _ ho => ho

theorem trans (h : t.Extends u) (h' : u.Extends v) : t.Extends v :=
  fun k o ho => h' k o (h k o ho)

end Extends

theorem extends_put (hfree : t.get? k = none) : t.Extends (t.put k o) := by
  intro j p hp
  rw [get?_put]
  split
  · next hj =>
    rw [hj, hfree] at hp
    cases hp
  · exact hp

theorem extends_inherit : t.Extends (t.inherit entry) :=
  fun _ _ ho => get?_inherit_eq_some_iff.mpr (.inl ho)

theorem extends_foldl_inherit : t.Extends (order.foldl inherit t) := by
  induction order generalizing t with
  | nil => exact .refl t
  | cons entry order ih => exact extends_inherit.trans ih

namespace Extends

theorem variadic?_eq (h : t.Extends u) (ht : t.Sound) (hu : u.Sound) (ho : t.variadic? = some o) :
    u.variadic? = some o := by
  obtain ⟨k, hget, hv⟩ := ht.variadic?_eq_some_iff.mp ho
  exact hu.variadic?_eq_some_iff.mpr ⟨k, h k o hget, hv⟩

theorem isVariadic_eq_false (h : t.Extends u) (hu : u.Sound) (hfree : t.get? n = none)
    (hp : u.get? n = some p) (ho : t.get? k = some o) (hv : o.isVariadic = true) :
    p.isVariadic = false := by
  rw [Bool.eq_false_iff]
  intro hpv
  obtain rfl : n = k := hu.eq_of_variadic hp (h k o ho) hpv hv
  rw [hfree] at ho
  cases ho

/-- What `n` arguments reach changes from nothing to something, or from the variadic overload to a
fixed one of arity `n`, or not at all. -/
theorem find?_eq_or (h : t.Extends u) (ht : t.Sound) (hu : u.Sound) (n : Nat) :
    u.find? n = t.find? n ∨
    (t.find? n = none ∧ ∃ p, u.find? n = some p) ∨
    ∃ o p, t.find? n = some o ∧ t.variadic? = some o ∧
      u.find? n = some p ∧ p.isVariadic = false ∧ p.arity = n := by
  cases hfind : t.find? n with
  | none =>
      cases hp : u.find? n with
      | none => exact .inl rfl
      | some p => exact .inr (.inl ⟨rfl, p, rfl⟩)
  | some o =>
      rcases find?_eq_some_iff.mp hfind with hget | ⟨hfree, hvar, hmin⟩
      · exact .inl (find?_of_get? (h n o hget))
      · cases hp : u.get? n with
        | none =>
            left
            exact find?_eq_some_iff.mpr (.inr ⟨hp, h.variadic?_eq ht hu hvar, hmin⟩)
        | some p =>
            right
            right
            obtain ⟨k, hget, hv⟩ := ht.variadic?_eq_some_iff.mp hvar
            exact ⟨o, p, rfl, hvar, find?_of_get? hp,
              h.isVariadic_eq_false hu hfree hp hget hv, hu.arity_eq n p hp⟩

end Extends

end OverloadTable

namespace Callable

variable {f : Callable σ} {e : Edit σ} {es : List (Edit σ)}

def Edit.isRemoval : Edit σ → Bool
  | .remove _ => true
  | _ => false

theorem extends_edit (hf : f.Reachable) (he : e.isRemoval = false) :
    f.table.Extends (f.edit e).table := by
  cases e with
  | add serial d r mode =>
      have hadds := adds hf.table.sound serial d r mode
      change f.table.Extends (f.after (f.add serial d r mode)).table
      generalize f.add serial d r mode = answer at hadds ⊢
      cases hadds with
      | unbound _ => exact .refl f.table
      | skipped _ => exact .refl f.table
      | refused _ _ => exact .refl f.table
      | kept _ _ => exact .refl f.table
      | inserted _ _ hnone =>
          exact OverloadTable.extends_put (hf.table.sound.obstacle?_eq_none_iff.mp hnone).1
  | remove arity => cases he
  | setPrototype _ _ => exact OverloadTable.extends_foldl_inherit

theorem extends_edits (hf : f.Reachable) (hes : ∀ e ∈ es, e.isRemoval = false) :
    f.table.Extends (f.edits es).table := by
  induction es generalizing f with
  | nil => exact .refl f.table
  | cons e es ih =>
      obtain ⟨he, hrest⟩ := List.forall_mem_cons.mp hes
      exact (extends_edit hf he).trans (ih (hf.edit e) hrest)

/-- From any point of a history on, as long as nothing is removed: an overload keeps its arity, the
variadic overload stays the variadic one, and the answer for a number of arguments changes from
nothing to an overload, or from the variadic overload to a fixed one of exactly this arity, or stays
what it is. -/
theorem registration_keeps_routes (hf : f.Reachable) (hes : ∀ e ∈ es, e.isRemoval = false) :
    (∀ k o, f.table.get? k = some o → (f.edits es).table.get? k = some o) ∧
    (∀ o, f.table.variadic? = some o → (f.edits es).table.variadic? = some o) ∧
    ∀ n, (f.edits es).table.find? n = f.table.find? n ∨
      (f.table.find? n = none ∧ ∃ p, (f.edits es).table.find? n = some p) ∨
      ∃ o p, f.table.find? n = some o ∧ f.table.variadic? = some o ∧
        (f.edits es).table.find? n = some p ∧ p.isVariadic = false ∧ p.arity = n := by
  have hextends : f.table.Extends (f.edits es).table := extends_edits hf hes
  have hbefore : f.table.Sound := hf.table.sound
  have hafter : (f.edits es).table.Sound := (hf.edits es).table.sound
  exact ⟨hextends, fun o => hextends.variadic?_eq hbefore hafter,
    hextends.find?_eq_or hbefore hafter⟩

/-- Adds a second variadic declaration, which is skipped, and a fixed one, and inherits from a
callable with two cells. -/
def gatherings : List (Edit Unit) :=
  [.add 1 collect .builtin .tolerant, .add 2 OverloadTable.single .builtin .strict,
    .setPrototype (declared_reachable OverloadTable.pair) (.refl _)]

/-- One argument comes to the fixed overload in place of the variadic one, which is still there
although the prototype has an overload of its arity. -/
theorem registration_keeps_routes_gatherings :
    (declared OverloadTable.gather).Reachable ∧
    ∃ o p, (declared OverloadTable.gather).table.find? 1 = some o ∧
      ((declared OverloadTable.gather).edits gatherings).table.find? 1 = some p ∧
      p.isVariadic = false ∧ p.arity = 1 ∧
      ((declared OverloadTable.gather).edits gatherings).table.variadic? = some o := by
  have hf : (declared OverloadTable.gather).Reachable := declared_reachable OverloadTable.gather
  have hes : ∀ e ∈ gatherings, e.isRemoval = false := by simp [gatherings, Edit.isRemoval]
  obtain ⟨-, hvariadic, hfind⟩ := registration_keeps_routes hf hes
  have hbefore : ((declared OverloadTable.gather).table.find? 1).map Overload.arity = some 2 := by
    decide +kernel
  have hafter : (((declared OverloadTable.gather).edits gatherings).table.find? 1).map
      Overload.arity = some 1 := by
    decide +kernel
  rcases hfind 1 with hsame | ⟨hnone, -⟩ | ⟨o, p, ho, hv, hp, hfixed, harity⟩
  · rw [hsame, hbefore] at hafter
    cases hafter
  · rw [hnone] at hbefore
    cases hbefore
  · exact ⟨hf, o, p, ho, hp, hfixed, harity, hvariadic o hv⟩

end Callable

end HostCall
