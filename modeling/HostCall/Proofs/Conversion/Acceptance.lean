import HostCall.Proofs.Conversion.Roundtrip

/-!
# Acceptance of arguments

Which values a data type accepts, and what it says of the others, told by the shape of the type.  A
conversion accepts just these, and null besides where the parameter is nullable.  That excuse is
given once, before the type is looked at, so it reaches no element of a list.
-/

namespace HostCall

variable {α β ε : Type}

theorem exists_mapM_eq_ok_iff {f : α → Except ε β} {xs : List α} :
    (∃ ys, xs.mapM f = .ok ys) ↔ ∀ x ∈ xs, ∃ y, f x = .ok y := by
  induction xs with
  | nil => exact ⟨fun _ => nofun, fun _ => ⟨[], rfl⟩⟩
  | cons x xs ih =>
      rw [List.forall_mem_cons, ← ih, List.mapM_cons]
      cases f x with
      | error e => simp [bind, Except.bind]
      | ok y => cases xs.mapM f <;> simp [bind, Except.bind, pure, Except.pure]

/-- The first element that a function refuses decides the error for a list. -/
theorem mapM_eq_error_iff {f : α → Except ε β} {xs : List α} {err : ε} :
    xs.mapM f = .error err ↔
      ∃ before x after, xs = before ++ x :: after ∧ (∀ y ∈ before, ∃ b, f y = .ok b) ∧
        f x = .error err := by
  constructor
  · intro h
    induction xs with
    | nil => cases h
    | cons y ys ih =>
        rw [List.mapM_cons] at h
        cases hy : f y with
        | error e =>
            rw [hy] at h
            cases h
            exact ⟨[], y, ys, rfl, nofun, hy⟩
        | ok b =>
            rw [hy] at h
            cases hys : ys.mapM f with
            | ok bs =>
                rw [hys] at h
                cases h
            | error e =>
                rw [hys] at h
                cases h
                obtain ⟨before, x, after, rfl, hall, hx⟩ := ih hys
                exact ⟨y :: before, x, after, rfl, List.forall_mem_cons.mpr ⟨⟨b, hy⟩, hall⟩, hx⟩
  · rintro ⟨before, x, after, rfl, hall, hx⟩
    induction before with
    | nil => simp [List.mapM_cons, hx, bind, Except.bind]
    | cons y ys ih =>
        obtain ⟨⟨b, hb⟩, hall⟩ := List.forall_mem_cons.mp hall
        rw [List.cons_append, List.mapM_cons, hb, ih hall]
        rfl

namespace DataType

variable {d e : DataType} {k : IntKind} {v : Value} {err : ConversionError}

/-- The values of a type.  Integers have to be in range, and stand for floating-point numbers as
well; a list has elements of its type alone. -/
inductive Conforms : DataType → Value → Prop
  | unit : Conforms .unit .null
  | bool (b : Bool) : Conforms .bool (.scalar (.bool b))
  | int {k : IntKind} {w : BoundedInt .i64} :
      k.min ≤ w.val → w.val ≤ k.max → Conforms (.int k) (.scalar (.int w))
  | float32 (x : Binary64) : Conforms .float32 (.scalar (.float x))
  | float32OfInt (w : BoundedInt .i64) : Conforms .float32 (.scalar (.int w))
  | float64 (x : Binary64) : Conforms .float64 (.scalar (.float x))
  | float64OfInt (w : BoundedInt .i64) : Conforms .float64 (.scalar (.int w))
  | text (t : String) : Conforms .text (.scalar (.text t))
  | object (o : ObjectRef) : Conforms .object (.scalar (.object o))
  | list {e : DataType} {vs : List Value} :
      (∀ v ∈ vs, Conforms e v) → Conforms (.list e) (.array vs)

/-- The kinds of value that a type is read from. -/
def kinds : DataType → List Kind
  | .unit => [.null]
  | .bool => [.bool]
  | .int _ => [.int]
  | .float32 | .float64 => [.float, .int]
  | .text => [.string]
  | .object => [.object]
  | .list _ => [.array]

/-- What a type says of a value that it does not accept. -/
inductive Refuses : DataType → Value → ConversionError → Prop
  | null {d : DataType} : d ≠ .unit → Refuses d .null (.nullValue d.target)
  | kind {d : DataType} {v : Value} :
      v.kind ≠ .null → v.kind ∉ d.kinds → Refuses d v (.typeMismatch d.expected v.kind.name)
  | range {k : IntKind} {w : BoundedInt .i64} :
      ¬(k.min ≤ w.val ∧ w.val ≤ k.max) →
      Refuses (.int k) (.scalar (.int w)) (.integerOverflow w.val k.name)
  /-- The first element that is not accepted. -/
  | element {e : DataType} {before after : List Value} {v : Value} {err : ConversionError} :
      (∀ u ∈ before, Conforms e u) → Refuses e v err →
      Refuses (.list e) (.array (before ++ v :: after)) err

theorem decode_of_kind_notMem (h : v.kind ∉ d.kinds) : d.decode v = .error (d.refusal v) := by
  cases v with
  | scalar y => cases d <;> cases y <;> first | rfl | simp [kinds, Value.kind, Scalar.kind] at h
  | array vs => cases d <;> first | rfl | simp [kinds, Value.kind] at h

theorem refusal_null (h : d ≠ .unit) : d.refusal .null = .nullValue d.target :=
  if_pos ⟨h, rfl⟩

theorem refusal_of_kind_ne_null (h : v.kind ≠ .null) :
    d.refusal v = .typeMismatch d.expected v.kind.name :=
  if_neg fun hnull => h hnull.2

/-! ## Reading against the shape of the type -/

theorem exists_decode_of_conforms (h : d.Conforms v) : ∃ x, d.decode v = .ok x := by
  induction h with
  | int hmin hmax =>
      obtain ⟨x, hx⟩ := Option.isSome_iff_exists.mp (BoundedInt.ofInt?_isSome_iff.mpr ⟨hmin, hmax⟩)
      exact ⟨x, by rw [decode, hx]⟩
  | list _ ih => exact exists_mapM_eq_ok_iff.mpr ih
  | _ => exact ⟨_, rfl⟩

theorem conforms_of_decode {x : d.Carrier} (h : d.decode v = .ok x) : d.Conforms v := by
  induction d generalizing v with
  | list e ih =>
      cases v with
      | scalar y => cases y <;> cases h
      | array vs =>
          apply Conforms.list
          intro u hu
          obtain ⟨y, hy⟩ := exists_mapM_eq_ok_iff.mp ⟨x, h⟩ u hu
          exact ih hy
  | int k =>
      cases v with
      | scalar y =>
          obtain ⟨w, hw, rfl⟩ := decode_int_eq_ok_iff.mp h
          exact .int (hw ▸ x.min_le) (hw ▸ x.le_max)
      | array vs => cases h
  | _ =>
      cases v with
      | scalar y => cases y <;> cases h <;> constructor
      | array vs => cases h

theorem decode_of_refuses (h : d.Refuses v err) : d.decode v = .error err := by
  induction h with
  | @null d hd =>
      have hkind : Kind.null ∉ d.kinds := by
        cases d <;> simp [kinds] at hd ⊢
      rw [decode_of_kind_notMem hkind, refusal_null hd]
  | kind hnull hkind => rw [decode_of_kind_notMem hkind, refusal_of_kind_ne_null hnull]
  | @range k w hrange =>
      have hnone : BoundedInt.ofInt? k w.val = none := dif_neg hrange
      rw [decode, hnone]
  | element hall _ ih =>
      rw [decode, mapM_eq_error_iff]
      exact ⟨_, _, _, rfl, fun u hu => exists_decode_of_conforms (hall u hu), ih⟩

theorem refuses_of_kind_notMem (hkind : v.kind ∉ d.kinds) (h : d.decode v = .error err) :
    d.Refuses v err := by
  cases (decode_of_kind_notMem hkind).symm.trans h
  by_cases hnull : v.kind = .null
  · obtain rfl : v = .null := by
      cases v with
      | scalar y => cases y <;> cases hnull; rfl
      | array vs => cases hnull
    have hd : d ≠ .unit := by
      rintro rfl
      exact hkind List.mem_cons_self
    rw [refusal_null hd]
    exact .null hd
  · rw [refusal_of_kind_ne_null hnull]
    exact .kind hnull hkind

theorem refuses_of_decode (h : d.decode v = .error err) : d.Refuses v err := by
  induction d generalizing v with
  | list e ih =>
      cases v with
      | scalar y =>
          apply refuses_of_kind_notMem _ h
          cases y <;> simp [kinds, Value.kind, Scalar.kind]
      | array vs =>
          obtain ⟨before, u, after, rfl, hall, hu⟩ := mapM_eq_error_iff.mp h
          refine .element (fun y hy => ?_) (ih hu)
          obtain ⟨x, hx⟩ := hall y hy
          exact conforms_of_decode hx
  | int k =>
      by_cases hkind : v.kind = .int
      · obtain ⟨w, rfl⟩ : ∃ w, v = .scalar (.int w) := by
          cases v with
          | scalar y => cases y <;> cases hkind; exact ⟨_, rfl⟩
          | array vs => cases hkind
        by_cases hrange : k.min ≤ w.val ∧ w.val ≤ k.max
        · obtain ⟨x, hx⟩ := exists_decode_of_conforms (.int hrange.1 hrange.2)
          cases hx.symm.trans h
        · cases (decode_of_refuses (.range hrange)).symm.trans h
          exact .range hrange
      · exact refuses_of_kind_notMem (by simpa [kinds] using hkind) h
  | _ =>
      apply refuses_of_kind_notMem _ h
      cases v with
      | scalar y => cases y <;> first | cases h; done | simp [kinds, Value.kind, Scalar.kind]
      | array vs => simp [kinds, Value.kind]

/-- A type is read from the values that conform to it. -/
theorem exists_decode_iff : (∃ x, d.decode v = .ok x) ↔ d.Conforms v :=
  ⟨fun ⟨_, hx⟩ => conforms_of_decode hx, exists_decode_of_conforms⟩

/-- Reading fails with what the type says of the value. -/
theorem decode_eq_error_iff : d.decode v = .error err ↔ d.Refuses v err :=
  ⟨refuses_of_decode, decode_of_refuses⟩

theorem conforms_null_iff : d.Conforms .null ↔ d = .unit := by
  constructor
  · intro h
    cases h
    rfl
  · rintro rfl
    exact .unit

end DataType

namespace Conversion

variable {d : DataType} {s : Store} {p q : ParameterSpec} {m c : CellRef} {err : ConversionError}

/-- A nullable parameter is given null. -/
def Excused (s : Store) (p : ParameterSpec) (m : CellRef) : Prop :=
  p.nullable = true ∧ s.payload m = .null

/-- Null in an element is null in the value. -/
theorem null_mem_value {items : List CellRef} {vs : List Value}
    (hitems : s.payload m = .array items) (hc : c ∈ items) (hnull : s.payload c = .null)
    (hvs : s.value m = .array vs) : .null ∈ vs := by
  have hnullc : s.valueWithin s.cells.size c = .null := by
    cases s.cells.size with
    | zero => rfl
    | succ n => rw [Store.valueWithin_succ, hnull]
  rw [Store.value, Store.levels, Store.valueWithin_succ, hitems] at hvs
  cases hvs
  exact List.mem_map.mpr ⟨c, hc, hnullc⟩

theorem toHost_of_excused (h : Excused s p m) : (ofData d).toHost s p m = .ok .null := by
  simp [ofData, h.1, h.2, Payload.isNull]

theorem toHost_of_not_excused (h : ¬Excused s p m) :
    (ofData d).toHost s p m =
      (d.decode (s.valueWithin d.levels m)).map fun v => .host ⟨.data d, v⟩ := by
  apply if_neg
  simpa [Excused, Payload.isNull] using h

theorem toHost_eq_ok_iff_of_not_excused {a : Argument} {x : Value} (h : ¬Excused s p m)
    (hx : s.Reads m x) :
    (ofData d).toHost s p m = .ok a ↔ ∃ v, d.decode x = .ok v ∧ a = .host ⟨.data d, v⟩ := by
  rw [toHost_of_not_excused h, DataType.decode_valueWithin hx]
  cases d.decode x <;> simp [Except.map, eq_comm]

theorem toHost_eq_error_iff_of_not_excused {x : Value} (h : ¬Excused s p m) (hx : s.Reads m x) :
    (ofData d).toHost s p m = .error err ↔ d.decode x = .error err := by
  rw [toHost_of_not_excused h, DataType.decode_valueWithin hx]
  cases d.decode x <;> simp [Except.map]

/-- A conversion accepts null where the parameter is nullable, and otherwise the values that conform
to its type.  Whatever else it is given it refuses with what the type says of the value, and of a
list that is the first element's that does not conform.  For a cell that does not hold null itself
the parameter plays no part, so a null inside a list is refused even where the parameter is
nullable. -/
theorem accepts_exactly (hacyclic : s.AcyclicFrom m) (d : DataType) (p : ParameterSpec) :
    (Excused s p m → (ofData d).toHost s p m = .ok .null) ∧
    ((∃ a, (ofData d).toHost s p m = .ok a) ↔ Excused s p m ∨ d.Conforms (s.value m)) ∧
    (¬Excused s p m → ∀ a, (ofData d).toHost s p m = .ok a →
      ∃ v, d.decode (s.value m) = .ok v ∧ a = .host ⟨.data d, v⟩) ∧
    (∀ err, (ofData d).toHost s p m = .error err ↔
      ¬Excused s p m ∧ d.Refuses (s.value m) err) ∧
    (s.payload m ≠ .null → ∀ q, (ofData d).toHost s q m = (ofData d).toHost s p m) ∧
    ∀ e items c, e ≠ .unit → s.payload m = .array items → c ∈ items → s.payload c = .null →
      ∀ a, (ofData (.list e)).toHost s p m ≠ .ok a := by
  have hreads := Store.reads_value hacyclic
  refine ⟨toHost_of_excused, ?_, fun h a => (toHost_eq_ok_iff_of_not_excused h hreads).mp, ?_, ?_,
    ?_⟩
  · by_cases h : Excused s p m
    · exact ⟨fun _ => .inl h, fun _ => ⟨_, toHost_of_excused h⟩⟩
    · rw [or_iff_right h, ← DataType.exists_decode_iff]
      constructor
      · rintro ⟨a, ha⟩
        obtain ⟨v, hv, -⟩ := (toHost_eq_ok_iff_of_not_excused h hreads).mp ha
        exact ⟨v, hv⟩
      · rintro ⟨v, hv⟩
        exact ⟨_, (toHost_eq_ok_iff_of_not_excused h hreads).mpr ⟨v, hv, rfl⟩⟩
  · intro err
    by_cases h : Excused s p m
    · simp [toHost_of_excused h, h]
    · rw [toHost_eq_error_iff_of_not_excused h hreads, DataType.decode_eq_error_iff]
      exact (and_iff_right h).symm
  · intro hnull q
    have hnot : ∀ r, ¬Excused s r m := fun r hr => hnull hr.2
    rw [toHost_of_not_excused (hnot q), toHost_of_not_excused (hnot p)]
  · intro e items c he hitems hc hnull a ha
    have hnot : ¬Excused s p m := fun h => by cases hitems.symm.trans h.2
    obtain ⟨v, hv, -⟩ := (toHost_eq_ok_iff_of_not_excused hnot hreads).mp ha
    have hconforms : (DataType.list e).Conforms (s.value m) := DataType.conforms_of_decode hv
    have hmem : ∀ vs, s.value m = .array vs → .null ∈ vs :=
      fun vs => null_mem_value hitems hc hnull
    generalize s.value m = x at hconforms hmem
    cases hconforms with
    | list hall => exact he (DataType.conforms_null_iff.mp (hall .null (hmem _ rfl)))

/-- A number beyond a byte, a null, a list of both, and a list of that list. -/
def mixedStore : Store where
  cells := #[⟨.scalar (.int ⟨300, by decide, by decide⟩), false, 0⟩, ⟨.null, true, 0⟩,
    ⟨.array [⟨0⟩, ⟨1⟩], false, 0⟩, ⟨.array [⟨2⟩, ⟨1⟩], false, 0⟩]
  objects := #[]

/-- For a nullable parameter the list is refused for its number as bytes and for its null as wide
integers, also inside the other list, while null itself is accepted. -/
theorem accepts_exactly_mixedStore :
    mixedStore.Acyclic ∧
    (ofData (.list (.int .u8))).toHost mixedStore ⟨"bytes", true⟩ ⟨2⟩ =
      .error (.integerOverflow 300 "u8") ∧
    (ofData (.list (.list (.int .i64)))).toHost mixedStore ⟨"grid", true⟩ ⟨3⟩ =
      .error (.nullValue "i64") ∧
    (∀ a, (ofData (.list (.int .i64))).toHost mixedStore ⟨"list", true⟩ ⟨2⟩ ≠ .ok a) ∧
    (ofData (.list (.int .i64))).toHost mixedStore ⟨"list", true⟩ ⟨1⟩ = .ok .null := by
  obtain ⟨-, hacyclic⟩ := Store.closed_and_acyclic_of_all (s := mixedStore) (by decide +kernel)
  have hrefused : ∀ m d p err, ¬Excused mixedStore p m →
      d.Refuses (mixedStore.value m) err → (ofData d).toHost mixedStore p m = .error err := by
    intro m d p err hnot hrefuses
    obtain ⟨-, -, -, herror, -⟩ := accepts_exactly (fun e _ => hacyclic e) d p
    exact (herror err).mpr ⟨hnot, hrefuses⟩
  obtain ⟨-, -, -, -, -, hnulls⟩ :=
    accepts_exactly (m := ⟨2⟩) (fun e _ => hacyclic e) .unit ⟨"list", true⟩
  obtain ⟨hexcused, -⟩ :=
    accepts_exactly (m := ⟨1⟩) (fun e _ => hacyclic e) (.list (.int .i64)) ⟨"list", true⟩
  refine ⟨hacyclic, ?_, ?_, ?_, hexcused ⟨rfl, rfl⟩⟩
  · apply hrefused ⟨2⟩ _ _ _ nofun
    exact @DataType.Refuses.element _ [] [.null] _ _ nofun (.range (by decide))
  · apply hrefused ⟨3⟩ _ _ _ nofun
    refine @DataType.Refuses.element _ [] [.null] _ _ nofun ?_
    refine @DataType.Refuses.element _ [.scalar (.int ⟨300, by decide, by decide⟩)] [] _ _ ?_
      (.null nofun)
    exact List.forall_mem_singleton.mpr (.int (by decide) (by decide))
  · exact hnulls (.int .i64) [⟨0⟩, ⟨1⟩] ⟨1⟩ nofun rfl (by simp) rfl

end Conversion

end HostCall
