import HostCall.Conversion.Basic
import HostCall.Proofs.Store.Reads

/-!
# Conversions and back

Reading and writing of host values meet in the dynamic value that a cell stands for.  Writing is
total but for integers beyond the dynamic range, what was written is read as it was, and what could
be read is written as the value that it was read from, unless an integer was read as a number of the
floating kind.
-/

namespace HostCall

/-- Mapping succeeds just if it succeeds on each. -/
theorem mapM_eq_ok_iff {ε α β : Type} {f : α → Except ε β} {xs : List α} {ys : List β} :
    xs.mapM f = .ok ys ↔ List.Forall₂ (fun x y => f x = .ok y) xs ys := by
  constructor
  · intro h
    induction xs generalizing ys with
    | nil =>
        cases h
        exact .nil
    | cons x xs ih =>
        rw [List.mapM_cons] at h
        cases hx : f x with
        | error e =>
            rw [hx] at h
            cases h
        | ok y =>
            rw [hx] at h
            cases hxs : xs.mapM f with
            | error e =>
                rw [hxs] at h
                cases h
            | ok rest =>
                rw [hxs] at h
                cases h
                exact .cons hx (ih hxs)
  · intro h
    induction h with
    | nil => rfl
    | cons hx _ ih =>
        rw [List.mapM_cons, hx, ih]
        rfl

/-- Every scalar that a cell leads to is a number of the floating kind. -/
def Store.HoldsFloats (s : Store) (c : CellRef) : Prop :=
  ∀ e y, s.Reaches c e → s.payload e = .scalar y → y.kind = .float

namespace DataType

/-- The type inside all lists. -/
def leaf : DataType → DataType
  | .list e => e.leaf
  | d => d

/-- The types that have a dynamic value for each of their values, and another for another. -/
def exactLeaves : List DataType :=
  [.unit, .bool, .int .i8, .int .i16, .int .i32, .int .i64, .int .u8, .int .u16, .int .u32,
    .float64, .text, .object]

variable {d : DataType} {k : IntKind} {x : Value} {s : Store} {c m : CellRef}

theorem leaf_ne_float32 (h : d.leaf ∈ exactLeaves) : d.leaf ≠ .float32 := by
  intro hleaf
  rw [hleaf] at h
  revert h
  decide

theorem bounds_of_mem_exactLeaves (h : .int k ∈ exactLeaves) :
    IntKind.i64.min ≤ k.min ∧ k.max ≤ IntKind.i64.max := by
  obtain ⟨signed, width⟩ := k
  revert h
  cases signed <;> cases width <;> decide

/-! ## Writing -/

theorem encode_int_eq_ok_iff {v : BoundedInt k} :
    (int k).encode v = .ok x ↔ ∃ w : BoundedInt .i64, w.val = v.val ∧ x = .scalar (.int w) := by
  rw [encode]
  constructor
  · intro h
    cases hw : BoundedInt.ofInt? .i64 v.val with
    | none =>
        rw [hw] at h
        cases h
    | some w =>
        rw [hw] at h
        cases h
        exact ⟨w, (BoundedInt.ofInt?_eq_some_iff.mp hw).symm, rfl⟩
  · rintro ⟨w, hw, rfl⟩
    rw [← hw, BoundedInt.ofInt?_val]

theorem encode_int_of_lt {v : BoundedInt k} (hlt : IntKind.i64.max < v.val) :
    (int k).encode v = .error (.integerOverflow v.val IntKind.i64.name) := by
  have hnone : BoundedInt.ofInt? .i64 v.val = none := by
    rw [BoundedInt.ofInt?, dif_neg]
    omega
  rw [encode, hnone]

theorem encode_list_eq_ok_iff {vs : List d.Carrier} :
    (list d).encode vs = .ok x ↔
      ∃ xs, List.Forall₂ (fun v x => d.encode v = .ok x) vs xs ∧ x = .array xs := by
  rw [encode]
  constructor
  · intro h
    cases hxs : vs.mapM d.encode with
    | error e =>
        rw [hxs] at h
        cases h
    | ok xs =>
        rw [hxs] at h
        cases h
        exact ⟨xs, mapM_eq_ok_iff.mp hxs, rfl⟩
  · rintro ⟨xs, hall, rfl⟩
    rw [mapM_eq_ok_iff.mpr hall]
    rfl

/-- Every value of an exact type is written. -/
theorem exists_encode_eq_ok (h : d.leaf ∈ exactLeaves) (v : d.Carrier) :
    ∃ x, d.encode v = .ok x := by
  induction d with
  | int k =>
      obtain ⟨hmin, hmax⟩ := bounds_of_mem_exactLeaves h
      exact ⟨_, encode_int_eq_ok_iff.mpr
        ⟨⟨v.val, hmin.trans v.min_le, v.le_max.trans hmax⟩, rfl, rfl⟩⟩
  | list e ih =>
      obtain ⟨xs, hxs⟩ : ∃ xs, List.Forall₂ (fun v x => e.encode v = .ok x) v xs := by
        induction v with
        | nil => exact ⟨[], .nil⟩
        | cons y ys ihs =>
            obtain ⟨x, hx⟩ := ih h y
            obtain ⟨xs, hxs⟩ := ihs
            exact ⟨x :: xs, .cons hx hxs⟩
      exact ⟨_, encode_list_eq_ok_iff.mpr ⟨xs, hxs, rfl⟩⟩
  | float32 => exact absurd rfl (leaf_ne_float32 h)
  | _ => exact ⟨_, rfl⟩

/-! ## Reading -/

theorem decode_int_eq_ok_iff {v : BoundedInt k} {y : Scalar} :
    (int k).decode (.scalar y) = .ok v ↔ ∃ w : BoundedInt .i64, w.val = v.val ∧ y = .int w := by
  constructor
  · intro h
    cases y with
    | int w =>
        rw [decode] at h
        cases hv : BoundedInt.ofInt? k w.val with
        | none =>
            rw [hv] at h
            cases h
        | some u =>
            rw [hv] at h
            cases h
            exact ⟨w, BoundedInt.ofInt?_eq_some_iff.mp hv, rfl⟩
    | _ => cases h
  · rintro ⟨w, hw, rfl⟩
    rw [decode, hw, BoundedInt.ofInt?_val]

theorem decode_list_eq_ok_iff {xs : List Value} {vs : List d.Carrier} :
    (list d).decode (.array xs) = .ok vs ↔
      List.Forall₂ (fun x v => d.decode x = .ok v) xs vs := by
  rw [decode]
  exact mapM_eq_ok_iff

/-- What is written is read as it was. -/
theorem decode_of_encode {v : d.Carrier} (hd : d.leaf ≠ .float32) (h : d.encode v = .ok x) :
    d.decode x = .ok v := by
  induction d generalizing x with
  | unit | bool | float64 | text | object => cases h; rfl
  | float32 => exact absurd rfl hd
  | int k =>
      obtain ⟨w, hw, rfl⟩ := encode_int_eq_ok_iff.mp h
      exact decode_int_eq_ok_iff.mpr ⟨w, hw, rfl⟩
  | list e ih =>
      obtain ⟨xs, hxs, rfl⟩ := encode_list_eq_ok_iff.mp h
      apply decode_list_eq_ok_iff.mpr
      apply List.Forall₂.flip
      exact hxs.imp fun v x hv => ih hd hv

/-- What is read from a scalar is written as that scalar. -/
theorem encode_of_decode_scalar {v : d.Carrier} {y : Scalar} (hd : d ≠ .float32)
    (hfloat : d = .float64 → y.kind = .float) (h : d.decode (.scalar y) = .ok v) :
    d.encode v = .ok (.scalar y) := by
  cases d with
  | float32 => exact absurd rfl hd
  | list e => cases y <;> cases h
  | unit | bool | text | object => cases y <;> cases h; rfl
  | float64 =>
      cases y with
      | float z => cases h; rfl
      | _ => cases hfloat rfl
  | int k =>
      obtain ⟨w, hw, rfl⟩ := decode_int_eq_ok_iff.mp h
      exact encode_int_eq_ok_iff.mpr ⟨w, hw, rfl⟩

/-! ## Reading cells -/

/-- A cell is read as its whole value is read. -/
theorem decode_valueWithin (h : s.Reads c x) : d.decode (s.valueWithin d.levels c) = d.decode x := by
  induction d generalizing c x with
  | list e ih =>
      rw [levels, Store.valueWithin_succ]
      cases h with
      | scalar hc => rw [hc]
      | array hc hitems =>
          rw [hc, decode, decode]
          rw [Store.readsAll_iff] at hitems
          clear hc
          induction hitems with
          | nil => rfl
          | cons hc _ ihs => rw [List.map_cons, List.mapM_cons, List.mapM_cons, ih hc, ihs]
  | _ =>
      rw [levels, Store.valueWithin_succ]
      cases h with
      | scalar hc => rw [hc]
      | array hc _ =>
          rw [hc]
          rfl

theorem exists_readsAll {items : List CellRef} {vs : List d.Carrier}
    (h : List.Forall₂ (fun c v => ∃ x, s.Reads c x ∧ d.encode v = .ok x) items vs) :
    ∃ xs, s.ReadsAll items xs ∧ List.Forall₂ (fun v x => d.encode v = .ok x) vs xs := by
  induction h with
  | nil => exact ⟨[], .nil, .nil⟩
  | cons hc _ ih =>
      obtain ⟨x, hx, hencode⟩ := hc
      obtain ⟨xs, hxs, hrest⟩ := ih
      exact ⟨x :: xs, .cons hx hxs, .cons hencode hrest⟩

/-- What is read from a cell is written as the value of that cell. -/
theorem exists_reads_of_decode {v : d.Carrier} (hd : d.leaf ≠ .float32)
    (hfloat : d.leaf = .float64 → s.HoldsFloats m)
    (h : d.decode (s.valueWithin d.levels m) = .ok v) :
    ∃ x, s.Reads m x ∧ d.encode v = .ok x := by
  induction d generalizing m with
  | list e ih =>
      rw [levels, Store.valueWithin_succ] at h
      cases hm : s.payload m with
      | scalar y =>
          rw [hm] at h
          cases y <;> cases h
      | array items =>
          rw [hm] at h
          have hitem : ∀ c ∈ items, ∀ u, e.decode (s.valueWithin e.levels c) = .ok u →
              ∃ x, s.Reads c x ∧ e.encode u = .ok x := by
            intro c hc u hu
            have hmc : s.Holds m c := by
              rw [Store.Holds, hm]
              exact hc
            apply ih hd _ hu
            exact fun hleaf a y ha hy => hfloat hleaf a y (.head hmc ha) hy
          have hall := List.forall₂_map_left_iff.mp (decode_list_eq_ok_iff.mp h)
          have hboth := (List.forall₂_and_left items v).mpr ⟨hitem, hall⟩
          obtain ⟨xs, hreads, hencode⟩ := exists_readsAll (hboth.imp fun c u hcu => hcu.1 u hcu.2)
          exact ⟨.array xs, .array hm hreads, encode_list_eq_ok_iff.mpr ⟨xs, hencode, rfl⟩⟩
  | _ =>
      rw [levels, Store.valueWithin_succ] at h
      cases hm : s.payload m with
      | scalar y =>
          rw [hm] at h
          refine ⟨.scalar y, .scalar hm, encode_of_decode_scalar hd (fun hleaf => ?_) h⟩
          exact hfloat hleaf m y (.refl s m) hm
      | array items =>
          rw [hm] at h
          cases h

end DataType

namespace Conversion

variable {d : DataType} {s : Store} {p : ParameterSpec} {m c : CellRef}

/-- The cell that a value becomes when native code sets it as its result, and the store after. -/
def write (conv : Conversion) (b : Boxed) (s : Store) : Except ConversionError (CellRef × Store) :=
  (conv.fromHost s (some b)).map fun produced => produced.realize s

theorem write_ofData {v : d.Carrier} {x : Value} (h : d.encode v = .ok x) :
    ∃ c s', (ofData d).write ⟨.data d, v⟩ s = .ok (c, s') ∧ s.Makes x c s' := by
  refine ⟨(s.build false x).1, (s.build false x).2, ?_, s.makes_build x⟩
  simp [write, ofData, h, Except.map, Produced.realize]

/-- A conversion makes null of null where it may, and a value of its type of anything else that it
accepts. -/
theorem toHost_ofData_eq_ok_iff {a : Argument} :
    (ofData d).toHost s p m = .ok a ↔
      (a = .null ∧ p.nullable = true ∧ (s.payload m).isNull = true) ∨
      ((∃ v, a = .host ⟨.data d, v⟩ ∧ d.decode (s.valueWithin d.levels m) = .ok v) ∧
        ¬(p.nullable = true ∧ (s.payload m).isNull = true)) := by
  change (if p.nullable && (s.payload m).isNull then Except.ok Argument.null
    else (d.decode (s.valueWithin d.levels m)).map fun v => Argument.host ⟨.data d, v⟩) = .ok a ↔ _
  by_cases hnull : p.nullable = true ∧ (s.payload m).isNull = true
  · rw [if_pos ((Bool.and_eq_true _ _).mpr hnull)]
    constructor
    · intro h
      cases h
      exact .inl ⟨rfl, hnull⟩
    · rintro (⟨rfl, -⟩ | ⟨-, hnot⟩)
      · rfl
      · exact absurd hnull hnot
  · rw [if_neg fun hand => hnull ((Bool.and_eq_true _ _).mp hand)]
    constructor
    · intro h
      cases hdecode : d.decode (s.valueWithin d.levels m) with
      | error e =>
          rw [hdecode] at h
          cases h
      | ok v =>
          rw [hdecode] at h
          cases h
          exact .inr ⟨⟨v, rfl, rfl⟩, hnull⟩
    · rintro (⟨-, hyes⟩ | ⟨⟨v, rfl, hdecode⟩, -⟩)
      · exact absurd hyes hnull
      · rw [hdecode]
        rfl

theorem toHost_ofData_eq_ok_iff_of_not_nullable {a : Argument} (hp : p.nullable = false) :
    (ofData d).toHost s p m = .ok a ↔
      ∃ v, a = .host ⟨.data d, v⟩ ∧ d.decode (s.valueWithin d.levels m) = .ok v := by
  simp [toHost_ofData_eq_ok_iff, hp]

/-- A value is written, and what is read from the cell is the value again. -/
def Recovers (conv : Conversion) (p : ParameterSpec) (s : Store) (b : Boxed) : Prop :=
  ∃ c s', conv.write b s = .ok (c, s') ∧ conv.toHost s' p c = .ok (.host b)

/-- Whatever is read from a cell is written as a new cell of the same value, made anew at every
depth. -/
def Rewrites (conv : Conversion) (p : ParameterSpec) (s : Store) (m : CellRef) : Prop :=
  ∀ a, conv.toHost s p m = .ok a → ∃ b x c s', a = .host b ∧ s.Reads m x ∧
    conv.write b s = .ok (c, s') ∧ s.Makes x c s'

theorem recovers_of_encode {v : d.Carrier} {x : Value} (hp : p.nullable = false)
    (hd : d.leaf ≠ .float32) (h : d.encode v = .ok x) : (ofData d).Recovers p s ⟨.data d, v⟩ := by
  obtain ⟨c, s', hwrite, hmakes⟩ := write_ofData (s := s) h
  refine ⟨c, s', hwrite, (toHost_ofData_eq_ok_iff_of_not_nullable hp).mpr ⟨v, rfl, ?_⟩⟩
  rw [DataType.decode_valueWithin hmakes.reads]
  exact DataType.decode_of_encode hd h

theorem rewrites_ofData (hp : p.nullable = false) (hd : d.leaf ≠ .float32)
    (hfloat : d.leaf = .float64 → s.HoldsFloats m) : (ofData d).Rewrites p s m := by
  intro a ha
  obtain ⟨v, rfl, hdecode⟩ := (toHost_ofData_eq_ok_iff_of_not_nullable hp).mp ha
  obtain ⟨x, hreads, hencode⟩ := DataType.exists_reads_of_decode hd hfloat hdecode
  obtain ⟨c, s', hwrite, hmakes⟩ := write_ofData hencode
  exact ⟨_, x, c, s', rfl, hreads, hwrite, hmakes⟩

theorem write_ofData_eq_error {v : d.Carrier} {e : ConversionError} (h : d.encode v = .error e) :
    (ofData d).write ⟨.data d, v⟩ s = .error e := by
  simp [write, ofData, h, Except.map]

/-- For parameters that are not nullable conversions are exact in both directions.  Every value of
an exact type is recovered, and what is read from a cell is written as a new cell of the same value;
with floating-point numbers the scalars of the cell have to be such numbers.  So it is with integers
of 64 bits without a sign, but those beyond the dynamic range are refused in writing.  A raw cell
crosses as itself. -/
theorem exact_both_ways (s : Store) (hp : p.nullable = false) :
    (∀ d : DataType, d.leaf ∈ DataType.exactLeaves →
      (∀ v : d.Carrier, (ofData d).Recovers p s ⟨.data d, v⟩) ∧
      ∀ m, (d.leaf = .float64 → s.HoldsFloats m) → (ofData d).Rewrites p s m) ∧
    (∀ v : BoundedInt .u64,
      (v.val ≤ IntKind.i64.max →
        (ofData (.int .u64)).Recovers p s ⟨.data (.int .u64), v⟩) ∧
      (IntKind.i64.max < v.val →
        (ofData (.int .u64)).write ⟨.data (.int .u64), v⟩ s =
          .error (.integerOverflow v.val "i64"))) ∧
    (∀ m, (ofData (.int .u64)).Rewrites p s m) ∧
    (∀ m, passthrough.toHost s p m = .ok (.cell m) ∧
      passthrough.write ⟨.cell, m⟩ s = .ok (m, s)) := by
  refine ⟨fun d hd => ⟨fun v => ?_, fun m hfloat => ?_⟩, fun v => ⟨fun hle => ?_, fun hlt => ?_⟩,
    fun m => ?_, fun m => ⟨rfl, ?_⟩⟩
  · obtain ⟨x, hx⟩ := DataType.exists_encode_eq_ok hd v
    exact recovers_of_encode hp (DataType.leaf_ne_float32 hd) hx
  · exact rewrites_ofData hp (DataType.leaf_ne_float32 hd) hfloat
  · have hmin : IntKind.i64.min ≤ v.val := le_trans (by decide) v.min_le
    exact recovers_of_encode hp nofun
      (DataType.encode_int_eq_ok_iff.mpr ⟨⟨v.val, hmin, hle⟩, rfl, rfl⟩)
  · exact write_ofData_eq_error (DataType.encode_int_of_lt hlt)
  · exact rewrites_ofData hp nofun nofun
  · simp [write, passthrough, Except.map, Produced.realize]

/-- Two lists of one list of one number. -/
def sharedStore : Store where
  cells := #[⟨.scalar (.int ⟨5, by decide, by decide⟩), true, 0⟩, ⟨.array [⟨0⟩, ⟨0⟩], true, 0⟩,
    ⟨.array [⟨1⟩, ⟨1⟩], true, 0⟩]
  objects := #[]

/-- The lists come back with no cell shared, the greatest integer without a sign fits in 32 bits and
is refused in 64. -/
theorem exact_both_ways_sharedStore :
    (ofData (.list (.list (.int .u32)))).Recovers ⟨"grid", false⟩ sharedStore
      ⟨.data (.list (.list (.int .u32))), [[⟨4294967295, by decide, by decide⟩], []]⟩ ∧
    (∃ x c s', sharedStore.Reads ⟨2⟩ x ∧
      (ofData (.list (.list (.int .u8)))).write ⟨.data (.list (.list (.int .u8))),
        [[⟨5, by decide, by decide⟩, ⟨5, by decide, by decide⟩],
          [⟨5, by decide, by decide⟩, ⟨5, by decide, by decide⟩]]⟩ sharedStore = .ok (c, s') ∧
      sharedStore.Makes x c s') ∧
    (ofData (.int .u64)).write
        ⟨.data (.int .u64), ⟨18446744073709551615, by decide, by decide⟩⟩ sharedStore =
      .error (.integerOverflow 18446744073709551615 "i64") := by
  obtain ⟨hexact, hlong, -, -⟩ := exact_both_ways (p := ⟨"grid", false⟩) sharedStore rfl
  have hread : (ofData (.list (.list (.int .u8)))).toHost sharedStore ⟨"grid", false⟩ ⟨2⟩ =
      .ok (.host ⟨.data (.list (.list (.int .u8))),
        [[⟨5, by decide, by decide⟩, ⟨5, by decide, by decide⟩],
          [⟨5, by decide, by decide⟩, ⟨5, by decide, by decide⟩]]⟩) := rfl
  have hrewrites : (ofData (.list (.list (.int .u8)))).Rewrites ⟨"grid", false⟩ sharedStore ⟨2⟩ :=
    (hexact _ (by decide)).2 ⟨2⟩ nofun
  refine ⟨(hexact _ (by decide)).1 _, ?_, (hlong _).2 (by decide)⟩
  obtain ⟨b, x, c, s', hb, hx, hwrite, hmakes⟩ := hrewrites _ hread
  cases hb
  exact ⟨x, c, s', hx, hwrite, hmakes⟩

end Conversion

end HostCall
