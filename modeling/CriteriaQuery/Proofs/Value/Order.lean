import CriteriaQuery.Proofs.Value.Nearest

/-! The order of the values of a column. Two values have an order just if they are of one kind
(`Value.isSome_order?_iff`), and turning them around turns it around (`Value.order?_swap`). What has
no order counts as level in a sort, so ascending order is transitive on some columns only:
on those that are in order (`Orderly.transCmp`, `Orderly.of_transCmp`). -/
namespace CriteriaQuery
open Std
set_option autoImplicit false

instance : TransOrd Calendar.Date :=
  inferInstanceAs (TransCmp (compareLex (compareOn Calendar.Date.year)
    (compareLex (compareOn Calendar.Date.month) (compareOn Calendar.Date.day))))

theorem Calendar.Date.compare_eq_eq {d e : Calendar.Date} : compare d e = .eq ↔ d = e := by
  obtain ⟨_, _, _, _⟩ := d
  obtain ⟨_, _, _, _⟩ := e
  simp only [Calendar.Date.compare, Ordering.then_eq_eq, Int.compare_eq_eq, Nat.compare_eq_eq,
    Calendar.Date.mk.injEq]

instance : LawfulEqOrd Calendar.Date where
  eq_of_compare := Calendar.Date.compare_eq_eq.mp

theorem isNaN_of_isSome_orderFloats {x y : Float} (h : (orderFloats x y).isSome = true) :
    x.isNaN = false ∧ y.isNaN = false := by
  rw [← Bool.not_eq_true, ← Bool.not_eq_true, ← not_or]
  intro hnan
  rw [orderFloats_eq_none hnan] at h
  cases h

theorem orderFloats_eq_eq_iff {x y : Float} :
    orderFloats x y = some .eq ↔ (x == y) = true := by
  unfold orderFloats
  simp only [float_lt_iff, float_beq_iff]
  rcases x.toModel.unpack.compare y.toModel.unpack with _ | _ | _ | _ <;> simp

namespace Value
variable {a b c : Value}

/-! ## Integers and other numbers -/

theorem float?_eq_nearest {n : Int64} (h : a.int? = some n) : a.float? = some (nearestFloat n) := by
  cases a <;> cases h <;> rfl

theorem order?_int {m n : Int64} (ha : a.int? = some m) (hb : b.int? = some n) :
    a.order? b = some (compare m.toInt n.toInt) := by
  cases a <;> cases ha <;> cases b <;> cases hb <;> rfl

theorem order?_float {x y : Float} (ha : a.float? = some x) (hb : b.float? = some y)
    (h : a.int? = none ∨ b.int? = none) : a.order? b = orderFloats x y := by
  cases a <;> cases ha <;> cases b <;> cases hb <;> first | rfl | simp [int?] at h

theorem integers_or (a b : Value) :
    (∃ m n, a.int? = some m ∧ b.int? = some n) ∨ a.int? = none ∨ b.int? = none := by
  cases a.int? with
  | none => exact .inr (.inl rfl)
  | some m =>
    cases b.int? with
    | none => exact .inr (.inr rfl)
    | some n => exact .inl ⟨m, n, rfl, rfl⟩

theorem isNaN_of_isSome_order? {x y : Float} (ha : a.float? = some x) (hb : b.float? = some y)
    (h : (a.order? b).isSome = true) : x.isNaN = false ∧ y.isNaN = false := by
  rcases integers_or a b with ⟨m, n, hm, hn⟩ | hints
  · cases ha.symm.trans (float?_eq_nearest hm)
    cases hb.symm.trans (float?_eq_nearest hn)
    exact ⟨isNaN_nearestFloat m, isNaN_nearestFloat n⟩
  · rw [order?_float ha hb hints] at h
    exact isNaN_of_isSome_orderFloats h

/-! ## Kinds -/

/-- The kinds of values that have an order among themselves. -/
inductive Kind where
  | bool
  | string
  | date
  | number

/-- A value is of a kind. Null is of none, and neither is the floating-point number that is none. -/
inductive OfKind : Kind → Value → Prop
  | bool (b : Bool) : OfKind .bool (.bool b)
  | string (s : String) : OfKind .string (.string s)
  | date (d : Calendar.Date) : OfKind .date (.date d)
  | number {v : Value} (x : Float) (hx : v.float? = some x) (hnan : x.isNaN = false) :
    OfKind .number v

/-- Where a number stands. -/
def place (v : Value) : Int × Int × Int := (v.float?.map placeOf).getD (0, 0, 0)

/-- Two numbers are in the order of their places, unless both are integers. -/
theorem order?_of_place (ha : OfKind .number a) (hb : OfKind .number b)
    (h : a.int? = none ∨ b.int? = none) : a.order? b = some (comparePlaces a.place b.place) := by
  cases ha with
  | number x hx hxnan =>
    cases hb with
    | number y hy hynan =>
      rw [order?_float hx hy h, orderFloats_eq hxnan hynan, place, place, hx, hy]
      rfl

/-- The order of two integers is kept when both are rounded. -/
theorem isLE_comparePlaces (ha : OfKind .number a) (hb : OfKind .number b) {o : Ordering}
    (ho : a.order? b = some o) (hle : o.isLE = true) :
    (comparePlaces a.place b.place).isLE = true := by
  rcases integers_or a b with ⟨m, n, hm, hn⟩ | hints
  · cases (order?_int hm hn).symm.trans ho
    rw [place, place, float?_eq_nearest hm, float?_eq_nearest hn]
    exact isLE_comparePlaces_nearest (Int.isLE_compare.mp hle)
  · cases (order?_of_place ha hb hints).symm.trans ho
    exact hle

/-- Just values of one kind have an order. -/
theorem isSome_order?_iff : (a.order? b).isSome = true ↔ ∃ kind, OfKind kind a ∧ OfKind kind b := by
  constructor
  · intro h
    cases a <;> cases b <;> first
      | exact ⟨_, .bool _, .bool _⟩
      | exact ⟨_, .string _, .string _⟩
      | exact ⟨_, .date _, .date _⟩
      | have hnan := isNaN_of_isSome_order? rfl rfl h
        exact ⟨_, .number _ rfl hnan.1, .number _ rfl hnan.2⟩
      | cases h
  · rintro ⟨kind, ha, hb⟩
    cases kind with
    | bool => cases ha; cases hb; rfl
    | string => cases ha; cases hb; rfl
    | date => cases ha; cases hb; rfl
    | number =>
      rcases integers_or a b with ⟨m, n, hm, hn⟩ | hints
      · rw [order?_int hm hn]
        rfl
      · rw [order?_of_place ha hb hints]
        rfl

theorem OfKind.unique {kind kind' : Kind} (h : OfKind kind a) (h' : OfKind kind' a) :
    kind = kind' := by
  cases h <;> cases h' <;> first | rfl | simp_all [float?]

theorem order?_swap (a b : Value) : b.order? a = (a.order? b).map Ordering.swap := by
  by_cases h : (a.order? b).isSome = true
  · obtain ⟨kind, ha, hb⟩ := isSome_order?_iff.mp h
    cases kind with
    | bool =>
      cases ha
      cases hb
      exact congrArg some OrientedCmp.eq_swap
    | string =>
      cases ha
      cases hb
      exact congrArg some OrientedCmp.eq_swap
    | date =>
      cases ha
      cases hb
      exact congrArg some OrientedCmp.eq_swap
    | number =>
      rcases integers_or a b with ⟨m, n, hm, hn⟩ | hints
      · rw [order?_int hm hn, order?_int hn hm]
        exact congrArg some OrientedCmp.eq_swap
      · rw [order?_of_place ha hb hints, order?_of_place hb ha hints.symm]
        exact congrArg some (comparePlaces_swap _ _)
  · have hnone : (b.order? a).isSome = false := by
      rw [← Bool.not_eq_true]
      intro hsome
      obtain ⟨kind, hb, ha⟩ := isSome_order?_iff.mp hsome
      exact h (isSome_order?_iff.mpr ⟨kind, ha, hb⟩)
    rw [Bool.not_eq_true] at h
    rw [Option.isSome_eq_false_iff, Option.isNone_iff_eq_none] at h hnone
    rw [h, hnone]
    rfl

theorem OfKind.ne_null {kind : Kind} (h : OfKind kind a) : a ≠ .null := by
  rintro rfl
  cases h with
  | number x hx => cases hx

/-! ## Transitivity -/

section
variable {o₁ o₂ o₃ : Ordering}

/-- The order of numbers is transitive, unless one that is rounded is equal to two integers. -/
theorem isLE_trans_number (ka : OfKind .number a) (kb : OfKind .number b) (kc : OfKind .number c)
    (hab : a.order? b = some o₁) (hbc : b.order? c = some o₂) (hac : a.order? c = some o₃)
    (hapart : b.int? = none → ∀ m n, a.int? = some m → c.int? = some n →
      o₁ = .eq → o₂ = .eq → m = n)
    (h₁ : o₁.isLE = true) (h₂ : o₂.isLE = true) : o₃.isLE = true := by
  have hplaces₁ := isLE_comparePlaces ka kb hab h₁
  have hplaces₂ := isLE_comparePlaces kb kc hbc h₂
  rcases integers_or a c with ⟨m, n, hm, hn⟩ | hints
  · cases (order?_int hm hn).symm.trans hac
    cases hb : b.int? with
    | some k =>
      cases (order?_int hm hb).symm.trans hab
      cases (order?_int hb hn).symm.trans hbc
      exact TransCmp.isLE_trans h₁ h₂
    | none =>
      cases (order?_of_place ka kb (.inr hb)).symm.trans hab
      cases (order?_of_place kb kc (.inl hb)).symm.trans hbc
      rw [Int.isLE_compare]
      by_contra hlt
      -- rounding keeps `c` before `a`, so that all three share a place
      have hca : (comparePlaces c.place a.place).isLE = true :=
        isLE_comparePlaces kc ka (order?_int hn hm) (Int.isLE_compare.mpr (by omega))
      have hba := TransCmp.isLE_trans hplaces₂ hca
      have hcb := TransCmp.isLE_trans hca hplaces₁
      have hmn := hapart hb m n hm hn (OrientedCmp.isLE_antisymm hplaces₁ hba)
        (OrientedCmp.isLE_antisymm hplaces₂ hcb)
      rw [hmn] at hlt
      exact hlt (Int.le_refl _)
  · cases (order?_of_place ka kc hints).symm.trans hac
    exact TransCmp.isLE_trans hplaces₁ hplaces₂

theorem isLE_trans_of_kind {kind : Kind} (ka : OfKind kind a) (kb : OfKind kind b)
    (kc : OfKind kind c) (hab : a.order? b = some o₁) (hbc : b.order? c = some o₂)
    (hac : a.order? c = some o₃)
    (hapart : b.int? = none → ∀ m n, a.int? = some m → c.int? = some n →
      o₁ = .eq → o₂ = .eq → m = n)
    (h₁ : o₁.isLE = true) (h₂ : o₂.isLE = true) : o₃.isLE = true := by
  cases kind with
  | number => exact isLE_trans_number ka kb kc hab hbc hac hapart h₁ h₂
  | bool =>
    cases ka; cases kb; cases kc; cases hab; cases hbc; cases hac
    exact TransCmp.isLE_trans h₁ h₂
  | string =>
    cases ka; cases kb; cases kc; cases hab; cases hbc; cases hac
    exact TransCmp.isLE_trans h₁ h₂
  | date =>
    cases ka; cases kb; cases kc; cases hab; cases hbc; cases hac
    exact TransCmp.isLE_trans h₁ h₂

end

theorem OfKind.of_int {m : Int64} (h : a.int? = some m) : OfKind .number a :=
  .number _ (float?_eq_nearest h) (isNaN_nearestFloat m)

theorem OfKind.eq_float64 (h : OfKind .number a) (hint : a.int? = none) :
    ∃ x, a = .float64 x := by
  cases h with
  | number x hx => cases a <;> first | exact ⟨_, rfl⟩ | (cases hint; done) | cases hx

theorem equal_int {m n : Int64} (ha : a.int? = some m) (hb : b.int? = some n) :
    a.equal b = (m == n) := by
  cases a <;> cases ha <;> cases b <;> cases hb <;> rfl

theorem beq_iff_compare {α : Type} [DecidableEq α] [Ord α] [LawfulEqOrd α] {x y : α} :
    (x == y) = true ↔ some (compare x y) = some .eq := by
  rw [beq_iff_eq, Option.some.injEq, LawfulEqCmp.compare_eq_iff_eq]

/-- Two values are equal if they are side by side. -/
theorem equal_iff_order? : a.equal b = true ↔ a.order? b = some .eq := by
  rcases integers_or a b with ⟨m, n, hm, hn⟩ | hints
  · rw [equal_int hm hn, order?_int hm hn, beq_iff_eq, Option.some.injEq, Int.compare_eq_eq,
      Int64.toInt_inj]
  · cases a <;> cases b <;> first
      | exact orderFloats_eq_eq_iff.symm
      | exact iff_of_false Bool.false_ne_true nofun
      | simp [int?] at hints; done
      | exact beq_iff_compare

/-- Asking for a side or for equality is the same as asking for one after the other. -/
theorem any_or_equal (test : Ordering → Bool) (a b : Value) :
    (a.order? b).any (fun side => test side || side.isEq) =
      ((a.order? b).any test || a.equal b) := by
  have hequal : a.equal b = (a.order? b).any (·.isEq) := by
    rw [Bool.eq_iff_iff, equal_iff_order?, Option.any_eq_true]
    simp only [Ordering.isEq_iff_eq_eq, exists_eq_right]
  rw [hequal]
  cases a.order? b <;> rfl

theorem equal_comm (a b : Value) : a.equal b = b.equal a := by
  rw [Bool.eq_iff_iff, equal_iff_order?, equal_iff_order?, order?_swap b a, Option.map_eq_some_iff]
  simp only [Ordering.swap_eq_eq, exists_eq_right]

theorem equal_self (h : a.equal b = true) : a.equal a = true := by
  cases a with
  | null => cases b <;> cases h
  | float64 x =>
    have hnumber : ∃ y, (x == y) = true := by
      cases b with
      | int32 n => exact ⟨_, h⟩
      | int64 n => exact ⟨_, h⟩
      | float64 y => exact ⟨_, h⟩
      | _ => cases h
    obtain ⟨y, hy⟩ := hnumber
    exact float_beq_self hy
  | _ => simp [equal, int?]

/-! ## Ascending order -/

theorem ascending_of_ne_null (ha : a ≠ .null) (hb : b ≠ .null) :
    ascending a b = (a.order? b).getD .eq := by
  cases a <;> first | exact absurd rfl ha | (cases b <;> first | exact absurd rfl hb | rfl)

theorem ascending_of_order? {o : Ordering} (h : a.order? b = some o) : ascending a b = o := by
  obtain ⟨kind, ka, kb⟩ := isSome_order?_iff.mp (Option.isSome_of_eq_some h)
  rw [ascending_of_ne_null ka.ne_null kb.ne_null, h]
  rfl

theorem ascending_of_no_order (ha : a ≠ .null) (hb : b ≠ .null) (h : ¬(a.order? b).isSome = true) :
    ascending a b = .eq := by
  rw [ascending_of_ne_null ha hb, Option.not_isSome_iff_eq_none.mp h]
  rfl

theorem ascending_null_left (hb : b ≠ .null) : ascending .null b = .lt := by
  cases b <;> first | exact absurd rfl hb | rfl

theorem ascending_null_right (ha : a ≠ .null) : ascending a .null = .gt := by
  cases a <;> first | exact absurd rfl ha | rfl

theorem ascending_swap (a b : Value) : ascending b a = (ascending a b).swap := by
  by_cases ha : a = .null <;> by_cases hb : b = .null
  · rw [ha, hb]
    rfl
  · rw [ha, ascending_null_left hb, ascending_null_right hb]
    rfl
  · rw [hb, ascending_null_left ha, ascending_null_right ha]
    rfl
  · rw [ascending_of_ne_null ha hb, ascending_of_ne_null hb ha, order?_swap a b]
    cases a.order? b <;> rfl

theorem sortOrder_swap (direction : Direction) (a b : Value) :
    sortOrder direction b a = (sortOrder direction a b).swap := by
  cases direction with
  | ascending => exact ascending_swap a b
  | descending => exact congrArg Ordering.swap (ascending_swap a b)

end Value

/-! ## Columns -/

/-- The values of a column are in order. As soon as one of them comes before another, each has an
order with it, and no floating-point number is equal to two different integers. -/
structure Orderly (column : Set Value) : Prop where
  comparable : ∀ a ∈ column, ∀ b ∈ column, a.order? b = some .lt →
    ∀ c ∈ column, c ≠ .null → (a.order? c).isSome = true
  apart : ∀ x, .float64 x ∈ column → ∀ a ∈ column, ∀ b ∈ column, ∀ m n,
    a.int? = some m → b.int? = some n → a.equal (.float64 x) = true →
      b.equal (.float64 x) = true → m = n

section
variable {column : Set Value}

instance (column : Set Value) : OrientedCmp fun a b : column => Value.ascending a b where
  eq_swap := Value.ascending_swap _ _

theorem Orderly.of_transCmp (h : TransCmp fun a b : column => Value.ascending a b) :
    Orderly column where
  comparable := by
    intro a ha b hb hlt c hc hnull
    by_contra hnone
    obtain ⟨kind, ka, kb⟩ := Value.isSome_order?_iff.mp (Option.isSome_of_eq_some hlt)
    -- what has no order with `a` has none with `b` either, so that `a` and `b` are level
    have hcb : ¬(c.order? b).isSome = true := by
      intro hsome
      obtain ⟨kind', kc, kb'⟩ := Value.isSome_order?_iff.mp hsome
      cases kb.unique kb'
      exact hnone (Value.isSome_order?_iff.mpr ⟨kind, ka, kc⟩)
    have hab : Value.ascending a b = .eq := @TransCmp.eq_trans _ _ h ⟨a, ha⟩ ⟨c, hc⟩ ⟨b, hb⟩
      (Value.ascending_of_no_order ka.ne_null hnull hnone)
      (Value.ascending_of_no_order hnull kb.ne_null hcb)
    rw [Value.ascending_of_order? hlt] at hab
    cases hab
  apart := by
    intro x hx a ha b hb m n hm hn hax hbx
    have hax' := Value.ascending_of_order? (Value.equal_iff_order?.mp hax)
    have hxb : Value.ascending (.float64 x) b = .eq := by
      rw [Value.ascending_swap, Value.ascending_of_order? (Value.equal_iff_order?.mp hbx)]
      rfl
    have hab : Value.ascending a b = .eq :=
      @TransCmp.eq_trans _ _ h ⟨a, ha⟩ ⟨_, hx⟩ ⟨b, hb⟩ hax' hxb
    rw [Value.ascending_of_order? (Value.order?_int hm hn), Int.compare_eq_eq] at hab
    exact Int64.toInt_inj.mp hab

/-- Values of one kind are in order as long as none of them is a floating-point number. -/
theorem Orderly.of_kind {kind : Value.Kind}
    (h : ∀ v ∈ column, v = .null ∨ Value.OfKind kind v) (hfloat : ∀ x, .float64 x ∉ column) :
    Orderly column where
  comparable := by
    intro a ha b hb hlt c hc hnull
    obtain ⟨kind', ka, -⟩ := Value.isSome_order?_iff.mp (Option.isSome_of_eq_some hlt)
    exact Value.isSome_order?_iff.mpr
      ⟨kind, (h a ha).resolve_left ka.ne_null, (h c hc).resolve_left hnull⟩
  apart := fun x hx => absurd hx (hfloat x)

theorem Orderly.transCmp (h : Orderly column) :
    TransCmp fun a b : column => Value.ascending a b where
  isLE_trans := by
    rintro ⟨a, ha⟩ ⟨b, hb⟩ ⟨c, hc⟩ hab hbc
    simp only at hab hbc ⊢
    by_cases hanull : a = .null
    · subst hanull
      cases c <;> rfl
    by_cases hbnull : b = .null
    · rw [hbnull, Value.ascending_null_right hanull] at hab
      cases hab
    by_cases hcnull : c = .null
    · rw [hcnull, Value.ascending_null_right hbnull] at hbc
      cases hbc
    by_contra hgt
    have hca : c.order? a = some .lt := by
      rw [Value.ascending_of_ne_null hanull hcnull] at hgt
      rw [Value.order?_swap a c]
      generalize a.order? c = o at hgt ⊢
      rcases o with _ | _ | _ | _ <;> first | exact (hgt rfl).elim | rfl
    -- `c` comes before `a`, so that all three are of one kind
    obtain ⟨kind, kc, ka⟩ := Value.isSome_order?_iff.mp (Option.isSome_of_eq_some hca)
    obtain ⟨kind', kc', kb⟩ := Value.isSome_order?_iff.mp (h.comparable c hc a ha hca b hb hbnull)
    cases kc.unique kc'
    obtain ⟨o₁, ho₁⟩ := Option.isSome_iff_exists.mp (Value.isSome_order?_iff.mpr ⟨_, ka, kb⟩)
    obtain ⟨o₂, ho₂⟩ := Option.isSome_iff_exists.mp (Value.isSome_order?_iff.mpr ⟨_, kb, kc⟩)
    obtain ⟨o₃, ho₃⟩ := Option.isSome_iff_exists.mp (Value.isSome_order?_iff.mpr ⟨_, ka, kc⟩)
    rw [Value.ascending_of_order? ho₁] at hab
    rw [Value.ascending_of_order? ho₂] at hbc
    rw [Value.ascending_of_order? ho₃] at hgt
    refine hgt (Value.isLE_trans_of_kind ka kb kc ho₁ ho₂ ho₃ ?_ hab hbc)
    rintro hbint m n hm hn rfl rfl
    cases ka.unique (Value.OfKind.of_int hm)
    obtain ⟨x, rfl⟩ := kb.eq_float64 hbint
    have hcb : c.order? (.float64 x) = some .eq := by
      rw [Value.order?_swap (.float64 x) c, ho₂]
      rfl
    exact h.apart x hb a ha c hc m n hm hn (Value.equal_iff_order?.mpr ho₁)
      (Value.equal_iff_order?.mpr hcb)

end

end CriteriaQuery
