import CriteriaQuery.Value.Order
import Mathlib

/-! Floating-point numbers by their places. A number has a sign, and a finite one an exponent and a
mantissa besides; the order of numbers is the order of these (`orderFloats_eq`), so that apart from
the one that is no number it is total and transitive. -/
namespace CriteriaQuery
open Float.Model Float.Model.UnpackedFloat Std
set_option autoImplicit false

/-! ## Places -/

/-- Where a number stands among all numbers. The zeros share a place; what is no number gets theirs,
which nothing asks for. -/
def place : UnpackedFloat → Int × Int × Int
  | .infinity .negative => (-2, 0, 0)
  | .finite .negative mantissa exponent _ => (-1, -exponent, -mantissa)
  | .zero _ | .notANumber => (0, 0, 0)
  | .finite .positive mantissa exponent _ => (1, exponent, mantissa)
  | .infinity .positive => (2, 0, 0)

def comparePlaces : Int × Int × Int → Int × Int × Int → Ordering :=
  compareLex (compareOn (·.1)) (compareLex (compareOn (·.2.1)) (compareOn (·.2.2)))

instance : TransCmp comparePlaces :=
  inferInstanceAs (TransCmp (compareLex _ (compareLex _ _)))

theorem comparePlaces_swap (p q : Int × Int × Int) :
    comparePlaces p q = (comparePlaces q p).swap := OrientedCmp.eq_swap

theorem comparePlaces_of_sign_lt {i j : Int} (h : i < j) (p q : Int × Int) :
    comparePlaces (i, p) (j, q) = .lt := by
  change (compare i j).then _ = _
  rw [Int.compare_eq_lt.mpr h]
  rfl

theorem comparePlaces_finite (i : Int) (e₁ m₁ e₂ m₂ : Int) :
    comparePlaces (i, e₁, m₁) (i, e₂, m₂) = (compare e₁ e₂).then (compare m₁ m₂) := by
  have hself : compare i i = .eq := ReflCmp.compare_self
  change (compare i i).then ((compare e₁ e₂).then (compare m₁ m₂)) = _
  rw [hself, Ordering.eq_then]

theorem compare_neg_neg (a b : Int) : compare (-a) (-b) = (compare a b).swap := by
  rw [Int.compare_swap, Int.compare_eq_ite_lt, Int.compare_eq_ite_lt]
  simp only [Int.neg_lt_neg_iff]

theorem compare_natCast (m n : Nat) : compare (m : Int) (n : Int) = compare m n := by
  rw [Int.compare_eq_ite_lt, Nat.compare_eq_ite_lt]
  simp only [Int.ofNat_lt]

/-- Numbers are in the order of their places. -/
theorem compare_eq_comparePlaces {a b : UnpackedFloat} (ha : a.isNaN = false)
    (hb : b.isNaN = false) : a.compare b = some (comparePlaces (place a) (place b)) := by
  cases a with
  | notANumber => cases ha
  | infinity s =>
    cases b with
    | notANumber => cases hb
    | infinity t => cases s <;> cases t <;> rfl
    | zero t => cases s <;> rfl
    | finite t m e _ => cases s <;> cases t <;> rfl
  | zero s =>
    cases b with
    | notANumber => cases hb
    | infinity t => cases t <;> rfl
    | zero t => rfl
    | finite t m e _ => cases t <;> rfl
  | finite s m e _ =>
    cases b with
    | notANumber => cases hb
    | infinity t => cases s <;> cases t <;> rfl
    | zero t => cases s <;> rfl
    | finite t n f _ =>
      -- negative numbers have their exponents and mantissas compared the other way
      cases s <;> cases t
      · rw [place, place, comparePlaces_finite, compare_neg_neg, compare_neg_neg, compare_natCast,
          ← Ordering.swap_then]
        rfl
      · rfl
      · rfl
      · rw [place, place, comparePlaces_finite, compare_natCast]
        rfl

theorem compare_eq_none {a b : UnpackedFloat} (h : a.isNaN = true ∨ b.isNaN = true) :
    a.compare b = none := by
  cases a <;> cases b <;> simp_all [UnpackedFloat.isNaN, UnpackedFloat.compare]

/-! ## Order -/

theorem float_lt_iff {x y : Float} :
    x < y ↔ x.toModel.unpack.compare y.toModel.unpack = some .lt := by
  change decide ((x.toModel.unpack.compare y.toModel.unpack == some .lt) = true) = true ↔ _
  rw [decide_eq_true_iff, beq_iff_eq]

theorem float_beq_iff {x y : Float} :
    (x == y) = true ↔ x.toModel.unpack.compare y.toModel.unpack = some .eq := by
  change (x.toModel.unpack.compare y.toModel.unpack == some .eq) = true ↔ _
  rw [beq_iff_eq]

/-- What is equal to something is a number, and so it is equal to itself. -/
theorem float_beq_self {x y : Float} (h : (x == y) = true) : (x == x) = true := by
  rw [float_beq_iff] at h ⊢
  cases hnan : x.toModel.unpack.isNaN with
  | true =>
    rw [compare_eq_none (Or.inl hnan)] at h
    cases h
  | false =>
    rw [compare_eq_comparePlaces hnan hnan]
    exact congrArg some ReflCmp.compare_self

def placeOf (x : Float) : Int × Int × Int := place x.toModel.unpack

/-- The order of two numbers is that of their places. -/
theorem orderFloats_eq {x y : Float} (hx : x.isNaN = false) (hy : y.isNaN = false) :
    orderFloats x y = some (comparePlaces (placeOf x) (placeOf y)) := by
  have hxy := compare_eq_comparePlaces hx hy
  have hyx := compare_eq_comparePlaces hy hx
  rw [comparePlaces_swap] at hyx
  unfold orderFloats placeOf
  simp only [float_lt_iff, float_beq_iff, hxy, hyx, Option.some.injEq]
  cases comparePlaces (place x.toModel.unpack) (place y.toModel.unpack) <;> rfl

theorem orderFloats_eq_none {x y : Float} (h : x.isNaN = true ∨ y.isNaN = true) :
    orderFloats x y = none := by
  unfold orderFloats
  simp only [float_lt_iff, float_beq_iff, compare_eq_none h, compare_eq_none h.symm]
  rfl

end CriteriaQuery
