import CriteriaQuery.Execution.Evaluation
import CriteriaQuery.Proofs.Execution.Extension
import CriteriaQuery.Proofs.Value.Family

/-! The six comparisons of a column with an operand. Less, equal and greater each ask for one side of
the order of values, and the other three are made of them. Within a family just one of the three
holds, and they put its values in the order that is said without them; across families none of them
holds. Where null takes part, not even inequality does (`Comparison.holds_laws`). -/
namespace CriteriaQuery
open Std
set_option autoImplicit false

/-! ## Evaluation -/

/-- A comparison has an answer wherever its column can be read, and looks no value up in a set. -/
theorem Predicate.evaluate_compare {σ : Type} (load : σ → Except Error (List Value))
    {binding : Binding} (place : Place) (cache : MemberCache) (comparison : Comparison)
    {path : Scalar} {v : Value} (operand : Value) (h : binding.scalar path = .ok v) :
    (Predicate.compare comparison path operand).evaluate load binding place cache =
      (.ok (comparison.holds v operand), cache) := by
  rw [evaluate, h]
  rfl

/-- A column is null where its alias has no row. -/
theorem Binding.scalar_column {binding : Binding} {aliasName : String} {row : Option Row}
    (column : String) (h : binding.row aliasName = .ok row) :
    binding.scalar (.column aliasName column) = .ok ((row.map (·.value column)).getD .null) := by
  rw [scalar, value, h]
  cases row <;> rfl

namespace Comparison
open Value
variable {a b c : Value} {side : Ordering} {family : Family}

theorem holds_null_left (comparison : Comparison) (b : Value) :
    comparison.holds .null b = false := rfl

theorem holds_null_right (comparison : Comparison) (a : Value) :
    comparison.holds a .null = false := by
  simp [holds, isNull]

theorem holds_of_ne_null (comparison : Comparison) (ha : a ≠ .null) (hb : b ≠ .null) :
    comparison.holds a b = comparison.relates a b := by
  have hnull : ∀ v : Value, v ≠ .null → v.isNull = false := by
    intro v hv
    cases v <;> first | rfl | exact absurd rfl hv
  rw [holds, hnull a ha, hnull b hb]
  rfl

/-! ## Sides of the order -/

/-- The comparison that asks for a side of the order. -/
def ofOrdering : Ordering → Comparison
  | .lt => lt
  | .eq => eq
  | .gt => gt

theorem relates_ofOrdering_iff :
    (ofOrdering side).relates a b = true ↔ a.order? b = some side := by
  cases side with
  | lt =>
    rw [ofOrdering, relates, Option.any_eq_true]
    simp only [Ordering.isLT_iff_eq_lt, exists_eq_right]
  | eq => exact equal_iff_order?
  | gt =>
    rw [ofOrdering, relates, Option.any_eq_true]
    simp only [Ordering.isGT_iff_eq_gt, exists_eq_right]

/-- What has an order is not null, so that null needs no case of its own. -/
theorem holds_ofOrdering_iff :
    (ofOrdering side).holds a b = true ↔ a.order? b = some side := by
  constructor
  · intro h
    rw [holds, Bool.and_eq_true] at h
    exact relates_ofOrdering_iff.mp h.2
  · intro h
    obtain ⟨kind, ka, kb⟩ := isSome_order?_iff.mp (Option.isSome_of_eq_some h)
    rw [holds_of_ne_null _ ka.ne_null kb.ne_null]
    exact relates_ofOrdering_iff.mpr h

theorem holds_ofOrdering_swap (side : Ordering) (a b : Value) :
    (ofOrdering side).holds b a = (ofOrdering side.swap).holds a b := by
  rw [Bool.eq_iff_iff, holds_ofOrdering_iff, holds_ofOrdering_iff, order?_swap a b,
    Option.map_eq_some_iff]
  constructor
  · rintro ⟨other, hother, rfl⟩
    rw [hother, Ordering.swap_swap]
  · intro h
    exact ⟨side.swap, h, Ordering.swap_swap⟩

theorem ne_holds (ha : a ≠ .null) (hb : b ≠ .null) : ne.holds a b = !eq.holds a b := by
  rw [holds_of_ne_null ne ha hb, holds_of_ne_null eq ha hb]
  rfl

theorem le_holds (a b : Value) : le.holds a b = (lt.holds a b || eq.holds a b) := by
  simp only [holds, relates, Ordering.isLE_eq_isLT_or_isEq, any_or_equal, Bool.and_or_distrib_left]

theorem ge_holds (a b : Value) : ge.holds a b = (gt.holds a b || eq.holds a b) := by
  simp only [holds, relates, Ordering.isGE_eq_isGT_or_isEq, any_or_equal, Bool.and_or_distrib_left]

/-! ## Families -/

/-- Within a family, what holds is where a sort in ascending order puts the two values. -/
theorem holds_iff_ascending (ha : In family a) (hb : In family b) :
    (ofOrdering side).holds a b = true ↔ ascending a b = side := by
  obtain ⟨o, ho⟩ := ha.exists_order? hb
  rw [holds_ofOrdering_iff, ho, ascending_of_order? ho, Option.some.injEq]

theorem lt_holds_iff_precedes (ha : In family a) (hb : In family b) :
    lt.holds a b = true ↔ Precedes a b :=
  (holds_iff_ascending ha hb).trans (ascending_eq_lt_iff (.inr ha) (.inr hb))

theorem eq_holds_iff_alike (ha : In family a) (hb : In family b) :
    eq.holds a b = true ↔ Alike a b :=
  (holds_iff_ascending ha hb).trans (ascending_eq_eq_iff (.inr ha) (.inr hb))

theorem existsUnique_holds (ha : In family a) (hb : In family b) :
    ∃! side, (ofOrdering side).holds a b = true := by
  refine ⟨ascending a b, (holds_iff_ascending ha hb).mpr rfl, fun side h => ?_⟩
  exact ((holds_iff_ascending ha hb).mp h).symm

theorem holds_trans (ha : In family a) (hb : In family b) (hc : In family c)
    (hab : (ofOrdering side).holds a b = true) (hbc : (ofOrdering side).holds b c = true) :
    (ofOrdering side).holds a c = true := by
  -- a family is a column whose values are in order, even without the nulls that it might have
  have htrans : TransCmp fun x y : {v | In family v} => ascending x y :=
    (orderly_of_family fun _ hv => .inr hv).transCmp
  rw [holds_iff_ascending ha hb] at hab
  rw [holds_iff_ascending hb hc] at hbc
  rw [holds_iff_ascending ha hc]
  cases side with
  | lt => exact @TransCmp.lt_trans _ _ htrans ⟨a, ha⟩ ⟨b, hb⟩ ⟨c, hc⟩ hab hbc
  | eq => exact @TransCmp.eq_trans _ _ htrans ⟨a, ha⟩ ⟨b, hb⟩ ⟨c, hc⟩ hab hbc
  | gt => exact @TransCmp.gt_trans _ _ htrans ⟨a, ha⟩ ⟨b, hb⟩ ⟨c, hc⟩ hab hbc

/-! ## Laws -/

/-- Evaluating a comparison of a column with an operand gives what holds between the two values. Less,
equal and greater hold on their sides of the order, which exchanging the values exchanges, and the
other comparisons are made of these. Within a family just one of the three holds, less and equal are
the order of its values and their likeness, and each is transitive; between exact values of different
families none holds. No comparison holds where the alias has no row, the column is null or the operand
is null. -/
theorem holds_laws {σ : Type} (load : σ → Except Error (List Value)) :
    (∀ (binding : Binding) (place : Place) (cache : MemberCache) (comparison : Comparison)
      (path : Scalar) (v operand : Value), binding.scalar path = .ok v →
        (Predicate.compare comparison path operand).evaluate load binding place cache =
          (.ok (comparison.holds v operand), cache)) ∧
    (∀ a b : Value,
      (∀ side, (ofOrdering side).holds a b = true ↔ a.order? b = some side) ∧
      (∀ side, (ofOrdering side).holds b a = (ofOrdering side.swap).holds a b) ∧
      (a ≠ .null → b ≠ .null → ne.holds a b = !eq.holds a b) ∧
      le.holds a b = (lt.holds a b || eq.holds a b) ∧
      ge.holds a b = (gt.holds a b || eq.holds a b)) ∧
    (∀ (family : Family) (a b : Value), In family a → In family b →
      (∃! side, (ofOrdering side).holds a b = true) ∧
      (lt.holds a b = true ↔ Precedes a b) ∧ (eq.holds a b = true ↔ Alike a b) ∧
      ∀ (side : Ordering) (c : Value), In family c → (ofOrdering side).holds a b = true →
        (ofOrdering side).holds b c = true → (ofOrdering side).holds a c = true) ∧
    (∀ a b : Value, a.Exact → b.Exact → (¬∃ family, In family a ∧ In family b) →
      ∀ side, (ofOrdering side).holds a b = false) ∧
    ∀ (binding : Binding) (place : Place) (cache : MemberCache) (aliasName column : String)
      (row : Option Row) (operand : Value), binding.row aliasName = .ok row →
      row = none ∨ (∃ r, row = some r ∧ r.value column = .null) ∨ operand = .null →
        ∀ comparison, (Predicate.compare comparison (.column aliasName column) operand).evaluate
          load binding place cache = (.ok false, cache) := by
  refine ⟨?_, ?_, ?_, ?_, ?_⟩
  · intro binding place cache comparison path v operand h
    exact Predicate.evaluate_compare load place cache comparison operand h
  · intro a b
    exact ⟨fun side => holds_ofOrdering_iff, fun side => holds_ofOrdering_swap side a b, ne_holds,
      le_holds a b, ge_holds a b⟩
  · intro family a b ha hb
    refine ⟨existsUnique_holds ha hb, lt_holds_iff_precedes ha hb, eq_holds_iff_alike ha hb, ?_⟩
    exact fun side c hc hab hbc => holds_trans ha hb hc hab hbc
  · intro a b ha hb hnone side
    rw [← Bool.not_eq_true, holds_ofOrdering_iff, ha.order?_eq_none hb hnone]
    exact nofun
  · intro binding place cache aliasName column row operand hrow hnull comparison
    rw [Predicate.evaluate_compare load place cache comparison operand
      (Binding.scalar_column column hrow)]
    rcases hnull with rfl | ⟨r, rfl, hr⟩ | rfl
    · rfl
    · rw [Option.map_some, Option.getD_some, hr, holds_null_left]
    · rw [holds_null_right]

/-- An identifier in the narrower width, beside an alias whose join found no row. -/
def narrowId : Binding := (Binding.root "t0" ⟨[("id", .int32 41)]⟩).bind "t1" none

/-- An integer comes before a larger one of another width, and has no order with the text of its
digits. -/
theorem holds_laws_of_widths :
    narrowId.scalar (.column "t0" "id") = .ok (.int32 41) ∧
    (∀ place cache, (Predicate.compare lt (.column "t0" "id") (.int64 42)).evaluate
      (fun _ : SelectPlan => .ok []) narrowId place cache = (.ok true, cache)) ∧
    (In .integer (.int32 41) ∧ In .integer (.int64 42) ∧ In .integer (.int32 43)) ∧
    (∃! side, (ofOrdering side).holds (.int32 41) (.int64 42) = true) ∧
    lt.holds (.int32 41) (.int32 43) = true ∧
    (Exact (.int32 41) ∧ Exact (.string "41") ∧
      ¬∃ family, In family (.int32 41) ∧ In family (.string "41")) ∧
    (∀ side, (ofOrdering side).holds (.int32 41) (.string "41") = false) ∧
    ne.holds (.int32 41) (.string "41") = true ∧
    narrowId.row "t1" = .ok none ∧
    ∀ place cache, (Predicate.compare ne (.column "t1" "id") (.int64 42)).evaluate
      (fun _ : SelectPlan => .ok []) narrowId place cache = (.ok false, cache) := by
  obtain ⟨hevaluate, hsides, hfamily, hacross, hnull⟩ :=
    holds_laws fun _ : SelectPlan => .ok []
  have hread : narrowId.scalar (.column "t0" "id") = .ok (.int32 41) := rfl
  have hfirst : In .integer (.int32 41) := .integer 41 rfl
  have hsecond : In .integer (.int64 42) := .integer 42 rfl
  have hthird : In .integer (.int32 43) := .integer 43 rfl
  have hexact : Exact (.int32 41) := ⟨nofun, nofun⟩
  have htext : Exact (.string "41") := ⟨nofun, nofun⟩
  have hapart : ¬∃ family, In family (.int32 41) ∧ In family (.string "41") := by
    rintro ⟨family, hinteger, hstring⟩
    cases hinteger with
    | integer n hn =>
      cases hstring with
      | integer n hn => cases hn
  have hunbound : narrowId.row "t1" = .ok none := rfl
  obtain ⟨hone, -, -, htrans⟩ := hfamily .integer _ _ hfirst hsecond
  refine ⟨hread, ?_, ⟨hfirst, hsecond, hthird⟩, hone, ?_, ⟨hexact, htext, hapart⟩, ?_, ?_,
    hunbound, ?_⟩
  · exact fun place cache => hevaluate narrowId place cache lt _ _ (.int64 42) hread
  · exact htrans .lt _ hthird rfl rfl
  · exact hacross _ _ hexact htext hapart
  · exact (hsides _ _).2.2.1 hexact.ne_null htext.ne_null
  · exact fun place cache =>
      hnull narrowId place cache "t1" "id" none (.int64 42) hunbound (.inl rfl) ne

end Comparison

end CriteriaQuery
