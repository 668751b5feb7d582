import CriteriaQuery.Proofs.Value.Order

/-! Families of values whose order is exact: integers of either width, truth values, texts and days.
What comes before what in a family is said here without the comparisons that the program makes, and
the order of sort keys is the same (`ascending_eq_lt_iff`, `ascending_eq_eq_iff`). Values of different
families have no order, floating-point numbers apart (`Exact.order?_eq_none`). -/
namespace CriteriaQuery
open Std
set_option autoImplicit false

/-- Days in the order of the calendar. -/
def Calendar.Date.Earlier (d e : Calendar.Date) : Prop :=
  d.year < e.year ∨ d.year = e.year ∧ (d.month < e.month ∨ d.month = e.month ∧ d.day < e.day)

namespace Value
variable {a b : Value}

inductive Family where
  | integer
  | bool
  | string
  | date

/-- A value belongs to a family. -/
inductive In : Family → Value → Prop
  | integer {v : Value} (n : Int64) (h : v.int? = some n) : In .integer v
  | bool (b : Bool) : In .bool (.bool b)
  | string (s : String) : In .string (.string s)
  | date (d : Calendar.Date) : In .date (.date d)

/-- A key comes before another: null before all others, and within a family the smaller one. -/
def Precedes (a b : Value) : Prop :=
  match a, b with
  | .null, b => b ≠ .null
  | .bool p, .bool q => p = false ∧ q = true
  | .string s, .string t => s < t
  | .date d, .date e => d.Earlier e
  | a, b => ∃ m n, a.int? = some m ∧ b.int? = some n ∧ m.toInt < n.toInt

/-- Two keys are the same, up to the width of integers. -/
def Alike (a b : Value) : Prop := a = b ∨ ∃ n, a.int? = some n ∧ b.int? = some n

theorem In.ne_null {family : Family} (h : In family a) : a ≠ .null := by
  rintro rfl
  cases h with
  | integer n hn => cases hn

theorem In.exists_kind (family : Family) : ∃ kind, ∀ v, In family v → OfKind kind v := by
  cases family with
  | integer => exact ⟨.number, fun v h => by cases h with | integer n hn => exact .of_int hn⟩
  | bool => exact ⟨.bool, fun v h => by cases h; exact .bool _⟩
  | string => exact ⟨.string, fun v h => by cases h; exact .string _⟩
  | date => exact ⟨.date, fun v h => by cases h; exact .date _⟩

theorem In.exists_order? {family : Family} (ha : In family a) (hb : In family b) :
    ∃ side, a.order? b = some side := by
  obtain ⟨kind, hkind⟩ := In.exists_kind family
  exact Option.isSome_iff_exists.mp (isSome_order?_iff.mpr ⟨kind, hkind a ha, hkind b hb⟩)

/-- A value that is neither null nor a floating-point number. -/
structure Exact (v : Value) : Prop where
  ne_null : v ≠ .null
  ne_float64 : ∀ x, v ≠ .float64 x

theorem Exact.exists_family (kind : Kind) :
    ∃ family, ∀ v : Value, v.Exact → OfKind kind v → In family v := by
  cases kind with
  | bool => exact ⟨.bool, fun v _ h => by cases h; exact .bool _⟩
  | string => exact ⟨.string, fun v _ h => by cases h; exact .string _⟩
  | date => exact ⟨.date, fun v _ h => by cases h; exact .date _⟩
  | number =>
    refine ⟨.integer, fun v hv h => ?_⟩
    cases hint : v.int? with
    | some n => exact .integer n hint
    | none =>
      obtain ⟨x, rfl⟩ := h.eq_float64 hint
      exact absurd rfl (hv.ne_float64 x)

/-- Exact values of different families have no order. -/
theorem Exact.order?_eq_none (ha : a.Exact) (hb : b.Exact)
    (h : ¬∃ family, In family a ∧ In family b) : a.order? b = none := by
  rw [← Option.not_isSome_iff_eq_none, isSome_order?_iff]
  rintro ⟨kind, ka, kb⟩
  obtain ⟨family, hfamily⟩ := Exact.exists_family kind
  exact h ⟨family, hfamily a ha ka, hfamily b hb kb⟩

/-- Values of a family are in order, with nulls among them. -/
theorem orderly_of_family {family : Family} {column : Set Value}
    (h : ∀ v ∈ column, v = .null ∨ In family v) : Orderly column := by
  obtain ⟨kind, hkind⟩ := In.exists_kind family
  refine @Orderly.of_kind _ kind (fun v hv => (h v hv).imp_right (hkind v)) fun x hx => ?_
  rcases h _ hx with hnull | hin
  · cases hnull
  · cases hin with
    | integer n hn => cases hn

/-! ## Before and beside -/

theorem not_precedes_null (a : Value) : ¬Precedes a .null := by
  cases a <;> simp [Precedes, int?]

theorem precedes_integer {m n : Int64} (ha : a.int? = some m) (hb : b.int? = some n) :
    Precedes a b ↔ m.toInt < n.toInt := by
  cases a <;> cases ha <;> cases b <;> cases hb <;> simp [Precedes, int?]

theorem alike_comm : Alike a b ↔ Alike b a := by
  simp only [Alike, eq_comm, and_comm]

theorem alike_iff_eq (h : a.int? = none) : Alike a b ↔ a = b := by
  simp [Alike, h]

theorem alike_integer {m n : Int64} (ha : a.int? = some m) (hb : b.int? = some n) :
    Alike a b ↔ m = n := by
  constructor
  · rintro (rfl | ⟨k, hk, hk'⟩)
    · exact Option.some.inj (ha.symm.trans hb)
    · exact Option.some.inj ((ha.symm.trans hk).trans (hk'.symm.trans hb))
  · rintro rfl
    exact .inr ⟨m, ha, hb⟩

theorem Alike.not_precedes (h : Alike a b) : ¬Precedes a b := by
  rcases h with rfl | ⟨n, ha, hb⟩
  · cases a <;> simp [Precedes, Calendar.Date.Earlier, int?]
  · rw [precedes_integer ha hb]
    exact Int.lt_irrefl _

theorem compare_date_eq_lt {d e : Calendar.Date} : compare d e = .lt ↔ d.Earlier e := by
  change Calendar.Date.compare d e = .lt ↔ _
  simp only [Calendar.Date.compare, Ordering.then_eq_lt, Int.compare_eq_lt, Int.compare_eq_eq,
    Nat.compare_eq_lt, Nat.compare_eq_eq, Calendar.Date.Earlier]

/-! ## Ascending order -/

theorem ascending_null_eq_lt_iff : ascending .null b = .lt ↔ Precedes .null b := by
  by_cases hb : b = .null
  · rw [hb]
    exact iff_of_false nofun fun h => h rfl
  · exact iff_of_true (ascending_null_left hb) hb

theorem ascending_null_eq_eq_iff : ascending .null b = .eq ↔ Alike .null b := by
  rw [alike_iff_eq rfl]
  by_cases hb : b = .null
  · rw [hb]
    exact iff_of_true rfl rfl
  · rw [ascending_null_left hb]
    exact iff_of_false nofun fun h => hb h.symm

/-- A key precedes another one of its family if it comes before it in ascending order. -/
theorem ascending_eq_lt_iff {family : Family} (ha : a = .null ∨ In family a)
    (hb : b = .null ∨ In family b) : ascending a b = .lt ↔ Precedes a b := by
  rcases ha with rfl | ha
  · exact ascending_null_eq_lt_iff
  rcases hb with rfl | hb
  · rw [ascending_null_right ha.ne_null]
    exact iff_of_false nofun (not_precedes_null a)
  cases ha with
  | integer m hm =>
    cases hb with
    | integer n hn =>
      rw [ascending_of_order? (order?_int hm hn), Int.compare_eq_lt, precedes_integer hm hn]
  | bool p =>
    cases hb with
    | bool q =>
      have hcompare : ∀ p q : Bool, compare p q = .lt ↔ p = false ∧ q = true := by decide
      exact hcompare p q
  | string s =>
    cases hb with
    | string t => exact compareOfLessAndEq_eq_lt
  | date d =>
    cases hb with
    | date e => exact compare_date_eq_lt

theorem ascending_eq_eq_iff {family : Family} (ha : a = .null ∨ In family a)
    (hb : b = .null ∨ In family b) : ascending a b = .eq ↔ Alike a b := by
  rcases ha with rfl | ha
  · exact ascending_null_eq_eq_iff
  rcases hb with rfl | hb
  · rw [alike_comm, ← ascending_null_eq_eq_iff, ascending_swap .null a]
    cases ascending .null a <;> decide
  cases ha with
  | integer m hm =>
    cases hb with
    | integer n hn =>
      rw [ascending_of_order? (order?_int hm hn), Int.compare_eq_eq, Int64.toInt_inj,
        alike_integer hm hn]
  | bool p =>
    cases hb with
    | bool q =>
      have hcompare : compare p q = .eq ↔ p = q := LawfulEqCmp.compare_eq_iff_eq
      rw [alike_iff_eq rfl, bool.injEq]
      exact hcompare
  | string s =>
    cases hb with
    | string t =>
      have hcompare : compare s t = .eq ↔ s = t := LawfulEqCmp.compare_eq_iff_eq
      rw [alike_iff_eq rfl, string.injEq]
      exact hcompare
  | date d =>
    cases hb with
    | date e =>
      rw [alike_iff_eq rfl, date.injEq]
      exact Calendar.Date.compare_eq_eq

end Value

end CriteriaQuery
