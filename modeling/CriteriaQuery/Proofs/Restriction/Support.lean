import CriteriaQuery.Proofs.Restriction.Meaning

/-! Which tests a predicate can be built for: those whose operand is there and whose operator belongs
to the family of the operand (`Test.exists_build_iff`). A test with a fixed meaning makes the same
predicate in every draft (`Test.build_of_build`). -/
namespace CriteriaQuery
open Outcome
set_option autoImplicit false

/-! ## Operators of a family -/

/-- The operators that a family handles, its own before those of narrower families. -/
def OperandFamily.operators : OperandFamily → List Operator
  | .equality => [.eq, .ne]
  | .comparable => [.gt, .lt, .gte, .lte, .eq, .ne]
  | .string =>
    [.like, .startsWith, .contains, .startsWithCi, .containsCi, .gt, .lt, .gte, .lte, .eq, .ne]
  | .boolean => [.null, .notNull, .eq, .ne]

namespace Operator
variable {σ : Type} {family : OperandFamily} {op : Operator} {path : Scalar}

theorem exists_equalityFor_iff {operand : Value} :
    (∃ p : Predicate σ, op.equalityFor family path operand = .ok p) ↔
      op ∈ OperandFamily.equality.operators := by
  cases op <;> simp [equalityFor, OperandFamily.operators]

theorem exists_comparableFor_iff {operand : Value} :
    (∃ p : Predicate σ, op.comparableFor family path operand = .ok p) ↔
      op ∈ OperandFamily.comparable.operators := by
  cases op <;> simp [comparableFor, equalityFor, OperandFamily.operators]

theorem exists_string_iff {operand : String} :
    (∃ p : Predicate σ, op.string path operand = .ok p) ↔ op ∈ OperandFamily.string.operators := by
  cases op <;> simp [string, comparableFor, equalityFor, OperandFamily.operators]

theorem exists_boolean_iff {operand : Bool} :
    (∃ p : Predicate σ, op.boolean path operand = .ok p) ↔
      op ∈ OperandFamily.boolean.operators := by
  cases op <;> cases operand <;> simp [boolean, equalityFor, OperandFamily.operators]

end Operator

/-! ## Tests -/

namespace Test

/-- The operand is there, and its family has the operator. -/
def Supported : Test → Prop
  | .compare _ _ | .like _ => True
  | .string op operand => operand.isSome = true ∧ op ∈ OperandFamily.string.operators
  | .boolean op operand => operand.isSome = true ∧ op ∈ OperandFamily.boolean.operators
  | .comparable op operand => operand.isSome = true ∧ op ∈ OperandFamily.comparable.operators
  | .equality op operand => operand.isSome = true ∧ op ∈ OperandFamily.equality.operators
  | .custom _ => False

theorem exists_operand_iff {V : Type} {op : Operator} {o : Option V} {P : V → Prop} {Q : Prop}
    (h : ∀ v, P v ↔ Q) : (∃ v, operand op o = .ok v ∧ P v) ↔ o.isSome = true ∧ Q := by
  cases o <;> simp [operand, h]

variable {test : Test} {draft later : Draft} {path : Scalar} {p : Predicate SelectPlan}

theorem exists_build_iff (hstock : test.isStock = true) :
    (∃ made, test.build draft path = .ok made) ↔ test.Supported := by
  cases test with
  | compare comparison operand => simp [build, Supported]
  | like pattern => simp [build, Supported]
  | string op operand =>
    simp only [build, exists_bind_eq_ok, exists_pure_eq_ok, and_true]
    exact exists_operand_iff fun v => Operator.exists_string_iff
  | boolean op operand =>
    simp only [build, exists_bind_eq_ok, exists_pure_eq_ok, and_true]
    exact exists_operand_iff fun v => Operator.exists_boolean_iff
  | comparable op operand =>
    simp only [build, exists_bind_eq_ok, exists_pure_eq_ok, and_true]
    exact exists_operand_iff fun v => Operator.exists_comparableFor_iff
  | equality op operand =>
    simp only [build, exists_bind_eq_ok, exists_pure_eq_ok, and_true]
    exact exists_operand_iff fun v => Operator.exists_equalityFor_iff
  | custom make => cases hstock

/-- What a test with a fixed meaning makes of a column does not depend on the draft. -/
theorem build_of_build (hstock : test.isStock = true) (h : test.build draft path = .ok (later, p))
    (other : Draft) : test.build other path = .ok (other, p) := by
  cases test with
  | compare comparison operand =>
    cases h
    rfl
  | like pattern =>
    cases h
    rfl
  | custom make => cases hstock
  | _ =>
    simp only [build, bind_eq_ok, pure_eq_ok, Prod.mk.injEq] at h ⊢
    obtain ⟨v, hv, q, hq, -, rfl⟩ := h
    exact ⟨v, hv, q, hq, trivial, rfl⟩

end Test

end CriteriaQuery
