import CriteriaQuery.Restriction.Test
import CriteriaQuery.Proofs.Execution.Truth

/-! What tests ask of a value, apart from any plan, and that the predicates built for them ask just
that of their column (`Test.build_asks`). -/
namespace CriteriaQuery
open Outcome
set_option autoImplicit false

/-! ## Values that pass -/

namespace Operator

def comparison? : Operator → Option Comparison
  | .eq => some .eq
  | .ne => some .ne
  | .gt => some .gt
  | .lt => some .lt
  | .gte => some .ge
  | .lte => some .le
  | _ => none

/-- Whether a value compares with an operand as an operator asks. -/
def compares (op : Operator) (operand v : Value) : Bool :=
  match op.comparison? with
  | some comparison => comparison.holds v operand
  | none => false

def acceptsText (op : Operator) (operand : String) (v : Value) : Bool :=
  match op with
  | .like => CaseRule.sensitive.accepts v operand
  | .startsWith => CaseRule.sensitive.accepts v (operand ++ "%")
  | .contains => CaseRule.sensitive.accepts v ("%" ++ operand ++ "%")
  | .startsWithCi => CaseRule.insensitive.accepts v (Text.lowercase operand ++ "%")
  | .containsCi => CaseRule.insensitive.accepts v ("%" ++ Text.lowercase operand ++ "%")
  | _ => op.compares (.string operand) v

def acceptsFlag (op : Operator) (operand : Bool) (v : Value) : Bool :=
  match op, operand with
  | .null, true | .notNull, false => v.isNull
  | .null, false | .notNull, true => !v.isNull
  | _, _ => op.compares (.bool operand) v

end Operator

/-- Whether a value passes a test. Nothing passes a test that no predicate can be built for. -/
def Test.accepts (test : Test) (v : Value) : Bool :=
  match test with
  | .compare comparison operand => comparison.holds v operand
  | .like pattern => CaseRule.sensitive.accepts v pattern
  | .string op (some operand) => op.acceptsText operand v
  | .boolean op (some operand) => op.acceptsFlag operand v
  | .comparable op (some operand) | .equality op (some operand) => op.compares operand v
  | _ => false

/-! ## Predicates that ask this -/

/-- A predicate that asks of one expression whether its value passes, and nothing else. -/
structure Predicate.Asks (p : Predicate SelectPlan) (path : Scalar) (accepts : Value → Bool) :
    Prop where
  sets_eq : p.sets = []
  readsFrom : ∀ aliases, path.ReadsFrom aliases → p.ReadsFrom aliases
  holds_eq : ∀ members binding, p.holds members binding = accepts (binding.read path)

namespace Predicate
variable {path : Scalar}

theorem asks_compare (comparison : Comparison) (operand : Value) :
    (compare comparison path operand).Asks path (comparison.holds · operand) :=
  ⟨rfl, fun _ h => h, fun _ _ => rfl⟩

theorem asks_like (pattern : String) (rule : CaseRule) :
    (like path pattern rule).Asks path (rule.accepts · pattern) :=
  ⟨rfl, fun _ h => h, fun _ _ => rfl⟩

theorem asks_isNull : (isNull path).Asks path Value.isNull := ⟨rfl, fun _ h => h, fun _ _ => rfl⟩

theorem asks_isNotNull : (isNotNull path).Asks path (!·.isNull) :=
  ⟨rfl, fun _ h => h, fun _ _ => rfl⟩

end Predicate

namespace Operator
variable {family : OperandFamily} {op : Operator} {path : Scalar} {p : Predicate SelectPlan}

theorem equalityFor_asks {operand : Value} (h : op.equalityFor family path operand = .ok p) :
    p.Asks path (op.compares operand) := by
  cases op <;> cases h <;> exact Predicate.asks_compare _ _

theorem comparableFor_asks {operand : Value} (h : op.comparableFor family path operand = .ok p) :
    p.Asks path (op.compares operand) := by
  cases op <;> cases h <;> exact Predicate.asks_compare _ _

theorem string_asks {operand : String} (h : op.string path operand = .ok p) :
    p.Asks path (op.acceptsText operand) := by
  cases op
  case like | startsWith | contains | startsWithCi | containsCi =>
    cases h
    exact Predicate.asks_like _ _
  all_goals
    simp only [string] at h
    exact comparableFor_asks h

theorem boolean_asks {operand : Bool} (h : op.boolean path operand = .ok p) :
    p.Asks path (op.acceptsFlag operand) := by
  cases op
  case null =>
    cases operand
    · cases h
      exact Predicate.asks_isNotNull
    · cases h
      exact Predicate.asks_isNull
  case notNull =>
    cases operand
    · cases h
      exact Predicate.asks_isNull
    · cases h
      exact Predicate.asks_isNotNull
  all_goals
    simp only [boolean] at h
    exact equalityFor_asks h

end Operator

namespace Test

theorem operand_eq_ok {V : Type} {op : Operator} {o : Option V} {v : V} :
    operand op o = .ok v ↔ o = some v := by
  cases o <;> simp [operand]

/-- A test with a fixed meaning leaves the draft alone and asks of its column what it accepts. -/
theorem build_asks {test : Test} (hstock : test.isStock = true) {draft later : Draft}
    {path : Scalar} {p : Predicate SelectPlan} (h : test.build draft path = .ok (later, p)) :
    later = draft ∧ p.Asks path test.accepts := by
  cases test with
  | compare comparison operand =>
    cases h
    exact ⟨rfl, Predicate.asks_compare _ _⟩
  | like pattern =>
    cases h
    exact ⟨rfl, Predicate.asks_like _ _⟩
  | string op operand =>
    simp only [build, bind_eq_ok, pure_eq_ok, Prod.mk.injEq, operand_eq_ok] at h
    obtain ⟨v, rfl, q, hq, rfl, rfl⟩ := h
    exact ⟨rfl, Operator.string_asks hq⟩
  | boolean op operand =>
    simp only [build, bind_eq_ok, pure_eq_ok, Prod.mk.injEq, operand_eq_ok] at h
    obtain ⟨v, rfl, q, hq, rfl, rfl⟩ := h
    exact ⟨rfl, Operator.boolean_asks hq⟩
  | comparable op operand =>
    simp only [build, bind_eq_ok, pure_eq_ok, Prod.mk.injEq, operand_eq_ok] at h
    obtain ⟨v, rfl, q, hq, rfl, rfl⟩ := h
    exact ⟨rfl, Operator.comparableFor_asks hq⟩
  | equality op operand =>
    simp only [build, bind_eq_ok, pure_eq_ok, Prod.mk.injEq, operand_eq_ok] at h
    obtain ⟨v, rfl, q, hq, rfl, rfl⟩ := h
    exact ⟨rfl, Operator.equalityFor_asks hq⟩
  | custom make => cases hstock

theorem build_plan {test : Test} {draft later : Draft} {path : Scalar}
    {p : Predicate SelectPlan} (h : test.build draft path = .ok (later, p)) :
    later.plan = draft.plan := by
  cases test with
  | custom make =>
    simp only [build, bind_eq_ok, pure_eq_ok, Prod.mk.injEq] at h
    obtain ⟨made, -, rfl, -⟩ := h
    rfl
  | _ => rw [(build_asks rfl h).1]

end Test

end CriteriaQuery
