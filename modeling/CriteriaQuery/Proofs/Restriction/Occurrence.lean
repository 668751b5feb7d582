import CriteriaQuery.Restriction.Test
import CriteriaQuery.Execution.Evaluation
import CriteriaQuery.Proofs.Like.Literal
import CriteriaQuery.Proofs.Outcome
import Mathlib.Data.List.Infix

/-! Operands that are looked for in texts. `contains` finds the texts that the operand occurs in and
`startsWith` those that begin with it, just if the operand has no wildcards and no backslashes: an
operand goes into the pattern as it is, and is read there as a pattern
(`contains_startsWith_iff_literal`). -/
namespace CriteriaQuery.Operator
open Outcome
set_option autoImplicit false

/-- The predicate that an operator makes of a column, by itself or in a test of the column, gives an
answer wherever the column holds the text `s`. -/
def Answers (op : Operator) (operand s : String) (answer : Bool) : Prop :=
  ∀ aliasName column, ∃ p : Predicate SelectPlan,
    op.string (.column aliasName column) operand = .ok p ∧
    (∀ draft, (Test.string op (some operand)).build draft (.column aliasName column) =
      .ok (draft, p)) ∧
    ∀ (load : SelectPlan → Except Error (List Value)) (binding : Binding) (place : Place)
      (cache : MemberCache), binding.value aliasName column = .ok (.string s) →
        p.evaluate load binding place cache = (.ok answer, cache)

section
variable {op : Operator} {operand s pattern : String} {rule : CaseRule} {answer : Bool}

theorem value_root (aliasName column : String) (v : Value) :
    (Binding.root aliasName ⟨[(column, v)]⟩).value aliasName column = .ok v := by
  simp [Binding.value, Binding.row, Binding.root, Row.get?, Except.map]

/-- An operator that makes a pattern answers whether the text matches it. -/
theorem answers_iff (h : ∀ path, op.string path operand =
      .ok (.like path pattern rule : Predicate SelectPlan)) :
    op.Answers operand s answer ↔ rule.accepts (.string s) pattern = answer := by
  constructor
  · intro hanswers
    obtain ⟨p, hp, -, heval⟩ := hanswers "t0" "name"
    cases (h _).symm.trans hp
    have hvalue := heval (fun _ => .ok []) (.root "t0" ⟨[("name", .string s)]⟩) [] {}
      (value_root "t0" "name" (.string s))
    rw [Predicate.evaluate, Binding.scalar, value_root] at hvalue
    exact Except.ok.inj (Prod.mk.inj hvalue).1
  · intro haccepts aliasName column
    refine ⟨_, h _, fun draft => ?_, fun load binding place cache hvalue => ?_⟩
    · have hoperand : Test.operand op (some operand) = .ok operand := rfl
      rw [Test.build, bind_ok hoperand, bind_ok (h _)]
      rfl
    · rw [Predicate.evaluate, Binding.scalar, hvalue, ← haccepts]
      rfl

theorem contains_answers_iff : contains.Answers operand s answer ↔
    Like.isMatch s.toList ('%' :: operand.toList ++ ['%']) = answer := by
  rw [answers_iff fun path => rfl, CaseRule.accepts, String.toList_append, String.toList_append]
  exact Iff.rfl

theorem startsWith_answers_iff : startsWith.Answers operand s answer ↔
    Like.isMatch s.toList (operand.toList ++ ['%']) = answer := by
  rw [answers_iff fun path => rfl, CaseRule.accepts, String.toList_append]
  exact Iff.rfl

end

/-- A pattern made of an operand decides a relation for all texts if it does so for the literal
operands, and each other operand stands in it for some text out of the relation. -/
theorem decides_iff_literal {operand pattern : List Char} {R : List Char → Prop} [DecidablePred R]
    (hliteral : Like.Literal operand → ∀ value, Like.isMatch value pattern = true ↔ R value)
    (hother : ¬Like.Literal operand → ∃ value, Like.isMatch value pattern = true ∧ ¬R value) :
    (∀ s : String, Like.isMatch s.toList pattern = decide (R s.toList)) ↔
      Like.Literal operand := by
  constructor
  · intro hall
    by_contra hspecial
    obtain ⟨value, hmatch, hvalue⟩ := hother hspecial
    have hdecides := hall (String.ofList value)
    rw [String.toList_ofList, hmatch] at hdecides
    exact hvalue (of_decide_eq_true hdecides.symm)
  · intro h s
    rw [Bool.eq_iff_iff, hliteral h, decide_eq_true_iff]

/-- `contains` and `startsWith` mean what they say for the operands without wildcards and without
backslashes, and for no others. -/
theorem contains_startsWith_iff_literal (operand : String) :
    ((∀ s, contains.Answers operand s (decide (operand.toList <:+: s.toList))) ↔
      Like.Literal operand.toList) ∧
    ((∀ s, startsWith.Answers operand s (decide (operand.toList <+: s.toList))) ↔
      Like.Literal operand.toList) := by
  simp only [contains_answers_iff, startsWith_answers_iff]
  constructor
  · apply decides_iff_literal (R := (operand.toList <:+: ·))
    · exact fun hliteral _ => Like.isMatch_infix_iff hliteral
    · intro hspecial
      obtain ⟨value, -, hmatch, hpart⟩ := Like.exists_stand_in hspecial
      exact ⟨value, hmatch, hpart⟩
  · apply decides_iff_literal (R := (operand.toList <+: ·))
    · exact fun hliteral _ => Like.isMatch_prefix_iff hliteral
    · intro hspecial
      obtain ⟨value, hmatch, -, hpart⟩ := Like.exists_stand_in hspecial
      exact ⟨value, hmatch, fun hstart => hpart hstart.isInfix⟩

/-- An underscore is found in a text without one, and a percent sign at the start of another. -/
theorem wildcards_found : contains.Answers "_" "Bob" true ∧ ¬"_".toList <:+: "Bob".toList ∧
    startsWith.Answers "50%" "500" true ∧ ¬"50%".toList <+: "500".toList := by
  rw [contains_answers_iff, startsWith_answers_iff]
  decide

end CriteriaQuery.Operator
