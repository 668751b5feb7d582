import CriteriaQuery.Proofs.Restriction.Occurrence
import CriteriaQuery.Proofs.Like.Lowercase

/-! Operators that ignore case. They compare lower-case images, and the image of a part of a text
need not be a part of its image: a capital sigma at the end of an operand becomes a final sigma
there, whatever follows in the text. Apart from this, and from a dotted capital I that a wildcard
takes, they find all that their counterparts find (`ignoring_case_widens`). -/
namespace CriteriaQuery.Operator
set_option autoImplicit false

variable {operand s : String} {answer : Bool}

theorem startsWithCi_answers_iff : startsWithCi.Answers operand s answer ↔
    Like.isMatch (Text.lowercaseFrom [] s.toList)
      (Text.lowercaseFrom [] (operand.toList ++ ['%'])) = answer := by
  have hpattern : (Text.lowercase operand ++ "%").toList =
      Text.lowercaseFrom [] (operand.toList ++ ['%']) := by
    rw [Like.lowercaseFrom_run_behind, String.toList_append, Text.lowercase, String.toList_ofList]
    rfl
  rw [answers_iff fun path => rfl, CaseRule.accepts, hpattern, Text.lowercase, String.toList_ofList]

theorem containsCi_answers_iff : containsCi.Answers operand s answer ↔
    Like.isMatch (Text.lowercaseFrom [] s.toList)
      (Text.lowercaseFrom [] ('%' :: operand.toList ++ ['%'])) = answer := by
  have hpattern : ("%" ++ Text.lowercase operand ++ "%").toList =
      Text.lowercaseFrom [] ('%' :: operand.toList ++ ['%']) := by
    rw [Like.lowercaseFrom_runs_around, String.toList_append, String.toList_append,
      Text.lowercase, String.toList_ofList, String.toList_ofList]
    rfl
  rw [answers_iff fun path => rfl, CaseRule.accepts, hpattern, Text.lowercase, String.toList_ofList]

/-- Ignoring case only widens a match as long as lower-casing is safe. -/
theorem ignoring_case_widens (operand s : String) :
    (Like.CaseSafe (operand.toList ++ ['%']) s.toList →
      startsWith.Answers operand s true → startsWithCi.Answers operand s true) ∧
    (Like.CaseSafe ('%' :: operand.toList ++ ['%']) s.toList →
      contains.Answers operand s true → containsCi.Answers operand s true) := by
  rw [startsWith_answers_iff, startsWithCi_answers_iff, contains_answers_iff,
    containsCi_answers_iff]
  exact ⟨Like.isMatch_lowercaseFrom, Like.isMatch_lowercaseFrom⟩

/-- A capital sigma before other letters is safe, and a dotted capital I in the text as well. -/
theorem ignoring_case_widens_sofia :
    startsWithCi.Answers "ΣΟΦ" "ΣΟΦİA" true ∧ containsCi.Answers "ΣΟΦ" "İΣΟΦİA" true := by
  refine ⟨(ignoring_case_widens "ΣΟΦ" "ΣΟΦİA").1 ⟨?_, ?_⟩ ?_,
    (ignoring_case_widens "ΣΟΦ" "İΣΟΦİA").2 ⟨?_, ?_⟩ ?_⟩
  · decide +kernel
  · decide +kernel
  · rw [startsWith_answers_iff]
    decide +kernel
  · decide +kernel
  · decide +kernel
  · rw [contains_answers_iff]
    decide +kernel

/-- A capital sigma at the end of an operand is lost where a letter follows it in the text, and one
that stands alone where it ends a word there. -/
theorem sigma_lost :
    (startsWith.Answers "ΑΣ" "ΑΣΑ" true ∧ startsWithCi.Answers "ΑΣ" "ΑΣΑ" false) ∧
    contains.Answers "Σ" "ΑΣ" true ∧ containsCi.Answers "Σ" "ΑΣ" false := by
  rw [startsWith_answers_iff, startsWithCi_answers_iff, contains_answers_iff,
    containsCi_answers_iff]
  decide +kernel

end CriteriaQuery.Operator
