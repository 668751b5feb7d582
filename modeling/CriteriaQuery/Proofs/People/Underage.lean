import CriteriaQuery.Proofs.Calendar.Age
import CriteriaQuery.Proofs.Execution.Comparison
import CriteriaQuery.Proofs.Handler.OnRoot
import CriteriaQuery.Proofs.People.Search

/-! Searches by the age of children. The test for children under age is passed by just these. That for
children of age is passed by all others but those born on the last day that makes them so: on the day
when they come of age they pass neither test (`birthdate_tests`), and their parents are found by
neither search (`comingOfAge_missed`). -/
namespace CriteriaQuery
open Calendar Outcome
set_option autoImplicit false

/-! ## Answers -/

/-- The predicate that a test makes of a column gives an answer wherever the column holds `v`. -/
def Test.Answers (test : Test) (v : Value) (answer : Bool) : Prop :=
  ∀ draft aliasName column, ∃ p, test.build draft (.column aliasName column) = .ok (draft, p) ∧
    ∀ (load : SelectPlan → Except Error (List Value)) (binding : Binding) (place : Place)
      (cache : MemberCache), binding.value aliasName column = .ok v →
        p.evaluate load binding place cache = (.ok answer, cache)

theorem Test.answers_compare (comparison : Comparison) (operand v : Value) :
    (Test.compare comparison operand).Answers v (comparison.holds v operand) := by
  intro draft aliasName column
  refine ⟨.compare comparison (.column aliasName column) operand, rfl, ?_⟩
  intro load binding place cache h
  exact Predicate.evaluate_compare load place cache comparison operand h

namespace Comparison
variable {d e : Date}

theorem lt_holds_date_iff : lt.holds (.date d) (.date e) = true ↔ d.Earlier e :=
  lt_holds_iff_precedes (.date d) (.date e)

theorem gt_holds_date_iff : gt.holds (.date d) (.date e) = true ↔ e.Earlier d := by
  have hswap : lt.holds (.date e) (.date d) = gt.holds (.date d) (.date e) :=
    holds_ofOrdering_swap .lt (.date d) (.date e)
  rw [← hswap]
  exact lt_holds_date_iff

end Comparison

namespace People
variable {today born : Date} {policy : UnknownSortPolicy} {store : Store}

/-! ## Tests of birthdates -/

/-- The last day of birth of those who are of age. -/
abbrev cutoff (today : Date) : Date := today.yearsBefore adultAge

theorem underageTest_true_answers (h : firstYear + adultAge ≤ today.year) (born : Date) :
    (underageTest today true).Answers (.date born)
      (decide (born.completedYears today < adultAge)) := by
  have hholds : Comparison.gt.holds (.date born) (.date (cutoff today)) =
      decide (born.completedYears today < adultAge) := by
    rw [Bool.eq_iff_iff, decide_eq_true_iff, Date.completedYears_lt_iff h,
      Comparison.gt_holds_date_iff]
  rw [← hholds]
  exact Test.answers_compare _ _ _

theorem underageTest_false_answers (h : firstYear + adultAge ≤ today.year) (born : Date) :
    (underageTest today false).Answers (.date born)
      (decide (adultAge ≤ born.completedYears today ∧ born ≠ cutoff today)) := by
  have hholds : Comparison.lt.holds (.date born) (.date (cutoff today)) =
      decide (adultAge ≤ born.completedYears today ∧ born ≠ cutoff today) := by
    rw [Bool.eq_iff_iff, decide_eq_true_iff, ← Int.not_lt, Date.completedYears_lt_iff h,
      Comparison.lt_holds_date_iff, Date.earlier_iff]
  rw [← hholds]
  exact Test.answers_compare _ _ _

/-! ## Parents of children of an age -/

/-- Whatever a search by the age of children is sorted by, among what it returns is whoever has a child
whose birthdate passes the test. Unsorted it does return. -/
theorem mem_entities_of_child {requests : List (SortRequest PersonSort)} {flag : Bool}
    {person child : Row} (h : (config today policy).Tolerates requests)
    (hperson : person ∈ store.rows "Person") (hchild : child ∈ store.rows "Person")
    (hparent : (person.value "id").equal (child.value "parentId") = true)
    (hpass : (underageTest today flag).accepts (child.value "birthdate") = true) :
    ∃ plan, (handler today policy).entityPlan ⟨{ underageChildren := some flag }, requests⟩ =
        .ok plan ∧
      (∀ rows, plan.entities catalog store = .ok rows → person ∈ rows) ∧
      (requests = [] → ∃ rows, plan.entities catalog store = .ok rows) := by
  have hpresent : (handler today policy).present { underageChildren := some flag } =
      [⟨Node.child, "birthdate", underageTest today flag⟩] := rfl
  have hpromoted : (handler today policy).promoted { underageChildren := some flag } =
      [⟨Node.child, "birthdate", underageTest today flag⟩] := rfl
  have hmain : (handler today policy).main { underageChildren := some flag } = [] := rfl
  have hbuildable : ∀ a ∈ (handler today policy).present { underageChildren := some flag },
      a.test.Buildable := by
    rw [hpresent, List.forall_mem_singleton]
    apply (Test.buildable_iff_supported (isStock_underageTest flag)).mpr
    cases flag <;> trivial
  obtain ⟨plan, hplan⟩ := exists_entityPlan_iff.mpr ⟨h, hbuildable⟩
  have honRoot : ∀ a ∈ (handler today policy).main { underageChildren := some flag },
      a.node = Node.person := by
    rw [hmain]
    exact fun a ha => (List.not_mem_nil ha).elim
  obtain ⟨hmem, hruns⟩ := Handler.mem_entities_iff_of_onRoot honRoot
    (settled today policy store _) hplan
  have hsatisfies : Satisfies catalog store Node.person
      [⟨Node.child, "birthdate", underageTest today flag⟩] person := by
    refine ⟨fun node => if node = Node.person then person else child, rfl, ?_⟩
    rw [List.forall_mem_singleton]
    refine ⟨?_, hpass⟩
    intro step hstep above habove
    have hpath : step ∈ [Node.person, Node.child] := hstep
    rw [List.mem_pair] at hpath
    rcases hpath with rfl | rfl
    · cases habove
    · cases habove
      exact List.mem_filter.mpr ⟨hchild, Relation.relates_iff.mpr hparent⟩
  have hselected : (handler today policy).Selected store { underageChildren := some flag } person :=
    Or.inr ⟨Value.isNull_of_equal hparent, person, hperson, hsatisfies, Value.equal_self hparent⟩
  refine ⟨plan, hplan, fun rows hrows => ?_, hruns⟩
  refine (hmem rows hrows person).mpr ⟨hperson, ?_, hselected⟩
  rw [hmain]
  exact fun a ha => (List.not_mem_nil ha).elim

/-! ## Children of any age -/

/-- The test for children under age is passed by those who have not completed eighteen years, that for
children of age by those who have and were not born on the last such day. Apart from that day, whoever
has a child with a birthdate is found by one of the two searches, whatever they are sorted by, if it
returns; unsorted it does. -/
theorem birthdate_tests (today : Date) (h : firstYear + adultAge ≤ today.year) :
    (∀ born,
      (underageTest today true).Answers (.date born)
        (decide (born.completedYears today < adultAge)) ∧
      (underageTest today false).Answers (.date born)
        (decide (adultAge ≤ born.completedYears today ∧ born ≠ cutoff today))) ∧
    ∀ policy requests store, (config today policy).Tolerates requests →
      ∀ person ∈ store.rows "Person", ∀ child ∈ store.rows "Person", ∀ born,
        (person.value "id").equal (child.value "parentId") = true →
        child.value "birthdate" = .date born → born ≠ cutoff today →
        ∃ flag plan, (handler today policy).entityPlan
            ⟨{ underageChildren := some flag }, requests⟩ = .ok plan ∧
          (∀ rows, plan.entities catalog store = .ok rows → person ∈ rows) ∧
          (requests = [] → ∃ rows, plan.entities catalog store = .ok rows) := by
  refine ⟨fun born => ⟨underageTest_true_answers h born, underageTest_false_answers h born⟩, ?_⟩
  intro policy requests store htolerates person hperson child hchild born hparent hborn hne
  have hpass : ∃ flag, (underageTest today flag).accepts (child.value "birthdate") = true := by
    rw [hborn]
    by_cases hafter : (cutoff today).Earlier born
    · exact ⟨true, Comparison.gt_holds_date_iff.mpr hafter⟩
    · exact ⟨false, Comparison.lt_holds_date_iff.mpr (Date.earlier_iff.mpr ⟨hafter, hne⟩)⟩
  obtain ⟨flag, hflag⟩ := hpass
  exact ⟨flag, mem_entities_of_child htolerates hperson hchild hparent hflag⟩

def leapDay : Date := ⟨2024, 2, 29, by decide⟩

def bornInMarch : Date := ⟨2006, 3, 1, by decide⟩

def parentRow : Row := ⟨[("id", .int64 1)]⟩

def childRow (born : Date) : Row :=
  ⟨[("id", .int64 2), ("parentId", .int64 1), ("birthdate", .date born)]⟩

def parentAndChild (born : Date) : Store := .withRows {} "Person" [parentRow, childRow born]

/-- On a leap day, the last birthdate of those of age is the last of February. Who was born on the day
after that is under age, and a parent is found by that. -/
theorem birthdate_tests_of_leapDay :
    firstYear + adultAge ≤ leapDay.year ∧
      (underageTest leapDay true).Answers (.date bornInMarch) true ∧
      (underageTest leapDay false).Answers (.date bornInMarch) false ∧
      ∃ flag plan rows, (handler leapDay).entityPlan
          ⟨{ underageChildren := some flag }, []⟩ = .ok plan ∧
        plan.entities catalog (parentAndChild bornInMarch) = .ok rows ∧ parentRow ∈ rows := by
  have hyear : firstYear + adultAge ≤ leapDay.year := by decide
  obtain ⟨hanswers, hfound⟩ := birthdate_tests leapDay hyear
  obtain ⟨htrue, hfalse⟩ := hanswers bornInMarch
  refine ⟨hyear, htrue, hfalse, ?_⟩
  obtain ⟨flag, plan, hplan, hmem, hruns⟩ := hfound .ignore [] (parentAndChild bornInMarch)
    (Or.inl rfl) parentRow List.mem_cons_self (childRow bornInMarch)
    (List.mem_cons_of_mem _ List.mem_cons_self) bornInMarch rfl rfl (by decide)
  obtain ⟨rows, hrows⟩ := hruns rfl
  exact ⟨flag, plan, rows, hplan, hrows, hmem rows hrows⟩

/-! ## Coming of age -/

def comingOfAge : Date := ⟨2026, 10, 18, by decide⟩

def eighteenYearsBefore : Date := ⟨2008, 10, 18, by decide⟩

/-- Eighteen years after the earliest day. -/
def earliestComingOfAge : Date := ⟨-262125, 1, 1, by decide⟩

/-- Who was born eighteen years ago to the day is of age and passes neither test. Where Wendy was born
on the earliest day, her father Bert is found by neither search on the day when she comes of age. -/
theorem comingOfAge_missed :
    eighteenYearsBefore.completedYears comingOfAge = adultAge ∧
      (underageTest comingOfAge true).Answers (.date eighteenYearsBefore) false ∧
      (underageTest comingOfAge false).Answers (.date eighteenYearsBefore) false ∧
      Date.first.completedYears earliestComingOfAge = adultAge ∧
      (personRow earliestComingOfAge wendy "Wendy" "Apple" 42 (some treeCorp) (some bert)).value
        "birthdate" = .date Date.first ∧
      searchIds earliestComingOfAge ⟨{ underageChildren := some true }, []⟩ = .ok [bob, suzy] ∧
      searchIds earliestComingOfAge ⟨{ underageChildren := some false }, []⟩ = .ok [] := by
  refine ⟨by decide, ?_, ?_, by decide, rfl, rfl, rfl⟩
  · exact Test.answers_compare _ _ _
  · exact Test.answers_compare _ _ _

end People

end CriteriaQuery
