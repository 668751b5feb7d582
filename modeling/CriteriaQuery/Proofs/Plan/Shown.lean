import CriteriaQuery.Plan.Text
import Mathlib.Data.List.Basic

/-! What the text of a plan shows of it, and which plans have a text that can be read: those whose
names are made of letters, digits and underscores and that have no floating-point number among their
operands. -/
namespace CriteriaQuery
set_option autoImplicit false

/-! ## Names -/

namespace Text

def isNameChar (c : Char) : Bool := c.isAlphanum || c = '_'

/-- A name of letters, digits and underscores. -/
def IsName (name : String) : Prop := ∀ c ∈ name.toList, isNameChar c = true

instance (name : String) : Decidable (IsName name) := List.decidableBAll _ _

end Text

/-! ## Values, expressions and joins -/

/-- A value as its text shows it: the width of an integer is not seen. -/
def Value.shown (v : Value) : Value :=
  match v.int? with
  | some n => .int64 n
  | none => v

/-- All names in an expression are made of letters, digits and underscores. -/
def Scalar.Legible : Scalar → Prop
  | .column aliasName name => Text.IsName aliasName ∧ Text.IsName name
  | .count aliasName => Text.IsName aliasName

def Selection.Legible : Selection → Prop
  | .entity aliasName => Text.IsName aliasName
  | .expr e => e.Legible

def Join.Legible (join : Join) : Prop :=
  Text.IsName join.aliasName ∧ Text.IsName join.parentAlias ∧ Text.IsName join.relation

/-- A join as its text shows it: the entity that it leads to is not seen. -/
def Join.shown (join : Join) : Join := { join with entity := "" }

/-! ## Predicates -/

mutual

/-- A predicate as its text shows it: the conjunction of one predicate looks like this predicate. -/
def Predicate.shown : Predicate SelectPlan → Predicate SelectPlan
  | .compare c e v => .compare c e v.shown
  | .not p => .not p.shown
  | .and ps => .all (Predicate.allShown ps)
  | p => p

/-- The members of a conjunction as their texts show them. -/
def Predicate.allShown : List (Predicate SelectPlan) → List (Predicate SelectPlan)
  | [] => []
  | p :: ps => p.shown :: Predicate.allShown ps

end

theorem Predicate.allShown_eq_map (ps : List (Predicate SelectPlan)) :
    Predicate.allShown ps = ps.map Predicate.shown := by
  induction ps with
  | nil => rfl
  | cons p ps ih => rw [allShown, ih, List.map_cons]

mutual

/-- All names in a predicate are made of letters, digits and underscores, no operand is a
floating-point number, and the same holds of its sets. -/
def Predicate.Legible : Predicate Prop → Prop
  | .compare _ e v => e.Legible ∧ ∀ x, v ≠ .float64 x
  | .isNull e | .isNotNull e | .like e _ _ => e.Legible
  | .member e set => e.Legible ∧ set
  | .not p => p.Legible
  | .and ps => Predicate.AllLegible ps

/-- All members of a conjunction are legible. -/
def Predicate.AllLegible : List (Predicate Prop) → Prop
  | [] => True
  | p :: ps => p.Legible ∧ Predicate.AllLegible ps

end

theorem Predicate.allLegible_iff {ps : List (Predicate Prop)} :
    Predicate.AllLegible ps ↔ ∀ p ∈ ps, p.Legible := by
  induction ps with
  | nil => exact iff_of_true trivial nofun
  | cons p ps ih => rw [AllLegible, ih, List.forall_mem_cons]

/-- The members of a conjunction; any other predicate is its own only member. -/
def Predicate.conjuncts {σ : Type} : Predicate σ → List (Predicate σ)
  | .and ps => ps
  | p => [p]

/-! ## Plans -/

namespace SelectPlan

/-- A plan as its text shows it. -/
def shown (plan : SelectPlan) : SelectPlan :=
  plan.fold fun plan filter =>
    { plan with joins := plan.joins.map Join.shown, filter := filter.map Predicate.shown }

/-- All names in a plan are made of letters, digits and underscores, and no operand is a
floating-point number, in its subqueries as well. Nothing is asked of texts and patterns. -/
def Legible (plan : SelectPlan) : Prop :=
  plan.fold fun plan filter =>
    Text.IsName plan.rootEntity ∧ Text.IsName plan.rootAlias ∧ plan.selection.Legible ∧
      (∀ join ∈ plan.joins, join.Legible) ∧ (∀ p ∈ filter, p.Legible) ∧
      ∀ key ∈ plan.orderBy, key.expr.Legible

def predicateText (p : Predicate SelectPlan) : String := (p.map text).text

def conjunctText (p : Predicate SelectPlan) : String := (p.map text).conjunctText

def predicateShown (p : Predicate SelectPlan) : Predicate SelectPlan := (p.map shown).shown

def PredicateLegible (p : Predicate SelectPlan) : Prop := (p.map Legible).Legible

section
variable {plan : SelectPlan} {p : Predicate SelectPlan} {ps : List (Predicate SelectPlan)}

theorem shown_eq (plan : SelectPlan) : plan.shown =
    { plan with joins := plan.joins.map Join.shown, filter := plan.filter.map predicateShown } := by
  rw [shown, fold_eq, Option.map_map]
  rfl

theorem legible_iff : plan.Legible ↔
    Text.IsName plan.rootEntity ∧ Text.IsName plan.rootAlias ∧ plan.selection.Legible ∧
      (∀ join ∈ plan.joins, join.Legible) ∧ (∀ p ∈ plan.filter, PredicateLegible p) ∧
      ∀ key ∈ plan.orderBy, key.expr.Legible := by
  rw [Legible, fold_eq]
  change _ ∧ _ ∧ _ ∧ _ ∧ (∀ p ∈ plan.filter.map (Predicate.map Legible), p.Legible) ∧ _ ↔ _
  simp only [Option.mem_def, Option.map_eq_some_iff, forall_exists_index, and_imp,
    forall_apply_eq_imp_iff₂]
  rfl

theorem predicateShown_and : predicateShown (.and ps) = .all (ps.map predicateShown) := by
  rw [predicateShown, Predicate.map, Predicate.shown, Predicate.allShown_eq_map,
    Predicate.mapAll_eq_map, List.map_map]
  rfl

theorem predicateLegible_and : PredicateLegible (.and ps) ↔ ∀ p ∈ ps, PredicateLegible p := by
  rw [PredicateLegible, Predicate.map, Predicate.Legible, Predicate.allLegible_iff,
    Predicate.mapAll_eq_map, List.forall_mem_map]
  rfl

theorem predicateShown_eq (p : Predicate SelectPlan) :
    predicateShown p = .all (p.conjuncts.map predicateShown) := by
  cases p with
  | and ps => exact predicateShown_and
  | _ => rfl

theorem PredicateLegible.conjuncts (h : PredicateLegible p) :
    ∀ c ∈ p.conjuncts, PredicateLegible c := by
  cases p with
  | and ps => exact predicateLegible_and.mp h
  | _ => exact List.forall_mem_singleton.mpr h

theorem conjunctsText_map (ps : List (Predicate SelectPlan)) :
    Predicate.conjunctsText (Predicate.mapAll text ps) =
      String.join (ps.map fun p => " AND " ++ conjunctText p) := by
  induction ps with
  | nil => rw [Predicate.mapAll, Predicate.conjunctsText, List.map_nil, String.join_nil]
  | cons p ps ih =>
    rw [Predicate.mapAll, Predicate.conjunctsText, ih, List.map_cons, String.join_cons]
    rfl

/-- The text of a predicate, member by member. -/
theorem predicateText_of_conjuncts {first : Predicate SelectPlan}
    {others : List (Predicate SelectPlan)} (h : p.conjuncts = first :: others) : predicateText p =
      conjunctText first ++ String.join (others.map fun p => " AND " ++ conjunctText p) := by
  cases p with
  | and ps =>
    cases h
    rw [predicateText, Predicate.map, Predicate.mapAll, Predicate.text, conjunctsText_map]
    rfl
  | _ =>
    cases h
    rw [List.map_nil, String.join_nil, String.append_empty]
    simp only [predicateText, conjunctText, Predicate.map, Predicate.conjunctText]

theorem length_conjunctText_le {c : Predicate SelectPlan} (h : c ∈ p.conjuncts) :
    (conjunctText c).length ≤ (predicateText p).length := by
  cases hconjuncts : p.conjuncts with
  | nil =>
    rw [hconjuncts] at h
    cases h
  | cons first others =>
    rw [hconjuncts, List.mem_cons] at h
    rw [predicateText_of_conjuncts hconjuncts, String.length_append]
    rcases h with rfl | h
    · omega
    · have hmem : " AND " ++ conjunctText c ∈ others.map fun p => " AND " ++ conjunctText p :=
        List.mem_map_of_mem h
      have hchars := List.mem_map_of_mem (f := String.toList) hmem
      have hle := (List.sublist_flatten_of_mem hchars).length_le
      rw [← List.flatMap_def, ← String.toList_join, String.length_toList, String.length_toList,
        String.length_append] at hle
      omega

end

def whereText : Option (Predicate SelectPlan) → String
  | some p => " WHERE " ++ predicateText p
  | none => ""

def orderText (keys : List OrderKey) : String :=
  if keys = [] then "" else " ORDER BY " ++ ", ".intercalate (keys.map OrderKey.text)

theorem text_eq (plan : SelectPlan) : plan.text =
    "SELECT " ++ plan.selection.text ++ " FROM " ++ plan.rootEntity ++ " " ++ plan.rootAlias ++
      String.join (plan.joins.map Join.text) ++ whereText plan.filter ++ orderText plan.orderBy := by
  rw [text, fold_eq]
  cases plan.filter <;> rfl

end SelectPlan

end CriteriaQuery
