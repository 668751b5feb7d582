import CriteriaQuery.Plan.Predicate

/-! Compiled queries: a scan of a root entity, joins that hang on earlier aliases, a filter, the
sort keys and what is selected. Subqueries in the filter are plans again. -/
namespace CriteriaQuery
set_option autoImplicit false

/-- What a query returns: the rows bound to an alias, or the values of an expression. -/
inductive Selection where
  | entity (aliasName : String)
  | expr (e : Scalar)
deriving DecidableEq, Repr

/-- Whether a join drops the rows that have no related row. -/
inductive JoinType where
  | inner
  | left
deriving DecidableEq, Repr

/-- A join from an earlier alias to a related entity. -/
structure Join where
  aliasName : String
  parentAlias : String
  relation : String
  entity : String
  type : JoinType
  fetch : Bool
deriving DecidableEq, Repr

/-- A sort key. -/
structure OrderKey where
  expr : Scalar
  direction : Direction
deriving DecidableEq, Repr

/-- A compiled query. -/
structure SelectPlan where
  rootEntity : String
  rootAlias : String
  selection : Selection
  joins : List Join
  filter : Option (Predicate SelectPlan)
  orderBy : List OrderKey

namespace SelectPlan

def scan (entity aliasName : String) : SelectPlan where
  rootEntity := entity
  rootAlias := aliasName
  selection := .entity aliasName
  joins := []
  filter := none
  orderBy := []

def join? (plan : SelectPlan) (aliasName : String) : Option Join :=
  plan.joins.find? (·.aliasName = aliasName)

def isCount (plan : SelectPlan) : Bool :=
  match plan.selection with
  | .expr (.count _) => true
  | _ => false

/-! ## Bottom-up recursion

A function of plans is given by what it makes of a plan whose subplans have been replaced by their
values. -/

variable {α : Type}

mutual

/-- Computes a value for a plan from the values of the plans in its filter. -/
def fold (f : SelectPlan → Option (Predicate α) → α) : SelectPlan → α
  | ⟨rootEntity, rootAlias, selection, joins, filter, orderBy⟩ =>
    f ⟨rootEntity, rootAlias, selection, joins, filter, orderBy⟩ (foldFilter f filter)

/-- Replaces the plans in a filter by their values. -/
def foldFilter (f : SelectPlan → Option (Predicate α) → α) :
    Option (Predicate SelectPlan) → Option (Predicate α)
  | none => none
  | some p => some (foldPredicate f p)

/-- Replaces the plans in a predicate by their values. -/
def foldPredicate (f : SelectPlan → Option (Predicate α) → α) :
    Predicate SelectPlan → Predicate α
  | .compare c e v => .compare c e v
  | .isNull e => .isNull e
  | .isNotNull e => .isNotNull e
  | .like e pattern rule => .like e pattern rule
  | .member e plan => .member e (fold f plan)
  | .not p => .not (foldPredicate f p)
  | .and ps => .and (foldPredicates f ps)

/-- Replaces the plans in a list of predicates by their values. -/
def foldPredicates (f : SelectPlan → Option (Predicate α) → α) :
    List (Predicate SelectPlan) → List (Predicate α)
  | [] => []
  | p :: ps => foldPredicate f p :: foldPredicates f ps

end

mutual

theorem foldPredicate_eq_map (f : SelectPlan → Option (Predicate α) → α)
    (p : Predicate SelectPlan) : foldPredicate f p = p.map (fold f) := by
  cases p with
  | not p => simp only [foldPredicate, Predicate.map, foldPredicate_eq_map f p]
  | and ps => simp only [foldPredicate, Predicate.map, foldPredicates_eq_mapAll f ps]
  | _ => simp only [foldPredicate, Predicate.map]

theorem foldPredicates_eq_mapAll (f : SelectPlan → Option (Predicate α) → α)
    (ps : List (Predicate SelectPlan)) : foldPredicates f ps = Predicate.mapAll (fold f) ps := by
  cases ps with
  | nil => rfl
  | cons p ps =>
    simp only [foldPredicates, Predicate.mapAll, foldPredicate_eq_map f p,
      foldPredicates_eq_mapAll f ps]

end

/-- The value of a plan in terms of the values of its subplans. -/
theorem fold_eq (f : SelectPlan → Option (Predicate α) → α) (plan : SelectPlan) :
    plan.fold f = f plan (plan.filter.map (Predicate.map (fold f))) := by
  obtain ⟨rootEntity, rootAlias, selection, joins, filter, orderBy⟩ := plan
  rw [fold]
  cases filter with
  | none => rfl
  | some p => rw [foldFilter, foldPredicate_eq_map]; rfl

end SelectPlan

end CriteriaQuery
