import CriteriaQuery.Execution.Evaluation
import CriteriaQuery.Execution.Joined
import CriteriaQuery.Execution.Sorted

/-! Executing plans on a store: join, filter, sort, select. A subquery is executed when its members
are first asked for. -/
namespace CriteriaQuery
set_option autoImplicit false

/-- What a plan returns. -/
inductive Output where
  | entities (rows : List Row)
  | count (n : Nat)
  | values (vs : List Value)

namespace Output

def toCount : Output → Except Error Nat
  | .count n => .ok n
  | _ => .error (.execution .selectsNoCount)

def toEntities : Output → Except Error (List Row)
  | .entities rows => .ok rows
  | _ => .error (.execution .selectsNoEntities)

def toValues : Output → Except Error (List Value)
  | .values vs => .ok vs
  | _ => .error (.execution .selectsNoValues)

end Output

/-- The rows of an alias in bindings, which all have to bind it; one without a row is passed
over. -/
def boundRows (aliasName : String) (bindings : List Binding) : Except Error (List Row) := do
  return (← bindings.mapM (·.row aliasName)).filterMap id

def Selection.output (selection : Selection) (bindings : List Binding) : Except Error Output :=
  match selection with
  | .entity aliasName => (boundRows aliasName bindings).map .entities
  | .expr (.count aliasName) => (boundRows aliasName bindings).map fun rows => .count rows.length
  | .expr e => do return .values (← bindings.mapM (·.scalar e))

/-- A subquery that has not been executed. -/
abbrev Pending := Unit → Except Error Output

def Pending.members (pending : Pending) : Except Error (List Value) := do (← pending ()).toValues

/-- The bindings for which a predicate holds. -/
def keepWhere (filter : Predicate Pending) :
    List Binding → MemberCache → Except Error (List Binding)
  | [], _ => .ok []
  | binding :: rest, cache =>
    match filter.evaluate Pending.members binding [] cache with
    | (.ok true, cache) => (keepWhere filter rest cache).map (binding :: ·)
    | (.ok false, cache) => keepWhere filter rest cache
    | (.error e, _) => .error e

namespace SelectPlan

/-- Executes a plan around a filter whose subqueries are ready to be executed. -/
def run (catalog : Catalog) (store : Store) (plan : SelectPlan)
    (filter : Option (Predicate Pending)) : Except Error Output := do
  let bindings ← plan.joined catalog store
  let kept ←
    match filter with
    | some p => keepWhere p bindings {}
    | none => pure bindings
  plan.selection.output (← sortBindings plan.orderBy kept)

/-- A plan, ready to be executed. -/
def pending (catalog : Catalog) (store : Store) (plan : SelectPlan) : Pending :=
  plan.fold fun plan filter () => plan.run catalog store filter

def execute (catalog : Catalog) (store : Store) (plan : SelectPlan) : Except Error Output :=
  plan.pending catalog store ()

/-- A plan is executed with its subqueries as what executing them gives. -/
theorem execute_eq (catalog : Catalog) (store : Store) (plan : SelectPlan) :
    plan.execute catalog store =
      plan.run catalog store (plan.filter.map (Predicate.map (pending catalog store))) := by
  unfold execute pending
  rw [fold_eq]

def count (catalog : Catalog) (store : Store) (plan : SelectPlan) : Except Error Nat := do
  (← plan.execute catalog store).toCount

def entities (catalog : Catalog) (store : Store) (plan : SelectPlan) :
    Except Error (List Row) := do
  (← plan.execute catalog store).toEntities

def values (catalog : Catalog) (store : Store) (plan : SelectPlan) :
    Except Error (List Value) := do
  (← plan.execute catalog store).toValues

end SelectPlan

end CriteriaQuery
