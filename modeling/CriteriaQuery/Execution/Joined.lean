import CriteriaQuery.Execution.Binding
import CriteriaQuery.Catalog
import CriteriaQuery.Plan

/-! The join stage of a plan: every root row, extended through the joins one after the other. -/
namespace CriteriaQuery
set_option autoImplicit false

def SelectPlan.entityOf (plan : SelectPlan) (aliasName : String) : Except Error String :=
  if plan.rootAlias = aliasName then .ok plan.rootEntity
  else
    match plan.join? aliasName with
    | some join => .ok join.entity
    | none => .error (.execution (.unknownAlias aliasName))

/-- Whether a target row is related to a source row: its key is equal to the source's, which is
not null. -/
def Relation.relates (relation : Relation) (source target : Row) : Bool :=
  match source.get? relation.sourceField, target.get? relation.targetField with
  | some key, some value => !key.isNull && key.equal value
  | _, _ => false

/-- The rows of a store that are related to a source row, in the order of the store. -/
def Relation.related (relation : Relation) (store : Store) (source : Row) : List Row :=
  (store.rows relation.target).filter (relation.relates source)

/-- The bindings that a join makes of one binding: one for each related row. A left join keeps
the binding if there is none. -/
def Join.extend (join : Join) (relation : Relation) (store : Store) (binding : Binding) :
    Except Error (List Binding) :=
  (binding.row join.parentAlias).map fun source =>
    match (source.map (relation.related store)).getD [], join.type with
    | [], .left => [binding.bind join.aliasName none]
    | rows, _ => rows.map fun row => binding.bind join.aliasName (some row)

namespace SelectPlan

def joinStep (plan : SelectPlan) (catalog : Catalog) (store : Store) (bindings : List Binding)
    (join : Join) : Except Error (List Binding) := do
  let relation ← catalog.relation (← plan.entityOf join.parentAlias) join.relation
  return (← bindings.mapM (join.extend relation store)).flatten

/-- The root rows, carried through all joins. The root entity has to be declared. -/
def joined (plan : SelectPlan) (catalog : Catalog) (store : Store) :
    Except Error (List Binding) := do
  let _ ← catalog.entity plan.rootEntity
  plan.joins.foldlM (plan.joinStep catalog store)
    ((store.rows plan.rootEntity).map (Binding.root plan.rootAlias))

end SelectPlan

end CriteriaQuery
