import CriteriaQuery.Catalog
import CriteriaQuery.Join.Mode
import CriteriaQuery.Plan

/-! Plans under construction. Every step is checked against the catalog; a step that fails leaves
the draft as it was. The scans of a draft are numbered under a stem of its own, so that no two
scans of a query and its subqueries share an alias. -/
namespace CriteriaQuery
set_option autoImplicit false

/-- What a query is made for. -/
inductive ResultKind where
  | count
  | entity
deriving DecidableEq, Repr

/-- An alias with the entity that it reads. -/
structure Scan where
  aliasName : String
  entity : String
deriving DecidableEq, Repr

/-- A plan under construction. -/
structure Draft where
  plan : SelectPlan
  kind : ResultKind
  /-- The front part of all aliases of the draft. -/
  stem : String
  /-- The number of the next alias. -/
  nextAlias : Nat
  /-- How many subqueries have been made for the draft. -/
  subqueries : Nat

namespace Draft

def numberText (n : Nat) : String := String.ofList (Text.digitsOf n)

def aliasOf (stem : String) (n : Nat) : String := stem ++ numberText n

/-- The stem of the `n`-th subquery of a draft. -/
def subqueryStem (stem : String) (n : Nat) : String := stem ++ "q" ++ numberText n ++ "_"

def mainStem : String := "t"

def start (kind : ResultKind) (stem entity : String) : Draft × Scan :=
  let aliasName := aliasOf stem 0
  ({ plan := .scan entity aliasName, kind, stem, nextAlias := 1, subqueries := 0 },
    ⟨aliasName, entity⟩)

def create (catalog : Catalog) (kind : ResultKind) (entity : String) :
    Except Error (Draft × Scan) := do
  let _ ← catalog.entity entity
  return start kind mainStem entity

/-- A query inside another one. -/
structure Subquery where
  /-- The query around it, which counts it from now on. -/
  outer : Draft
  draft : Draft
  root : Scan

def createSubquery (outer : Draft) (catalog : Catalog) (entity : String) :
    Except Error Subquery := do
  let _ ← catalog.entity entity
  let (draft, root) := start .entity (subqueryStem outer.stem outer.subqueries) entity
  return ⟨{ outer with subqueries := outer.subqueries + 1 }, draft, root⟩

/-- How a join is made in a mode. -/
def joinType (mode : JoinMode) : JoinType := if mode.inner then .inner else .left

/-- Joins an entity to a scan. The relation has to be declared for the scan's entity, to reach as
many rows as the relationship says, and to lead to the entity. -/
def join (catalog : Catalog) (draft : Draft) (parent : Scan) (relationship : Relationship)
    (entity : String) (mode : JoinMode) : Except Error (Draft × Scan) := do
  let relation ← catalog.relation parent.entity relationship.relation
  if relation.cardinality.isToMany ≠ relationship.isToMany then
    .error (.cardinalityMismatch parent.entity relation.name)
  else if relation.target ≠ entity then
    .error (.configuration (.wrongTarget parent.entity relation.name relation.target entity))
  else
    let aliasName := aliasOf draft.stem draft.nextAlias
    let join : Join :=
      { aliasName, parentAlias := parent.aliasName, relation := relation.name,
        entity := relation.target, type := joinType mode, fetch := mode.fetch }
    return ({ draft with
      plan := { draft.plan with joins := draft.plan.joins ++ [join] },
      nextAlias := draft.nextAlias + 1 }, ⟨aliasName, relation.target⟩)

def select (draft : Draft) (e : Scalar) : Draft :=
  { draft with plan := { draft.plan with selection := .expr e } }

def filter (draft : Draft) (p : Predicate SelectPlan) : Draft :=
  { draft with plan := { draft.plan with filter := some p } }

def orderBy (draft : Draft) (keys : List OrderKey) : Draft :=
  { draft with plan := { draft.plan with orderBy := keys } }

end Draft

def Scan.column (catalog : Catalog) (scan : Scan) (name : String) : Except Error Scalar := do
  catalog.checkColumn scan.entity name
  return .column scan.aliasName name

end CriteriaQuery
