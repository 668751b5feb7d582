import CriteriaQuery.Proofs.Plan.Draft

/-! Actions on a query that is changed in place, step after step. What they come to is what the
functions on drafts say: a failure comes before the first change, so that it leaves the query as it
was (`Draft.Action.perform_cases`). -/
namespace CriteriaQuery
open Outcome
set_option autoImplicit false

namespace Draft

/-- Work on a query. What is changed before a failure stays changed. -/
abbrev Work := ExceptT Error (StateM Draft)

def Work.on {α : Type} (work : Work α) (draft : Draft) : Except Error α × Draft := work.run draft

section Work
variable {α β : Type}

theorem Work.on_bind (work : Work α) (next : α → Work β) (draft : Draft) :
    (work >>= next).on draft = match work.on draft with
      | (.ok a, later) => (next a).on later
      | (.error e, later) => (.error e, later) := by
  unfold Work.on ExceptT.run
  simp only [bind, ExceptT.bind, ExceptT.mk, StateT.bind, ExceptT.bindCont]
  cases work draft with
  | mk outcome later =>
    cases outcome with
    | error e => rfl
    | ok a => rfl

/-- Work that is done as a whole or not at all. -/
def Work.ofExcept (draft : Draft) (outcome : Except Error (α × Draft)) : Except Error α × Draft :=
  match outcome with
  | .ok (a, later) => (.ok a, later)
  | .error e => (.error e, draft)

end Work

/-! ## Single changes -/

def allocateAlias : Work String := do
  let draft ← get
  set { draft with nextAlias := draft.nextAlias + 1 }
  return aliasOf draft.stem draft.nextAlias

def countSubquery : Work Nat := do
  let draft ← get
  set { draft with subqueries := draft.subqueries + 1 }
  return draft.subqueries

def addJoin (join : Join) : Work Unit :=
  modify fun draft => { draft with plan := { draft.plan with joins := draft.plan.joins ++ [join] } }

/-! ## Subqueries and joins -/

def beginSubquery (catalog : Catalog) (entity : String) : Work (Draft × Scan) := do
  let _ ← catalog.entity entity
  let n ← countSubquery
  return start .entity (subqueryStem (← get).stem n) entity

def joinIn (catalog : Catalog) (parent : Scan) (relationship : Relationship) (entity : String)
    (mode : JoinMode) : Work Scan := do
  let relation ← catalog.relation parent.entity relationship.relation
  if relation.cardinality.isToMany ≠ relationship.isToMany then
    throw (.cardinalityMismatch parent.entity relation.name)
  else if relation.target ≠ entity then
    throw (.configuration (.wrongTarget parent.entity relation.name relation.target entity))
  else
    let aliasName ← allocateAlias
    addJoin
      { aliasName, parentAlias := parent.aliasName, relation := relation.name,
        entity := relation.target, type := joinType mode, fetch := mode.fetch }
    return ⟨aliasName, relation.target⟩

theorem on_beginSubquery (catalog : Catalog) (entity : String) (draft : Draft) :
    (beginSubquery catalog entity).on draft = Work.ofExcept draft
      ((draft.createSubquery catalog entity).map
        fun sub => ((sub.draft, sub.root), sub.outer)) := by
  unfold beginSubquery createSubquery
  cases catalog.entity entity with
  | error e => rfl
  | ok found => rfl

theorem on_joinIn (catalog : Catalog) (parent : Scan) (relationship : Relationship)
    (entity : String) (mode : JoinMode) (draft : Draft) :
    (joinIn catalog parent relationship entity mode).on draft = Work.ofExcept draft
      ((draft.join catalog parent relationship entity mode).map Prod.swap) := by
  unfold joinIn join
  cases catalog.relation parent.entity relationship.relation with
  | error e => rfl
  | ok relation =>
    rw [Work.on_bind, bind_ok rfl]
    change Work.on (ite _ _ _) draft = _
    split
    · rfl
    · split
      · rfl
      · rfl

/-! ## Actions -/

/-- What can be done to a query that is being made. -/
inductive Action where
  | createSubquery (entity : String)
  | join (parent : Scan) (relationship : Relationship) (entity : String) (mode : JoinMode)
  | select (e : Scalar)
  | filter (p : Predicate SelectPlan)
  | orderBy (keys : List OrderKey)

/-- What an action gives: the subqueries that it begins and the scans that it hands out. -/
structure Action.Yield where
  begun : List Draft
  scans : List Scan

def Action.perform (catalog : Catalog) : Action → Work Action.Yield
  | .createSubquery entity => do
    let (draft, root) ← beginSubquery catalog entity
    return ⟨[draft], [root]⟩
  | .join parent relationship entity mode => do
    let scan ← joinIn catalog parent relationship entity mode
    return ⟨[], [scan]⟩
  | .select e => do
    modify (·.select e)
    return ⟨[], []⟩
  | .filter p => do
    modify (·.filter p)
    return ⟨[], []⟩
  | .orderBy keys => do
    modify (·.orderBy keys)
    return ⟨[], []⟩

/-- What an action does to the numbers of its query: it uses the next one for a scan, the next one
for a subquery, or none. -/
inductive Action.Numbers (draft : Draft) : Draft → Action.Yield → Prop
  | scan {join : Join} (hname : join.aliasName = aliasOf draft.stem draft.nextAlias) :
    Numbers draft (draft.withJoin join) ⟨[], [join.scan]⟩
  | subquery (entity : String) :
    Numbers draft { draft with subqueries := draft.subqueries + 1 }
      ⟨[(Draft.start .entity (subqueryStem draft.stem draft.subqueries) entity).1],
        [(Draft.start .entity (subqueryStem draft.stem draft.subqueries) entity).2]⟩
  | none {later : Draft} (hscans : later.plan.scans = draft.plan.scans)
    (hstem : later.stem = draft.stem) (halias : later.nextAlias = draft.nextAlias)
    (hsubqueries : later.subqueries = draft.subqueries) : Numbers draft later ⟨[], []⟩

/-- An action fails and leaves its query as it was, or it succeeds and uses numbers. -/
theorem Action.perform_cases (catalog : Catalog) (action : Action) (draft : Draft) :
    (∃ e, (action.perform catalog).on draft = (.error e, draft)) ∨
      ∃ yield later, (action.perform catalog).on draft = (.ok yield, later) ∧
        Action.Numbers draft later yield := by
  cases action with
  | createSubquery entity =>
    have hon : (Action.perform catalog (.createSubquery entity)).on draft = _ := Work.on_bind _ _ _
    rw [hon, on_beginSubquery]
    unfold Draft.createSubquery
    cases catalog.entity entity with
    | error e => exact Or.inl ⟨e, rfl⟩
    | ok found => exact Or.inr ⟨_, _, rfl, .subquery entity⟩
  | join parent relationship entity mode =>
    have hon : (Action.perform catalog (.join parent relationship entity mode)).on draft = _ :=
      Work.on_bind _ _ _
    rw [hon, on_joinIn]
    cases hjoin : draft.join catalog parent relationship entity mode with
    | error e => exact Or.inl ⟨e, rfl⟩
    | ok made =>
      obtain ⟨relation, -, -, -, hlater, hscan⟩ := join_eq_ok.mp hjoin
      refine Or.inr ⟨⟨[], [made.2]⟩, made.1, rfl, ?_⟩
      rw [hlater, hscan]
      exact .scan rfl
  | select e => exact Or.inr ⟨_, _, rfl, .none rfl rfl rfl rfl⟩
  | filter p => exact Or.inr ⟨_, _, rfl, .none rfl rfl rfl rfl⟩
  | orderBy keys => exact Or.inr ⟨_, _, rfl, .none rfl rfl rfl rfl⟩

end Draft

end CriteriaQuery
