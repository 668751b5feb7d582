import CriteriaQuery.Handler.Config
import CriteriaQuery.Join.Scope

/-! Compiling query definitions. Restrictions that no way to many rows leads to are joined and
tested in the query itself. The others would multiply its rows; they are tested together in a
subquery over the same root entity, and the query asks that the identity of its root row is among
those that the subquery selects. -/
namespace CriteriaQuery
set_option autoImplicit false

/-- A catalog with a configuration that has no fault. -/
structure Handler (C S : Type) [DecidableEq S] where
  catalog : Catalog
  config : HandlerConfig C S
  accepted : config.fault? = none

namespace RestrictionGroup

/-- The predicates of present restrictions on one scan, in order. A test may start subqueries of
the draft. -/
def predicatesOn (catalog : Catalog) (scan : Scan) :
    List Applied → Draft → Except Error (Draft × List (Predicate SelectPlan))
  | [], draft => .ok (draft, [])
  | applied :: rest, draft => do
    let (draft, p) ← applied.build catalog scan draft
    let (draft, ps) ← predicatesOn catalog scan rest draft
    return (draft, p :: ps)

/-- The predicates of groups whose nodes have been joined, in order. -/
def predicates (catalog : Catalog) (scope : Scope) :
    List RestrictionGroup → Draft → Except Error (Draft × List (Predicate SelectPlan))
  | [], draft => .ok (draft, [])
  | group :: rest, draft => do
    let (draft, ps) ← predicatesOn catalog (← scope.scan group.node) group.members draft
    let (draft, qs) ← predicates catalog scope rest draft
    return (draft, ps ++ qs)

end RestrictionGroup

namespace Handler
variable {C S : Type} [DecidableEq S]

/-- A handler, unless its configuration has a fault. -/
def create (catalog : Catalog) (config : HandlerConfig C S) : Except Error (Handler C S) :=
  match h : config.fault? with
  | none => .ok ⟨catalog, config, h⟩
  | some fault => .error (.configuration fault)

/-- The present restrictions of a record, grouped by node. -/
def groups (handler : Handler C S) (criteria : C) : List RestrictionGroup :=
  RestrictionGroup.ofList (handler.config.restrictions.filterMap (·.present? criteria))

def mainGroups (handler : Handler C S) (criteria : C) : List RestrictionGroup :=
  (handler.groups criteria).filter (!·.node.crossesToMany)

def promotedGroups (handler : Handler C S) (criteria : C) : List RestrictionGroup :=
  (handler.groups criteria).filter (·.node.crossesToMany)

/-- The root scan of a query; a count selects the number of root rows. -/
def start (handler : Handler C S) (kind : ResultKind) : Except Error (Draft × Scan) := do
  let (draft, scan) ← Draft.create handler.catalog kind handler.config.root.entity
  match kind with
  | .count => return (draft.select (.count scan.aliasName), scan)
  | .entity => return (draft, scan)

/-- The sorts of a query; a count has none. -/
def sorts (handler : Handler C S) (kind : ResultKind) (requests : List (SortRequest S)) :
    Except Error (List (ConfiguredSort S × Direction)) :=
  match kind with
  | .count => .ok []
  | .entity => handler.config.resolveSorts requests

/-- Tests groups in a subquery: the identity of the outer root row is among those of the root rows
that pass. -/
def promote (handler : Handler C S) (outer : Draft) (outerRoot : Scan)
    (groups : List RestrictionGroup) : Except Error (Draft × Predicate SelectPlan) := do
  let root := handler.config.root
  let sub ← outer.createSubquery handler.catalog root.entity
  let nodes := groups.map (·.node)
  let scope ← (Scope.start sub.draft root sub.root).withAll handler.catalog
    (JoinModes.resolve nodes []) nodes
  let (draft, ps) ← RestrictionGroup.predicates handler.catalog scope groups scope.draft
  let id ← sub.root.column handler.catalog handler.config.idColumn
  let outerId ← outerRoot.column handler.catalog handler.config.idColumn
  return (sub.outer, .member outerId ((draft.select id).filter (.all ps)).plan)

/-- The predicates of a query: those of the main groups, then one for the promoted groups if there
are any. -/
def conditions (handler : Handler C S) (criteria : C) (root : Scan) (scope : Scope) :
    Except Error (Draft × List (Predicate SelectPlan)) := do
  let (draft, ps) ←
    RestrictionGroup.predicates handler.catalog scope (handler.mainGroups criteria) scope.draft
  match handler.promotedGroups criteria with
  | [] => return (draft, ps)
  | groups =>
    let (draft, p) ← handler.promote draft root groups
    return (draft, ps ++ [p])

def compile (handler : Handler C S) (kind : ResultKind) (definition : QueryDefinition C S) :
    Except Error Draft := do
  let (draft, root) ← handler.start kind
  let sorts ← handler.sorts kind definition.sorts
  let mainNodes := (handler.mainGroups definition.criteria).map (·.node)
  let sortNodes := sorts.map (·.1.node)
  let modes := JoinModes.resolve mainNodes sortNodes
  let scope ← (Scope.start draft handler.config.root root).withAll handler.catalog modes mainNodes
  let scope ← scope.withAll handler.catalog modes sortNodes
  let (draft, ps) ← handler.conditions definition.criteria root scope
  let keys ← sorts.mapM fun (sort, direction) => do
    sort.orderKey handler.catalog (← scope.scan sort.node) direction
  return (if ps.isEmpty then draft else draft.filter (.all ps)).orderBy keys

/-- The plan that counts the root rows that a definition asks for. Sorts play no part in it. -/
def countPlan (handler : Handler C S) (definition : QueryDefinition C S) :
    Except Error SelectPlan :=
  (handler.compile .count definition).map (·.plan)

/-- The plan that returns the root rows that a definition asks for, in the order it asks for. -/
def entityPlan (handler : Handler C S) (definition : QueryDefinition C S) :
    Except Error SelectPlan :=
  (handler.compile .entity definition).map (·.plan)

end Handler

end CriteriaQuery
