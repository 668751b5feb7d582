import CriteriaQuery.Proofs.Handler.Running
import CriteriaQuery.Proofs.Join.Graph

/-! The joins and sort keys of compiled queries. A query joins the nodes on the way to its main
restrictions and to its sorts, each once; those on the way to a sort by left fetching joins, the
others by inner ones. Its sort keys are those of its sorts, in the order in which they were asked for
(`Handler.joins_of_compile`). -/
namespace CriteriaQuery
open Outcome
set_option autoImplicit false

/-! ## Sorts that are asked for -/

namespace HandlerConfig
variable {C S : Type} [DecidableEq S] {config : HandlerConfig C S}

/-- The configured sorts among those asked for, in the order in which they were. -/
def known (config : HandlerConfig C S) (requests : List (SortRequest S)) :
    List (ConfiguredSort S × Direction) :=
  requests.filterMap fun request =>
    (config.sort? request.identifier).map fun sort => (sort, request.direction)

/-- Sorts that are not configured are ignored, or there are none. -/
def Tolerates (config : HandlerConfig C S) (requests : List (SortRequest S)) : Prop :=
  config.unknownSorts = .ignore ∨
    ∀ request ∈ requests, request.identifier ∈ config.sorts.map (·.identifier)

theorem isSome_sort?_iff {identifier : S} :
    (config.sort? identifier).isSome = true ↔ identifier ∈ config.sorts.map (·.identifier) := by
  simp [sort?, List.find?_isSome]

theorem tolerates_cons {request : SortRequest S} {rest : List (SortRequest S)} :
    config.Tolerates (request :: rest) ↔
      (config.unknownSorts = .ignore ∨ (config.sort? request.identifier).isSome = true) ∧
        config.Tolerates rest := by
  rw [Tolerates, Tolerates, List.forall_mem_cons, isSome_sort?_iff, or_and_left]

theorem resolveSorts_eq_ok_iff {requests : List (SortRequest S)}
    {sorts : List (ConfiguredSort S × Direction)} : config.resolveSorts requests = .ok sorts ↔
      config.Tolerates requests ∧ sorts = config.known requests := by
  induction requests generalizing sorts with
  | nil => simp [resolveSorts, Tolerates, known, eq_comm]
  | cons request rest ih =>
    rw [tolerates_cons, resolveSorts, known, List.filterMap_cons]
    cases hsort : config.sort? request.identifier with
    | some sort =>
      simp only [Option.isSome_some, or_true, true_and, Option.map_some, map_eq_ok, ih]
      constructor
      · rintro ⟨others, ⟨htolerates, rfl⟩, rfl⟩
        exact ⟨htolerates, rfl⟩
      · rintro ⟨htolerates, rfl⟩
        exact ⟨_, ⟨htolerates, rfl⟩, rfl⟩
    | none =>
      cases hpolicy : config.unknownSorts with
      | ignore => simp [ih, known]
      | reject => simp

end HandlerConfig

namespace Handler
variable {C S : Type} [DecidableEq S] {handler : Handler C S} {definition : QueryDefinition C S}
  {kind : ResultKind} {plan : SelectPlan} {draft : Draft}

/-- The sorts by which a query orders its rows. A count has none. -/
def sortsOf (handler : Handler C S) (kind : ResultKind) (requests : List (SortRequest S)) :
    List (ConfiguredSort S × Direction) :=
  match kind with
  | .count => []
  | .entity => handler.config.known requests

theorem sorts_eq_ok {requests : List (SortRequest S)}
    {sorts : List (ConfiguredSort S × Direction)} (h : handler.sorts kind requests = .ok sorts) :
    sorts = handler.sortsOf kind requests := by
  cases kind with
  | count =>
    cases h
    rfl
  | entity => exact (HandlerConfig.resolveSorts_eq_ok_iff.mp h).2

/-! ## Joins and sort keys -/

/-- On the way to a sort, joins are left and fetching; elsewhere they are inner. -/
def modeToward (sorts : List JoinNode) (node : JoinNode) : JoinMode :=
  if node ∈ sorts.flatMap JoinNode.path then ⟨false, true⟩ else ⟨true, false⟩

theorem Compiled.orderBy_eq (compiled : handler.Compiled kind definition plan) :
    plan.orderBy = compiled.sorts.map fun sort =>
      ⟨.column (compiled.scope.aliasFor sort.1.node) sort.1.column, sort.2⟩ := by
  apply eq_map_of_mapM ?_ compiled.keys_eq
  intro sort key h
  obtain ⟨scan, hscan, horder⟩ := bind_eq_ok.mp h
  obtain ⟨path, hpath, hpure⟩ := bind_eq_ok.mp horder
  rw [← pure_eq_ok.mp hpure, Scan.column_eq_ok hpath, Scope.aliasFor_of_scan hscan]

theorem Compiled.joinGraph (compiled : handler.Compiled kind definition plan) :
    ∃ nodes, compiled.scope.nodes = handler.config.root :: nodes ∧
      plan.JoinGraph handler.config.root
        ((handler.main definition.criteria).map (·.node) ++ compiled.sorts.map (·.1.node))
        (modeToward (compiled.sorts.map (·.1.node))) nodes compiled.scope.aliasFor := by
  obtain ⟨nodes, hnodes, hgraph⟩ := compiled.spans.joinGraph
  refine ⟨nodes, hnodes, hgraph.congr ?_ ?_⟩
  · intro node
    rw [List.mem_append, List.mem_append, mem_mainNodes_iff]
  · intro node hnode
    have hmem : node ∈ handler.tree := by
      apply compiled.spans.wired.mem
      rw [hnodes]
      exact List.mem_cons_of_mem _ hnode
    exact JoinModes.modeOf_resolve _ hmem (sortNodes_mem_tree compiled.sorts_eq)

/-- A compiled query joins just the nodes on the way to its main restrictions and its sorts, and
orders by the columns of its sorts. -/
theorem joins_of_compile (h : handler.compile kind definition = .ok draft) :
    ∃ nodes aliasFor,
      draft.plan.JoinGraph handler.config.root
        ((handler.main definition.criteria).map (·.node) ++
          (handler.sortsOf kind definition.sorts).map (·.1.node))
        (modeToward ((handler.sortsOf kind definition.sorts).map (·.1.node))) nodes aliasFor ∧
      draft.plan.orderBy = (handler.sortsOf kind definition.sorts).map fun sort =>
        ⟨.column (aliasFor sort.1.node) sort.1.column, sort.2⟩ := by
  obtain ⟨compiled⟩ := exists_compiled h
  obtain ⟨nodes, -, hgraph⟩ := compiled.joinGraph
  rw [← sorts_eq_ok compiled.sorts_eq]
  exact ⟨nodes, compiled.scope.aliasFor, hgraph, compiled.orderBy_eq⟩

end Handler

namespace People

/-- Sorts by the last name of the employer's owner, and by something that is not configured. -/
def byOwner : QueryDefinition Unit PersonSort :=
  ⟨(), [⟨.ownerLastName, .descending⟩, ⟨.noMapping, .ascending⟩]⟩

/-- Both joins are on the way to the owner. -/
theorem joins_of_compile_of_employedParentsOfM :
    ∃ draft, employedParentsOfM.compile .entity byOwner = .ok draft ∧
      draft.plan.joins.map (fun join => (join.relation, join.type, join.fetch)) =
        [("employer", .left, true), ("owner", .left, true)] ∧
      ∃ nodes aliasFor,
        draft.plan.JoinGraph Node.person [Node.business, Node.owner]
          (Handler.modeToward [Node.owner]) nodes aliasFor ∧
        draft.plan.orderBy = [⟨.column (aliasFor Node.owner) "lastName", .descending⟩] :=
  ⟨_, rfl, rfl, @Handler.joins_of_compile _ _ _ employedParentsOfM byOwner .entity _ rfl⟩

end People

end CriteriaQuery
