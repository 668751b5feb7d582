import CriteriaQuery.People.Search
import CriteriaQuery.Proofs.Join.Span
import CriteriaQuery.Proofs.Restriction.Groups
import CriteriaQuery.Proofs.Restriction.Meaning

/-! What a compiled plan is made of. A plan that compiles spans the nodes of its main restrictions
and of its sorts (`Handler.exists_compiled`). Its filter has a predicate for each main restriction
and, if there are promoted ones, one more that looks up the root row in a subquery; the subquery
spans their nodes and has a predicate for each of them. -/
namespace CriteriaQuery
open Outcome
set_option autoImplicit false

/-! ## Predicates of groups -/

/-- A predicate that was built for a restriction on the scan of its node. -/
def Applied.Builds (catalog : Catalog) (scope : Scope) (a : Applied) (p : Predicate SelectPlan) :
    Prop :=
  ∃ scan draft later, scope.scan a.node = .ok scan ∧ a.build catalog scan draft = .ok (later, p)

namespace RestrictionGroup
variable {catalog : Catalog} {scope : Scope}

theorem predicatesOn_builds {scan : Scan} {node : JoinNode} (hscan : scope.scan node = .ok scan)
    {members : List Applied} (hnode : ∀ a ∈ members, a.node = node) {draft later : Draft}
    {ps : List (Predicate SelectPlan)}
    (h : predicatesOn catalog scan members draft = .ok (later, ps)) :
    later.plan = draft.plan ∧ List.Forall₂ (Applied.Builds catalog scope) members ps := by
  induction members generalizing draft ps with
  | nil =>
    cases h
    exact ⟨rfl, .nil⟩
  | cons a rest ih =>
    simp only [predicatesOn, bind_eq_ok, pure_eq_ok, Prod.exists, Prod.mk.injEq] at h
    obtain ⟨next, p, hp, last, qs, hqs, rfl, rfl⟩ := h
    obtain ⟨hplan, hall⟩ := ih (fun b hb => hnode b (List.mem_cons_of_mem _ hb)) hqs
    have hfirst := hnode a List.mem_cons_self
    refine ⟨?_, .cons ⟨scan, draft, next, by rw [hfirst]; exact hscan, hp⟩ hall⟩
    obtain ⟨path, -, hbuild⟩ := bind_eq_ok.mp hp
    rw [hplan, Test.build_plan hbuild]

theorem predicates_builds {groups : List RestrictionGroup}
    (hnode : ∀ group ∈ groups, ∀ a ∈ group.members, a.node = group.node) {draft later : Draft}
    {ps : List (Predicate SelectPlan)}
    (h : predicates catalog scope groups draft = .ok (later, ps)) :
    later.plan = draft.plan ∧
      List.Forall₂ (Applied.Builds catalog scope) (groups.flatMap (·.members)) ps := by
  induction groups generalizing draft ps with
  | nil =>
    cases h
    exact ⟨rfl, .nil⟩
  | cons group rest ih =>
    simp only [predicates, bind_eq_ok, pure_eq_ok, Prod.exists, Prod.mk.injEq] at h
    obtain ⟨scan, hscan, next, ps, hps, last, qs, hqs, rfl, rfl⟩ := h
    obtain ⟨hplan, hall⟩ := predicatesOn_builds hscan (hnode group List.mem_cons_self) hps
    obtain ⟨hplans, halls⟩ := ih (fun g hg => hnode g (List.mem_cons_of_mem _ hg)) hqs
    refine ⟨hplans.trans hplan, ?_⟩
    rw [List.flatMap_cons]
    exact List.rel_append hall halls

end RestrictionGroup

namespace Handler
variable {C S : Type} [DecidableEq S]

def tree (handler : Handler C S) : JoinTree := handler.config.tree handler.accepted

theorem isRoot_root (handler : Handler C S) : handler.config.root.isRoot = true :=
  handler.tree.isRoot_root

/-- The restrictions that a record makes, in the order of the configuration. -/
def present (handler : Handler C S) (criteria : C) : List Applied :=
  handler.config.restrictions.filterMap (·.present? criteria)

/-- The present restrictions that are tested in the query itself. -/
def main (handler : Handler C S) (criteria : C) : List Applied :=
  (handler.present criteria).filter (!·.node.crossesToMany)

/-- The present restrictions that are tested in a subquery. -/
def promoted (handler : Handler C S) (criteria : C) : List Applied :=
  (handler.present criteria).filter (·.node.crossesToMany)

/-! ## Restrictions and sorts in the tree -/

section Tree
variable {handler : Handler C S} {criteria : C}

theorem node_mem_tree_of_present {a : Applied} (h : a ∈ handler.present criteria) :
    a.node ∈ handler.tree := by
  obtain ⟨restriction, hrestriction, hpresent⟩ := List.mem_filterMap.mp h
  obtain ⟨test, -, rfl⟩ := Option.map_eq_some_iff.mp hpresent
  have hmem : restriction.node ∈ handler.config.nodes :=
    List.mem_append_left _ (List.mem_map_of_mem hrestriction)
  exact List.mem_cons_of_mem _ (JoinNode.mem_flatMap_path hmem)

theorem grouped (handler : Handler C S) (criteria : C) :
    RestrictionGroup.Grouped (handler.present criteria) (handler.groups criteria) :=
  RestrictionGroup.grouped_ofList _

theorem node_eq_of_mem_groups {group : RestrictionGroup} (hgroup : group ∈ handler.groups criteria)
    {a : Applied} (ha : a ∈ group.members) : a.node = group.node :=
  (handler.grouped criteria).node_eq (fun _ h => node_mem_tree_of_present h) hgroup ha

theorem node_mem_tree_of_groups {group : RestrictionGroup}
    (hgroup : group ∈ handler.groups criteria) : group.node ∈ handler.tree := by
  obtain ⟨⟨a, ha, hnode⟩, -⟩ := (handler.grouped criteria).sound group hgroup
  have hpresent := ((handler.grouped criteria).mem_iff a).mp ⟨group, hgroup, ha⟩
  rw [← hnode]
  exact node_mem_tree_of_present hpresent

theorem keptNodes_mem_tree (keep : JoinNode → Bool) :
    ∀ node ∈ ((handler.groups criteria).filter (keep ·.node)).map (·.node), node ∈ handler.tree :=
  List.forall_mem_map.mpr fun _ hgroup => node_mem_tree_of_groups (List.mem_filter.mp hgroup).1

theorem mem_main_iff (a : Applied) :
    a ∈ (handler.mainGroups criteria).flatMap (·.members) ↔ a ∈ handler.main criteria := by
  rw [List.mem_flatMap]
  exact (handler.grouped criteria).mem_filter_iff (fun _ h => node_mem_tree_of_present h)
    (!·.crossesToMany) a

theorem mem_promoted_iff (a : Applied) :
    a ∈ (handler.promotedGroups criteria).flatMap (·.members) ↔
      a ∈ handler.promoted criteria := by
  rw [List.mem_flatMap]
  exact (handler.grouped criteria).mem_filter_iff (fun _ h => node_mem_tree_of_present h)
    (·.crossesToMany) a

theorem mem_mainNodes_iff (node : JoinNode) :
    node ∈ (handler.mainGroups criteria).map (·.node) ↔
      node ∈ (handler.main criteria).map (·.node) :=
  (handler.grouped criteria).mem_nodes_iff (fun _ h => node_mem_tree_of_present h)
    (!·.crossesToMany) node

theorem mem_promotedNodes_iff (node : JoinNode) :
    node ∈ (handler.promotedGroups criteria).map (·.node) ↔
      node ∈ (handler.promoted criteria).map (·.node) :=
  (handler.grouped criteria).mem_nodes_iff (fun _ h => node_mem_tree_of_present h)
    (·.crossesToMany) node

theorem mem_of_resolveSorts {config : HandlerConfig C S} {requests : List (SortRequest S)}
    {sorts : List (ConfiguredSort S × Direction)} (h : config.resolveSorts requests = .ok sorts) :
    ∀ sort ∈ sorts, sort.1 ∈ config.sorts := by
  induction requests generalizing sorts with
  | nil =>
    cases h
    intro sort hsort
    exact (List.not_mem_nil hsort).elim
  | cons request rest ih =>
    unfold HandlerConfig.resolveSorts at h
    split at h
    · rename_i found _ hfound
      obtain ⟨others, hothers, rfl⟩ := map_eq_ok.mp h
      intro sort hsort
      rcases List.mem_cons.mp hsort with rfl | hsort
      · exact List.mem_of_find?_eq_some hfound
      · exact ih hothers sort hsort
    · exact ih h
    · cases h

theorem node_mem_tree_of_sorts {kind : ResultKind} {requests : List (SortRequest S)}
    {sorts : List (ConfiguredSort S × Direction)} (h : handler.sorts kind requests = .ok sorts)
    {sort : ConfiguredSort S × Direction} (hsort : sort ∈ sorts) : sort.1.node ∈ handler.tree := by
  cases kind with
  | count =>
    cases h
    exact (List.not_mem_nil hsort).elim
  | entity =>
    have hmem : sort.1.node ∈ handler.config.nodes :=
      List.mem_append_right _ (List.mem_map_of_mem (mem_of_resolveSorts h sort hsort))
    exact List.mem_cons_of_mem _ (JoinNode.mem_flatMap_path hmem)

theorem sortNodes_mem_tree {kind : ResultKind} {requests : List (SortRequest S)}
    {sorts : List (ConfiguredSort S × Direction)} (h : handler.sorts kind requests = .ok sorts) :
    ∀ node ∈ sorts.map (·.1.node), node ∈ handler.tree :=
  List.forall_mem_map.mpr fun _ hsort => node_mem_tree_of_sorts h hsort

end Tree

/-! ## The parts of a compiled plan -/

def selectionOf (kind : ResultKind) (rootAlias : String) : Selection :=
  match kind with
  | .count => .expr (.count rootAlias)
  | .entity => .entity rootAlias

/-- The parts of a plan that a definition is compiled to, and the scopes on the way to it. -/
structure Compiled (handler : Handler C S) (kind : ResultKind) (definition : QueryDefinition C S)
    (plan : SelectPlan) where
  sorts : List (ConfiguredSort S × Direction)
  first : Draft
  /-- The scope before the nodes of the sorts. -/
  middle : Scope
  scope : Scope
  tested : Draft
  predicates : List (Predicate SelectPlan)
  start_eq : handler.start kind = .ok (first, plan.rootScan)
  sorts_eq : handler.sorts kind definition.sorts = .ok sorts
  main_eq : (Scope.start first handler.config.root plan.rootScan).withAll handler.catalog
    (JoinModes.resolve ((handler.mainGroups definition.criteria).map (·.node))
      (sorts.map (·.1.node)))
    ((handler.mainGroups definition.criteria).map (·.node)) = .ok middle
  sort_eq : middle.withAll handler.catalog
    (JoinModes.resolve ((handler.mainGroups definition.criteria).map (·.node))
      (sorts.map (·.1.node)))
    (sorts.map (·.1.node)) = .ok scope
  spans : plan.Spans handler.catalog
    (JoinModes.resolve ((handler.mainGroups definition.criteria).map (·.node))
      (sorts.map (·.1.node)))
    handler.tree
    ((handler.mainGroups definition.criteria).map (·.node) ++ sorts.map (·.1.node)) scope
  selection_eq : plan.selection = selectionOf kind plan.rootAlias
  conditions_eq : handler.conditions definition.criteria plan.rootScan scope =
    .ok (tested, predicates)
  filter_eq : plan.filter = if predicates.isEmpty then none else some (.all predicates)
  keys_eq : (sorts.mapM fun sort => do
    sort.1.orderKey handler.catalog (← scope.scan sort.1.node) sort.2) = .ok plan.orderBy

section Compiled
variable {handler : Handler C S} {kind : ResultKind} {definition : QueryDefinition C S}

theorem start_eq_ok {draft : Draft} {root : Scan} (h : handler.start kind = .ok (draft, root)) :
    draft.Fresh root ∧ root.entity = handler.config.root.entity ∧
      (∃ entity, handler.catalog.entity? handler.config.root.entity = some entity) ∧
      draft.plan.selection = selectionOf kind root.aliasName ∧ draft.plan.filter = none := by
  simp only [start, Draft.create, bind_eq_ok, pure_eq_ok, Prod.exists] at h
  obtain ⟨first, scan, ⟨entity, hentity, hcreate⟩, hkind⟩ := h
  have hfresh := Draft.fresh_start kind Draft.mainStem handler.config.root.entity
  rw [hcreate] at hfresh
  cases hcreate
  cases kind with
  | count =>
    cases hkind
    exact ⟨hfresh.select _, rfl, ⟨entity, Catalog.entity?_of_entity_eq_ok hentity⟩, rfl, rfl⟩
  | entity =>
    cases hkind
    exact ⟨hfresh, rfl, ⟨entity, Catalog.entity?_of_entity_eq_ok hentity⟩, rfl, rfl⟩

/-- The parts of a subquery that tests groups. -/
structure Promotion (handler : Handler C S) (groups : List RestrictionGroup) (sub : SelectPlan) where
  scope : Scope
  tested : Draft
  predicates : List (Predicate SelectPlan)
  spans : sub.Spans handler.catalog (JoinModes.resolve (groups.map (·.node)) []) handler.tree
    (groups.map (·.node)) scope
  predicates_eq : RestrictionGroup.predicates handler.catalog scope groups scope.draft =
    .ok (tested, predicates)
  selection_eq : sub.selection = .expr (.column sub.rootAlias handler.config.idColumn)
  filter_eq : sub.filter = some (.all predicates)
  orderBy_eq : sub.orderBy = []

theorem promote_eq_ok {outer later : Draft} {outerRoot : Scan} {groups : List RestrictionGroup}
    {p : Predicate SelectPlan} (hgroups : ∀ group ∈ groups, group.node ∈ handler.tree)
    (hmembers : ∀ group ∈ groups, ∀ a ∈ group.members, a.node = group.node)
    (h : handler.promote outer outerRoot groups = .ok (later, p)) :
    later.plan = outer.plan ∧
      ∃ sub, p = .member (.column outerRoot.aliasName handler.config.idColumn) sub ∧
        Nonempty (handler.Promotion groups sub) := by
  simp only [promote, Draft.createSubquery, bind_eq_ok, pure_eq_ok, Prod.exists,
    Prod.mk.injEq] at h
  obtain ⟨_, ⟨entity, hentity, rfl⟩, scope, hscope, tested, ps, hps, id, hid, outerId, houterId,
    rfl, rfl⟩ := h
  have hfresh := Draft.fresh_start .entity (Draft.subqueryStem outer.stem outer.subqueries)
    handler.config.root.entity
  have hnodes : ∀ node ∈ groups.map (·.node), node ∈ handler.tree := by
    intro node hnode
    obtain ⟨group, hgroup, rfl⟩ := List.mem_map.mp hnode
    exact hgroups group hgroup
  have hwired : Scope.Wired handler.catalog handler.tree _ := Scope.wired_start hfresh rfl
  obtain ⟨hgrown, hmem⟩ := Scope.withAll_grown hwired hnodes hscope
  -- building predicates numbers subqueries and touches nothing else
  have htested : tested.plan = scope.draft.plan :=
    (RestrictionGroup.predicates_builds hmembers hps).1
  obtain ⟨hroot, -, -, horder⟩ := hgrown.plan_eq
  refine ⟨rfl, _, by rw [Scan.column_eq_ok houterId], ⟨⟨scope, tested, ps, ?_, hps, ?_, rfl, ?_⟩⟩⟩
  · apply SelectPlan.Spans.of_grown hfresh rfl ⟨entity, Catalog.entity?_of_entity_eq_ok hentity⟩ hgrown
    · intro node
      rw [hmem, Scope.mem_nodes_start]
    · have hscan : tested.plan.rootScan = scope.draft.plan.rootScan := by rw [htested]
      exact hscan
    · have hjoins : tested.plan.joins = scope.draft.plan.joins := by rw [htested]
      exact hjoins
  · have halias : tested.plan.rootAlias = scope.draft.plan.rootAlias :=
      congrArg SelectPlan.rootAlias htested
    have hstart : scope.draft.plan.rootAlias = _ := congrArg Scan.aliasName hroot
    rw [Scan.column_eq_ok hid]
    change Selection.expr _ = Selection.expr (.column tested.plan.rootAlias _)
    rw [halias, hstart]
    rfl
  · exact (congrArg SelectPlan.orderBy htested).trans horder

/-- The predicates of a query are those of its main restrictions, and one more if there are
promoted ones. -/
theorem conditions_eq_ok {criteria : C} {root : Scan} {scope : Scope} {draft : Draft}
    {ps : List (Predicate SelectPlan)}
    (h : handler.conditions criteria root scope = .ok (draft, ps)) :
    draft.plan = scope.draft.plan ∧ ∃ mains extra, ps = mains ++ extra ∧
      List.Forall₂ (Applied.Builds handler.catalog scope)
        ((handler.mainGroups criteria).flatMap (·.members)) mains ∧
      (handler.promotedGroups criteria = [] ∧ extra = [] ∨
        handler.promotedGroups criteria ≠ [] ∧ ∃ sub,
          extra = [.member (.column root.aliasName handler.config.idColumn) sub] ∧
          Nonempty (handler.Promotion (handler.promotedGroups criteria) sub)) := by
  simp only [conditions, bind_eq_ok, Prod.exists] at h
  obtain ⟨next, mains, hmains, hrest⟩ := h
  have hnode : ∀ group ∈ handler.mainGroups criteria, ∀ a ∈ group.members, a.node = group.node :=
    fun group hgroup a ha => node_eq_of_mem_groups (List.mem_filter.mp hgroup).1 ha
  obtain ⟨hplan, hall⟩ := RestrictionGroup.predicates_builds hnode hmains
  split at hrest
  · rename_i hnone
    cases hrest
    exact ⟨hplan, ps, [], (List.append_nil _).symm, hall, Or.inl ⟨hnone, rfl⟩⟩
  · rename_i hsome
    simp only [bind_eq_ok, pure_eq_ok, Prod.exists, Prod.mk.injEq] at hrest
    obtain ⟨later, p, hpromote, rfl, rfl⟩ := hrest
    obtain ⟨hlater, sub, rfl, hsub⟩ := promote_eq_ok
      (fun _ hgroup => node_mem_tree_of_groups (List.mem_filter.mp hgroup).1)
      (fun _ hgroup _ ha => node_eq_of_mem_groups (List.mem_filter.mp hgroup).1 ha) hpromote
    exact ⟨hlater.trans hplan, mains, _, rfl, hall, Or.inr ⟨hsome, sub, rfl, hsub⟩⟩

theorem finish_plan (draft : Draft) (ps : List (Predicate SelectPlan)) (keys : List OrderKey)
    {plan : SelectPlan}
    (h : plan = ((if ps.isEmpty then draft else draft.filter (.all ps)).orderBy keys).plan) :
    plan.rootScan = draft.plan.rootScan ∧ plan.joins = draft.plan.joins ∧
      plan.selection = draft.plan.selection ∧ plan.orderBy = keys ∧
      plan.filter = if ps.isEmpty then draft.plan.filter else some (.all ps) := by
  subst h
  by_cases hempty : ps.isEmpty = true
  · simp only [hempty, if_true]
    exact ⟨rfl, rfl, rfl, rfl, rfl⟩
  · simp only [hempty]
    exact ⟨rfl, rfl, rfl, rfl, rfl⟩

theorem exists_compiled {draft : Draft} (h : handler.compile kind definition = .ok draft) :
    Nonempty (handler.Compiled kind definition draft.plan) := by
  simp only [compile, bind_eq_ok, pure_eq_ok, Prod.exists] at h
  obtain ⟨first, root, hstart, sorts, hsorts, middle, hmiddle, scope, hscope, tested, ps,
    hconditions, keys, hkeys, rfl⟩ := h
  obtain ⟨hfresh, hentity, hdeclared, hselection, hfilter⟩ := start_eq_ok hstart
  have hmains : ∀ node ∈ (handler.mainGroups definition.criteria).map (·.node),
      node ∈ handler.tree := keptNodes_mem_tree (!·.crossesToMany)
  have hsortNodes := sortNodes_mem_tree hsorts
  have hwired : Scope.Wired handler.catalog handler.tree _ := Scope.wired_start hfresh hentity
  obtain ⟨hgrownMain, hmemMain⟩ := Scope.withAll_grown hwired hmains hmiddle
  obtain ⟨hgrownSort, hmemSort⟩ := Scope.withAll_grown (hgrownMain.wired hwired) hsortNodes hscope
  have hgrown := hgrownMain.trans hgrownSort
  obtain ⟨hroot, hselects, hfilters, -⟩ := hgrown.plan_eq
  have htested : tested.plan = scope.draft.plan := (conditions_eq_ok hconditions).1
  have hfirst : scope.draft.plan.rootScan = root := hroot.trans hfresh.rootScan_eq
  generalize hplan : ((if ps.isEmpty then tested else tested.filter (.all ps)).orderBy keys).plan
    = plan
  obtain ⟨hplanRoot, hplanJoins, hplanSelection, hplanKeys, hplanFilter⟩ :=
    finish_plan tested ps keys hplan.symm
  rw [htested] at hplanRoot hplanJoins hplanSelection hplanFilter
  have hscan : plan.rootScan = root := hplanRoot.trans hfirst
  have halias : plan.rootAlias = root.aliasName := congrArg Scan.aliasName hscan
  refine ⟨⟨sorts, first, middle, scope, tested, ps, ?_, hsorts, ?_, hscope, ?_, ?_, ?_, ?_, ?_⟩⟩
  · rw [hscan]
    exact hstart
  · rw [hscan]
    exact hmiddle
  · apply SelectPlan.Spans.of_grown hfresh hentity hdeclared hgrown _ hplanRoot hplanJoins
    intro node
    rw [hmemSort, hmemMain, Scope.mem_nodes_start, List.flatMap_append, List.mem_append, or_assoc]
  · rw [hplanSelection, hselects, halias]
    exact hselection
  · rw [hscan]
    exact hconditions
  · rw [hplanFilter, hfilters]
    change (if ps.isEmpty then first.plan.filter else _) = _
    rw [hfilter]
  · rw [hplanKeys]
    exact hkeys

theorem compiled_of_entityPlan {plan : SelectPlan} (h : handler.entityPlan definition = .ok plan) :
    Nonempty (handler.Compiled .entity definition plan) := by
  obtain ⟨draft, hdraft, rfl⟩ := map_eq_ok.mp h
  exact exists_compiled hdraft

theorem compiled_of_countPlan {plan : SelectPlan} (h : handler.countPlan definition = .ok plan) :
    Nonempty (handler.Compiled .count definition plan) := by
  obtain ⟨draft, hdraft, rfl⟩ := map_eq_ok.mp h
  exact exists_compiled hdraft

theorem Compiled.sorts_eq_of_resolveSorts {plan : SelectPlan}
    (compiled : handler.Compiled .entity definition plan)
    {sorts : List (ConfiguredSort S × Direction)}
    (h : handler.config.resolveSorts definition.sorts = .ok sorts) : compiled.sorts = sorts := by
  have hcompiled : handler.config.resolveSorts definition.sorts = .ok compiled.sorts :=
    compiled.sorts_eq
  rw [h] at hcompiled
  exact (Except.ok.inj hcompiled).symm

theorem Compiled.sorts_eq_nil {plan : SelectPlan}
    (compiled : handler.Compiled .entity definition plan) (hnone : definition.sorts = []) :
    compiled.sorts = [] := by
  apply compiled.sorts_eq_of_resolveSorts
  rw [hnone]
  rfl

theorem Compiled.orderBy_eq_nil {plan : SelectPlan}
    (compiled : handler.Compiled .entity definition plan) (hnone : definition.sorts = []) :
    plan.orderBy = [] := by
  have heq := compiled.keys_eq
  rw [compiled.sorts_eq_nil hnone, List.mapM_nil, pure_eq_ok] at heq
  exact heq.symm

theorem Compiled.sorts_eq_nil_of_count {plan : SelectPlan}
    (compiled : handler.Compiled .count definition plan) : compiled.sorts = [] := by
  have heq : Except.ok [] = Except.ok compiled.sorts := compiled.sorts_eq
  exact (Except.ok.inj heq).symm

theorem Compiled.orderBy_eq_nil_of_count {plan : SelectPlan}
    (compiled : handler.Compiled .count definition plan) : plan.orderBy = [] := by
  have heq := compiled.keys_eq
  rw [compiled.sorts_eq_nil_of_count, List.mapM_nil, pure_eq_ok] at heq
  exact heq.symm

end Compiled

end Handler

/-! ## Fixed searches -/

namespace People

/-- Searches for people with restrictions that do not depend on any criteria. -/
def fixedSearch (applied : List Applied) : HandlerConfig Unit PersonSort where
  root := Node.person
  idColumn := "id"
  restrictions := applied.map fun a => ⟨a.node, a.column, fun _ => some a.test⟩
  sorts := sorts
  showSort := PersonSort.shown

end People

end CriteriaQuery
