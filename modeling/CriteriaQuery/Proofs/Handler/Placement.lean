import CriteriaQuery.Proofs.Handler.Filter
import CriteriaQuery.Proofs.Handler.Joins
import CriteriaQuery.Proofs.Restriction.Support

/-! Where restrictions end up in a compiled query. The filter has one predicate for each main
restriction, made by its test on the alias of its node, and one more if there are promoted ones: the
identity of the root is among those that a subquery selects, whose filter has one predicate for each
promoted restriction on the alias of its node there (`Handler.filter_of_compile`). -/
namespace CriteriaQuery
open Outcome RestrictionGroup
set_option autoImplicit false

/-! ## Conjunctions -/

/-- The filter that asks for all predicates of a list: none for the empty list, its only member for a
list of one, and a conjunction for more. -/
def conjunction? : List (Predicate SelectPlan) → Option (Predicate SelectPlan)
  | [] => none
  | [p] => some p
  | p :: q :: rest => some (.and (p :: q :: rest))

theorem conjunction?_eq (ps : List (Predicate SelectPlan)) :
    conjunction? ps = if ps.isEmpty then none else some (.all ps) := by
  match ps with
  | [] => rfl
  | [_] => rfl
  | _ :: _ :: _ => rfl

theorem conjunction?_eq_none_iff {ps : List (Predicate SelectPlan)} :
    conjunction? ps = none ↔ ps = [] := by
  rw [conjunction?_eq, ← List.isEmpty_iff]
  cases ps.isEmpty <;> simp

/-! ## One predicate for each restriction -/

/-- The predicate that a restriction's test makes of its column on the alias of its node, whatever
the draft. -/
def Applied.Yields (aliasFor : JoinNode → String) (a : Applied) (p : Predicate SelectPlan) : Prop :=
  ∀ draft, a.test.build draft (.column (aliasFor a.node) a.column) = .ok (draft, p)

/-- Predicates for restrictions, one each: node by node in the order in which the nodes first occur,
and on one node in the order in which the restrictions are. -/
structure Tested (aliasFor : JoinNode → String) (applied : List Applied)
    (ps : List (Predicate SelectPlan)) : Prop where
  arranged_perm : (arranged applied).Perm applied
  yields : List.Forall₂ (Applied.Yields aliasFor) (arranged applied) ps

theorem Applied.Builds.yields {catalog : Catalog} {scope : Scope} {a : Applied}
    {p : Predicate SelectPlan} (h : a.Builds catalog scope p) (hstock : a.test.isStock = true) :
    a.Yields scope.aliasFor p := by
  intro draft
  obtain ⟨scan, earlier, later, hscan, hbuild⟩ := h
  obtain ⟨path, hpath, htest⟩ := bind_eq_ok.mp hbuild
  rw [Scope.aliasFor_of_scan hscan, ← Scan.column_eq_ok hpath]
  exact Test.build_of_build hstock htest draft

theorem tested_of_builds {catalog : Catalog} {scope : Scope} {applied : List Applied}
    {ps : List (Predicate SelectPlan)} (hstock : ∀ a ∈ applied, a.test.isStock = true)
    (h : List.Forall₂ (Applied.Builds catalog scope) (arranged applied) ps) :
    Tested scope.aliasFor applied ps where
  arranged_perm := RestrictionGroup.arranged_perm applied
  yields := by
    have hall : ∀ a ∈ arranged applied, a.test.isStock = true :=
      fun a ha => hstock a ((RestrictionGroup.arranged_perm applied).mem_iff.mp ha)
    have hboth := (List.forall₂_and_left _ _).mpr ⟨hall, h⟩
    exact hboth.imp fun a p hap => hap.2.yields hap.1

theorem Tested.eq_nil_iff {aliasFor : JoinNode → String} {applied : List Applied}
    {ps : List (Predicate SelectPlan)} (h : Tested aliasFor applied ps) : ps = [] ↔ applied = [] := by
  have hlength : ps.length = applied.length :=
    h.yields.length_eq.symm.trans h.arranged_perm.length_eq
  rw [← List.length_eq_zero_iff, hlength, List.length_eq_zero_iff]

namespace Handler
variable {C S : Type} [DecidableEq S] {handler : Handler C S} {definition : QueryDefinition C S}
  {criteria : C} {kind : ResultKind} {plan : SelectPlan} {draft : Draft}

/-! ## Groups of main and of promoted restrictions -/

theorem groups_eq : handler.groups criteria = byNode (handler.present criteria) :=
  ofList_eq_byNode fun _ ha => node_mem_tree_of_present ha

theorem members_mainGroups :
    (handler.mainGroups criteria).flatMap (·.members) = arranged (handler.main criteria) := by
  rw [mainGroups, groups_eq, filter_byNode (!·.crossesToMany), flatMap_byNode]
  rfl

theorem members_promotedGroups :
    (handler.promotedGroups criteria).flatMap (·.members) =
      arranged (handler.promoted criteria) := by
  rw [promotedGroups, groups_eq, filter_byNode JoinNode.crossesToMany, flatMap_byNode]
  rfl

theorem present_eq_nil_iff :
    handler.present criteria = [] ↔ handler.main criteria = [] ∧ handler.promoted criteria = [] := by
  constructor
  · intro h
    rw [main, promoted, h]
    exact ⟨rfl, rfl⟩
  · rintro ⟨hmain, hpromoted⟩
    rw [List.eq_nil_iff_forall_not_mem]
    intro a ha
    cases hmany : a.node.crossesToMany with
    | false => exact List.filter_eq_nil_iff.mp hmain a ha (by rw [hmany]; rfl)
    | true => exact List.filter_eq_nil_iff.mp hpromoted a ha hmany

/-! ## The subquery of promoted restrictions -/

/-- A plan that selects the identities of the root rows that pass the promoted restrictions. -/
structure SelectsPromoted (handler : Handler C S) (criteria : C) (sub : SelectPlan)
    (nodes : List JoinNode) (aliasFor : JoinNode → String) (ps : List (Predicate SelectPlan)) :
    Prop where
  rootEntity_eq : sub.rootEntity = handler.config.root.entity
  selection_eq : sub.selection = .expr (.column sub.rootAlias handler.config.idColumn)
  joinGraph : sub.JoinGraph handler.config.root ((handler.promoted criteria).map (·.node))
    (fun _ => ⟨true, false⟩) nodes aliasFor
  tested : Tested aliasFor (handler.promoted criteria) ps
  filter_eq : sub.filter = conjunction? ps
  orderBy_eq : sub.orderBy = []

theorem Promotion.selectsPromoted (hstock : handler.config.Stock)
    (hsome : handler.promoted criteria ≠ []) {sub : SelectPlan}
    (promotion : handler.Promotion (handler.promotedGroups criteria) sub) :
    ∃ nodes, handler.SelectsPromoted criteria sub nodes promotion.scope.aliasFor
      promotion.predicates := by
  have hmem : ∀ a ∈ handler.promoted criteria, a ∈ handler.present criteria :=
    fun a ha => (List.mem_filter.mp ha).1
  have hbuilds : List.Forall₂ (Applied.Builds handler.catalog promotion.scope)
      ((handler.promotedGroups criteria).flatMap (·.members)) promotion.predicates :=
    (RestrictionGroup.predicates_builds
      (fun group hgroup a ha => node_eq_of_mem_groups (List.mem_filter.mp hgroup).1 ha)
      promotion.predicates_eq).2
  rw [members_promotedGroups] at hbuilds
  obtain ⟨nodes, hnodes, hgraph⟩ := promotion.spans.joinGraph
  have htested : Tested promotion.scope.aliasFor (handler.promoted criteria) promotion.predicates :=
    tested_of_builds (fun a ha => isStock_of_present hstock (hmem a ha)) hbuilds
  refine ⟨nodes, promotion.spans.rootEntity_eq, promotion.selection_eq, ?_, htested, ?_,
    promotion.orderBy_eq⟩
  · refine hgraph.congr (fun node => mem_promotedNodes_iff node) ?_
    intro node hnode
    have hin : node ∈ handler.tree := by
      apply promotion.spans.wired.mem
      rw [hnodes]
      exact List.mem_cons_of_mem _ hnode
    rw [JoinModes.modeOf_resolve _ hin (by simp)]
    rfl
  · have hne : promotion.predicates.isEmpty = false :=
      List.isEmpty_eq_false_iff.mpr (mt htested.eq_nil_iff.mp hsome)
    rw [promotion.filter_eq, conjunction?_eq, hne]
    rfl

/-! ## The filter -/

/-- The filter of a compiled query is the conjunction of one predicate for each main restriction
and, if there are promoted ones, one that looks up the identity of the root in a subquery for these.
There is none if no restriction is present. -/
theorem filter_of_compile (hstock : handler.config.Stock)
    (h : handler.compile kind definition = .ok draft) :
    ∃ nodes aliasFor mains extra,
      draft.plan.JoinGraph handler.config.root
        ((handler.main definition.criteria).map (·.node) ++
          (handler.sortsOf kind definition.sorts).map (·.1.node))
        (modeToward ((handler.sortsOf kind definition.sorts).map (·.1.node))) nodes aliasFor ∧
      Tested aliasFor (handler.main definition.criteria) mains ∧
      (handler.promoted definition.criteria = [] ∧ extra = [] ∨
        handler.promoted definition.criteria ≠ [] ∧ ∃ sub subNodes subAlias ps,
          extra = [.member (.column draft.plan.rootAlias handler.config.idColumn) sub] ∧
          handler.SelectsPromoted definition.criteria sub subNodes subAlias ps) ∧
      draft.plan.filter = conjunction? (mains ++ extra) ∧
      (draft.plan.filter = none ↔ handler.present definition.criteria = []) := by
  obtain ⟨compiled⟩ := exists_compiled h
  obtain ⟨nodes, -, hgraph⟩ := compiled.joinGraph
  rw [sorts_eq_ok compiled.sorts_eq] at hgraph
  obtain ⟨-, mains, extra, heq, hbuilds, hextra⟩ := conditions_eq_ok compiled.conditions_eq
  have hmem : ∀ a ∈ handler.main definition.criteria, a ∈ handler.present definition.criteria :=
    fun a ha => (List.mem_filter.mp ha).1
  rw [members_mainGroups] at hbuilds
  have htested : Tested compiled.scope.aliasFor (handler.main definition.criteria) mains :=
    tested_of_builds (fun a ha => isStock_of_present hstock (hmem a ha)) hbuilds
  have hplaced : handler.promoted definition.criteria = [] ∧ extra = [] ∨
      handler.promoted definition.criteria ≠ [] ∧ ∃ sub subNodes subAlias ps,
        extra = [.member (.column draft.plan.rootAlias handler.config.idColumn) sub] ∧
        handler.SelectsPromoted definition.criteria sub subNodes subAlias ps := by
    rw [promotedGroups_eq_nil_iff, ne_eq, promotedGroups_eq_nil_iff] at hextra
    apply hextra.imp_right
    rintro ⟨hsome, sub, hextra, ⟨promotion⟩⟩
    obtain ⟨subNodes, hsub⟩ := promotion.selectsPromoted hstock hsome
    exact ⟨hsome, sub, subNodes, _, _, hextra, hsub⟩
  have hnone : extra = [] ↔ handler.promoted definition.criteria = [] := by
    rcases hplaced with ⟨hnone, rfl⟩ | ⟨hsome, sub, _, _, _, rfl, -⟩
    · exact iff_of_true rfl hnone
    · exact iff_of_false (List.cons_ne_nil _ _) hsome
  have hfilter : draft.plan.filter = conjunction? (mains ++ extra) := by
    rw [compiled.filter_eq, heq, conjunction?_eq]
  refine ⟨nodes, compiled.scope.aliasFor, mains, extra, hgraph, htested, hplaced, hfilter, ?_⟩
  rw [hfilter, conjunction?_eq_none_iff, List.append_eq_nil_iff, htested.eq_nil_iff, hnone,
    present_eq_nil_iff]

end Handler

namespace People

/-- One predicate is on the employer, the other one looks up the parents. -/
theorem filter_of_compile_of_employedParentsOfM :
    employedParentsOfM.config.Stock ∧
      ∃ draft, employedParentsOfM.compile .entity byOwner = .ok draft ∧
        (∃ p q, draft.plan.filter = some (.and [p, q])) ∧
        ∃ nodes aliasFor mains extra,
          draft.plan.JoinGraph Node.person [Node.business, Node.owner]
            (Handler.modeToward [Node.owner]) nodes aliasFor ∧
          Tested aliasFor (employedParentsOfM.main ()) mains ∧
          (employedParentsOfM.promoted () = [] ∧ extra = [] ∨
            employedParentsOfM.promoted () ≠ [] ∧ ∃ sub subNodes subAlias ps,
              extra = [.member (.column draft.plan.rootAlias "id") sub] ∧
              employedParentsOfM.SelectsPromoted () sub subNodes subAlias ps) ∧
          draft.plan.filter = conjunction? (mains ++ extra) ∧
          (draft.plan.filter = none ↔ employedParentsOfM.present () = []) :=
  ⟨stock_employedParentsOfM, _, rfl, ⟨_, _, rfl⟩,
    @Handler.filter_of_compile _ _ _ employedParentsOfM byOwner .entity _
      stock_employedParentsOfM rfl⟩

end People

end CriteriaQuery
