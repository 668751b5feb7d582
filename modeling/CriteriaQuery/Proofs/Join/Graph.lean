import CriteriaQuery.Proofs.Join.Span

/-! The join graph of a plan, told by nodes. A plan that spans nodes has one join for each node on
their paths, behind that of its parent and on its alias, and no others
(`SelectPlan.Spans.joinGraph`). -/
namespace CriteriaQuery
set_option autoImplicit false

/-- The join that reaches a node over its relation from the alias of its parent. A root is reached
over none. -/
def JoinNode.join? (aliasFor : JoinNode → String) (modeFor : JoinNode → JoinMode)
    (node : JoinNode) : Option Join :=
  match node with
  | .root _ _ _ => none
  | .child _ _ entity parent relationship => some
    { aliasName := aliasFor node, parentAlias := aliasFor parent,
      relation := relationship.relation, entity,
      type := if (modeFor node).inner then .inner else .left, fetch := (modeFor node).fetch }

/-- The joins of a plan are those that reach `nodes`, one each and in this order: the nodes on the
paths to `ends` apart from the root, none of them twice, and parents before their children. -/
structure SelectPlan.JoinGraph (plan : SelectPlan) (root : JoinNode) (ends : List JoinNode)
    (modeFor : JoinNode → JoinMode) (nodes : List JoinNode) (aliasFor : JoinNode → String) :
    Prop where
  mem_iff : ∀ node, node ∈ nodes ↔ node.isRoot = false ∧ node ∈ ends.flatMap JoinNode.path
  nodup : nodes.Nodup
  parent_before : ∀ before node after, nodes = before ++ node :: after →
    ∀ parent, node.parent? = some parent → parent = root ∨ parent ∈ before
  rootAlias_eq : plan.rootAlias = aliasFor root
  joins_eq : plan.joins.map some = nodes.map (JoinNode.join? aliasFor modeFor)
  nodup_aliases : ((root :: nodes).map aliasFor).Nodup

theorem JoinNode.join?_congr {aliasFor otherAlias : JoinNode → String}
    {modeFor otherMode : JoinNode → JoinMode} {node : JoinNode}
    (halias : aliasFor node = otherAlias node)
    (hparent : ∀ parent, node.parent? = some parent → aliasFor parent = otherAlias parent)
    (hmode : modeFor node = otherMode node) :
    node.join? aliasFor modeFor = node.join? otherAlias otherMode := by
  cases node with
  | root => rfl
  | child mark id entity parent relationship =>
    have hup := hparent parent rfl
    simp only [join?, halias, hup, hmode]

/-- Only the nodes that the ends stand for matter, and the modes of nodes that are joined. -/
theorem SelectPlan.JoinGraph.congr {plan : SelectPlan} {root : JoinNode}
    {ends otherEnds nodes : List JoinNode} {modeFor otherMode : JoinNode → JoinMode}
    {aliasFor : JoinNode → String} (h : plan.JoinGraph root ends modeFor nodes aliasFor)
    (hends : ∀ node, node ∈ ends ↔ node ∈ otherEnds)
    (hmode : ∀ node ∈ nodes, modeFor node = otherMode node) :
    plan.JoinGraph root otherEnds otherMode nodes aliasFor where
  mem_iff := by
    intro node
    rw [h.mem_iff]
    simp only [List.mem_flatMap, hends]
  nodup := h.nodup
  parent_before := h.parent_before
  rootAlias_eq := h.rootAlias_eq
  joins_eq := by
    rw [h.joins_eq]
    apply List.map_congr_left
    intro node hnode
    exact JoinNode.join?_congr rfl (fun _ _ => rfl) (hmode node hnode)
  nodup_aliases := h.nodup_aliases

namespace Scope
variable {catalog : Catalog} {modes : JoinModes} {tree : JoinTree} {scope : Scope}

/-! ## Aliases of nodes -/

def aliasFor (scope : Scope) (node : JoinNode) : String :=
  ((scope.get? node).map (·.aliasName)).getD ""

theorem aliasFor_of_scan {node : JoinNode} {scan : Scan} (h : scope.scan node = .ok scan) :
    scope.aliasFor node = scan.aliasName := by
  unfold Scope.scan at h
  split at h
  · rename_i found hget
    cases h
    rw [aliasFor, hget]
    rfl
  · cases h

theorem Tracked.aliasFor_eq (h : scope.Tracked tree) {node : JoinNode} {scan : Scan}
    (hmem : (node, scan) ∈ scope.scans) : scope.aliasFor node = scan.aliasName := by
  have hnode : node ∈ tree := h.mem node (List.mem_map_of_mem hmem)
  rw [aliasFor, (h.get?_eq_some hnode).mpr hmem]
  rfl

theorem Tracked.map_aliasFor (h : scope.Tracked tree) :
    scope.nodes.map scope.aliasFor = scope.scans.map (·.2.aliasName) := by
  rw [nodes, List.map_map]
  apply List.map_congr_left
  rintro ⟨node, scan⟩ hmem
  exact h.aliasFor_eq hmem

theorem Tracked.aliasFor_withNode (h : scope.Tracked tree) {node parent other : JoinNode}
    {parentScan : Scan} {relationship : Relationship} {relation : Relation}
    (hjoinable : scope.Joinable catalog tree node parent parentScan relationship relation)
    (hother : other ∈ scope.nodes) :
    (scope.withNode modes node parentScan relation).aliasFor other = scope.aliasFor other := by
  obtain ⟨scan, hscan⟩ := exists_scan hother
  have hlater : (other, scan) ∈ (scope.withNode modes node parentScan relation).scans :=
    List.mem_append_left _ hscan
  rw [(h.withNode hjoinable).aliasFor_eq hlater, h.aliasFor_eq hscan]

theorem Tracked.aliasFor_self (modes : JoinModes) (h : scope.Tracked tree)
    {node parent : JoinNode} {parentScan : Scan} {relationship : Relationship} {relation : Relation}
    (hjoinable : scope.Joinable catalog tree node parent parentScan relationship relation) :
    (scope.withNode modes node parentScan relation).aliasFor node =
      Draft.aliasOf scope.draft.stem scope.draft.nextAlias :=
  (h.withNode hjoinable).aliasFor_eq (List.mem_append_right _ (List.mem_singleton_self _))

/-! ## One join after the other -/

/-- The joins of a scope reach the nodes behind its root, in order, parents first. -/
def Reached (modes : JoinModes) (root : JoinNode) (scope : Scope) : Prop :=
  ∃ joined, scope.nodes = root :: joined ∧
    scope.draft.plan.joins.map some = joined.map (JoinNode.join? scope.aliasFor modes.modeOf) ∧
    ∀ before node after, joined = before ++ node :: after →
      ∀ parent, node.parent? = some parent → parent = root ∨ parent ∈ before

theorem Joinable.join?_eq {node parent : JoinNode} {parentScan : Scan}
    {relationship : Relationship} {relation : Relation}
    (hjoinable : scope.Joinable catalog tree node parent parentScan relationship relation)
    (h : scope.Tracked tree) :
    some (scope.draft.nextJoin parentScan relation (modes.modeOf node)) =
      node.join? (scope.withNode modes node parentScan relation).aliasFor modes.modeOf := by
  have hself := h.aliasFor_self modes hjoinable
  have hparent : (scope.withNode modes node parentScan relation).aliasFor parent =
      parentScan.aliasName :=
    (h.aliasFor_withNode hjoinable (List.mem_map_of_mem hjoinable.scan_mem)).trans
      (h.aliasFor_eq hjoinable.scan_mem)
  have hname : relation.name = relationship.relation :=
    (Catalog.relation?_eq_some hjoinable.relation_eq).2
  have hentity : relation.target = node.entity := hjoinable.target_eq
  have hup := hjoinable.parent_eq
  have hover := hjoinable.relationship_eq
  cases node with
  | root => cases hup
  | child mark id entity above way =>
    cases hup
    cases hover
    simp only [JoinNode.join?, hself, hparent]
    rw [Draft.nextJoin, hname, hentity]
    rfl

theorem Reached.withNode {root node parent : JoinNode} {parentScan : Scan}
    {relationship : Relationship} {relation : Relation} (hreached : scope.Reached modes root)
    (h : scope.Tracked tree)
    (hjoinable : scope.Joinable catalog tree node parent parentScan relationship relation) :
    (scope.withNode modes node parentScan relation).Reached modes root := by
  obtain ⟨joined, hnodes, hjoins, hbefore⟩ := hreached
  have hin : ∀ other ∈ joined, other ∈ scope.nodes := by
    intro other hother
    rw [hnodes]
    exact List.mem_cons_of_mem _ hother
  refine ⟨joined ++ [node], ?_, ?_, ?_⟩
  · rw [nodes_withNode, hnodes, List.cons_append]
  · -- earlier joins are what they were, since their nodes keep their aliases
    have hearlier : joined.map (JoinNode.join? scope.aliasFor modes.modeOf) =
        joined.map (JoinNode.join? (scope.withNode modes node parentScan relation).aliasFor
          modes.modeOf) := by
      apply List.map_congr_left
      intro other hother
      apply JoinNode.join?_congr
      · exact (h.aliasFor_withNode hjoinable (hin other hother)).symm
      · intro above habove
        have habove := h.parent_mem other (hin other hother) above habove
        exact (h.aliasFor_withNode hjoinable habove).symm
      · rfl
    change (scope.draft.plan.joins ++ [_]).map some = _
    rw [List.map_append, hjoins, hearlier, List.map_append, List.map_singleton,
      List.map_singleton, hjoinable.join?_eq h]
  · intro before other after hsplit above habove
    rcases List.eq_nil_or_concat after with rfl | ⟨rest, last, rfl⟩
    · obtain ⟨rfl, hlast⟩ := List.append_inj' hsplit rfl
      cases hlast
      have hmem : parent ∈ scope.nodes := List.mem_map_of_mem hjoinable.scan_mem
      rw [hjoinable.parent_eq, Option.some.injEq] at habove
      rwa [hnodes, List.mem_cons, habove] at hmem
    · rw [List.concat_eq_append, ← List.cons_append, ← List.append_assoc] at hsplit
      exact hbefore before other rest (List.append_inj' hsplit rfl).1 above habove

theorem Grown.reached {draft : Draft} {scan : Scan} (hfresh : draft.Fresh scan)
    (h : Grown catalog modes tree (start draft tree.root scan) scope) :
    scope.Reached modes tree.root := by
  induction h with
  | refl =>
    refine ⟨[], rfl, ?_, by simp⟩
    change draft.plan.joins.map some = _
    rw [hfresh.joins_eq]
    rfl
  | join grown joinable ih => exact ih.withNode (grown.tracked (tracked_start hfresh)) joinable

end Scope

/-! ## Spanning plans -/

theorem SelectPlan.Spans.joinGraph {catalog : Catalog} {modes : JoinModes} {tree : JoinTree}
    {ends : List JoinNode} {scope : Scope} {plan : SelectPlan}
    (h : plan.Spans catalog modes tree ends scope) : ∃ nodes, scope.nodes = tree.root :: nodes ∧
      plan.JoinGraph tree.root ends modes.modeOf nodes scope.aliasFor := by
  obtain ⟨draft, hfresh, hgrown⟩ := h.grown
  obtain ⟨nodes, hnodes, hjoins, hbefore⟩ := hgrown.reached hfresh
  have hnodup := h.wired.nodup
  rw [hnodes, List.nodup_cons] at hnodup
  refine ⟨nodes, hnodes, ?_, hnodup.2, hbefore, ?_, ?_, ?_⟩
  · intro node
    have hiff := h.nodes_iff node
    rw [hnodes, List.mem_cons] at hiff
    constructor
    · intro hnode
      have hmem : node ∈ tree := h.wired.mem node (by rw [hnodes]; exact List.mem_cons_of_mem _ hnode)
      have hroot : node ≠ tree.root := fun heq => hnodup.1 (heq ▸ hnode)
      refine ⟨?_, (hiff.mp (Or.inr hnode)).resolve_left hroot⟩
      rw [Bool.eq_false_iff]
      exact fun hisRoot => hroot (JoinTree.eq_root hmem hisRoot)
    · rintro ⟨hisRoot, hpath⟩
      refine (hiff.mpr (Or.inr hpath)).resolve_left ?_
      rintro rfl
      rw [tree.isRoot_root] at hisRoot
      cases hisRoot
  · exact (h.wired.aliasFor_eq h.root_mem).symm
  · rw [h.joins_eq]
    exact hjoins
  · rw [← hnodes, h.wired.map_aliasFor]
    exact h.wired.nodup_aliases

end CriteriaQuery
