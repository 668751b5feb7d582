import CriteriaQuery.Proofs.Join.Choice
import CriteriaQuery.Proofs.Execution.Executable

/-! Plans that span nodes of a tree: their joins are those of a scope that has grown from the root
to all nodes on the paths. What such a plan makes of a root row is told by choices of rows for the
nodes. -/
namespace CriteriaQuery
open Outcome
set_option autoImplicit false

/-- A plan with the joins of a scope over the paths of some nodes. -/
structure SelectPlan.Spans (catalog : Catalog) (modes : JoinModes) (tree : JoinTree)
    (nodes : List JoinNode) (scope : Scope) (plan : SelectPlan) : Prop where
  grown : ∃ draft : Draft, draft.Fresh plan.rootScan ∧
    Scope.Grown catalog modes tree (.start draft tree.root plan.rootScan) scope
  joins_eq : plan.joins = scope.draft.plan.joins
  rootEntity_eq : plan.rootEntity = tree.root.entity
  declared : ∃ entity, catalog.entity? plan.rootEntity = some entity
  nodes_iff : ∀ node, node ∈ scope.nodes ↔ node = tree.root ∨ node ∈ nodes.flatMap JoinNode.path

/-- The value of a column of the row chosen for a node, null where there is none. -/
def Choice.value (choice : Choice) (node : JoinNode) (column : String) : Value :=
  ((choice node).bind (·.get? column)).getD .null

namespace SelectPlan.Spans
variable {catalog : Catalog} {store : Store} {modes : JoinModes} {tree : JoinTree}
  {nodes : List JoinNode} {scope : Scope} {plan : SelectPlan}

theorem of_grown {draft : Draft} {scan : Scan} (hfresh : draft.Fresh scan)
    (hentity : scan.entity = tree.root.entity)
    (hdeclared : ∃ entity, catalog.entity? tree.root.entity = some entity)
    (hgrown : Scope.Grown catalog modes tree (.start draft tree.root scan) scope)
    (hnodes : ∀ node, node ∈ scope.nodes ↔ node = tree.root ∨ node ∈ nodes.flatMap JoinNode.path)
    (hroot : plan.rootScan = scope.draft.plan.rootScan)
    (hjoins : plan.joins = scope.draft.plan.joins) :
    plan.Spans catalog modes tree nodes scope := by
  have hdraft : scope.draft.plan.rootScan = draft.plan.rootScan := hgrown.plan_eq.1
  have hscan : plan.rootScan = scan := by rw [hroot, hdraft, hfresh.rootScan_eq]
  have hplan : plan.rootEntity = tree.root.entity := by
    rw [← hentity, ← hscan]
    rfl
  refine ⟨⟨draft, ?_, ?_⟩, hjoins, hplan, ?_, hnodes⟩
  · rw [hscan]
    exact hfresh
  · rw [hscan]
    exact hgrown
  · rw [hplan]
    exact hdeclared

theorem wired (h : plan.Spans catalog modes tree nodes scope) : scope.Wired catalog tree := by
  obtain ⟨draft, hfresh, hgrown⟩ := h.grown
  exact hgrown.wired (Scope.wired_start hfresh h.rootEntity_eq)

theorem rootScan_eq (h : plan.Spans catalog modes tree nodes scope) :
    plan.rootScan = scope.draft.plan.rootScan := by
  obtain ⟨draft, hfresh, hgrown⟩ := h.grown
  have hdraft : scope.draft.plan.rootScan = draft.plan.rootScan := hgrown.plan_eq.1
  rw [hdraft, hfresh.rootScan_eq]

theorem links?_eq (h : plan.Spans catalog modes tree nodes scope) :
    plan.links? catalog = scope.draft.plan.links? catalog := by
  rw [links?, links?, h.joins_eq, h.rootScan_eq]

theorem bindingsFrom_eq (h : plan.Spans catalog modes tree nodes scope) (row : Row) :
    plan.bindingsFrom catalog store row = scope.draft.plan.bindingsFrom catalog store row := by
  have halias : plan.rootAlias = scope.draft.plan.rootAlias := congrArg Scan.aliasName h.rootScan_eq
  rw [bindingsFrom, bindingsFrom, h.links?_eq, halias]

/-! ## Scans -/

theorem root_mem (h : plan.Spans catalog modes tree nodes scope) :
    (tree.root, plan.rootScan) ∈ scope.scans := by
  obtain ⟨draft, -, hgrown⟩ := h.grown
  exact hgrown.scans_prefix.subset (List.mem_singleton_self _)

theorem aliasName_mem (h : plan.Spans catalog modes tree nodes scope) {node : JoinNode} {scan : Scan}
    (hmem : (node, scan) ∈ scope.scans) : scan.aliasName ∈ plan.aliases := by
  have hscans : plan.scans = scope.scans.map (·.2) := by
    rw [scans, h.rootScan_eq, h.joins_eq]
    exact h.wired.scans_eq
  rw [aliases, hscans]
  exact List.mem_map_of_mem (List.mem_map_of_mem hmem)

theorem mem_of_scan_eq_ok (h : plan.Spans catalog modes tree nodes scope) {node : JoinNode}
    (hnode : node ∈ tree) {scan : Scan} (hscan : scope.scan node = .ok scan) :
    (node, scan) ∈ scope.scans := by
  unfold Scope.scan at hscan
  split at hscan
  · cases hscan
    exact (h.wired.get?_eq_some hnode).mp ‹_›
  · cases hscan

/-! ## Bindings -/

/-- The bindings of a root row are the choices that follow the relations. -/
theorem mem_bindingsFrom (h : plan.Spans catalog modes tree nodes scope) {row : Row}
    {binding : Binding} : binding ∈ plan.bindingsFrom catalog store row ↔
      ∃ choice : Choice, choice.Follows catalog store modes tree.root scope.nodes row ∧
        binding = scope.binding choice := by
  obtain ⟨draft, hfresh, hgrown⟩ := h.grown
  rw [h.bindingsFrom_eq]
  exact hgrown.mem_bindingsFrom hfresh h.rootEntity_eq

theorem row?_root (h : plan.Spans catalog modes tree nodes scope) {row : Row} {binding : Binding}
    (hbinding : binding ∈ plan.bindingsFrom catalog store row) :
    binding.row? plan.rootAlias = some row := by
  obtain ⟨choice, hchoice, rfl⟩ := h.mem_bindingsFrom.mp hbinding
  have hroot := h.wired.row?_binding h.root_mem choice
  rw [hchoice.root_eq] at hroot
  exact hroot

theorem read_binding (h : plan.Spans catalog modes tree nodes scope) {node : JoinNode} {scan : Scan}
    (hmem : (node, scan) ∈ scope.scans) (choice : Choice) (column : String) :
    (scope.binding choice).read (.column scan.aliasName column) = choice.value node column := by
  rw [Binding.read, h.wired.row?_binding hmem, Choice.value]

theorem crossesToMany_eq_false (h : plan.Spans catalog modes tree nodes scope)
    (hone : ∀ node ∈ nodes, node.crossesToMany = false) :
    ∀ node ∈ scope.nodes, node.crossesToMany = false := by
  intro node hnode
  rcases (h.nodes_iff node).mp hnode with rfl | hpath
  · exact JoinNode.crossesToMany_of_isRoot tree.isRoot_root
  · obtain ⟨last, hlast, hstep⟩ := List.mem_flatMap.mp hpath
    exact JoinNode.crossesToMany_of_mem_path hstep (hone last hlast)

theorem length_bindingsFrom_le (h : plan.Spans catalog modes tree nodes scope)
    (hstore : store.Functional catalog) (hone : ∀ node ∈ nodes, node.crossesToMany = false)
    {row : Row} (hrow : row ∈ store.rows tree.root.entity) :
    (plan.bindingsFrom catalog store row).length ≤ 1 := by
  obtain ⟨draft, hfresh, hgrown⟩ := h.grown
  rw [h.bindingsFrom_eq]
  exact hgrown.length_bindingsFrom_le hstore hfresh h.rootEntity_eq (h.crossesToMany_eq_false hone)
    hrow

theorem joined_eq (h : plan.Spans catalog modes tree nodes scope) (store : Store) :
    plan.joined catalog store =
      .ok ((store.rows tree.root.entity).flatMap (plan.bindingsFrom catalog store)) := by
  obtain ⟨entity, hentity⟩ := h.declared
  obtain ⟨links, hlinks⟩ := h.wired.linked
  rw [← h.links?_eq] at hlinks
  rw [SelectPlan.joined_eq store hentity hlinks, h.rootEntity_eq]

end SelectPlan.Spans

end CriteriaQuery
