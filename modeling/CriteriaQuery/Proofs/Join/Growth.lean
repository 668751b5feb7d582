import CriteriaQuery.Join.Scope
import CriteriaQuery.Proofs.Join.Modes
import CriteriaQuery.Proofs.Plan.Draft

/-! How scopes grow: by one join after the other, each for a node of a tree that is not in yet and
whose parent is. Every such step keeps the scope tracked (`Scope.Grown.tracked`): the scans of its
nodes are the scans of its plan in the same order. Where the root scan reads the entity of the root,
all joins of the plan are linked as well (`Scope.Grown.wired`). -/
namespace CriteriaQuery
set_option autoImplicit false

/-- The relation that leads to a node is declared, and is what the node takes it for. -/
def JoinNode.Declared (catalog : Catalog) : JoinNode → Prop
  | .root _ _ _ => True
  | .child _ _ entity parent relationship => ∃ relation,
    catalog.relation? parent.entity relationship.relation = some relation ∧
      relation.cardinality.isToMany = relationship.isToMany ∧ relation.target = entity

/-- All relations on the way to a node are declared, and are what the nodes take them for. -/
def JoinNode.PathDeclared (catalog : Catalog) (node : JoinNode) : Prop :=
  ∀ step ∈ node.path, step.Declared catalog

theorem JoinNode.pathDeclared_of_isRoot {catalog : Catalog} {node : JoinNode}
    (h : node.isRoot = true) : node.PathDeclared catalog := by
  cases node with
  | root mark id entity =>
    intro step hstep
    rw [List.mem_singleton.mp hstep]
    trivial
  | child => cases h

namespace Scope

/-! ## Tracked scopes -/

def nodes (scope : Scope) : List JoinNode := scope.scans.map (·.1)

theorem exists_scan {scope : Scope} {node : JoinNode} (h : node ∈ scope.nodes) :
    ∃ scan, (node, scan) ∈ scope.scans := by
  obtain ⟨⟨other, scan⟩, hmem, rfl⟩ := List.mem_map.mp h
  exact ⟨scan, hmem⟩

/-- A scope over nodes of a tree whose plan has a scan for each of them, in the same order. -/
structure Tracked (tree : JoinTree) (scope : Scope) : Prop where
  mem : ∀ node ∈ scope.nodes, node ∈ tree
  nodup : scope.nodes.Nodup
  root_mem : tree.root ∈ scope.nodes
  parent_mem : ∀ node ∈ scope.nodes, ∀ parent, node.parent? = some parent → parent ∈ scope.nodes
  scans_eq : scope.draft.plan.scans = scope.scans.map (·.2)
  numbered : scope.draft.plan.aliases =
    (List.range scope.draft.nextAlias).map (Draft.aliasOf scope.draft.stem)

section Tracked
variable {tree : JoinTree} {scope : Scope}

theorem Tracked.nodup_aliases (h : scope.Tracked tree) :
    (scope.scans.map (·.2.aliasName)).Nodup := by
  have halias : scope.scans.map (·.2.aliasName) = scope.draft.plan.aliases := by
    rw [SelectPlan.aliases, h.scans_eq, List.map_map]
    rfl
  rw [halias, h.numbered]
  exact Draft.nodup_aliases _ _

theorem Tracked.path_subset (h : scope.Tracked tree) {node : JoinNode}
    (hnode : node ∈ scope.nodes) : ∀ step ∈ node.path, step ∈ scope.nodes := by
  induction node with
  | root =>
    intro step hstep
    simp only [JoinNode.path, List.mem_singleton] at hstep
    rwa [hstep]
  | child mark id entity parent relationship ih =>
    intro step hstep
    rw [JoinNode.path, List.mem_append, List.mem_singleton] at hstep
    rcases hstep with hstep | rfl
    · exact ih (h.parent_mem _ hnode parent rfl) step hstep
    · exact hnode

theorem Tracked.get?_eq_some (h : scope.Tracked tree) {node : JoinNode} {scan : Scan}
    (hnode : node ∈ tree) : scope.get? node = some scan ↔ (node, scan) ∈ scope.scans :=
  JoinTree.lookup_eq_some h.mem h.nodup hnode

theorem Tracked.get?_eq_none (h : scope.Tracked tree) {node : JoinNode} (hnode : node ∈ tree) :
    scope.get? node = none ↔ node ∉ scope.nodes := by
  constructor
  · intro hget hmem
    obtain ⟨scan, hentry⟩ := exists_scan hmem
    rw [(h.get?_eq_some hnode).mpr hentry] at hget
    cases hget
  · intro hmem
    cases hget : scope.get? node with
    | none => rfl
    | some scan =>
      exact absurd (List.mem_map_of_mem ((h.get?_eq_some hnode).mp hget)) hmem

theorem Tracked.note_eq (h : scope.Tracked tree) {node : JoinNode} (hnode : node ∈ tree)
    (hfresh : node ∉ scope.nodes) (scan : Scan) :
    note node scan scope.scans = scope.scans ++ [(node, scan)] := by
  have hids : ∀ entry ∈ scope.scans, entry.1.id ≠ node.id := by
    intro entry hentry hid
    have hmem := List.mem_map_of_mem (f := Prod.fst) hentry
    exact hfresh (JoinTree.eq_of_id_eq (h.mem _ hmem) hnode hid ▸ hmem)
  -- the entries are taken as any list, since its tail belongs to no scope
  generalize scope.scans = scans at hids
  induction scans with
  | nil => rfl
  | cons entry rest ih =>
    rw [note, if_neg (hids entry List.mem_cons_self),
      ih fun e he => hids e (List.mem_cons_of_mem _ he)]
    rfl

end Tracked

/-! ## Wired scopes -/

/-- A tracked scope all joins of which are linked: each scan reads the entity of its node, and each
relation that was followed is what its node takes it for. -/
structure Wired (catalog : Catalog) (tree : JoinTree) (scope : Scope) : Prop
    extends Tracked tree scope where
  entity_eq : ∀ entry ∈ scope.scans, entry.2.entity = entry.1.entity
  declared : ∀ node ∈ scope.nodes, node.Declared catalog
  linked : ∃ links, scope.draft.plan.links? catalog = some links

theorem Wired.exists_scan_eq_ok {catalog : Catalog} {tree : JoinTree} {scope : Scope}
    (h : scope.Wired catalog tree) {node : JoinNode}
    (hnode : node ∈ scope.nodes) : ∃ scan, scope.scan node = .ok scan ∧ scan.entity = node.entity := by
  obtain ⟨scan, hscan⟩ := exists_scan hnode
  refine ⟨scan, ?_, h.entity_eq _ hscan⟩
  rw [Scope.scan, (h.get?_eq_some (h.mem node hnode)).mpr hscan]

/-! ## Growing -/

def withNode (scope : Scope) (modes : JoinModes) (node : JoinNode) (parentScan : Scan)
    (relation : Relation) : Scope :=
  let join := scope.draft.nextJoin parentScan relation (modes.modeOf node)
  { scope with draft := scope.draft.withJoin join, scans := scope.scans ++ [(node, join.scan)] }

@[simp] theorem nodes_withNode (scope : Scope) (modes : JoinModes) (node : JoinNode)
    (parentScan : Scan) (relation : Relation) :
    (scope.withNode modes node parentScan relation).nodes = scope.nodes ++ [node] := by
  simp [withNode, nodes]

/-- What a join for a node behind its parent asks for. -/
structure Joinable (catalog : Catalog) (tree : JoinTree) (scope : Scope) (node parent : JoinNode)
    (parentScan : Scan) (relationship : Relationship) (relation : Relation) : Prop where
  mem : node ∈ tree
  parent_eq : node.parent? = some parent
  relationship_eq : node.relationship? = some relationship
  fresh : node ∉ scope.nodes
  scan_mem : (parent, parentScan) ∈ scope.scans
  relation_eq : catalog.relation? parentScan.entity relationship.relation = some relation
  cardinality_eq : relation.cardinality.isToMany = relationship.isToMany
  target_eq : relation.target = node.entity

/-- Scopes that come from one by joins for further nodes of a tree, each behind its parent. -/
inductive Grown (catalog : Catalog) (modes : JoinModes) (tree : JoinTree) (first : Scope) :
    Scope → Prop
  | refl : Grown catalog modes tree first first
  | join {scope : Scope} {node parent : JoinNode} {parentScan : Scan} {relationship : Relationship}
    {relation : Relation} (grown : Grown catalog modes tree first scope)
    (joinable : scope.Joinable catalog tree node parent parentScan relationship relation) :
    Grown catalog modes tree first (scope.withNode modes node parentScan relation)

section Grown
variable {catalog : Catalog} {modes : JoinModes} {tree : JoinTree} {first scope last : Scope}

theorem Grown.trans (h : Grown catalog modes tree first scope)
    (h' : Grown catalog modes tree scope last) : Grown catalog modes tree first last := by
  induction h' with
  | refl => exact h
  | join _ joinable ih => exact .join ih joinable

theorem Joinable.link?_eq {node parent : JoinNode} {parentScan : Scan}
    {relationship : Relationship} {relation : Relation}
    (h : scope.Joinable catalog tree node parent parentScan relationship relation)
    (htracked : scope.Tracked tree) (mode : JoinMode) :
    (scope.draft.nextJoin parentScan relation mode).link? catalog scope.draft.plan.scans =
      some ⟨scope.draft.nextJoin parentScan relation mode, relation⟩ := by
  rw [Join.link?_eq_some]
  refine ⟨parentScan.entity, relation, ?_, ?_, rfl⟩
  · have hmem : parentScan ∈ scope.draft.plan.scans := by
      rw [htracked.scans_eq]
      exact List.mem_map_of_mem h.scan_mem
    apply Scan.entityIn?_of_mem _ hmem
    rw [htracked.scans_eq, List.map_map]
    exact htracked.nodup_aliases
  · have hrelation := h.relation_eq
    rw [← (Catalog.relation?_eq_some hrelation).2] at hrelation
    exact hrelation

theorem Joinable.declared {node parent : JoinNode} {parentScan : Scan}
    {relationship : Relationship} {relation : Relation}
    (h : scope.Joinable catalog tree node parent parentScan relationship relation)
    (hwired : scope.Wired catalog tree) : node.Declared catalog := by
  cases node with
  | root => trivial
  | child mark id entity above way =>
    have hparent : above = parent := by simpa [JoinNode.parent?] using h.parent_eq
    have hway : way = relationship := by
      simpa [JoinNode.relationship?] using h.relationship_eq
    have hentity : parentScan.entity = above.entity := by
      rw [hparent]
      exact hwired.entity_eq _ h.scan_mem
    refine ⟨relation, ?_, ?_, h.target_eq⟩
    · rw [← hentity, hway]
      exact h.relation_eq
    · rw [hway]
      exact h.cardinality_eq

/-- A join for a node keeps a scope tracked. -/
theorem Tracked.withNode (htracked : scope.Tracked tree) {node parent : JoinNode}
    {parentScan : Scan} {relationship : Relationship} {relation : Relation}
    (h : scope.Joinable catalog tree node parent parentScan relationship relation) :
    (scope.withNode modes node parentScan relation).Tracked tree where
  mem := by
    intro other hother
    rw [nodes_withNode, List.mem_append, List.mem_singleton] at hother
    rcases hother with hother | rfl
    · exact htracked.mem other hother
    · exact h.mem
  nodup := by
    rw [nodes_withNode, ← List.concat_eq_append]
    exact htracked.nodup.concat h.fresh
  root_mem := by
    rw [nodes_withNode]
    exact List.mem_append_left _ htracked.root_mem
  parent_mem := by
    intro other hother above habove
    rw [nodes_withNode, List.mem_append, List.mem_singleton] at hother ⊢
    rcases hother with hother | rfl
    · exact Or.inl (htracked.parent_mem other hother above habove)
    · rw [h.parent_eq, Option.some.injEq] at habove
      exact Or.inl (habove ▸ List.mem_map_of_mem h.scan_mem)
  scans_eq := by
    rw [Scope.withNode, Draft.scans_withJoin, htracked.scans_eq, List.map_append]
    rfl
  numbered := by
    have hnumbered := htracked.numbered
    unfold SelectPlan.aliases at hnumbered ⊢
    rw [Scope.withNode, Draft.scans_withJoin, List.map_append, hnumbered]
    change _ = (List.range (scope.draft.nextAlias + 1)).map (Draft.aliasOf scope.draft.stem)
    rw [List.range_succ, List.map_append]
    rfl

theorem Wired.withNode (hwired : scope.Wired catalog tree) {node parent : JoinNode}
    {parentScan : Scan} {relationship : Relationship} {relation : Relation}
    (h : scope.Joinable catalog tree node parent parentScan relationship relation) :
    (scope.withNode modes node parentScan relation).Wired catalog tree where
  toTracked := hwired.toTracked.withNode h
  entity_eq := by
    intro entry hentry
    rcases List.mem_append.mp hentry with hentry | hentry
    · exact hwired.entity_eq entry hentry
    · rw [List.mem_singleton] at hentry
      rw [hentry]
      exact h.target_eq
  declared := by
    intro other hother
    rw [nodes_withNode, List.mem_append, List.mem_singleton] at hother
    rcases hother with hother | rfl
    · exact hwired.declared other hother
    · exact h.declared hwired
  linked := by
    obtain ⟨links, hlinks⟩ := hwired.linked
    exact ⟨_, Join.links?_concat hlinks (h.link?_eq hwired.toTracked _)⟩

theorem Grown.plan_eq (h : Grown catalog modes tree first scope) :
    scope.draft.plan.rootScan = first.draft.plan.rootScan ∧
      scope.draft.plan.selection = first.draft.plan.selection ∧
      scope.draft.plan.filter = first.draft.plan.filter ∧
      scope.draft.plan.orderBy = first.draft.plan.orderBy := by
  induction h with
  | refl => exact ⟨rfl, rfl, rfl, rfl⟩
  | join _ _ ih => exact ih

theorem Grown.scans_prefix (h : Grown catalog modes tree first scope) :
    first.scans <+: scope.scans := by
  induction h with
  | refl => exact List.prefix_refl _
  | join _ _ ih => exact ih.trans (List.prefix_append _ _)

theorem Grown.tracked (h : Grown catalog modes tree first scope) (hfirst : first.Tracked tree) :
    scope.Tracked tree := by
  induction h with
  | refl => exact hfirst
  | join _ joinable ih => exact ih.withNode joinable

theorem Grown.wired (h : Grown catalog modes tree first scope) (hfirst : first.Wired catalog tree) :
    scope.Wired catalog tree := by
  induction h with
  | refl => exact hfirst
  | join _ joinable ih => exact ih.withNode joinable

end Grown

/-! ## The first scope -/

theorem mem_nodes_start {draft : Draft} {root node : JoinNode} {scan : Scan} :
    node ∈ (start draft root scan).nodes ↔ node = root := List.mem_singleton

theorem tracked_start {tree : JoinTree} {draft : Draft} {scan : Scan} (h : draft.Fresh scan) :
    (start draft tree.root scan).Tracked tree where
  mem := by
    intro node hnode
    rw [List.mem_singleton.mp hnode]
    exact tree.root_mem
  nodup := List.nodup_singleton _
  root_mem := List.mem_singleton_self _
  parent_mem := by
    intro node hnode parent hparent
    rw [List.mem_singleton.mp hnode, tree.parent?_root] at hparent
    cases hparent
  scans_eq := by
    change draft.plan.scans = [scan]
    rw [SelectPlan.scans, h.joins_eq, h.rootScan_eq]
    rfl
  numbered := by
    change draft.plan.aliases = (List.range draft.nextAlias).map (Draft.aliasOf draft.stem)
    rw [SelectPlan.aliases, SelectPlan.scans, h.joins_eq, h.rootScan_eq, h.nextAlias_eq,
      List.map_nil, List.map_singleton, h.aliasName_eq]
    rfl

theorem wired_start {catalog : Catalog} {tree : JoinTree} {draft : Draft} {scan : Scan}
    (h : draft.Fresh scan) (hentity : scan.entity = tree.root.entity) :
    (start draft tree.root scan).Wired catalog tree where
  toTracked := tracked_start h
  entity_eq := by
    intro entry hentry
    rw [List.mem_singleton.mp hentry]
    exact hentity
  declared := by
    intro node hnode
    have hself : node = tree.root := List.mem_singleton.mp hnode
    have hroot := tree.isRoot_root
    rw [← hself] at hroot
    cases node with
    | root => trivial
    | child => cases hroot
  linked := ⟨[], h.links?_eq catalog⟩

end Scope

end CriteriaQuery
