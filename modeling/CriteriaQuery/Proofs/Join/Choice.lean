import CriteriaQuery.Proofs.Join.Reach
import Mathlib.Logic.Function.Basic

/-! The bindings of a scope as choices of rows. What a grown scope makes of a root row are the
choices of a row for every node, each related to the row chosen for the parent
(`Scope.Grown.mem_bindingsFrom`); a node that is joined as for a sort goes without a row where there
is none. Where only relations to one row are followed there is one such choice at most. -/
namespace CriteriaQuery
set_option autoImplicit false

/-! ## Rows behind a link -/

/-- What a join may bind its alias to where these rows are related. -/
def JoinType.Admits (type : JoinType) (rows : List Row) : Option Row → Prop
  | some row => row ∈ rows
  | none => rows = [] ∧ type = .left

theorem Link.mem_extend {store : Store} {link : Link} {binding longer : Binding} :
    longer ∈ link.extend store binding ↔ ∃ row, link.join.type.Admits (link.rows store binding) row ∧
      longer = binding.bind link.join.aliasName row := by
  unfold Link.extend
  split
  · rename_i hrows htype
    rw [hrows, htype, List.mem_singleton]
    constructor
    · intro h
      exact ⟨none, ⟨rfl, rfl⟩, h⟩
    · rintro ⟨row, hadmits, rfl⟩
      cases row with
      | none => rfl
      | some row => exact (List.not_mem_nil hadmits).elim
  · rename_i hleft
    rw [List.mem_map]
    constructor
    · rintro ⟨row, hrow, rfl⟩
      exact ⟨some row, hrow, rfl⟩
    · rintro ⟨row, hadmits, rfl⟩
      cases row with
      | none => exact (hleft hadmits.1 hadmits.2).elim
      | some row => exact ⟨row, hadmits, rfl⟩

theorem Link.length_extend_le {store : Store} {link : Link} {binding : Binding}
    (h : (link.rows store binding).length ≤ 1) : (link.extend store binding).length ≤ 1 := by
  unfold Link.extend
  split
  · exact Nat.le_refl 1
  · rwa [List.length_map]

/-! ## Rows of a node -/

namespace JoinNode

def related (catalog : Catalog) (store : Store) (row : Row) : JoinNode → List Row
  | .root _ _ _ => []
  | .child _ _ _ parent relationship =>
    match catalog.relation? parent.entity relationship.relation with
    | some relation => relation.related store row
    | none => []

/-- The rows of a node that are related to the row of its parent, if that one has a row. -/
def relatedTo (catalog : Catalog) (store : Store) (row : Option Row) (node : JoinNode) :
    List Row :=
  (row.map fun row => node.related catalog store row).getD []

end JoinNode

/-- Every relation to one row relates a source row to one target row at most. -/
def Store.Functional (catalog : Catalog) (store : Store) : Prop :=
  ∀ source name relation, catalog.relation? source name = some relation →
    relation.cardinality = .manyToOne →
    ∀ row ∈ store.rows source, (relation.related store row).length ≤ 1

theorem Store.functional_of_relations {catalog : Catalog} {store : Store}
    (h : ∀ relation ∈ catalog.relations, relation.cardinality = .manyToOne →
      ∀ row ∈ store.rows relation.source, (relation.related store row).length ≤ 1) :
    store.Functional catalog := by
  intro source name relation hrelation hcardinality row hrow
  have hsource := (Catalog.relation?_eq_some hrelation).1
  apply h relation (List.mem_of_find?_eq_some hrelation) hcardinality row
  rw [hsource]
  exact hrow

section Related
variable {catalog : Catalog} {store : Store} {node parent : JoinNode}

theorem JoinNode.mem_rows_of_related {row target : Row} (h : node.Declared catalog)
    (htarget : target ∈ node.related catalog store row) : target ∈ store.rows node.entity := by
  cases node with
  | root => exact (List.not_mem_nil htarget).elim
  | child mark id entity parent relationship =>
    obtain ⟨relation, hrelation, -, hentity⟩ := h
    rw [related, hrelation] at htarget
    have hmem := (List.mem_filter.mp htarget).1
    rwa [hentity] at hmem

theorem JoinNode.length_related_le {row : Row} (hstore : store.Functional catalog)
    (h : node.Declared catalog) (hparent : node.parent? = some parent)
    (hnode : node.crossesToMany = false) (hrow : row ∈ store.rows parent.entity) :
    (node.related catalog store row).length ≤ 1 := by
  cases node with
  | root => cases hparent
  | child mark id entity above relationship =>
    cases hparent
    obtain ⟨relation, hrelation, hcardinality, -⟩ := h
    rw [crossesToMany, Bool.or_eq_false_iff] at hnode
    have hone : relation.cardinality = .manyToOne := by
      rw [hnode.1] at hcardinality
      cases hkind : relation.cardinality with
      | manyToOne => rfl
      | oneToMany => rw [hkind] at hcardinality; cases hcardinality
    rw [related, hrelation]
    exact hstore _ _ relation hrelation hone row hrow

end Related

/-! ## Choices -/

/-- A row for every node, or none. -/
abbrev Choice := JoinNode → Option Row

/-- A choice for nodes that starts at a root row and goes from each row to a related one, as the
modes of the nodes allow. -/
structure Choice.Follows (catalog : Catalog) (store : Store) (modes : JoinModes) (root : JoinNode)
    (nodes : List JoinNode) (row : Row) (choice : Choice) : Prop where
  root_eq : choice root = some row
  admits : ∀ node ∈ nodes, ∀ parent, node.parent? = some parent →
    (Draft.joinType (modes.modeOf node)).Admits
      (node.relatedTo catalog store (choice parent)) (choice node)

namespace Scope

/-- The scans of a scope, bound to the rows chosen for their nodes. -/
def binding (scope : Scope) (choice : Choice) : Binding :=
  ⟨scope.scans.map fun entry => (entry.2.aliasName, choice entry.1)⟩

section Binding
variable {catalog : Catalog} {store : Store} {modes : JoinModes} {tree : JoinTree} {scope : Scope}

theorem binding_congr {choice other : Choice} (h : ∀ node ∈ scope.nodes, choice node = other node) :
    scope.binding choice = scope.binding other := by
  unfold binding
  congr 1
  apply List.map_congr_left
  intro entry hentry
  rw [h entry.1 (List.mem_map_of_mem hentry)]

theorem Wired.row?_binding (h : scope.Wired catalog tree) {node : JoinNode} {scan : Scan}
    (hmem : (node, scan) ∈ scope.scans) (choice : Choice) :
    (scope.binding choice).row? scan.aliasName = choice node := by
  have hslot : (scan.aliasName, choice node) ∈ (scope.binding choice).slots :=
    List.mem_map.mpr ⟨_, hmem, rfl⟩
  have hnodup : ((scope.binding choice).slots.map (·.1)).Nodup := by
    have haliases := h.nodup_aliases
    unfold binding
    rwa [List.map_map]
  obtain ⟨row, hrow⟩ := Binding.find?_isSome (List.mem_map_of_mem hslot)
  have hpair := List.inj_on_of_nodup_map hnodup (List.mem_of_find?_eq_some hrow) hslot rfl
  rw [Prod.mk.injEq] at hpair
  unfold Binding.row?
  rw [hrow]
  exact hpair.2

theorem binding_withNode (choice : Choice) (node : JoinNode) (parentScan : Scan)
    (relation : Relation) : (scope.withNode modes node parentScan relation).binding choice =
      (scope.binding choice).bind
        (scope.draft.nextJoin parentScan relation (modes.modeOf node)).aliasName (choice node) := by
  simp [binding, withNode, Binding.bind, Join.scan]

end Binding

/-! ## Bindings of a grown scope -/

section Grown
variable {catalog : Catalog} {store : Store} {modes : JoinModes} {tree : JoinTree} {scope : Scope}
  {draft : Draft} {rootScan : Scan}

/-- The bindings of a scope with one more node come from those without it. -/
theorem Joinable.bindingsFrom_eq {node parent : JoinNode} {parentScan : Scan}
    {relationship : Relationship} {relation : Relation}
    (h : scope.Joinable catalog tree node parent parentScan relationship relation)
    (hwired : scope.Wired catalog tree) (row : Row) :
    (scope.withNode modes node parentScan relation).draft.plan.bindingsFrom catalog store row =
      (scope.draft.plan.bindingsFrom catalog store row).flatMap
        (Link.extend store
          ⟨scope.draft.nextJoin parentScan relation (modes.modeOf node), relation⟩) := by
  obtain ⟨links, hlinks⟩ := hwired.linked
  have hmore : (scope.withNode modes node parentScan relation).draft.plan.links? catalog =
      some (links ++ [⟨scope.draft.nextJoin parentScan relation (modes.modeOf node), relation⟩]) :=
    Join.links?_concat hlinks (h.link?_eq hwired.toTracked _)
  unfold SelectPlan.bindingsFrom
  rw [hmore, hlinks]
  exact Link.extendAll_concat _ _ _ _

theorem Joinable.rows_eq {node parent : JoinNode} {parentScan : Scan}
    {relationship : Relationship} {relation : Relation}
    (h : scope.Joinable catalog tree node parent parentScan relationship relation)
    (hwired : scope.Wired catalog tree) (choice : Choice) (mode : JoinMode) :
    Link.rows store ⟨scope.draft.nextJoin parentScan relation mode, relation⟩
      (scope.binding choice) = node.relatedTo catalog store (choice parent) := by
  have hrow : (scope.binding choice).row? parentScan.aliasName = choice parent :=
    hwired.row?_binding h.scan_mem choice
  have hrelated : ∀ row, node.related catalog store row = relation.related store row := by
    intro row
    cases node with
    | root => cases h.parent_eq
    | child mark id entity above way =>
      have hparent : above = parent := by simpa [JoinNode.parent?] using h.parent_eq
      have hway : way = relationship := by
        simpa [JoinNode.relationship?] using h.relationship_eq
      have hentity : parentScan.entity = parent.entity := hwired.entity_eq _ h.scan_mem
      rw [JoinNode.related, hparent, hway, ← hentity, h.relation_eq]
  unfold Link.rows JoinNode.relatedTo
  change ((Binding.row? _ parentScan.aliasName).map _).getD [] = _
  rw [hrow]
  congr 2
  funext row
  exact (hrelated row).symm

/-- The bindings of a grown scope are the choices that follow the relations. -/
theorem Grown.mem_bindingsFrom (hfresh : draft.Fresh rootScan)
    (hentity : rootScan.entity = tree.root.entity)
    (h : Grown catalog modes tree (start draft tree.root rootScan) scope) {row : Row}
    {binding : Binding} : binding ∈ scope.draft.plan.bindingsFrom catalog store row ↔
      ∃ choice : Choice, choice.Follows catalog store modes tree.root scope.nodes row ∧
        binding = scope.binding choice := by
  have hstart : (start draft tree.root rootScan).Wired catalog tree := wired_start hfresh hentity
  induction h generalizing binding with
  | refl =>
    change binding ∈ draft.plan.bindingsFrom catalog store row ↔ _
    rw [hfresh.bindingsFrom_eq, List.mem_singleton]
    constructor
    · rintro rfl
      refine ⟨fun _ => some row, ⟨rfl, ?_⟩, rfl⟩
      intro node hnode parent hparent
      rw [List.mem_singleton.mp hnode, tree.parent?_root] at hparent
      cases hparent
    · rintro ⟨choice, hchoice, rfl⟩
      change (⟨[(rootScan.aliasName, choice tree.root)]⟩ : Binding) = _
      rw [hchoice.root_eq]
      rfl
  | @join scope node parent parentScan relationship relation grown joinable ih =>
    have hwired := grown.wired hstart
    have hparent : parent ∈ scope.nodes := List.mem_map_of_mem joinable.scan_mem
    rw [joinable.bindingsFrom_eq hwired, List.mem_flatMap, nodes_withNode]
    constructor
    · rintro ⟨shorter, hshorter, hlonger⟩
      obtain ⟨choice, hchoice, rfl⟩ := ih.mp hshorter
      obtain ⟨added, hadmits, rfl⟩ := Link.mem_extend.mp hlonger
      rw [joinable.rows_eq hwired] at hadmits
      -- the row of the new node is put into the choice, which leaves the others as they are
      have hold : ∀ n ∈ scope.nodes, Function.update choice node added n = choice n := by
        intro n hn
        apply Function.update_of_ne
        rintro rfl
        exact joinable.fresh hn
      refine ⟨Function.update choice node added, ⟨?_, ?_⟩, ?_⟩
      · rw [hold _ hwired.root_mem]
        exact hchoice.root_eq
      · intro n hn above habove
        rw [List.mem_append, List.mem_singleton] at hn
        rcases hn with hn | rfl
        · rw [hold n hn, hold above (hwired.parent_mem n hn above habove)]
          exact hchoice.admits n hn above habove
        · rw [joinable.parent_eq, Option.some.injEq] at habove
          rw [← habove, hold parent hparent, Function.update_self]
          exact hadmits
      · rw [binding_withNode, Function.update_self, binding_congr hold]
    · rintro ⟨choice, hchoice, rfl⟩
      have hadmits := hchoice.admits node (List.mem_append_right _ (List.mem_singleton_self _))
        parent joinable.parent_eq
      refine ⟨scope.binding choice, ih.mpr ⟨choice, ⟨hchoice.root_eq, ?_⟩, rfl⟩, ?_⟩
      · intro n hn
        exact hchoice.admits n (List.mem_append_left _ hn)
      · rw [Link.mem_extend, joinable.rows_eq hwired]
        exact ⟨choice node, hadmits, binding_withNode _ _ _ _⟩

end Grown

end Scope

/-! ## Choices behind relations to one row -/

section Functional
variable {catalog : Catalog} {store : Store} {modes : JoinModes} {tree : JoinTree} {scope : Scope}

theorem Choice.Follows.mem_rows {choice : Choice} {row : Row} {nodes : List JoinNode}
    (h : choice.Follows catalog store modes tree.root nodes row)
    (hrow : row ∈ store.rows tree.root.entity) {node : JoinNode} (hnode : node ∈ nodes)
    (htree : node ∈ tree) (hdeclared : node.Declared catalog) {found : Row}
    (hfound : choice node = some found) : found ∈ store.rows node.entity := by
  cases hparent : node.parent? with
  | none =>
    have hroot := JoinTree.eq_root htree (JoinNode.parent?_eq_none.mp hparent)
    rw [hroot, h.root_eq, Option.some.injEq] at hfound
    rw [hroot, ← hfound]
    exact hrow
  | some parent =>
    have hadmits := h.admits node hnode parent hparent
    rw [hfound] at hadmits
    unfold JoinNode.relatedTo at hadmits
    cases hsource : choice parent with
    | none =>
      rw [hsource] at hadmits
      exact (List.not_mem_nil hadmits).elim
    | some source =>
      rw [hsource] at hadmits
      exact JoinNode.mem_rows_of_related hdeclared hadmits

theorem Choice.Follows.exists_row {choice : Choice} {row : Row} {nodes : List JoinNode}
    (h : choice.Follows catalog store modes tree.root nodes row) {node : JoinNode}
    (hnode : node ∈ nodes) (htree : node ∈ tree) (hinner : (modes.modeOf node).inner = true) :
    ∃ found, choice node = some found := by
  cases hparent : node.parent? with
  | none =>
    rw [JoinTree.eq_root htree (JoinNode.parent?_eq_none.mp hparent)]
    exact ⟨row, h.root_eq⟩
  | some parent =>
    have hadmits := h.admits node hnode parent hparent
    cases hchoice : choice node with
    | some found => exact ⟨found, rfl⟩
    | none =>
      rw [hchoice, Draft.joinType, hinner] at hadmits
      cases hadmits.2

theorem eq_nil_of_length_cons_le {α : Type} {a : α} {rest : List α}
    (h : (a :: rest).length ≤ 1) : rest = [] := by
  apply List.eq_nil_of_length_eq_zero
  rw [List.length_cons] at h
  omega

theorem head?_eq_some_of_mem {α : Type} {a : α} {items : List α} (hitems : items.length ≤ 1)
    (ha : a ∈ items) : items.head? = some a := by
  cases items with
  | nil => exact (List.not_mem_nil ha).elim
  | cons b rest =>
    rw [eq_nil_of_length_cons_le hitems, List.mem_singleton] at ha
    rw [ha, List.head?_cons]

theorem length_flatMap_le {α β : Type} {f : α → List β} {items : List α} (hitems : items.length ≤ 1)
    (hf : ∀ a ∈ items, (f a).length ≤ 1) : (items.flatMap f).length ≤ 1 := by
  cases items with
  | nil => exact Nat.zero_le 1
  | cons a rest =>
    rw [eq_nil_of_length_cons_le hitems, List.flatMap_singleton]
    exact hf a List.mem_cons_self

/-- A root row has one binding at most where no way leads to many rows. -/
theorem Scope.Grown.length_bindingsFrom_le {draft : Draft} {rootScan : Scan}
    (hstore : store.Functional catalog) (hfresh : draft.Fresh rootScan)
    (hentity : rootScan.entity = tree.root.entity)
    (h : Grown catalog modes tree (start draft tree.root rootScan) scope)
    (hone : ∀ node ∈ scope.nodes, node.crossesToMany = false) {row : Row}
    (hrow : row ∈ store.rows tree.root.entity) :
    (scope.draft.plan.bindingsFrom catalog store row).length ≤ 1 := by
  have hstart : (start draft tree.root rootScan).Wired catalog tree := wired_start hfresh hentity
  induction h with
  | refl =>
    change (draft.plan.bindingsFrom catalog store row).length ≤ 1
    rw [hfresh.bindingsFrom_eq]
    exact Nat.le_refl 1
  | @join scope node parent parentScan relationship relation grown joinable ih =>
    have hwired := grown.wired hstart
    rw [nodes_withNode] at hone
    rw [joinable.bindingsFrom_eq hwired]
    apply length_flatMap_le (ih fun n hn => hone n (List.mem_append_left _ hn))
    intro shorter hshorter
    apply Link.length_extend_le
    obtain ⟨choice, hchoice, rfl⟩ := (grown.mem_bindingsFrom hfresh hentity).mp hshorter
    rw [joinable.rows_eq hwired, JoinNode.relatedTo]
    -- relations are functional on stored rows only, and the row of the parent is one
    cases hsource : choice parent with
    | none => exact Nat.zero_le 1
    | some source =>
      have hparent : parent ∈ scope.nodes := List.mem_map_of_mem joinable.scan_mem
      have hmem : source ∈ store.rows parent.entity :=
        hchoice.mem_rows hrow hparent (hwired.mem parent hparent) (hwired.declared parent hparent)
          hsource
      exact JoinNode.length_related_le hstore (joinable.declared hwired) joinable.parent_eq
        (hone node (List.mem_append_right _ (List.mem_singleton_self _))) hmem

end Functional

end CriteriaQuery
