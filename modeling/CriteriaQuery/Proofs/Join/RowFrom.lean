import CriteriaQuery.Proofs.Join.Choice

/-! The row of a node. Where relations to one row relate a row to one other at most, a root row
determines the row of every node that only such relations lead to, if the node has one. A choice can
take no others (`Choice.Follows.eq_rowFrom`), and these make a choice wherever no inner join is left
without a row. -/
namespace CriteriaQuery
set_option autoImplicit false

namespace JoinNode

/-- The row of a node, going from a root row to the first related row at every step. -/
def rowFrom (catalog : Catalog) (store : Store) (row : Row) : JoinNode → Option Row
  | .root _ _ _ => some row
  | .child mark id entity parent relationship =>
    (parent.rowFrom catalog store row).bind fun source =>
      ((JoinNode.child mark id entity parent relationship).related catalog store source).head?

section RowFrom
variable {catalog : Catalog} {store : Store} {row : Row} {node parent : JoinNode}

theorem rowFrom_of_isRoot (h : node.isRoot = true) : node.rowFrom catalog store row = some row := by
  cases node with
  | root => rfl
  | child => cases h

theorem rowFrom_of_parent? (h : node.parent? = some parent) :
    node.rowFrom catalog store row =
      (node.relatedTo catalog store (parent.rowFrom catalog store row)).head? := by
  cases node with
  | root => cases h
  | child mark id entity above relationship =>
    cases h
    rw [rowFrom, relatedTo]
    cases parent.rowFrom catalog store row with
    | none => rfl
    | some source => rfl

theorem isSome_rowFrom_of_mem_path {step : JoinNode} (hstep : step ∈ node.path)
    (h : (node.rowFrom catalog store row).isSome = true) :
    (step.rowFrom catalog store row).isSome = true := by
  induction node with
  | root =>
    rw [path, List.mem_singleton] at hstep
    rwa [hstep]
  | child mark id entity parent relationship ih =>
    rw [path, List.mem_append, List.mem_singleton] at hstep
    rcases hstep with hstep | rfl
    · apply ih hstep
      rw [rowFrom] at h
      cases hparent : parent.rowFrom catalog store row with
      | none => rw [hparent] at h; cases h
      | some source => rfl
    · exact h

end RowFrom

end JoinNode

section Follows
variable {catalog : Catalog} {store : Store} {modes : JoinModes} {tree : JoinTree} {row : Row}
  {nodes : List JoinNode}

/-- Nodes of a tree, with their ancestors, that declared relations to one row lead to. -/
structure JoinTree.ToOne (catalog : Catalog) (tree : JoinTree) (nodes : List JoinNode) : Prop where
  mem : ∀ node ∈ nodes, node ∈ tree
  parent_mem : ∀ node ∈ nodes, ∀ parent, node.parent? = some parent → parent ∈ nodes
  declared : ∀ node ∈ nodes, node.Declared catalog
  one : ∀ node ∈ nodes, node.crossesToMany = false

/-- A choice takes the row of a node that the root row determines. -/
theorem Choice.Follows.eq_rowFrom {choice : Choice} (hnodes : tree.ToOne catalog nodes)
    (hstore : store.Functional catalog) (hrow : row ∈ store.rows tree.root.entity)
    (h : choice.Follows catalog store modes tree.root nodes row) {node : JoinNode}
    (hnode : node ∈ nodes) : choice node = node.rowFrom catalog store row := by
  induction node with
  | root mark id entity =>
    have hroot := JoinTree.eq_root (hnodes.mem _ hnode) rfl
    rw [hroot, h.root_eq, JoinNode.rowFrom_of_isRoot tree.isRoot_root]
  | child mark id entity parent relationship ih =>
    have hparent := hnodes.parent_mem _ hnode parent rfl
    have hadmits := h.admits _ hnode parent rfl
    have hlength : (JoinNode.relatedTo catalog store (choice parent)
        (.child mark id entity parent relationship)).length ≤ 1 := by
      rw [JoinNode.relatedTo]
      cases hsource : choice parent with
      | none => exact Nat.zero_le 1
      | some source =>
        have hmem := h.mem_rows hrow hparent (hnodes.mem _ hparent) (hnodes.declared _ hparent)
          hsource
        exact JoinNode.length_related_le hstore (hnodes.declared _ hnode) rfl
          (hnodes.one _ hnode) hmem
    rw [JoinNode.rowFrom_of_parent? rfl, ← ih hparent]
    cases hchoice : choice (.child mark id entity parent relationship) with
    | none =>
      rw [hchoice] at hadmits
      rw [hadmits.1]
      rfl
    | some found =>
      rw [hchoice] at hadmits
      exact (head?_eq_some_of_mem hlength hadmits).symm

/-- The rows that a root row determines make a choice if no inner join is left without one. -/
theorem follows_rowFrom (hinner : ∀ node ∈ nodes, (modes.modeOf node).inner = true →
      (node.rowFrom catalog store row).isSome = true) :
    Choice.Follows catalog store modes tree.root nodes row
      fun node => node.rowFrom catalog store row where
  root_eq := JoinNode.rowFrom_of_isRoot tree.isRoot_root
  admits := by
    intro node hnode parent hparent
    have hrow : node.rowFrom catalog store row =
        (node.relatedTo catalog store (parent.rowFrom catalog store row)).head? :=
      JoinNode.rowFrom_of_parent? hparent
    simp only [hrow]
    cases hrelated : node.relatedTo catalog store (parent.rowFrom catalog store row) with
    | nil =>
      refine ⟨rfl, ?_⟩
      cases hmode : (modes.modeOf node).inner with
      | false => simp [Draft.joinType, hmode]
      | true =>
        have hsome := hinner node hnode hmode
        rw [hrow, hrelated] at hsome
        cases hsome
    | cons first rest => exact List.mem_cons_self

theorem exists_follows_iff (hnodes : tree.ToOne catalog nodes) (hstore : store.Functional catalog)
    (hrow : row ∈ store.rows tree.root.entity) {P : Choice → Prop}
    (hcongr : ∀ choice other : Choice, (∀ node ∈ nodes, choice node = other node) →
      P choice → P other) :
    (∃ choice : Choice, choice.Follows catalog store modes tree.root nodes row ∧ P choice) ↔
      (∀ node ∈ nodes, (modes.modeOf node).inner = true →
        (node.rowFrom catalog store row).isSome = true) ∧
      P fun node => node.rowFrom catalog store row := by
  constructor
  · rintro ⟨choice, hchoice, hP⟩
    have heq : ∀ node ∈ nodes, choice node = node.rowFrom catalog store row :=
      fun node hnode => hchoice.eq_rowFrom hnodes hstore hrow hnode
    refine ⟨?_, hcongr _ _ heq hP⟩
    intro node hnode hinner
    obtain ⟨found, hfound⟩ := hchoice.exists_row hnode (hnodes.mem node hnode) hinner
    rw [← heq node hnode, hfound]
    rfl
  · rintro ⟨hinner, hP⟩
    exact ⟨_, follows_rowFrom hinner, hP⟩

end Follows

end CriteriaQuery
