import CriteriaQuery.Proofs.Join.Tree

/-! The modes that restrictions and sorts ask for, in closed form: what lies on the way to a sort is
joined as for a sort, the rest of what lies on the way to a restriction as for a restriction. -/
namespace CriteriaQuery.JoinModes
set_option autoImplicit false

/-- The mode in which a node is joined. -/
def modeOf (modes : JoinModes) (node : JoinNode) : JoinMode := (modes.get? node).getD .restriction

/-! ## What is asked for along paths -/

theorem get?_foldl_require (mode : JoinMode) (steps : List JoinNode) (modes : JoinModes)
    (other : JoinNode) :
    JoinModes.get? (steps.foldl (fun modes step => require mode step modes) modes) other =
      if other.id ∈ steps.map (·.id) then
        some (((modes.get? other).getD .identity).merge mode)
      else modes.get? other := by
  induction steps generalizing modes with
  | nil => rfl
  | cons step rest ih =>
    rw [List.foldl_cons, ih, get?_require, List.map_cons]
    by_cases hstep : step.id = other.id
    · have hget : modes.get? step = modes.get? other := by simp only [get?, hstep]
      by_cases hrest : other.id ∈ rest.map (·.id)
      · rw [if_pos hrest, if_pos hstep, if_pos (List.mem_cons_of_mem _ hrest), hget,
          Option.getD_some, JoinMode.merge_assoc, JoinMode.merge_self]
      · rw [if_neg hrest, if_pos hstep, if_pos (by simp [hstep]), hget]
    · by_cases hrest : other.id ∈ rest.map (·.id)
      · rw [if_pos hrest, if_neg hstep, if_pos (List.mem_cons_of_mem _ hrest)]
      · rw [if_neg hrest, if_neg hstep, if_neg]
        rw [List.mem_cons, not_or]
        exact ⟨Ne.symm hstep, hrest⟩

theorem foldl_requirePath (mode : JoinMode) (nodes : List JoinNode) (modes : JoinModes) :
    nodes.foldl (requirePath mode) modes =
      (nodes.flatMap JoinNode.path).foldl (fun modes step => require mode step modes) modes := by
  rw [List.foldl_flatMap]
  rfl

theorem get?_foldl_requirePath (mode : JoinMode) (nodes : List JoinNode) (modes : JoinModes)
    (other : JoinNode) :
    JoinModes.get? (nodes.foldl (requirePath mode) modes) other =
      if other.id ∈ (nodes.flatMap JoinNode.path).map (·.id) then
        some (((modes.get? other).getD .identity).merge mode)
      else modes.get? other := by
  rw [foldl_requirePath, get?_foldl_require]

theorem get?_resolve (restrictions sorts : List JoinNode) (other : JoinNode) :
    (resolve restrictions sorts).get? other =
      if other.id ∈ (sorts.flatMap JoinNode.path).map (·.id) then some .sort
      else if other.id ∈ (restrictions.flatMap JoinNode.path).map (·.id) then some .restriction
      else none := by
  unfold resolve
  rw [get?_foldl_requirePath, get?_foldl_requirePath]
  by_cases hsort : other.id ∈ (sorts.flatMap JoinNode.path).map (·.id)
  · rw [if_pos hsort, if_pos hsort]
    by_cases hrestriction : other.id ∈ (restrictions.flatMap JoinNode.path).map (·.id)
    · rw [if_pos hrestriction]
      rfl
    · rw [if_neg hrestriction]
      rfl
  · rw [if_neg hsort, if_neg hsort]
    rfl

/-! ## Modes by node -/

/-- In a tree, an identifier is that of some nodes only if its node is one of them. -/
theorem id_mem_paths {tree : JoinTree} {node : JoinNode} {nodes : List JoinNode}
    (hnode : node ∈ tree) (hnodes : ∀ n ∈ nodes, n ∈ tree) :
    node.id ∈ (nodes.flatMap JoinNode.path).map (·.id) ↔ node ∈ nodes.flatMap JoinNode.path := by
  constructor
  · intro h
    obtain ⟨step, hstep, hid⟩ := List.mem_map.mp h
    obtain ⟨last, hlast, hpath⟩ := List.mem_flatMap.mp hstep
    rw [← JoinTree.eq_of_id_eq (JoinTree.mem_of_mem_path (hnodes last hlast) hpath) hnode hid]
    exact hstep
  · exact List.mem_map_of_mem

/-- A node is joined as for a sort if it lies on the way to one, else as for a restriction. -/
theorem modeOf_resolve {tree : JoinTree} {node : JoinNode} {sorts : List JoinNode}
    (restrictions : List JoinNode) (hnode : node ∈ tree) (hsorts : ∀ n ∈ sorts, n ∈ tree) :
    (resolve restrictions sorts).modeOf node =
      if node ∈ sorts.flatMap JoinNode.path then .sort else .restriction := by
  rw [modeOf, get?_resolve]
  simp only [id_mem_paths hnode hsorts]
  by_cases hsort : node ∈ sorts.flatMap JoinNode.path
  · rw [if_pos hsort, if_pos hsort]
    rfl
  · rw [if_neg hsort, if_neg hsort]
    split <;> rfl

end CriteriaQuery.JoinModes
