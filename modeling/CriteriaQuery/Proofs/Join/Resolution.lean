import CriteriaQuery.People.Model
import CriteriaQuery.Proofs.Join.Modes

/-! The modes of a tree as a whole. Asking for a mode along paths keeps one entry for each node, so
that the entries are those of the nodes on the paths, each in closed form; neither the order of
restrictions and sorts nor how often they occur can be told from them (`JoinModes.resolved_modes`). -/
namespace CriteriaQuery
set_option autoImplicit false

namespace JoinModes
variable {tree : JoinTree} {modes : JoinModes} {mode : JoinMode} {node : JoinNode}

/-- The nodes that something was asked of. -/
def keys (modes : JoinModes) : List JoinNode := modes.map (·.1)

/-- Modes of nodes of a tree, at most one for each of them. -/
structure Over (tree : JoinTree) (modes : JoinModes) : Prop where
  mem : ∀ node ∈ modes.keys, node ∈ tree
  nodup : modes.keys.Nodup

theorem Over.get?_eq_some (h : modes.Over tree) (hnode : node ∈ tree) :
    modes.get? node = some mode ↔ (node, mode) ∈ modes :=
  JoinTree.lookup_eq_some h.mem h.nodup hnode

/-! ## One entry for each node -/

theorem keys_require (mode : JoinMode) (hid : ∀ key ∈ modes.keys, key.id = node.id → key = node) :
    (require mode node modes).keys =
      if node ∈ modes.keys then modes.keys else modes.keys ++ [node] := by
  induction modes with
  | nil => rfl
  | cons entry rest ih =>
    obtain ⟨key, first⟩ := entry
    have hkeys : keys ((key, first) :: rest) = key :: keys rest := rfl
    rw [hkeys, List.forall_mem_cons] at hid
    by_cases hsame : key.id = node.id
    · obtain rfl := hid.1 hsame
      simp [require, keys]
    · have hne : node ≠ key := fun heq => hsame (heq ▸ rfl)
      have hrest := ih hid.2
      rw [require, if_neg hsame, hkeys]
      change key :: (require mode node rest).keys = _
      rw [hrest]
      by_cases hin : node ∈ keys rest <;> simp [hin, hne]

/-- One more step keeps one entry for each node. -/
theorem Over.require (h : modes.Over tree) (mode : JoinMode) (hnode : node ∈ tree) :
    (require mode node modes).Over tree ∧
      ∀ n, n ∈ (JoinModes.require mode node modes).keys ↔ n ∈ modes.keys ∨ n = node := by
  have hkeys := keys_require mode fun key hkey hid => JoinTree.eq_of_id_eq (h.mem key hkey) hnode hid
  by_cases hin : node ∈ modes.keys
  · rw [if_pos hin] at hkeys
    refine ⟨⟨by rw [hkeys]; exact h.mem, by rw [hkeys]; exact h.nodup⟩, fun n => ?_⟩
    rw [hkeys]
    exact ⟨Or.inl, fun hn => hn.elim id fun heq => heq ▸ hin⟩
  · rw [if_neg hin] at hkeys
    refine ⟨⟨?_, ?_⟩, fun n => by rw [hkeys, List.mem_append, List.mem_singleton]⟩
    · rw [hkeys]
      intro n hn
      rcases List.mem_append.mp hn with hn | hn
      · exact h.mem n hn
      · rw [List.mem_singleton.mp hn]
        exact hnode
    · rw [hkeys, ← List.concat_eq_append]
      exact h.nodup.concat hin

theorem Over.foldl_require (h : modes.Over tree) (mode : JoinMode) {steps : List JoinNode}
    (hsteps : ∀ step ∈ steps, step ∈ tree) :
    Over tree (steps.foldl (fun modes step => JoinModes.require mode step modes) modes) ∧
      ∀ n, n ∈ keys (steps.foldl (fun modes step => JoinModes.require mode step modes) modes) ↔
        n ∈ modes.keys ∨ n ∈ steps := by
  induction steps generalizing modes with
  | nil => exact ⟨h, fun n => by simp⟩
  | cons step rest ih =>
    rw [List.forall_mem_cons] at hsteps
    obtain ⟨hover, hkeys⟩ := h.require mode hsteps.1
    obtain ⟨hoverRest, hkeysRest⟩ := ih hover hsteps.2
    refine ⟨hoverRest, fun n => ?_⟩
    rw [List.foldl_cons, hkeysRest, hkeys, List.mem_cons, or_assoc]

theorem mem_tree_of_paths {nodes : List JoinNode} (h : ∀ n ∈ nodes, n ∈ tree) :
    ∀ step ∈ nodes.flatMap JoinNode.path, step ∈ tree := by
  intro step hstep
  obtain ⟨last, hlast, hpath⟩ := List.mem_flatMap.mp hstep
  exact JoinTree.mem_of_mem_path (h last hlast) hpath

/-- The entries are those of the nodes on the paths. -/
theorem over_resolve {restrictions sorts : List JoinNode}
    (hrestrictions : ∀ n ∈ restrictions, n ∈ tree) (hsorts : ∀ n ∈ sorts, n ∈ tree) :
    (resolve restrictions sorts).Over tree ∧ ∀ n, n ∈ (resolve restrictions sorts).keys ↔
      n ∈ restrictions.flatMap JoinNode.path ∨ n ∈ sorts.flatMap JoinNode.path := by
  have hempty : Over tree [] := ⟨nofun, List.nodup_nil⟩
  unfold resolve
  rw [foldl_requirePath, foldl_requirePath]
  obtain ⟨hover, hkeys⟩ := hempty.foldl_require .restriction (mem_tree_of_paths hrestrictions)
  obtain ⟨hoverSorts, hkeysSorts⟩ := hover.foldl_require .sort (mem_tree_of_paths hsorts)
  refine ⟨hoverSorts, fun n => ?_⟩
  rw [hkeysSorts, hkeys]
  simp [keys]

/-! ## Closed form -/

theorem mem_resolve_iff {restrictions sorts : List JoinNode}
    (hrestrictions : ∀ n ∈ restrictions, n ∈ tree) (hsorts : ∀ n ∈ sorts, n ∈ tree) :
    (node, mode) ∈ resolve restrictions sorts ↔
      (node ∈ restrictions.flatMap JoinNode.path ∨ node ∈ sorts.flatMap JoinNode.path) ∧
        mode = if node ∈ sorts.flatMap JoinNode.path then .sort else .restriction := by
  obtain ⟨hover, hkeys⟩ := over_resolve hrestrictions hsorts
  by_cases hon : node ∈ restrictions.flatMap JoinNode.path ∨ node ∈ sorts.flatMap JoinNode.path
  · have hnode : node ∈ tree := hon.elim (mem_tree_of_paths hrestrictions node)
      (mem_tree_of_paths hsorts node)
    rw [← hover.get?_eq_some hnode, get?_resolve, and_iff_right hon]
    simp only [id_mem_paths hnode hsorts, id_mem_paths hnode hrestrictions]
    by_cases hsort : node ∈ sorts.flatMap JoinNode.path
    · rw [if_pos hsort, if_pos hsort, Option.some.injEq, eq_comm]
    · rw [if_neg hsort, if_neg hsort, if_pos (hon.resolve_right hsort), Option.some.injEq, eq_comm]
  · have hkey : (node, mode) ∈ resolve restrictions sorts →
        node ∈ (resolve restrictions sorts).keys := List.mem_map_of_mem
    exact iff_of_false (fun h => hon ((hkeys node).mp (hkey h))) fun h => hon h.1

theorem mode_toward_eq (sorts : List JoinNode) (node : JoinNode) :
    (if node ∈ sorts.flatMap JoinNode.path then JoinMode.sort else .restriction) =
      ⟨decide (∀ n ∈ sorts, node ∉ n.path), decide (∃ n ∈ sorts, node ∈ n.path)⟩ := by
  by_cases hsort : node ∈ sorts.flatMap JoinNode.path
  · have hsome := List.mem_flatMap.mp hsort
    have hnot : ¬∀ n ∈ sorts, node ∉ n.path := by simpa using hsome
    rw [if_pos hsort, decide_eq_false hnot, decide_eq_true hsome]
    rfl
  · have hnone : ¬∃ n ∈ sorts, node ∈ n.path := fun h => hsort (List.mem_flatMap.mpr h)
    have hall : ∀ n ∈ sorts, node ∉ n.path := by simpa using hnone
    rw [if_neg hsort, decide_eq_true hall, decide_eq_false hnone]
    rfl

/-- The modes that follow from restrictions and sorts in a tree have one entry for each node on their
paths: inner unless the node lies on the way to a sort, fetching if it does. Only the nodes matter,
not their order or how often they occur, and below a node that is inner all are. -/
theorem resolved_modes {restrictions sorts : List JoinNode}
    (hrestrictions : ∀ n ∈ restrictions, n ∈ tree) (hsorts : ∀ n ∈ sorts, n ∈ tree) :
    (resolve restrictions sorts).keys.Nodup ∧
    (∀ node, node ∈ (resolve restrictions sorts).keys ↔
      (∃ n ∈ restrictions, node ∈ n.path) ∨ ∃ n ∈ sorts, node ∈ n.path) ∧
    (∀ node ∈ (resolve restrictions sorts).keys, (resolve restrictions sorts).get? node =
      some ⟨decide (∀ n ∈ sorts, node ∉ n.path), decide (∃ n ∈ sorts, node ∈ n.path)⟩) ∧
    (∀ otherRestrictions otherSorts, (∀ n, n ∈ otherRestrictions ↔ n ∈ restrictions) →
      (∀ n, n ∈ otherSorts ↔ n ∈ sorts) →
      (resolve otherRestrictions otherSorts).Perm (resolve restrictions sorts) ∧
        ∀ node, (resolve otherRestrictions otherSorts).get? node =
          (resolve restrictions sorts).get? node) ∧
    ∀ step stepMode node mode, (step, stepMode) ∈ resolve restrictions sorts →
      (node, mode) ∈ resolve restrictions sorts → step ∈ node.path → stepMode.inner = true →
        mode.inner = true := by
  obtain ⟨hover, hkeys⟩ := over_resolve hrestrictions hsorts
  refine ⟨hover.nodup, ?_, ?_, ?_, ?_⟩
  · intro node
    rw [hkeys, List.mem_flatMap, List.mem_flatMap]
  · intro node hnode
    rw [hover.get?_eq_some (hover.mem node hnode), mem_resolve_iff hrestrictions hsorts,
      mode_toward_eq]
    exact ⟨(hkeys node).mp hnode, rfl⟩
  · intro otherRestrictions otherSorts hsame hsameSorts
    have hother : ∀ n ∈ otherRestrictions, n ∈ tree := fun n hn => hrestrictions n ((hsame n).mp hn)
    have hotherSorts : ∀ n ∈ otherSorts, n ∈ tree := fun n hn => hsorts n ((hsameSorts n).mp hn)
    constructor
    · have hnodup := (over_resolve hother hotherSorts).1.nodup
      rw [List.perm_ext_iff_of_nodup hnodup.of_map hover.nodup.of_map]
      rintro ⟨node, mode⟩
      rw [mem_resolve_iff hother hotherSorts, mem_resolve_iff hrestrictions hsorts]
      simp only [List.mem_flatMap, hsame, hsameSorts]
    · intro node
      have hids : ∀ {nodes others : List JoinNode}, (∀ n, n ∈ others ↔ n ∈ nodes) →
          (node.id ∈ (others.flatMap JoinNode.path).map (·.id) ↔
            node.id ∈ (nodes.flatMap JoinNode.path).map (·.id)) := by
        intro nodes others h
        simp only [List.mem_map, List.mem_flatMap, h]
      rw [get?_resolve, get?_resolve]
      simp only [hids hsame, hids hsameSorts]
  · intro step stepMode node mode hstep hnode hpath hinner
    rw [mem_resolve_iff hrestrictions hsorts, mode_toward_eq] at hstep hnode
    rw [hstep.2, decide_eq_true_eq] at hinner
    rw [hnode.2, decide_eq_true_eq]
    intro n hn hmem
    exact hinner n hn ((JoinNode.path_prefix_of_mem hmem).subset hpath)

end JoinModes

namespace People

/-- The nodes that searches for people use. -/
def tree : JoinTree where
  root := Node.person
  Holds node := node ∈ [Node.person, Node.business, Node.owner, Node.child]
  holds_root := List.mem_cons_self
  holds_parent := by
    intro node parent hnode
    simp only [List.mem_cons, List.not_mem_nil, or_false] at hnode
    rcases hnode with rfl | rfl | rfl | rfl <;> intro h <;> cases h <;> decide
  rootNode_eq := by
    intro node hnode
    simp only [List.mem_cons, List.not_mem_nil, or_false] at hnode
    rcases hnode with rfl | rfl | rfl | rfl <;> rfl
  eq_of_id := by
    have hall : ∀ a ∈ [Node.person, Node.business, Node.owner, Node.child],
        ∀ b ∈ [Node.person, Node.business, Node.owner, Node.child], a.id = b.id → a = b := by
      decide
    exact fun {a b} ha hb => hall a ha b hb

theorem resolved_modes_toward_owner :
    (∀ n ∈ [Node.child, Node.business, Node.child], n ∈ tree) ∧ (∀ n ∈ [Node.owner], n ∈ tree) ∧
      (JoinModes.resolve [Node.child, Node.business, Node.child] [Node.owner]).keys.Nodup ∧
      (JoinModes.resolve [Node.child, Node.business, Node.child] [Node.owner]).get? Node.business =
        some ⟨false, true⟩ ∧
      (JoinModes.resolve [Node.child, Node.business, Node.child] [Node.owner]).get? Node.child =
        some ⟨true, false⟩ := by
  have hall : ∀ n ∈ [Node.child, Node.business, Node.child, Node.owner],
      n ∈ [Node.person, Node.business, Node.owner, Node.child] := by decide
  have hrestrictions : ∀ n ∈ [Node.child, Node.business, Node.child], n ∈ tree :=
    fun n hn => hall n (List.mem_append_left [Node.owner] hn)
  have hsorts : ∀ n ∈ [Node.owner], n ∈ tree :=
    fun n hn => hall n (List.mem_append_right [Node.child, Node.business, Node.child] hn)
  obtain ⟨hnodup, hkeys, hmode, -, -⟩ := JoinModes.resolved_modes hrestrictions hsorts
  refine ⟨hrestrictions, hsorts, hnodup, ?_, ?_⟩
  · exact hmode _ ((hkeys _).mpr (by decide))
  · exact hmode _ ((hkeys _).mpr (by decide))

end People

end CriteriaQuery
