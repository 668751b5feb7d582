import CriteriaQuery.Proofs.Join.Tree
import Mathlib.Data.List.Induction
import Mathlib.Data.List.Nodup

/-! Grouping loses no restriction and invents none (`RestrictionGroup.grouped_ofList`). In a tree the
members of a group hang on the node of the group itself, so that choosing groups by their nodes is
choosing restrictions by theirs (`Grouped.mem_filter_iff`). There the groups have a closed form as
well: one for each node in the order of first occurrence, with its restrictions in the order in which
they were (`ofList_eq_byNode`). -/
namespace CriteriaQuery.RestrictionGroup
set_option autoImplicit false

/-! ## One restriction more -/

/-- A group with a member on its node, all of whose members hang on nodes of its identifier. -/
def Sound (group : RestrictionGroup) : Prop :=
  (∃ a ∈ group.members, a.node = group.node) ∧ ∀ a ∈ group.members, a.node.id = group.node.id

theorem mem_insert (applied other : Applied) (groups : List RestrictionGroup) :
    (∃ group ∈ insert applied groups, other ∈ group.members) ↔
      (∃ group ∈ groups, other ∈ group.members) ∨ other = applied := by
  induction groups with
  | nil => simp [insert]
  | cons group rest ih =>
    rw [insert]
    split
    · simp only [List.mem_cons, exists_eq_or_imp, List.mem_append, List.not_mem_nil, or_false]
      exact or_right_comm
    · simp only [List.mem_cons, exists_eq_or_imp, ih, or_assoc]

theorem sound_insert (applied : Applied) {groups : List RestrictionGroup}
    (h : ∀ group ∈ groups, group.Sound) : ∀ group ∈ insert applied groups, group.Sound := by
  induction groups with
  | nil =>
    intro group hgroup
    rw [insert, List.mem_singleton] at hgroup
    subst hgroup
    refine ⟨⟨applied, List.mem_singleton_self _, rfl⟩, ?_⟩
    intro a ha
    rw [List.mem_singleton.mp ha]
  | cons first rest ih =>
    obtain ⟨⟨a, ha, hnode⟩, hids⟩ := h first List.mem_cons_self
    have hrest : ∀ group ∈ rest, group.Sound := fun g hg => h g (List.mem_cons_of_mem _ hg)
    rw [insert]
    split
    · rename_i hid
      intro group hgroup
      rcases List.mem_cons.mp hgroup with rfl | hgroup
      · refine ⟨⟨a, List.mem_append_left _ ha, hnode⟩, ?_⟩
        intro b hb
        rcases List.mem_append.mp hb with hb | hb
        · exact hids b hb
        · rw [List.mem_singleton.mp hb]
          exact hid.symm
      · exact hrest group hgroup
    · intro group hgroup
      rcases List.mem_cons.mp hgroup with rfl | hgroup
      · exact h group List.mem_cons_self
      · exact ih hrest group hgroup

/-! ## All restrictions -/

/-- Groups of these restrictions by node. -/
structure Grouped (applied : List Applied) (groups : List RestrictionGroup) : Prop where
  mem_iff : ∀ a, (∃ group ∈ groups, a ∈ group.members) ↔ a ∈ applied
  sound : ∀ group ∈ groups, group.Sound

theorem Grouped.insert {applied : List Applied} {groups : List RestrictionGroup}
    (h : Grouped applied groups) (a : Applied) :
    Grouped (applied ++ [a]) (RestrictionGroup.insert a groups) where
  mem_iff := by
    intro b
    rw [mem_insert, h.mem_iff, List.mem_append, List.mem_singleton]
  sound := sound_insert a h.sound

theorem grouped_ofList (applied : List Applied) : Grouped applied (ofList applied) := by
  have hfold : ∀ (rest done : List Applied) (groups : List RestrictionGroup),
      Grouped done groups → Grouped (done ++ rest)
        (rest.foldl (fun groups a => RestrictionGroup.insert a groups) groups) := by
    intro rest
    induction rest with
    | nil =>
      intro done groups h
      rwa [List.append_nil]
    | cons a rest ih =>
      intro done groups h
      have hrest := ih _ _ (h.insert a)
      rwa [List.append_assoc] at hrest
  exact hfold applied [] [] ⟨by simp, by simp⟩

/-! ## Groups in a tree -/

section Tree
variable {applied : List Applied} {groups : List RestrictionGroup} {tree : JoinTree}

theorem Grouped.node_eq (h : Grouped applied groups) (htree : ∀ a ∈ applied, a.node ∈ tree)
    {group : RestrictionGroup} (hgroup : group ∈ groups) {a : Applied} (ha : a ∈ group.members) :
    a.node = group.node := by
  obtain ⟨⟨b, hb, hnode⟩, hids⟩ := h.sound group hgroup
  have hmem : ∀ c ∈ group.members, c.node ∈ tree :=
    fun c hc => htree c ((h.mem_iff c).mp ⟨group, hgroup, hc⟩)
  rw [← hnode]
  apply JoinTree.eq_of_id_eq (hmem a ha) (hmem b hb)
  rw [hids a ha, hids b hb]

theorem Grouped.mem_filter_iff (h : Grouped applied groups) (htree : ∀ a ∈ applied, a.node ∈ tree)
    (keep : JoinNode → Bool) (a : Applied) :
    (∃ group ∈ groups.filter (fun group => keep group.node), a ∈ group.members) ↔
      a ∈ applied.filter fun a => keep a.node := by
  rw [List.mem_filter, ← h.mem_iff]
  constructor
  · rintro ⟨group, hgroup, ha⟩
    obtain ⟨hgroup, hkeep⟩ := List.mem_filter.mp hgroup
    refine ⟨⟨group, hgroup, ha⟩, ?_⟩
    rw [h.node_eq htree hgroup ha]
    exact hkeep
  · rintro ⟨⟨group, hgroup, ha⟩, hkeep⟩
    refine ⟨group, List.mem_filter.mpr ⟨hgroup, ?_⟩, ha⟩
    rw [← h.node_eq htree hgroup ha]
    exact hkeep

theorem Grouped.mem_nodes_iff (h : Grouped applied groups) (htree : ∀ a ∈ applied, a.node ∈ tree)
    (keep : JoinNode → Bool) (node : JoinNode) :
    node ∈ (groups.filter fun group => keep group.node).map (·.node) ↔
      node ∈ (applied.filter fun a => keep a.node).map (·.node) := by
  simp only [List.mem_map, ← h.mem_filter_iff htree keep]
  constructor
  · rintro ⟨group, hgroup, rfl⟩
    obtain ⟨⟨a, ha, hnode⟩, -⟩ := h.sound group (List.mem_filter.mp hgroup).1
    exact ⟨a, ⟨group, hgroup, ha⟩, hnode⟩
  · rintro ⟨a, ⟨group, hgroup, ha⟩, rfl⟩
    exact ⟨group, hgroup, (h.node_eq htree (List.mem_filter.mp hgroup).1 ha).symm⟩

end Tree

/-! ## First occurrences -/

section FirstOccurrences
variable {α : Type}

theorem filter_concat_of_pos {keep : α → Bool} {items : List α} {a : α} (h : keep a = true) :
    (items ++ [a]).filter keep = items.filter keep ++ [a] := by simp [h]

theorem filter_concat_of_neg {keep : α → Bool} {items : List α} {a : α} (h : keep a = false) :
    (items ++ [a]).filter keep = items.filter keep := by simp [h]

variable [DecidableEq α]

theorem eraseDups_concat (items : List α) (a : α) :
    (items ++ [a]).eraseDups = if a ∈ items then items.eraseDups else items.eraseDups ++ [a] := by
  rw [List.eraseDups_append]
  by_cases h : a ∈ items
  · simp [List.removeAll, h]
  · simp [List.removeAll, List.eraseDups_cons, h]

theorem nodup_eraseDups (items : List α) : items.eraseDups.Nodup := by
  induction items using List.reverseRecOn with
  | nil => simp
  | append_singleton items a ih =>
    rw [eraseDups_concat]
    split
    · exact ih
    · rename_i hnew
      rw [← List.concat_eq_append]
      apply ih.concat
      rwa [List.mem_eraseDups]

theorem filter_eraseDups (keep : α → Bool) (items : List α) :
    items.eraseDups.filter keep = (items.filter keep).eraseDups := by
  induction items using List.reverseRecOn with
  | nil => simp
  | append_singleton items a ih =>
    cases hkeep : keep a with
    | true =>
      have hmem : a ∈ items.filter keep ↔ a ∈ items := by simp [hkeep]
      rw [filter_concat_of_pos hkeep, eraseDups_concat, eraseDups_concat]
      simp only [hmem]
      split
      · exact ih
      · rw [filter_concat_of_pos hkeep, ih]
    | false =>
      rw [filter_concat_of_neg hkeep, ← ih, eraseDups_concat]
      split
      · rfl
      · exact filter_concat_of_neg hkeep

/-- The items of distinct keys, key by key, are the items that have one of them. -/
theorem flatMap_filter_perm {β : Type} (key : β → α) (items : List β) {keys : List α}
    (h : keys.Nodup) : (keys.flatMap fun k => items.filter (key · = k)).Perm
      (items.filter (key · ∈ keys)) := by
  induction keys with
  | nil => simp
  | cons k rest ih =>
    rw [List.nodup_cons] at h
    have hfirst : (items.filter (key · ∈ k :: rest)).filter (key · = k) =
        items.filter (key · = k) := by
      rw [List.filter_filter]
      apply List.filter_congr
      intro b _
      by_cases hb : key b = k <;> simp [hb]
    have hothers : (items.filter (key · ∈ k :: rest)).filter (fun b => !decide (key b = k)) =
        items.filter (key · ∈ rest) := by
      rw [List.filter_filter]
      apply List.filter_congr
      intro b _
      by_cases hb : key b = k
      · simp [hb, h.1]
      · simp [hb]
    have hsplit := List.filter_append_perm (key · = k) (items.filter (key · ∈ k :: rest))
    rw [hfirst, hothers] at hsplit
    rw [List.flatMap_cons]
    exact ((ih h.2).append_left _).trans hsplit

end FirstOccurrences

/-! ## Groups in closed form -/

/-- One group for each node, in the order in which the nodes first occur. -/
def byNode (applied : List Applied) : List RestrictionGroup :=
  (applied.map (·.node)).eraseDups.map fun node => ⟨node, applied.filter (·.node = node)⟩

/-- Restrictions node by node, in the order in which the nodes first occur. -/
def arranged (applied : List Applied) : List Applied :=
  (applied.map (·.node)).eraseDups.flatMap fun node => applied.filter (·.node = node)

theorem arranged_perm (applied : List Applied) : (arranged applied).Perm applied := by
  have hall : applied.filter (·.node ∈ (applied.map (·.node)).eraseDups) = applied := by
    rw [List.filter_eq_self]
    intro a ha
    simpa using ⟨a, ha, rfl⟩
  have hperm := flatMap_filter_perm Applied.node applied (nodup_eraseDups (applied.map (·.node)))
  rwa [hall] at hperm

theorem flatMap_byNode (applied : List Applied) :
    (byNode applied).flatMap (·.members) = arranged applied := by
  rw [byNode, List.flatMap_map, arranged]

theorem filter_byNode (keep : JoinNode → Bool) (applied : List Applied) :
    (byNode applied).filter (fun group => keep group.node) =
      byNode (applied.filter fun a => keep a.node) := by
  have hnodes : (applied.map (·.node)).eraseDups.filter keep =
      ((applied.filter fun a => keep a.node).map (·.node)).eraseDups := by
    rw [filter_eraseDups, List.filter_map]
    rfl
  unfold byNode
  rw [List.filter_map, ← hnodes]
  apply List.map_congr_left
  intro node hnode
  have hkeep : keep node = true := (List.mem_filter.mp hnode).2
  congr 1
  rw [List.filter_filter]
  apply List.filter_congr
  intro a _
  by_cases ha : a.node = node
  · simp [ha, hkeep]
  · simp [ha]

theorem filter_concat_self (applied : List Applied) (a : Applied) :
    (applied ++ [a]).filter (·.node = a.node) = applied.filter (·.node = a.node) ++ [a] :=
  filter_concat_of_pos (decide_eq_true rfl)

/-- A restriction joins the group of its node, or makes one of its own if there is none. -/
theorem insert_map {applied : List Applied} {a : Applied} {nodes : List JoinNode}
    (hnodup : nodes.Nodup) (hid : ∀ node ∈ nodes, node.id = a.node.id → node = a.node) :
    insert a (nodes.map fun node => ⟨node, applied.filter (·.node = node)⟩) =
      if a.node ∈ nodes then
        nodes.map fun node => ⟨node, (applied ++ [a]).filter (·.node = node)⟩
      else nodes.map (fun node => ⟨node, (applied ++ [a]).filter (·.node = node)⟩) ++
        [⟨a.node, [a]⟩] := by
  induction nodes with
  | nil => rfl
  | cons node rest ih =>
    rw [List.nodup_cons] at hnodup
    have ih := ih hnodup.2 fun n hn => hid n (List.mem_cons_of_mem _ hn)
    rw [List.map_cons, insert]
    by_cases hnode : node = a.node
    · -- the groups behind belong to other nodes and stay what they are
      have hrest : ∀ n ∈ rest, (applied ++ [a]).filter (·.node = n) = applied.filter (·.node = n) := by
        intro n hn
        apply filter_concat_of_neg
        rw [decide_eq_false_iff_not]
        rintro rfl
        exact hnodup.1 (hnode ▸ hn)
      subst hnode
      rw [if_pos rfl, if_pos List.mem_cons_self, List.map_cons, filter_concat_self]
      congr 1
      apply List.map_congr_left
      intro n hn
      rw [hrest n hn]
    · have hne : ¬node.id = a.node.id := fun h => hnode (hid node List.mem_cons_self h)
      have hmem : a.node ∈ node :: rest ↔ a.node ∈ rest := by
        rw [List.mem_cons, or_iff_right (Ne.symm hnode)]
      have hself : (applied ++ [a]).filter (·.node = node) = applied.filter (·.node = node) :=
        filter_concat_of_neg (decide_eq_false (Ne.symm hnode))
      rw [if_neg hne, ih, List.map_cons, hself]
      simp only [hmem]
      split <;> rfl

/-- In a tree, restrictions are grouped by node, although groups are found by identifier. -/
theorem ofList_eq_byNode {tree : JoinTree} {applied : List Applied}
    (htree : ∀ a ∈ applied, a.node ∈ tree) : ofList applied = byNode applied := by
  induction applied using List.reverseRecOn with
  | nil => rfl
  | append_singleton applied a ih =>
    have hin : ∀ b ∈ applied, b.node ∈ tree := fun b hb => htree b (List.mem_append_left _ hb)
    have ha : a.node ∈ tree := htree a (by simp)
    have hid : ∀ node ∈ (applied.map (·.node)).eraseDups, node.id = a.node.id → node = a.node := by
      intro node hnode hid
      obtain ⟨b, hb, rfl⟩ := List.mem_map.mp (List.mem_eraseDups.mp hnode)
      exact JoinTree.eq_of_id_eq (hin b hb) ha hid
    have hstep : ofList (applied ++ [a]) = insert a (ofList applied) := by
      rw [ofList, List.foldl_append]
      rfl
    rw [hstep, ih hin, byNode, insert_map (nodup_eraseDups _) hid, byNode, List.map_append,
      List.map_singleton, eraseDups_concat]
    simp only [List.mem_eraseDups]
    split
    · rfl
    · rename_i hnew
      have hnone : applied.filter (·.node = a.node) = [] := by
        rw [List.filter_eq_nil_iff]
        intro b hb hnode
        exact hnew (List.mem_map.mpr ⟨b, hb, by simpa using hnode⟩)
      rw [List.map_append, List.map_singleton, filter_concat_self, hnone, List.nil_append]

end CriteriaQuery.RestrictionGroup
