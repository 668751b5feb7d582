import CriteriaQuery.Handler.Config
import Mathlib.Data.List.Nodup
import Mathlib.Tactic.ByContra

/-! Join trees in which identifiers tell nodes apart, so that what is kept by identifier is kept by
node (`JoinTree.lookup_eq_some`). The nodes on the paths of a configuration without fault make one. -/
namespace CriteriaQuery
set_option autoImplicit false

/-! ## Paths -/

namespace JoinNode

theorem mem_path_of_parent? {node parent step : JoinNode} (h : node.parent? = some parent)
    (hstep : step ∈ parent.path) : step ∈ node.path := by
  cases node with
  | root => cases h
  | child _ _ _ p _ =>
    cases h
    exact List.mem_append_left _ hstep

theorem path_eq_of_parent? {node parent : JoinNode} (h : node.parent? = some parent) :
    node.path = parent.path ++ [node] := by
  cases node with
  | root => cases h
  | child _ _ _ p _ =>
    cases h
    rfl

theorem not_mem_path_parent {node parent : JoinNode} (h : node.parent? = some parent) :
    node ∉ parent.path := by
  intro hmem
  have hle := (path_prefix_of_mem hmem).length_le
  rw [path_eq_of_parent? h, List.length_append, List.length_singleton] at hle
  omega

theorem rootNode_eq_self {node : JoinNode} (h : node.isRoot = true) : node.rootNode = node := by
  cases node with
  | root => rfl
  | child => cases h

theorem parent?_eq_none {node : JoinNode} : node.parent? = none ↔ node.isRoot = true := by
  cases node <;> simp [parent?, isRoot]

theorem rootNode_eq_of_mem_path {node step : JoinNode} (h : step ∈ node.path) :
    step.rootNode = node.rootNode := by
  induction node with
  | root => simp only [path, List.mem_singleton] at h; rw [h]
  | child mark id entity parent relationship ih =>
    rw [path, List.mem_append, List.mem_singleton] at h
    rcases h with h | rfl
    · exact ih h
    · rfl

theorem mem_flatMap_path {node : JoinNode} {nodes : List JoinNode} (h : node ∈ nodes) :
    node ∈ nodes.flatMap path := List.mem_flatMap.mpr ⟨node, h, node.self_mem_path⟩

theorem path_of_isRoot {node : JoinNode} (h : node.isRoot = true) : node.path = [node] := by
  cases node with
  | root => rfl
  | child => cases h

theorem crossesToMany_of_isRoot {node : JoinNode} (h : node.isRoot = true) :
    node.crossesToMany = false := by
  cases node with
  | root => rfl
  | child => cases h

theorem crossesToMany_of_mem_path {node step : JoinNode} (h : step ∈ node.path)
    (hnode : node.crossesToMany = false) : step.crossesToMany = false := by
  induction node with
  | root => simp only [path, List.mem_singleton] at h; rw [h]; rfl
  | child mark id entity parent relationship ih =>
    rw [path, List.mem_append, List.mem_singleton] at h
    rcases h with h | rfl
    · rw [crossesToMany, Bool.or_eq_false_iff] at hnode
      exact ih h hnode.2
    · exact hnode

end JoinNode

/-! ## Trees -/

/-- Nodes of one root, with all their ancestors, no two of them under one identifier. -/
structure JoinTree where
  root : JoinNode
  Holds : JoinNode → Prop
  holds_root : Holds root
  holds_parent : ∀ {node parent}, Holds node → node.parent? = some parent → Holds parent
  rootNode_eq : ∀ {node}, Holds node → node.rootNode = root
  eq_of_id : ∀ {a b}, Holds a → Holds b → a.id = b.id → a = b

namespace JoinTree

instance : Membership JoinNode JoinTree := ⟨fun tree node => tree.Holds node⟩

theorem root_mem (tree : JoinTree) : tree.root ∈ tree := tree.holds_root

theorem parent_mem {tree : JoinTree} {node parent : JoinNode} (hnode : node ∈ tree)
    (h : node.parent? = some parent) : parent ∈ tree := tree.holds_parent hnode h

theorem eq_of_id_eq {tree : JoinTree} {a b : JoinNode} (ha : a ∈ tree) (hb : b ∈ tree)
    (h : a.id = b.id) : a = b := tree.eq_of_id ha hb h

theorem isRoot_root (tree : JoinTree) : tree.root.isRoot = true := by
  rw [← tree.rootNode_eq tree.root_mem]
  exact JoinNode.isRoot_rootNode _

@[simp] theorem parent?_root (tree : JoinTree) : tree.root.parent? = none :=
  JoinNode.parent?_eq_none.mpr tree.isRoot_root

theorem eq_root {tree : JoinTree} {node : JoinNode} (hnode : node ∈ tree)
    (h : node.isRoot = true) : node = tree.root := by
  rw [← tree.rootNode_eq hnode, JoinNode.rootNode_eq_self h]

theorem mem_of_mem_path {tree : JoinTree} {node step : JoinNode} (hnode : node ∈ tree)
    (h : step ∈ node.path) : step ∈ tree := by
  induction node with
  | root => simp only [JoinNode.path, List.mem_singleton] at h; rw [h]; exact hnode
  | child mark id entity parent relationship ih =>
    rw [JoinNode.path, List.mem_append, List.mem_singleton] at h
    rcases h with h | rfl
    · exact ih (parent_mem hnode rfl) h
    · exact hnode

section Lookup
variable {tree : JoinTree} {α : Type} {entries : List (JoinNode × α)} {node : JoinNode} {a : α}

/-- What is kept by identifier, at most once for each node, is found by node. -/
theorem lookup_eq_some (hmem : ∀ n ∈ entries.map (·.1), n ∈ tree)
    (hnodup : (entries.map (·.1)).Nodup) (hnode : node ∈ tree) :
    (entries.find? (·.1.id = node.id)).map (·.2) = some a ↔ (node, a) ∈ entries := by
  constructor
  · intro hget
    obtain ⟨⟨other, a⟩, hfind, rfl⟩ := Option.map_eq_some_iff.mp hget
    have hother := List.mem_of_find?_eq_some hfind
    have hid : other.id = node.id := by simpa using List.find?_some hfind
    have heq := eq_of_id_eq (hmem other (List.mem_map_of_mem hother)) hnode hid
    rwa [← heq]
  · intro hentry
    obtain ⟨⟨other, found⟩, hfind⟩ := Option.isSome_iff_exists.mp
      (List.find?_isSome (p := fun entry : JoinNode × α => entry.1.id = node.id).mpr
        ⟨_, hentry, by simp⟩)
    have hother := List.mem_of_find?_eq_some hfind
    have hid : other.id = node.id := by simpa using List.find?_some hfind
    have heq : other = node := eq_of_id_eq (hmem other (List.mem_map_of_mem hother)) hnode hid
    -- no node has two entries, so the one that is found is the one that was asked for
    have hpair := List.inj_on_of_nodup_map hnodup hother hentry heq
    rw [hfind, hpair]
    rfl

end Lookup

end JoinTree

/-! ## Configurations without fault -/

namespace HandlerConfig
variable {C S : Type}

/-- A search for a clash that finds none has seen every identifier at one node only. -/
theorem eq_of_clash?_eq_none {seen nodes : List JoinNode} (h : clash? seen nodes = none)
    (hseen : ∀ a ∈ seen, ∀ b ∈ seen, a.id = b.id → a = b) :
    ∀ a ∈ seen ++ nodes, ∀ b ∈ seen ++ nodes, a.id = b.id → a = b := by
  induction nodes generalizing seen with
  | nil => rwa [List.append_nil]
  | cons node rest ih =>
    rw [clash?] at h
    cases hfind : seen.find? (·.id = node.id) with
    | some other =>
      rw [hfind] at h
      have heq : other = node := by
        by_contra hne
        simp [hne] at h
      subst heq
      have hall := ih (by simpa using h) hseen
      have hmem : other ∈ seen := List.mem_of_find?_eq_some hfind
      have hdrop : ∀ a ∈ seen ++ other :: rest, a ∈ seen ++ rest := by
        intro a ha
        rcases List.mem_append.mp ha with ha | ha
        · exact List.mem_append_left _ ha
        · rcases List.mem_cons.mp ha with rfl | ha
          · exact List.mem_append_left _ hmem
          · exact List.mem_append_right _ ha
      intro a ha b hb
      exact hall a (hdrop a ha) b (hdrop b hb)
    | none =>
      rw [hfind] at h
      have hnew : ∀ other ∈ seen, other.id ≠ node.id := by
        intro other hother
        simpa using List.find?_eq_none.mp hfind other hother
      have hall := ih h (by
        intro a ha b hb hid
        rcases List.mem_append.mp ha with ha | ha <;> rcases List.mem_append.mp hb with hb | hb
        · exact hseen a ha b hb hid
        · rw [List.mem_singleton] at hb
          exact absurd (hb ▸ hid) (hnew a ha)
        · rw [List.mem_singleton] at ha
          exact absurd (ha ▸ hid.symm) (hnew b hb)
        · rw [List.mem_singleton] at ha hb
          rw [ha, hb])
      simpa using hall

variable [DecidableEq S]

/-- A configuration without fault has a root, under whose identifier all its nodes are rooted, and
no two nodes of one identifier on its paths. -/
theorem of_fault?_eq_none {config : HandlerConfig C S} (h : config.fault? = none) :
    config.root.isRoot = true ∧ (∀ node ∈ config.nodes, node.rootNode.id = config.root.id) ∧
      clash? [config.root] (config.nodes.flatMap JoinNode.path) = none := by
  rw [fault?, Option.or_eq_none_iff, Option.or_eq_none_iff, Option.or_eq_none_iff] at h
  obtain ⟨hroot, hforeign, hclash, -⟩ := h
  refine ⟨?_, ?_, ?_⟩
  · by_contra hne
    simp [rootFault?, hne] at hroot
  · rw [foreignFault?, Option.map_eq_none_iff, List.find?_eq_none] at hforeign
    intro node hnode
    simpa using hforeign node hnode
  · rwa [nodeFault?, Option.map_eq_none_iff] at hclash

/-- The root of a configuration and the nodes on its paths. -/
def OnPaths (config : HandlerConfig C S) (node : JoinNode) : Prop :=
  node ∈ config.root :: config.nodes.flatMap JoinNode.path

theorem eq_of_id_of_fault?_eq_none {config : HandlerConfig C S} (h : config.fault? = none)
    {a b : JoinNode} (ha : config.OnPaths a) (hb : config.OnPaths b) (hid : a.id = b.id) :
    a = b := by
  have hclash := (of_fault?_eq_none h).2.2
  refine eq_of_clash?_eq_none hclash ?_ a ha b hb hid
  intro a ha b hb _
  rw [List.mem_singleton] at ha hb
  rw [ha, hb]

theorem rootNode_eq_of_fault?_eq_none {config : HandlerConfig C S} (h : config.fault? = none)
    {node : JoinNode} (hnode : config.OnPaths node) : node.rootNode = config.root := by
  obtain ⟨hroot, hforeign, -⟩ := of_fault?_eq_none h
  rcases List.mem_cons.mp hnode with rfl | hnode
  · exact JoinNode.rootNode_eq_self hroot
  · obtain ⟨last, hlast, hstep⟩ := List.mem_flatMap.mp hnode
    have hmem : config.OnPaths last.rootNode :=
      List.mem_cons_of_mem _ (List.mem_flatMap.mpr ⟨last, hlast, last.rootNode_mem_path⟩)
    rw [JoinNode.rootNode_eq_of_mem_path hstep]
    exact eq_of_id_of_fault?_eq_none h hmem List.mem_cons_self (hforeign last hlast)

theorem onPaths_parent {config : HandlerConfig C S} (h : config.fault? = none)
    {node parent : JoinNode} (hnode : config.OnPaths node) (hparent : node.parent? = some parent) :
    config.OnPaths parent := by
  rcases List.mem_cons.mp hnode with rfl | hnode
  · have hnone := JoinNode.parent?_eq_none.mpr (of_fault?_eq_none h).1
    rw [hnone] at hparent
    cases hparent
  · obtain ⟨last, hlast, hstep⟩ := List.mem_flatMap.mp hnode
    have hself : parent ∈ node.path := JoinNode.mem_path_of_parent? hparent parent.self_mem_path
    exact List.mem_cons_of_mem _ (List.mem_flatMap.mpr
      ⟨last, hlast, (JoinNode.path_prefix_of_mem hstep).subset hself⟩)

def tree (config : HandlerConfig C S) (h : config.fault? = none) : JoinTree where
  root := config.root
  Holds := config.OnPaths
  holds_root := List.mem_cons_self
  holds_parent := onPaths_parent h
  rootNode_eq := rootNode_eq_of_fault?_eq_none h
  eq_of_id := eq_of_id_of_fault?_eq_none h

end HandlerConfig

end CriteriaQuery
