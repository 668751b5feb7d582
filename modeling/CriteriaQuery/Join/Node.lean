import CriteriaQuery.Text.Quoted

/-! The tree of joins that restrictions and sorts hang on. A node is named by its identifier; two
nodes may bear one identifier without being the same node. -/
namespace CriteriaQuery
set_option autoImplicit false

/-- What a relation of an entity holds: one related row, or many. -/
inductive Shape where
  | single
  | collection
  | list
  | set
deriving DecidableEq, Repr

/-- The way from a parent entity to a related one. -/
structure Relationship where
  relation : String
  shape : Shape
deriving DecidableEq, Repr

/-- Whether one parent row may reach several rows. -/
def Relationship.isToMany (r : Relationship) : Bool := r.shape ≠ .single

/-- A node of a join tree. Nodes that are declared separately bear different marks, so that they
differ even where all the rest is equal. -/
inductive JoinNode where
  | root (mark : Nat) (id entity : String)
  | child (mark : Nat) (id entity : String) (parent : JoinNode) (relationship : Relationship)
deriving DecidableEq, Repr

namespace JoinNode

def id : JoinNode → String
  | .root _ id _ | .child _ id _ _ _ => id

def entity : JoinNode → String
  | .root _ _ entity | .child _ _ entity _ _ => entity

def parent? : JoinNode → Option JoinNode
  | .root _ _ _ => none
  | .child _ _ _ parent _ => some parent

def relationship? : JoinNode → Option Relationship
  | .root _ _ _ => none
  | .child _ _ _ _ relationship => some relationship

def isRoot : JoinNode → Bool
  | .root _ _ _ => true
  | .child _ _ _ _ _ => false

def rootNode : JoinNode → JoinNode
  | node@(.root _ _ _) => node
  | .child _ _ _ parent _ => parent.rootNode

def path : JoinNode → List JoinNode
  | node@(.root _ _ _) => [node]
  | node@(.child _ _ _ parent _) => parent.path ++ [node]

/-- Whether a way to many rows lies between the root and a node. -/
def crossesToMany : JoinNode → Bool
  | .root _ _ _ => false
  | .child _ _ _ parent relationship => relationship.isToMany || parent.crossesToMany

def shown (node : JoinNode) : String := "JoinNode(" ++ Text.quoted node.id ++ ")"

/-! ## Paths -/

theorem self_mem_path (node : JoinNode) : node ∈ node.path := by
  cases node <;> simp [path]

theorem rootNode_mem_path (node : JoinNode) : node.rootNode ∈ node.path := by
  induction node with
  | root => simp [rootNode, path]
  | child _ _ _ _ _ ih => simp [rootNode, path, ih]

theorem isRoot_rootNode (node : JoinNode) : node.rootNode.isRoot = true := by
  induction node with
  | root => rfl
  | child _ _ _ _ _ ih => exact ih

theorem path_prefix_of_mem {node step : JoinNode} (h : step ∈ node.path) :
    step.path <+: node.path := by
  induction node with
  | root => simp only [path, List.mem_singleton] at h; subst h; exact List.prefix_refl _
  | child mark id entity parent relationship ih =>
    rw [path, List.mem_append, List.mem_singleton] at h
    rcases h with h | rfl
    · exact (ih h).trans (List.prefix_append _ _)
    · exact List.prefix_refl _

end JoinNode

end CriteriaQuery
