import CriteriaQuery.Join.Node

/-! How joins are to be made. Every restriction and every sort asks something of the joins on its
path; what several of them ask is merged. -/
namespace CriteriaQuery
set_option autoImplicit false

/-- How a join is made: an inner join drops rows without a related row, a fetching join loads the
related row along. -/
structure JoinMode where
  inner : Bool
  fetch : Bool
deriving DecidableEq, Repr

namespace JoinMode

def restriction : JoinMode := ⟨true, false⟩

def sort : JoinMode := ⟨false, true⟩

/-- What is asked for before anyone has asked. -/
def identity : JoinMode := ⟨true, false⟩

/-- Inner only if both ask for it, fetching if one does. -/
def merge (a b : JoinMode) : JoinMode := ⟨a.inner && b.inner, a.fetch || b.fetch⟩

@[simp] theorem merge_identity (a : JoinMode) : a.merge identity = a := by
  simp [merge, identity]

@[simp] theorem identity_merge (a : JoinMode) : identity.merge a = a := by
  simp [merge, identity]

@[simp] theorem merge_self (a : JoinMode) : a.merge a = a := by simp [merge]

theorem merge_comm (a b : JoinMode) : a.merge b = b.merge a := by
  simp [merge, Bool.and_comm, Bool.or_comm]

theorem merge_assoc (a b c : JoinMode) : (a.merge b).merge c = a.merge (b.merge c) := by
  simp [merge, Bool.and_assoc, Bool.or_assoc]

end JoinMode

/-- The modes of the nodes of a tree, found by identifier. -/
abbrev JoinModes := List (JoinNode × JoinMode)

namespace JoinModes

/-- The mode of a node, if anything was asked of it. -/
def get? (modes : JoinModes) (node : JoinNode) : Option JoinMode :=
  (modes.find? (·.1.id = node.id)).map (·.2)

def require (mode : JoinMode) (node : JoinNode) : JoinModes → JoinModes
  | [] => [(node, JoinMode.identity.merge mode)]
  | (n, m) :: rest =>
    if n.id = node.id then (n, m.merge mode) :: rest else (n, m) :: require mode node rest

def requirePath (mode : JoinMode) (modes : JoinModes) (node : JoinNode) : JoinModes :=
  node.path.foldl (fun modes step => require mode step modes) modes

/-- The modes that follow from the nodes of restrictions and of sorts. -/
def resolve (restrictions sorts : List JoinNode) : JoinModes :=
  sorts.foldl (requirePath .sort) (restrictions.foldl (requirePath .restriction) [])

theorem get?_require (mode : JoinMode) (node other : JoinNode) (modes : JoinModes) :
    (require mode node modes).get? other =
      if node.id = other.id then some ((modes.get? node).getD .identity |>.merge mode)
      else modes.get? other := by
  induction modes with
  | nil => by_cases h : node.id = other.id <;> simp [require, get?, h]
  | cons entry rest ih =>
    obtain ⟨n, m⟩ := entry
    by_cases hn : n.id = node.id
    · by_cases h : node.id = other.id <;> simp [require, get?, hn, h]
    · by_cases ho : n.id = other.id
      · have : ¬node.id = other.id := fun h => hn (ho.trans h.symm)
        rw [require, if_neg hn, if_neg this]
        simp [get?, ho]
      · simpa [require, get?, hn, ho] using ih

end JoinModes

end CriteriaQuery
