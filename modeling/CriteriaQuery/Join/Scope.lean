import CriteriaQuery.Plan.Draft

/-! The nodes of a join tree that a draft has scans for. A node is brought in with its ancestors,
each of them at most once. -/
namespace CriteriaQuery
set_option autoImplicit false

/-- A draft with the scans of the nodes that have been joined, found by identifier. -/
structure Scope where
  draft : Draft
  root : JoinNode
  scans : List (JoinNode × Scan)

namespace Scope

/-- The scope in which only the root has a scan. -/
def start (draft : Draft) (root : JoinNode) (scan : Scan) : Scope := ⟨draft, root, [(root, scan)]⟩

def get? (scope : Scope) (node : JoinNode) : Option Scan :=
  (scope.scans.find? (·.1.id = node.id)).map (·.2)

/-- The scan of a node, which has to have been joined. -/
def scan (scope : Scope) (node : JoinNode) : Except Error Scan :=
  match scope.get? node with
  | some scan => .ok scan
  | none => .error (.configuration (.notJoined node.id))

/-- Notes the scan of a node, in place of one noted under its identifier. -/
def note (node : JoinNode) (scan : Scan) : List (JoinNode × Scan) → List (JoinNode × Scan)
  | [] => [(node, scan)]
  | (n, s) :: rest => if n.id = node.id then (n, scan) :: rest else (n, s) :: note node scan rest

theorem get?_note (node other : JoinNode) (scan : Scan) (scope : Scope) :
    ({ scope with scans := note node scan scope.scans } : Scope).get? other =
      if node.id = other.id then some scan else scope.get? other := by
  unfold get?
  generalize scope.scans = scans
  induction scans with
  | nil => by_cases h : node.id = other.id <;> simp [note, h]
  | cons entry rest ih =>
    obtain ⟨n, s⟩ := entry
    by_cases hn : n.id = node.id
    · by_cases h : node.id = other.id <;> simp [note, hn, h]
    · by_cases ho : n.id = other.id
      · have : ¬node.id = other.id := fun h => hn (ho.trans h.symm)
        rw [note, if_neg hn, if_neg this]
        simp [ho]
      · simpa [note, hn, ho] using ih

/-- Brings in a node and those of its ancestors that are not in yet. Nodes without a mode are
joined as for a restriction. A failure keeps what was joined before it. -/
def reach (catalog : Catalog) (modes : JoinModes) (node : JoinNode) (scope : Scope) :
    Except Error Scan × Scope :=
  match scope.get? node with
  | some scan => (.ok scan, scope)
  | none =>
    match node with
    | .root _ id _ => (.error (.configuration (.unreachable id scope.root.id)), scope)
    | .child _ _ entity parent relationship =>
      match reach catalog modes parent scope with
      | (.error e, scope) => (.error e, scope)
      | (.ok parentScan, scope) =>
        let mode := (modes.get? node).getD .restriction
        match scope.draft.join catalog parentScan relationship entity mode with
        | .error e => (.error e, scope)
        | .ok (draft, scan) =>
          (.ok scan, { scope with draft, scans := note node scan scope.scans })

/-- Brings in nodes in order, up to the first that fails. -/
def reachAll (catalog : Catalog) (modes : JoinModes) :
    List JoinNode → Scope → Except Error Unit × Scope
  | [], scope => (.ok (), scope)
  | node :: rest, scope =>
    match reach catalog modes node scope with
    | (.error e, scope) => (.error e, scope)
    | (.ok _, scope) => reachAll catalog modes rest scope

def withAll (catalog : Catalog) (modes : JoinModes) (nodes : List JoinNode) (scope : Scope) :
    Except Error Scope :=
  match reachAll catalog modes nodes scope with
  | (.ok (), scope) => .ok scope
  | (.error e, _) => .error e

end Scope

end CriteriaQuery
