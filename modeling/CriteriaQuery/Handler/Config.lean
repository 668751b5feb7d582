import CriteriaQuery.Restriction

/-! The configuration of a handler, and what can be wrong with it. In a configuration without
fault, identifiers tell the nodes of the join tree apart. -/
namespace CriteriaQuery
set_option autoImplicit false

/-! ## Sorts -/

/-- A sort that can be asked for by its identifier: a column at a join node. -/
structure ConfiguredSort (S : Type) where
  identifier : S
  node : JoinNode
  column : String

def ConfiguredSort.orderKey {S : Type} (sort : ConfiguredSort S) (catalog : Catalog) (scan : Scan)
    (direction : Direction) : Except Error OrderKey := do
  return ⟨← scan.column catalog sort.column, direction⟩

/-- What becomes of a sort that is not configured. -/
inductive UnknownSortPolicy where
  | ignore
  | reject
deriving DecidableEq, Repr

/-! ## Configurations -/

/-- What queries of a root entity can be restricted and sorted by. -/
structure HandlerConfig (C S : Type) where
  root : JoinNode
  /-- The column of the root entity that tells its rows apart. -/
  idColumn : String
  restrictions : List (Restriction C)
  sorts : List (ConfiguredSort S)
  unknownSorts : UnknownSortPolicy := .ignore
  /-- How messages show the identifier of a sort. -/
  showSort : S → String

namespace HandlerConfig
variable {C S : Type}

/-- The nodes of the restrictions, then those of the sorts. -/
def nodes (config : HandlerConfig C S) : List JoinNode :=
  config.restrictions.map (·.node) ++ config.sorts.map (·.node)

/-! ## Faults -/

/-- The root has a parent. -/
def rootFault? (config : HandlerConfig C S) : Option ConfigurationFault :=
  if config.root.isRoot then none else some (.rootWithParent config.root.id)

/-- The tree of some node does not start at the root. -/
def foreignFault? (config : HandlerConfig C S) : Option ConfigurationFault :=
  (config.nodes.find? (·.rootNode.id ≠ config.root.id)).map fun node =>
    .foreignRoot node.id node.rootNode.id config.root.id

/-- The first node that differs from one before it of the same identifier, behind that one. -/
def clash? (seen : List JoinNode) : List JoinNode → Option (JoinNode × JoinNode)
  | [] => none
  | node :: rest =>
    match seen.find? (·.id = node.id) with
    | some other => if other = node then clash? seen rest else some (other, node)
    | none => clash? (seen ++ [node]) rest

/-- Two nodes on the paths of restrictions and sorts bear one identifier. -/
def nodeFault? (config : HandlerConfig C S) : Option ConfigurationFault :=
  (clash? [config.root] (config.nodes.flatMap JoinNode.path)).map fun (other, node) =>
    .repeatedNode node.id other.entity node.entity

variable [DecidableEq S]

/-- The first item that stands in the list a second time, or among those seen before. -/
def repeated? (seen : List S) : List S → Option S
  | [] => none
  | item :: rest => if item ∈ seen then some item else repeated? (item :: seen) rest

/-- Two sorts bear one identifier. -/
def sortFault? (config : HandlerConfig C S) : Option ConfigurationFault :=
  (repeated? [] (config.sorts.map (·.identifier))).map fun identifier =>
    .repeatedSort (config.showSort identifier)

def fault? (config : HandlerConfig C S) : Option ConfigurationFault :=
  config.rootFault?.or (config.foreignFault?.or (config.nodeFault?.or config.sortFault?))

/-! ## Looking up sorts -/

def sort? (config : HandlerConfig C S) (identifier : S) : Option (ConfiguredSort S) :=
  config.sorts.find? (·.identifier = identifier)

/-- The configured sorts among those asked for, with their directions. -/
def resolveSorts (config : HandlerConfig C S) :
    List (SortRequest S) → Except Error (List (ConfiguredSort S × Direction))
  | [] => .ok []
  | request :: rest =>
    match config.sort? request.identifier, config.unknownSorts with
    | some sort, _ => (config.resolveSorts rest).map ((sort, request.direction) :: ·)
    | none, .ignore => config.resolveSorts rest
    | none, .reject => .error (.unknownSort (config.showSort request.identifier))

end HandlerConfig

end CriteriaQuery
