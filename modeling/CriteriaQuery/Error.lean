import CriteriaQuery.Criteria

/-! What can go wrong when queries are configured, compiled and executed, and the message of each
failure. -/
namespace CriteriaQuery
set_option autoImplicit false

/-- The kind of operand that an operator was given to. -/
inductive OperandFamily where
  | equality
  | comparable
  | string
  | boolean
deriving DecidableEq, Repr

def OperandFamily.name : OperandFamily → String
  | .equality => "equality"
  | .comparable => "comparable"
  | .string => "string"
  | .boolean => "boolean"

/-- Faults of a handler's configuration and of the joins that it asks for. -/
inductive ConfigurationFault where
  | rootWithParent (node : String)
  | foreignRoot (node root expected : String)
  | repeatedNode (node entity otherEntity : String)
  | repeatedSort (shown : String)
  | wrongTarget (entity relation reached expected : String)
  | unreachable (node root : String)
  | notJoined (node : String)
  | missingOperand (op : Operator)
deriving DecidableEq, Repr

def ConfigurationFault.message : ConfigurationFault → String
  | .rootWithParent node => "handler root " ++ node ++ " has a parent"
  | .foreignRoot node root expected =>
    "join node " ++ node ++ " is rooted at " ++ root ++ ", not " ++ expected
  | .repeatedNode node entity otherEntity =>
    "duplicate join node id " ++ node ++ " (" ++ entity ++ " and " ++ otherEntity ++ ")"
  | .repeatedSort shown => "duplicate sort identifier " ++ shown
  | .wrongTarget entity relation reached expected =>
    "relation " ++ entity ++ "." ++ relation ++ " reaches " ++ reached ++ ", not " ++ expected
  | .unreachable node root => "join node " ++ node ++ " is not reachable from root " ++ root
  | .notJoined node => "join node " ++ node ++ " was not materialized"
  | .missingOperand op => "criteria field " ++ op.name ++ " has no value"

/-- Faults of a plan that is being executed. -/
inductive ExecutionFault where
  | unknownAlias (aliasName : String)
  | countOutsideSelection
  | selectsNoCount
  | selectsNoEntities
  | selectsNoValues
  /-- The sort found the order of its keys contradicting itself. This is no error that a caller is
  told of: the program stops. -/
  | contradictoryOrder
  /-- A failure of what supplies the members of a subquery. -/
  | unavailable (reason : String)
deriving DecidableEq, Repr

def ExecutionFault.message : ExecutionFault → String
  | .unknownAlias aliasName => "unknown alias " ++ aliasName
  | .countOutsideSelection => "COUNT is only valid as a selection"
  | .selectsNoCount => "plan does not select a count"
  | .selectsNoEntities => "plan does not select entities"
  | .selectsNoValues => "plan does not select values"
  | .contradictoryOrder =>
    "user-provided comparison function does not correctly implement a total order"
  | .unavailable reason => reason

/-- A failure while a query is configured, compiled or executed. -/
inductive Error where
  | unsupportedOperator (op : Operator) (family : OperandFamily)
  | unknownEntity (entity : String)
  | unknownRelation (entity relation : String)
  | unknownColumn (entity column : String)
  | cardinalityMismatch (entity relation : String)
  | unknownSort (shown : String)
  | configuration (fault : ConfigurationFault)
  | execution (fault : ExecutionFault)
deriving DecidableEq, Repr

def Error.message : Error → String
  | .unsupportedOperator op family =>
    "unsupported operator " ++ op.name ++ " for " ++ family.name ++ " operand"
  | .unknownEntity entity => "unknown entity: " ++ entity
  | .unknownRelation entity relation => "unknown relation " ++ relation ++ " on entity " ++ entity
  | .unknownColumn entity column => "unknown column " ++ column ++ " on entity " ++ entity
  | .cardinalityMismatch entity relation =>
    "relation " ++ relation ++ " on entity " ++ entity ++ " does not match its declared cardinality"
  | .unknownSort shown => "unknown sort: " ++ shown
  | .configuration fault => "configuration error: " ++ fault.message
  | .execution fault => "execution error: " ++ fault.message

end CriteriaQuery
