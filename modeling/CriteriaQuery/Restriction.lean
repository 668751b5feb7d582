import CriteriaQuery.Restriction.Test

/-! Restrictions: fields of a criteria record, bound to a column at a join node and to the test
that a present value makes. -/
namespace CriteriaQuery
set_option autoImplicit false

/-- A field of a criteria record `C`, read as a `V`, with the column that it restricts. -/
structure FieldMapping (C V : Type) where
  node : JoinNode
  column : String
  read : C → Option V
  test : V → Test
  /-- The field is read only where this holds. -/
  present : C → Bool := fun _ => true

/-- A restriction of a criteria record, whatever it reads. -/
structure Restriction (C : Type) where
  node : JoinNode
  column : String
  /-- The test that a record makes, `none` where the field is absent. -/
  test? : C → Option Test

namespace FieldMapping
variable {C V : Type}

def value? (mapping : FieldMapping C V) (criteria : C) : Option V :=
  if mapping.present criteria then mapping.read criteria else none

/-- Reads a field with an operator; it is absent where it has no operand. -/
def ofField (node : JoinNode) (column : String) (read : C → Option (CriteriaField V))
    (test : CriteriaField V → Test) : FieldMapping C (CriteriaField V) where
  node := node
  column := column
  read criteria := (read criteria).filter CriteriaField.hasValue
  test := test

/-- Forgets what is read. -/
def restriction (mapping : FieldMapping C V) : Restriction C where
  node := mapping.node
  column := mapping.column
  test? criteria := (mapping.value? criteria).map mapping.test

end FieldMapping

/-- Restricts a column by what a field's value asks of it. -/
def Restriction.of {C V : Type} (node : JoinNode) (column : String) (read : C → Option V)
    (test : V → Test) : Restriction C :=
  FieldMapping.restriction { node, column, read, test }

/-! ## Present restrictions -/

/-- A restriction whose field is present. -/
structure Applied where
  node : JoinNode
  column : String
  test : Test

namespace Applied

/-- The predicate of a present restriction on the scan of its node. -/
def build (catalog : Catalog) (scan : Scan) (applied : Applied) (draft : Draft) :
    Except Error (Draft × Predicate SelectPlan) := do
  applied.test.build draft (← scan.column catalog applied.column)

end Applied

/-- The present restriction that a record makes of a restriction. -/
def Restriction.present? {C : Type} (restriction : Restriction C) (criteria : C) : Option Applied :=
  (restriction.test? criteria).map fun test => ⟨restriction.node, restriction.column, test⟩

/-- Present restrictions on one node. -/
structure RestrictionGroup where
  node : JoinNode
  members : List Applied

namespace RestrictionGroup

/-- Adds a restriction to the group of its node, or as a new group behind the others. -/
def insert (applied : Applied) : List RestrictionGroup → List RestrictionGroup
  | [] => [⟨applied.node, [applied]⟩]
  | group :: rest =>
    if group.node.id = applied.node.id then
      { group with members := group.members ++ [applied] } :: rest
    else group :: insert applied rest

/-- Groups restrictions by node, in the order in which the nodes first occur. -/
def ofList (applied : List Applied) : List RestrictionGroup :=
  applied.foldl (fun groups a => insert a groups) []

end RestrictionGroup

end CriteriaQuery
