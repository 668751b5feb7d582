import CriteriaQuery.Catalog
import CriteriaQuery.Join.Node

/-! People and the businesses that they work for: the catalog, and the join tree that searches for
people use. -/
namespace CriteriaQuery.People
set_option autoImplicit false

/-! ## Catalog -/

/-- A person works for at most one business. -/
def employer : Relation := ⟨"employer", "Person", "Business", .manyToOne, "employerId", "id"⟩

/-- A person has at most one parent on record. -/
def parent : Relation := ⟨"parent", "Person", "Person", .manyToOne, "parentId", "id"⟩

/-- A business has at most one owner. -/
def owner : Relation := ⟨"owner", "Business", "Person", .manyToOne, "ownerId", "id"⟩

def personEntity : Entity where
  name := "Person"
  identity := "id"
  fields := [⟨"id", .int64, false⟩, ⟨"firstName", .string, false⟩, ⟨"lastName", .string, false⟩,
    ⟨"birthdate", .date, true⟩, ⟨"employerId", .int64, true⟩, ⟨"parentId", .int64, true⟩]

def businessEntity : Entity where
  name := "Business"
  identity := "id"
  fields := [⟨"id", .int64, false⟩, ⟨"name", .string, false⟩, ⟨"address", .string, true⟩,
    ⟨"ownerId", .int64, true⟩]

/-- People and businesses. Employment and parenthood can be followed both ways. -/
def catalog : Catalog :=
  let entities := (Catalog.withEntity {} personEntity).withEntity businessEntity
  [employer.inverse "employees", employer, parent.inverse "children", parent, owner].foldl
    Catalog.withRelation entities

/-! ## Join tree -/

namespace Node

def person : JoinNode := .root 0 "person" "Person"

def business : JoinNode := .child 1 "business" "Business" person ⟨"employer", .single⟩

/-- The owner of that business. -/
def owner : JoinNode := .child 2 "owner" "Person" business ⟨"owner", .single⟩

/-- Each child of a person. -/
def child : JoinNode := .child 3 "child" "Person" person ⟨"children", .set⟩

end Node

end CriteriaQuery.People
