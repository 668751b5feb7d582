import CriteriaQuery.Execution
import CriteriaQuery.Handler
import CriteriaQuery.People.Criteria
import CriteriaQuery.People.Model
import CriteriaQuery.People.Sample

/-! Searching the sample people. A search is made on a day, on which the ages are counted. -/
namespace CriteriaQuery.People
open Calendar
set_option autoImplicit false

/-! ## Configuration -/

/-- The age from which on people are adults. -/
def adultAge : Nat := 18

/-- A birthdate belongs to somebody under age, or with `false` to an adult. -/
def underageTest (today : Date) (underage : Bool) : Test :=
  let cutoff := Value.date (today.yearsBefore adultAge)
  if underage then .compare .gt cutoff else .compare .lt cutoff

/-- What each criteria field restricts. -/
def restrictions (today : Date) : List (Restriction PersonCriteria) :=
  [.of Node.person "firstName" (·.firstName) Test.contains,
    (FieldMapping.ofField Node.person "lastName" (·.lastName) Test.ofStringField).restriction,
    .of Node.business "name" (·.companyName) Test.like,
    .of Node.business "address" (·.companyAddress) Test.like,
    .of Node.owner "lastName" (·.ownerName) Test.like,
    .of Node.child "firstName" (·.childName) Test.like,
    .of Node.person "employerId" (·.employed) Test.notNull,
    .of Node.person "id" (·.hasChildren) (Test.memberOf catalog "Person" "parentId"),
    .of Node.child "birthdate" (·.underageChildren) (underageTest today)]

def sorts : List (ConfiguredSort PersonSort) :=
  [⟨.firstName, Node.person, "firstName"⟩, ⟨.lastName, Node.person, "lastName"⟩,
    ⟨.businessName, Node.business, "name"⟩, ⟨.ownerLastName, Node.owner, "lastName"⟩]

def config (today : Date) (unknownSorts : UnknownSortPolicy) :
    HandlerConfig PersonCriteria PersonSort where
  root := Node.person
  idColumn := "id"
  restrictions := restrictions today
  sorts := sorts
  unknownSorts := unknownSorts
  showSort := PersonSort.shown

def handler (today : Date) (unknownSorts : UnknownSortPolicy := .ignore) :
    Handler PersonCriteria PersonSort where
  catalog := catalog
  config := config today unknownSorts
  accepted := by rfl

/-! ## Searches -/

def count (today : Date) (query : PersonQuery) : Except Error Nat := do
  (← (handler today).countPlan query).count catalog (sampleStore today)

/-- The people that a search finds, in order. -/
def search (today : Date) (query : PersonQuery) : Except Error (List Row) := do
  (← (handler today).entityPlan query).entities catalog (sampleStore today)

/-- The identifiers of the people that a search finds, in order. -/
def searchIds (today : Date) (query : PersonQuery) : Except Error (List Int64) :=
  (search today query).map fun rows => rows.filterMap fun row => (row.get? "id").bind Value.int?

end CriteriaQuery.People
