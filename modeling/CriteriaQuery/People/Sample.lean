import CriteriaQuery.Store

/-! Sample data: three businesses and eight people of four families, whose ages are given on a day.
Suzy owns Acme, Wendy owns Tree Corp, and HAL has no owner on record. -/
namespace CriteriaQuery.People
open Calendar
set_option autoImplicit false

/-! ## Identifiers -/

def acme : Int64 := 1
def hal : Int64 := 2
def treeCorp : Int64 := 3

def bob : Int64 := 1
def molly : Int64 := 2
def brian : Int64 := 3
def suzy : Int64 := 4
def bill : Int64 := 5
def bert : Int64 := 6
def wendy : Int64 := 7
def ernie : Int64 := 8

/-! ## Rows -/

def businessRow (id : Int64) (name : String) (address : Option String) (owner : Option Int64) :
    Row where
  fields := [("id", .int64 id), ("name", .string name), ("address", .ofOption .string address),
    ("ownerId", .ofOption .int64 owner)]

/-- A person of an age on the day `today`. -/
def personRow (today : Date) (id : Int64) (first last : String) (age : Nat)
    (employer parent : Option Int64) : Row where
  fields := [("id", .int64 id), ("firstName", .string first), ("lastName", .string last),
    ("birthdate", .date (today.yearsBefore age)), ("employerId", .ofOption .int64 employer),
    ("parentId", .ofOption .int64 parent)]

def businesses : List Row :=
  [businessRow acme "Acme" (some "NY") (some suzy), businessRow hal "HAL" (some "CA") none,
    businessRow treeCorp "Tree Corp" none (some wendy)]

def people (today : Date) : List Row :=
  [personRow today bob "Bob" "Smith" 40 (some acme) none,
    personRow today molly "Molly" "Smith" 15 none (some bob),
    personRow today brian "Brian" "Smith" 17 none (some bob),
    personRow today suzy "Suzy" "Johnson" 62 (some acme) none,
    personRow today bill "Bill" "Johnson" 5 none (some suzy),
    personRow today bert "Bert" "Apple" 65 (some treeCorp) none,
    personRow today wendy "Wendy" "Apple" 42 (some treeCorp) (some bert),
    personRow today ernie "Ernie" "Banana" 58 (some hal) none]

/-- The sample store on the day `today`. -/
def sampleStore (today : Date) : Store :=
  (Store.withRows {} "Business" businesses).withRows "Person" (people today)

end CriteriaQuery.People
