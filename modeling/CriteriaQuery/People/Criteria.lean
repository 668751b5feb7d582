import CriteriaQuery.Criteria
import CriteriaQuery.Text.Blank

/-! What people can be searched by, and what they can be sorted by. -/
namespace CriteriaQuery.People
set_option autoImplicit false

/-! ## Criteria -/

/-- What to search people by. A field that is not set restricts nothing. -/
structure PersonCriteria where
  /-- Part of the first name. -/
  firstName : Option String := none
  lastName : Option (CriteriaField String) := none
  /-- A pattern of the employer's name. -/
  companyName : Option String := none
  /-- A pattern of the employer's address. -/
  companyAddress : Option String := none
  /-- A pattern of the last name of the employer's owner. -/
  ownerName : Option String := none
  /-- A pattern of the first name of a child. -/
  childName : Option String := none
  /-- Has a child under age, or with `false` a child of age. -/
  underageChildren : Option Bool := none
  /-- Has an employer, or with `false` none. -/
  employed : Option Bool := none
  /-- Is a parent, or with `false` is none. -/
  hasChildren : Option Bool := none
  /-- Accepted, and of no consequence. -/
  notMapped : Option String := none
deriving DecidableEq

namespace PersonCriteria

/-- All fields, `null` where they are not set. -/
def toJson (c : PersonCriteria) : Json :=
  .obj [("firstName", .ofOption .str c.firstName),
    ("lastName", .ofOption (CriteriaField.toJson .str) c.lastName),
    ("companyName", .ofOption .str c.companyName),
    ("companyAddress", .ofOption .str c.companyAddress),
    ("ownerName", .ofOption .str c.ownerName), ("childName", .ofOption .str c.childName),
    ("underageChildren", .ofOption .bool c.underageChildren),
    ("employed", .ofOption .bool c.employed), ("hasChildren", .ofOption .bool c.hasChildren),
    ("notMapped", .ofOption .str c.notMapped)]

/-- A field that may be `null` or missing. -/
def field {α : Type} (d : Decoder α) (slot : Decoder.Slot) : Option (Option α) :=
  slot.orElse d.optional none

/-- Reads criteria; every field may be missing. -/
def decoder : Decoder PersonCriteria := fun levels v => do
  match ← Decoder.record ["firstName", "lastName", "companyName", "companyAddress", "ownerName",
      "childName", "underageChildren", "employed", "hasChildren", "notMapped"] levels v with
  | [firstName, lastName, companyName, companyAddress, ownerName, childName, underageChildren,
      employed, hasChildren, notMapped] =>
    return {
      firstName := ← field Decoder.string firstName
      lastName := ← field (CriteriaField.decoder Decoder.string) lastName
      companyName := ← field Decoder.string companyName
      companyAddress := ← field Decoder.string companyAddress
      ownerName := ← field Decoder.string ownerName
      childName := ← field Decoder.string childName
      underageChildren := ← field Decoder.bool underageChildren
      employed := ← field Decoder.bool employed
      hasChildren := ← field Decoder.bool hasChildren
      notMapped := ← field Decoder.string notMapped }
  | _ => none

end PersonCriteria

/-! ## Sorts -/

/-- What to sort people by. -/
inductive PersonSort where
  | firstName
  | lastName
  | businessName
  | ownerLastName
  /-- A sort that is never configured. -/
  | noMapping
deriving DecidableEq, Repr

namespace PersonSort

def all : List PersonSort := [.firstName, .lastName, .businessName, .ownerLastName, .noMapping]

theorem mem_all (sort : PersonSort) : sort ∈ all := by cases sort <;> decide

def name : PersonSort → String
  | .firstName => "first-name"
  | .lastName => "last-name"
  | .businessName => "business-name"
  | .ownerLastName => "owner-last-name"
  | .noMapping => "no-mapping"

def jsonName : PersonSort → String
  | .firstName => "FIRST_NAME"
  | .lastName => "LAST_NAME"
  | .businessName => "BUSINESS_NAME"
  | .ownerLastName => "OWNER_LAST_NAME"
  | .noMapping => "NO_MAPPING"

def shown : PersonSort → String
  | .firstName => "FirstName"
  | .lastName => "LastName"
  | .businessName => "BusinessName"
  | .ownerLastName => "OwnerLastName"
  | .noMapping => "NoMapping"

def toJson (sort : PersonSort) : Json := .str sort.jsonName

def decoder : Decoder PersonSort := Decoder.named (all.map fun sort => (sort.jsonName, sort))

/-- A character of a sort's name in the spelling of the command line. -/
def foldChar (c : Char) : Char := if c = '_' then '-' else c.toLower

/-- The sort of a name, in capitals or not, with hyphens or underscores, blanks around it
ignored. -/
def ofName? (s : String) : Option PersonSort :=
  let folded := String.ofList ((Text.trim s.toList).map foldChar)
  all.find? (·.name = folded)

def unknownName (s : String) : String := "unknown sort '" ++ s ++ "'"

end PersonSort

abbrev PersonQuery := QueryDefinition PersonCriteria PersonSort

namespace PersonQuery

def toJson (query : PersonQuery) : Json :=
  QueryDefinition.toJson PersonCriteria.toJson PersonSort.toJson query

/-- Reads a search; its criteria have to be there. -/
def decoder : Decoder PersonQuery :=
  QueryDefinition.decoder (Decoder.Slot.required PersonCriteria.decoder) PersonSort.decoder

end PersonQuery

end CriteriaQuery.People
