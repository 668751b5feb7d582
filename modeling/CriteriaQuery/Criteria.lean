import CriteriaQuery.Value.Order

/-! What a caller asks for: fields with an operator and an operand, sorts by identifier, and the
two together as the definition of a query. -/
namespace CriteriaQuery
set_option autoImplicit false

/-! ## Operators -/

/-- The operations that a criteria field can name. -/
inductive Operator where
  | eq
  | ne
  | gt
  | lt
  | gte
  | lte
  | null
  | notNull
  | like
  | startsWith
  | contains
  | startsWithCi
  | containsCi
deriving DecidableEq, Repr, Inhabited

namespace Operator

def all : List Operator :=
  [.eq, .ne, .gt, .lt, .gte, .lte, .null, .notNull, .like, .startsWith, .contains, .startsWithCi,
    .containsCi]

def name : Operator → String
  | .eq => "EQ"
  | .ne => "NE"
  | .gt => "GT"
  | .lt => "LT"
  | .gte => "GTE"
  | .lte => "LTE"
  | .null => "NULL"
  | .notNull => "NOT_NULL"
  | .like => "LIKE"
  | .startsWith => "STARTS_WITH"
  | .contains => "CONTAINS"
  | .startsWithCi => "STARTS_WITH_CI"
  | .containsCi => "CONTAINS_CI"

theorem mem_all (op : Operator) : op ∈ all := by cases op <;> decide

def toJson (op : Operator) : Json := .str op.name

def decoder : Decoder Operator := Decoder.named (all.map fun op => (op.name, op))

end Operator

/-! ## Fields -/

/-- An operator with its operand. A field without an operand restricts nothing. -/
structure CriteriaField (V : Type) where
  op : Operator
  value : Option V
deriving DecidableEq

namespace CriteriaField
variable {V : Type}

def hasValue (field : CriteriaField V) : Bool := field.value.isSome

def eq (v : V) : CriteriaField V := ⟨.eq, some v⟩

def ne (v : V) : CriteriaField V := ⟨.ne, some v⟩

def toJson (encode : V → Json) (field : CriteriaField V) : Json :=
  .obj [("op", field.op.toJson), ("value", .ofOption encode field.value)]

def decoder (d : Decoder V) : Decoder (CriteriaField V) := fun levels v => do
  match ← Decoder.record ["op", "value"] levels v with
  | [op, value] => return ⟨← op.required Operator.decoder, ← value.optional d⟩
  | _ => none

end CriteriaField

/-! ## Sorts -/

namespace Direction

def name : Direction → String
  | .ascending => "asc"
  | .descending => "desc"

def toJson (d : Direction) : Json := .str d.name

def decoder : Decoder Direction := Decoder.named [("asc", .ascending), ("desc", .descending)]

end Direction

/-- A sort asked for by identifier. -/
structure SortRequest (S : Type) where
  identifier : S
  direction : Direction := .ascending
deriving DecidableEq

namespace SortRequest
variable {S : Type}

def toJson (encode : S → Json) (sort : SortRequest S) : Json :=
  .obj [("identifier", encode sort.identifier), ("direction", sort.direction.toJson)]

/-- A sort without a direction ascends. -/
def decoder (d : Decoder S) : Decoder (SortRequest S) := fun levels v => do
  match ← Decoder.record ["identifier", "direction"] levels v with
  | [identifier, direction] =>
    return ⟨← identifier.required d, ← direction.orElse Direction.decoder .ascending⟩
  | _ => none

end SortRequest

/-! ## Definitions -/

/-- A criteria record with the sorts asked for, the primary one first. -/
structure QueryDefinition (C S : Type) where
  criteria : C
  sorts : List (SortRequest S) := []
deriving DecidableEq

namespace QueryDefinition
variable {C S : Type}

def withSort (definition : QueryDefinition C S) (sort : SortRequest S) : QueryDefinition C S :=
  { definition with sorts := definition.sorts ++ [sort] }

def withSorts (definition : QueryDefinition C S) (identifiers : List S) : QueryDefinition C S :=
  { definition with sorts := definition.sorts ++ identifiers.map fun s => ⟨s, .ascending⟩ }

def toJson (criteria : C → Json) (identifier : S → Json) (definition : QueryDefinition C S) :
    Json :=
  .obj [("criteria", criteria definition.criteria),
    ("sorts", .array (definition.sorts.map (SortRequest.toJson identifier)))]

/-- Reads a definition; how the criteria may be missing is up to `criteria`. -/
def decoder (criteria : Decoder.Slot → Option C) (identifier : Decoder S) :
    Decoder (QueryDefinition C S) := fun levels v => do
  match ← Decoder.record ["criteria", "sorts"] levels v with
  | [c, sorts] =>
    return ⟨← criteria c, ← sorts.orElse (Decoder.list (SortRequest.decoder identifier)) []⟩
  | _ => none

end QueryDefinition

end CriteriaQuery
