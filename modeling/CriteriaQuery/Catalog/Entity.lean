import CriteriaQuery.Json.Decoder

/-! Entities of a catalog: their fields and which of them identifies a row. -/
namespace CriteriaQuery
set_option autoImplicit false

/-- The declared type of a field. Rows are not checked against it. -/
inductive ScalarType where
  | bool
  | int32
  | int64
  | float64
  | string
  | date
deriving DecidableEq, Repr

namespace ScalarType

def name : ScalarType → String
  | .bool => "Bool"
  | .int32 => "Int32"
  | .int64 => "Int64"
  | .float64 => "Float64"
  | .string => "String"
  | .date => "Date"

def decoder : Decoder ScalarType :=
  Decoder.named ([bool, int32, int64, float64, string, date].map fun t => (t.name, t))

end ScalarType

/-- A field of an entity. -/
structure Field where
  name : String
  type : ScalarType
  nullable : Bool
deriving DecidableEq, Repr

/-- An entity with its fields and the name of the one that identifies a row. -/
structure Entity where
  name : String
  identity : String
  fields : List Field
deriving DecidableEq, Repr

namespace Field

def toJson (field : Field) : Json :=
  .obj [("name", .str field.name), ("field_type", .str field.type.name),
    ("nullable", .bool field.nullable)]

def decoder : Decoder Field := fun levels v => do
  match ← Decoder.record ["name", "field_type", "nullable"] levels v with
  | [name, type, nullable] =>
    return ⟨← name.required Decoder.string, ← type.required ScalarType.decoder,
      ← nullable.required Decoder.bool⟩
  | _ => none

end Field

namespace Entity

def field? (entity : Entity) (name : String) : Option Field :=
  entity.fields.find? (·.name = name)

/-- The field that identifies a row, if it is declared. -/
def identityField? (entity : Entity) : Option Field := entity.field? entity.identity

def toJson (entity : Entity) : Json :=
  .obj [("name", .str entity.name), ("identity_field", .str entity.identity),
    ("fields", .array (entity.fields.map Field.toJson))]

def decoder : Decoder Entity := fun levels v => do
  match ← Decoder.record ["name", "identity_field", "fields"] levels v with
  | [name, identity, fields] =>
    return ⟨← name.required Decoder.string, ← identity.required Decoder.string,
      ← fields.required (Decoder.list Field.decoder)⟩
  | _ => none

end Entity

end CriteriaQuery
