import CriteriaQuery.Json.Decoder

/-! Relations between entities: which field of the source equals which field of the target, and
whether a source row may reach several target rows. -/
namespace CriteriaQuery
set_option autoImplicit false

/-- How many target rows a source row may reach. -/
inductive Cardinality where
  | manyToOne
  | oneToMany
deriving DecidableEq, Repr

namespace Cardinality

def isToMany : Cardinality → Bool
  | .oneToMany => true
  | .manyToOne => false

def flip : Cardinality → Cardinality
  | .manyToOne => .oneToMany
  | .oneToMany => .manyToOne

@[simp] theorem flip_flip (c : Cardinality) : c.flip.flip = c := by cases c <;> rfl

def name : Cardinality → String
  | .manyToOne => "ManyToOne"
  | .oneToMany => "OneToMany"

def decoder : Decoder Cardinality :=
  Decoder.named [("ManyToOne", .manyToOne), ("OneToMany", .oneToMany)]

end Cardinality

/-- A link from a source entity to a target entity: rows are related when the source's key equals
the target's. -/
structure Relation where
  name : String
  source : String
  target : String
  cardinality : Cardinality
  sourceField : String
  targetField : String
deriving DecidableEq, Repr

namespace Relation

/-- The same link from the other side, under a name of its own. -/
def inverse (r : Relation) (name : String) : Relation where
  name := name
  source := r.target
  target := r.source
  cardinality := r.cardinality.flip
  sourceField := r.targetField
  targetField := r.sourceField

@[simp] theorem inverse_inverse (r : Relation) (name : String) :
    (r.inverse name).inverse r.name = r := by
  simp [inverse]

def toJson (r : Relation) : Json :=
  .obj [("name", .str r.name), ("from_entity", .str r.source), ("to_entity", .str r.target),
    ("cardinality", .str r.cardinality.name), ("from_field", .str r.sourceField),
    ("to_field", .str r.targetField)]

def decoder : Decoder Relation := fun levels v => do
  match ← Decoder.record
      ["name", "from_entity", "to_entity", "cardinality", "from_field", "to_field"] levels v with
  | [name, source, target, cardinality, sourceField, targetField] =>
    return ⟨← name.required Decoder.string, ← source.required Decoder.string,
      ← target.required Decoder.string, ← cardinality.required Cardinality.decoder,
      ← sourceField.required Decoder.string, ← targetField.required Decoder.string⟩
  | _ => none

end Relation

end CriteriaQuery
