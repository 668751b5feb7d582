import CriteriaQuery.Catalog.Entity
import CriteriaQuery.Catalog.Relation
import CriteriaQuery.Error

/-! The catalog that queries are checked against. -/
namespace CriteriaQuery
set_option autoImplicit false

/-- Declared entities, by name, and relations, by source entity and name. -/
structure Catalog where
  entities : List Entity := []
  relations : List Relation := []

namespace Catalog

/-- Declares an entity in place of one of the same name. -/
def withEntity (catalog : Catalog) (entity : Entity) : Catalog :=
  { catalog with entities := entity :: catalog.entities.filter (·.name ≠ entity.name) }

/-- Declares a relation in place of one of the same source and name. -/
def withRelation (catalog : Catalog) (relation : Relation) : Catalog :=
  { catalog with
    relations := relation ::
      catalog.relations.filter fun r => ¬(r.source = relation.source ∧ r.name = relation.name) }

def entity? (catalog : Catalog) (name : String) : Option Entity :=
  catalog.entities.find? (·.name = name)

def relation? (catalog : Catalog) (source name : String) : Option Relation :=
  catalog.relations.find? fun r => r.source = source ∧ r.name = name

/-- The entity of that name, which has to be declared. -/
def entity (catalog : Catalog) (name : String) : Except Error Entity :=
  match catalog.entity? name with
  | some entity => .ok entity
  | none => .error (.unknownEntity name)

/-- The relation of that name on an entity, which has to be declared. -/
def relation (catalog : Catalog) (source name : String) : Except Error Relation :=
  match catalog.relation? source name with
  | some relation => .ok relation
  | none => .error (.unknownRelation source name)

/-- Fails unless an entity declares a column. -/
def checkColumn (catalog : Catalog) (entity column : String) : Except Error Unit := do
  match (← catalog.entity entity).field? column with
  | some _ => .ok ()
  | none => .error (.unknownColumn entity column)

/-! ## Look-up after a declaration -/

theorem entity?_withEntity (catalog : Catalog) (entity : Entity) (name : String) :
    (catalog.withEntity entity).entity? name =
      if entity.name = name then some entity else catalog.entity? name := by
  unfold entity? withEntity
  by_cases h : entity.name = name
  · simp [h]
  · simp only [List.find?_cons, h, decide_false, if_false, List.find?_filter]
    congr 1
    funext e
    by_cases he : e.name = name
    · simp [he, Ne.symm h]
    · simp [he]

theorem relation?_withRelation (catalog : Catalog) (r : Relation) (source name : String) :
    (catalog.withRelation r).relation? source name =
      if r.source = source ∧ r.name = name then some r else catalog.relation? source name := by
  unfold relation? withRelation
  by_cases h : r.source = source ∧ r.name = name
  · simp [h]
  · simp only [List.find?_cons, h, decide_false, if_false, List.find?_filter]
    congr 1
    funext e
    by_cases he : e.source = source ∧ e.name = name
    · obtain ⟨rfl, rfl⟩ := he
      have hr : ¬(e.source = r.source ∧ e.name = r.name) := fun hr => h ⟨hr.1.symm, hr.2.symm⟩
      rw [decide_eq_true (not_and.mpr fun h1 h2 => hr ⟨h1, h2⟩)]
      simp
    · simp [he]

end Catalog

end CriteriaQuery
