import CriteriaQuery.Value

/-! Rows and the store that keeps them by entity, in the order in which they were added. -/
namespace CriteriaQuery
set_option autoImplicit false

/-- A row: its fields in order. -/
structure Row where
  fields : List (String × Value) := []

namespace Row

/-- Sets the first field of a name in place, or appends it. -/
def setField (name : String) (value : Value) : List (String × Value) → List (String × Value)
  | [] => [(name, value)]
  | (n, v) :: rest => if n = name then (n, value) :: rest else (n, v) :: setField name value rest

def set (row : Row) (name : String) (value : Value) : Row := ⟨setField name value row.fields⟩

/-- A row made by setting fields in order. -/
def ofList (fields : List (String × Value)) : Row :=
  fields.foldl (fun row (name, value) => row.set name value) {}

def get? (row : Row) (name : String) : Option Value :=
  (row.fields.find? (·.1 = name)).map (·.2)

theorem get?_set (row : Row) (name other : String) (value : Value) :
    (row.set name value).get? other = if name = other then some value else row.get? other := by
  unfold get? set
  generalize row.fields = fields
  induction fields with
  | nil => by_cases h : name = other <;> simp [setField, h]
  | cons field rest ih =>
    obtain ⟨n, v⟩ := field
    by_cases hn : n = name
    · subst hn
      by_cases h : n = other <;> simp [setField, h]
    · by_cases ho : n = other
      · subst ho
        simp [setField, hn, Ne.symm hn]
      · simpa [setField, hn, ho] using ih

/-- The JSON form keeps the order of the fields, and fields of one name apart. -/
def toJson (row : Row) : Json :=
  .obj [("fields",
    .array (row.fields.map fun (name, value) => .array [.str name, value.toJson]))]

def decoder : Decoder Row := fun levels v => do
  match ← Decoder.record ["fields"] levels v with
  | [fields] =>
    return ⟨← fields.required (Decoder.list (Decoder.pair Decoder.string Value.decoder))⟩
  | _ => none

end Row

/-- Rows by entity. -/
structure Store where
  tables : List (String × List Row) := []

namespace Store

/-- Appends rows to the table of an entity, which is made where there is none. -/
def appendTo (entity : String) (rows : List Row) :
    List (String × List Row) → List (String × List Row)
  | [] => [(entity, rows)]
  | (name, table) :: rest =>
    if name = entity then (name, table ++ rows) :: rest
    else (name, table) :: appendTo entity rows rest

def withRows (store : Store) (entity : String) (rows : List Row) : Store :=
  ⟨appendTo entity rows store.tables⟩

def insert (store : Store) (entity : String) (row : Row) : Store := store.withRows entity [row]

def rows (store : Store) (entity : String) : List Row :=
  ((store.tables.find? (·.1 = entity)).map (·.2)).getD []

def size (store : Store) (entity : String) : Nat := (store.rows entity).length

def isEmpty (store : Store) : Bool := store.tables.all (·.2.isEmpty)

theorem rows_withRows (store : Store) (entity other : String) (added : List Row) :
    (store.withRows entity added).rows other =
      if entity = other then store.rows other ++ added else store.rows other := by
  unfold rows withRows
  generalize store.tables = tables
  induction tables with
  | nil => by_cases h : entity = other <;> simp [appendTo, h]
  | cons table rest ih =>
    obtain ⟨name, table⟩ := table
    by_cases hn : name = entity
    · subst hn
      by_cases h : name = other <;> simp [appendTo, h]
    · by_cases ho : name = other
      · subst ho
        simp [appendTo, hn, Ne.symm hn]
      · simpa [appendTo, hn, ho] using ih

end Store

end CriteriaQuery
