import CriteriaQuery.Report.Table
import CriteriaQuery.Store
import CriteriaQuery.Json.Printer

/-! What a search found, as text for people or as JSON. -/
namespace CriteriaQuery.Report
set_option autoImplicit false

/-- The forms of a report. -/
inductive Format where
  | table
  | json
deriving DecidableEq, Repr

def Format.name : Format → String
  | .table => "table"
  | .json => "json"

def Format.ofName? (name : String) : Option Format :=
  [Format.table, .json].find? (·.name = name)

/-! ## Tables -/

/-- A value in a table: texts and dates as they are. -/
def cellText : Value → String
  | .string s => s
  | .date d => d.text
  | v => v.text

def table (first : Row) (rows : List Row) : Table where
  header := first.fields.map (·.1)
  rows := rows.map fun row => row.fields.map fun (_, value) => cellText value

/-! ## JSON -/

def plainJson : Value → Json
  | .null => .null
  | .bool b => .bool b
  | .int32 n => .int n.toInt
  | .int64 n => .int n.toInt
  | .float64 x => .float x
  | .string s => .str s
  | .date d => .str d.text

/-- Sets a member of an object whose names are in order. -/
def setMember (name : String) (value : Json) : List (String × Json) → List (String × Json)
  | [] => [(name, value)]
  | (n, v) :: rest =>
    if name < n then (name, value) :: (n, v) :: rest
    else if name = n then (name, value) :: rest
    else (n, v) :: setMember name value rest

/-- A row as an object with its names in order. Of fields of one name the last one counts. -/
def rowJson (row : Row) : Json :=
  .obj (row.fields.foldl (fun members (name, value) => setMember name (plainJson value) members) [])

/-! ## Reports -/

def numberText (n : Nat) : String := String.ofList (Text.digitsOf n)

def ofRows (format : Format) (rows : List Row) : String :=
  match format with
  | .json => (Json.array (rows.map rowJson)).indented
  | .table =>
    match rows with
    | [] => "No results"
    | first :: _ => (table first rows).text ++ "\n" ++ numberText rows.length ++ " row(s)"

def ofCount (format : Format) (n : Nat) : String :=
  match format with
  | .json => (Json.obj [("count", .int n)]).compact
  | .table => numberText n ++ " match(es)"

def ofPlan (format : Format) (plan : String) : String :=
  match format with
  | .json => (Json.obj [("plan", .str plan)]).compact
  | .table => plan

end CriteriaQuery.Report
