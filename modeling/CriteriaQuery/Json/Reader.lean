import CriteriaQuery.Json.Token

/-! The syntax of JSON as a machine with a stack: each token moves it one step, so that values may
nest to any depth. -/
namespace CriteriaQuery.Json
set_option autoImplicit false

/-- A container that is being read, with what it holds so far in reverse. -/
inductive Frame where
  | array (items : List Json)
  | object (entries : List (Json.Text × Json)) (key : Json.Text)

/-- What has been read, and so what may come next. The containers around it are innermost
first. -/
inductive Reading where
  /-- A value has to come. -/
  | value (around : List Frame)
  /-- An array was opened. -/
  | items (around : List Frame)
  /-- An object was opened. -/
  | members (around : List Frame)
  /-- A comma in an object was read: a name has to come. -/
  | name (entries : List (Json.Text × Json)) (around : List Frame)
  /-- A name was read: a colon has to come. -/
  | colon (entries : List (Json.Text × Json)) (key : Json.Text) (around : List Frame)
  /-- A value is complete. -/
  | complete (v : Json) (around : List Frame)

def Reading.start (around : List Frame) : Token → Option Reading
  | .null => some (.complete .null around)
  | .bool b => some (.complete (.bool b) around)
  | .number n => some (.complete (.number n) around)
  | .string s => some (.complete (.string s) around)
  | .openBracket => some (.items around)
  | .openBrace => some (.members around)
  | _ => none

def Reading.step : Reading → Token → Option Reading
  | .value around, token => Reading.start around token
  | .items around, .closeBracket => some (.complete (.array []) around)
  | .items around, token => Reading.start (.array [] :: around) token
  | .members around, .closeBrace => some (.complete (.object []) around)
  | .members around, .string s => some (.colon [] s around)
  | .name entries around, .string s => some (.colon entries s around)
  | .colon entries key around, .colon => some (.value (.object entries key :: around))
  | .complete v (.array done :: around), .comma => some (.value (.array (v :: done) :: around))
  | .complete v (.array done :: around), .closeBracket =>
    some (.complete (.array (v :: done).reverse) around)
  | .complete v (.object entries key :: around), .comma => some (.name ((key, v) :: entries) around)
  | .complete v (.object entries key :: around), .closeBrace =>
    some (.complete (.object ((key, v) :: entries).reverse) around)
  | _, _ => none

/-- The value that a row of tokens spells, with nothing after it. -/
def ofTokens? (tokens : List Token) : Option Json :=
  match tokens.foldlM Reading.step (.value []) with
  | some (.complete v []) => some v
  | _ => none

def parse? (s : String) : Option Json := (tokens? s).bind ofTokens?

end CriteriaQuery.Json
