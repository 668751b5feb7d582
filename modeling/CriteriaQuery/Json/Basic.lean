import CriteriaQuery.Decimal.Literal

/-! JSON values as they are written: numbers keep their digits, objects keep the order and the
repetitions of their members. -/
namespace CriteriaQuery
open Decimal
set_option autoImplicit false

/-- The text of a string literal, `none` where an escape names half of a surrogate pair: such a
literal is no text, but it may stand where nobody reads it. -/
abbrev Json.Text := Option String

/-- A JSON value. -/
inductive Json where
  | null
  | bool (b : Bool)
  | number (n : Literal)
  | string (s : Json.Text)
  | array (items : List Json)
  | object (members : List (Json.Text × Json))

namespace Json

def str (s : String) : Json := .string (some s)

def int (n : Int) : Json := .number (.ofInt n)

def obj (members : List (String × Json)) : Json :=
  .object (members.map fun (name, value) => (some name, value))

/-- An optional value, `null` where there is none. -/
def ofOption {α : Type} (encode : α → Json) : Option α → Json
  | some a => encode a
  | none => .null

/-- How floating-point numbers are written: a point and a zero after whole numbers, an exponent
from seventeen digits before the point on and from five zeros behind it on. -/
def floatStyle : Style where
  wholeFraction := ['0']
  positional magnitude := -5 < magnitude && magnitude ≤ 16
  tie := .toEven

/-- A floating-point value; JSON has `null` for what is no finite number. -/
def float (x : Float) : Json :=
  ofOption .number (literal? floatStyle x)

end Json

end CriteriaQuery
