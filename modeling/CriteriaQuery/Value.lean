import CriteriaQuery.Calendar.Date
import CriteriaQuery.Json.Decoder

/-! Values that rows hold and restrictions compare against: their readings as simple types, their
text inside a plan, and their JSON form. -/
namespace CriteriaQuery
open Calendar
set_option autoImplicit false

/-- A value of a column or an operand. -/
inductive Value where
  | null
  | bool (b : Bool)
  | int32 (n : Int32)
  | int64 (n : Int64)
  | float64 (x : Float)
  | string (s : String)
  | date (d : Date)
deriving Inhabited

namespace Value

/-! ## Readings -/

def isNull : Value → Bool
  | .null => true
  | _ => false

def bool? : Value → Option Bool
  | .bool b => some b
  | _ => none

/-- An integer of either width. -/
def int? : Value → Option Int64
  | .int64 n => some n
  | .int32 n => some n.toInt64
  | _ => none

/-- The floating-point number nearest to an integer. -/
def nearestFloat (n : Int64) : Float := .ofModel (.ofInt64 n)

/-- A number of any kind. Large integers are rounded. -/
def float? : Value → Option Float
  | .float64 x => some x
  | .int32 n => some (nearestFloat n.toInt64)
  | .int64 n => some (nearestFloat n)
  | _ => none

def string? : Value → Option String
  | .string s => some s
  | _ => none

def date? : Value → Option Date
  | .date d => some d
  | _ => none

/-- An optional value, null where there is none. -/
def ofOption {α : Type} (value : α → Value) : Option α → Value
  | some a => value a
  | none => .null

/-! ## Text -/

/-- How floating-point numbers are shown: never with an exponent, and no point in whole ones. -/
def floatStyle : Decimal.Style where
  wholeFraction := []
  positional _ := true
  tie := .up

def floatText (x : Float) : String :=
  match Decimal.literal? floatStyle x with
  | some literal => literal.text
  | none => if x.isNaN then "NaN" else if x < 0 then "-inf" else "inf"

/-- A character between single quotes; a quote is written twice. -/
def quotedChar (c : Char) : List Char := if c = '\'' then ['\'', '\''] else [c]

def quotedText (s : String) : String :=
  String.ofList ('\'' :: s.toList.flatMap quotedChar ++ ['\''])

def boolText (b : Bool) : String := if b then "true" else "false"

def intText (n : Int) : String := (Decimal.Literal.ofInt n).text

def text : Value → String
  | .null => "NULL"
  | .bool b => boolText b
  | .int32 n => intText n.toInt
  | .int64 n => intText n.toInt
  | .float64 x => floatText x
  | .string s => quotedText s
  | .date d => "DATE '" ++ d.text ++ "'"

/-! ## JSON -/

/-- The JSON form: the kind of the value as the name of its only member. -/
def toJson : Value → Json
  | .null => .str "Null"
  | .bool b => .obj [("Bool", .bool b)]
  | .int32 n => .obj [("Int32", .int n.toInt)]
  | .int64 n => .obj [("Int64", .int n.toInt)]
  | .float64 x => .obj [("Float64", .float x)]
  | .string s => .obj [("String", .str s)]
  | .date d => .obj [("Date", .str d.text)]

def dateDecoder : Decoder Date := Decoder.string.refine Date.parse?

def decoder : Decoder Value := fun levels v => do
  match ← Decoder.choice levels v with
  | ("Null", payload) => if Decoder.isBare payload then some .null else none
  | ("Bool", some (levels, v)) => return .bool (← Decoder.bool levels v)
  | ("Int32", some (levels, v)) => return .int32 (← Decoder.int32 levels v)
  | ("Int64", some (levels, v)) => return .int64 (← Decoder.int64 levels v)
  | ("Float64", some (levels, v)) => return .float64 (← Decoder.floating levels v)
  | ("String", some (levels, v)) => return .string (← Decoder.string levels v)
  | ("Date", some (levels, v)) => return .date (← dateDecoder levels v)
  | _ => none

end Value

end CriteriaQuery
