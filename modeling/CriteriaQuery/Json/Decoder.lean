import CriteriaQuery.Json.Number
import CriteriaQuery.Json.Reader

/-! Reading typed values out of JSON. A decoder knows how many more levels of containers it may
enter, so that what it reads is not nested too deep; what it skips may be. A record is an object
or the array of its fields in order; a choice is the name of an alternative, or an object with
that name as its only member. -/
namespace CriteriaQuery
set_option autoImplicit false

/-- Reads a value inside so many more levels of containers. -/
abbrev Decoder (α : Type) := Nat → Json → Option α

namespace Decoder
variable {α β : Type}

def levelLimit : Nat := 127

def decode? (d : Decoder α) (text : String) : Option α :=
  (Json.parse? text).bind (d levelLimit)

/-! ## Plain values -/

def string : Decoder String
  | _, .string s => s
  | _, _ => none

def bool : Decoder Bool
  | _, .bool b => some b
  | _, _ => none

def integer (low high : Int) : Decoder Int
  | _, .number n =>
    (Json.integer? n).bind fun value => if low ≤ value ∧ value ≤ high then some value else none
  | _, _ => none

def int32 : Decoder Int32 := fun levels v =>
  (integer Int32.minValue.toInt Int32.maxValue.toInt levels v).map Int32.ofInt

def int64 : Decoder Int64 := fun levels v =>
  (integer Int64.minValue.toInt Int64.maxValue.toInt levels v).map Int64.ofInt

/-- A floating-point number, which may be written as an integer. -/
def floating : Decoder Float
  | _, .number n => Json.floating? n
  | _, _ => none

/-- A value or `null`. -/
def optional (d : Decoder α) : Decoder (Option α)
  | _, .null => some none
  | levels, v => (d levels v).map some

def refine (d : Decoder α) (f : α → Option β) : Decoder β := fun levels v => (d levels v).bind f

/-! ## Lists -/

def list (d : Decoder α) : Decoder (List α)
  | levels + 1, .array items => items.mapM (d levels)
  | _, _ => none

def pair (first : Decoder α) (second : Decoder β) : Decoder (α × β)
  | levels + 1, .array [a, b] => do return (← first levels a, ← second levels b)
  | _, _ => none

/-! ## Records -/

/-- What a record says about one of its fields. -/
inductive Slot where
  | given (levels : Nat) (value : Json)
  /-- An object without a member of that name. -/
  | unnamed
  /-- An array that ends before the field. -/
  | cutOff

def Slot.required (d : Decoder α) : Slot → Option α
  | .given levels value => d levels value
  | _ => none

/-- A field that may be `null`, or missing in an object. -/
def Slot.optional (d : Decoder α) : Slot → Option (Option α)
  | .given levels value => Decoder.optional d levels value
  | .unnamed => some none
  | .cutOff => none

def Slot.orElse (d : Decoder α) (default : α) : Slot → Option α
  | .given levels value => d levels value
  | _ => some default

def membersNamed (name : String) (members : List (Json.Text × Json)) : List Json :=
  members.filterMap fun (key, value) => if key = some name then some value else none

/-- The slot of a field of an object, whose name may occur once. -/
def memberSlot (levels : Nat) (members : List (Json.Text × Json)) (name : String) : Option Slot :=
  match membersNamed name members with
  | [] => some .unnamed
  | [value] => some (.given levels value)
  | _ => none

def itemSlots (levels : Nat) : List Json → List String → Option (List Slot)
  | [], names => some (names.map fun _ => .cutOff)
  | _ :: _, [] => none
  | item :: items, _ :: names => (itemSlots levels items names).map (.given levels item :: ·)

/-- The slots of a record with fields of these names. Members of other names are skipped, but the
name of every member has to be a text. -/
def record (names : List String) : Decoder (List Slot)
  | levels + 1, .object members =>
    if members.all (·.1.isSome) then names.mapM (memberSlot levels members) else none
  | levels + 1, .array items => itemSlots levels items names
  | _, _ => none

/-! ## Choices -/

/-- The name of an alternative, with what it carries. -/
def choice : Decoder (String × Option (Nat × Json))
  | _, .string (some name) => some (name, none)
  | levels + 1, .object [(some name, payload)] => some (name, some (levels, payload))
  | _, _ => none

def isBare : Option (Nat × Json) → Bool
  | none | some (_, .null) => true
  | _ => false

def named (alternatives : List (String × α)) : Decoder α := fun levels v => do
  let (name, payload) ← choice levels v
  if isBare payload then alternatives.lookup name else none

end Decoder

end CriteriaQuery
