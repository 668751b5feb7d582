import CriteriaQuery.Text.Blank
import CriteriaQuery.Text.Digits

/-! Days of the Gregorian calendar, extended to all years, with their order, their text and the
step back by whole months. -/
namespace CriteriaQuery.Calendar
open Text
set_option autoImplicit false

/-! ## Days -/

/-- Every fourth year is a leap year, but of the centuries only every fourth. -/
def isLeapYear (year : Int) : Bool :=
  year % 4 == 0 && (year % 100 != 0 || year % 400 == 0)

def daysInMonth (year : Int) (month : Nat) : Nat :=
  if month = 2 then (if isLeapYear year then 29 else 28)
  else if month = 4 ∨ month = 6 ∨ month = 9 ∨ month = 11 then 30
  else 31

/-- The years that dates are kept for. -/
def firstYear : Int := -262143
def lastYear : Int := 262142

/-- Whether year, month and day name a day that is kept. -/
def IsDay (year : Int) (month day : Nat) : Prop :=
  (firstYear ≤ year ∧ year ≤ lastYear) ∧ (1 ≤ month ∧ month ≤ 12) ∧
    (1 ≤ day ∧ day ≤ daysInMonth year month)

instance (year : Int) (month day : Nat) : Decidable (IsDay year month day) := by
  unfold IsDay; infer_instance

/-- A calendar day without a time zone. -/
structure Date where
  year : Int
  month : Nat
  day : Nat
  isDay : IsDay year month day
deriving DecidableEq

/-- The day of that name, if there is one. -/
def Date.ofYmd? (year : Int) (month day : Nat) : Option Date :=
  if h : IsDay year month day then some ⟨year, month, day, h⟩ else none

def Date.first : Date := ⟨firstYear, 1, 1, by decide⟩

def Date.compare (a b : Date) : Ordering :=
  (Ord.compare a.year b.year).then ((Ord.compare a.month b.month).then (Ord.compare a.day b.day))

instance : Ord Date := ⟨Date.compare⟩

/-- The day of the same number `months` months earlier, or the last day of that month if it is
shorter; `none` before the earliest day. -/
def Date.monthsBefore? (date : Date) (months : Nat) : Option Date :=
  let count := date.year * 12 + (date.month - 1 : Int) - months
  let year := count / 12
  let month := (count % 12).toNat + 1
  Date.ofYmd? year month (min date.day (daysInMonth year month))

/-- The day `years` years earlier, or the earliest day if that lies before it. -/
def Date.yearsBefore (date : Date) (years : Nat) : Date :=
  (date.monthsBefore? (12 * years)).getD Date.first

/-! ## Text -/

/-- Year, month and day, joined by hyphens. A year outside 0 to 9999 carries its sign. -/
def Date.text (date : Date) : String :=
  let sign := if 0 ≤ date.year ∧ date.year ≤ 9999 then "" else if date.year < 0 then "-" else "+"
  sign ++ String.ofList (paddedDigits 4 date.year.natAbs ++ '-' :: paddedDigits 2 date.month ++
    '-' :: paddedDigits 2 date.day)

/-- Takes the decimal digits at the front, at most `limit` of them and at least one. -/
def takeNumber (limit : Nat) (cs : List Char) : Option (Nat × List Char) :=
  match (cs.take limit).takeWhile Char.isDigit with
  | [] => none
  | digits => some (digitsValue digits, cs.drop digits.length)

/-- Takes a year: any number of digits after a sign, at most four without one. -/
def takeYear (cs : List Char) : Option (Int × List Char) :=
  match cs with
  | '-' :: rest => (takeNumber rest.length rest).map fun (n, rest) => (-(n : Int), rest)
  | '+' :: rest => (takeNumber rest.length rest).map fun (n, rest) => ((n : Int), rest)
  | cs => (takeNumber 4 cs).map fun (n, rest) => ((n : Int), rest)

/-- Takes a hyphen, with blanks around it. -/
def takeHyphen (cs : List Char) : Option (List Char) :=
  match trimFront cs with
  | '-' :: rest => some (trimFront rest)
  | _ => none

/-- Reads a date. Blanks are allowed around each part. -/
def Date.parse? (s : String) : Option Date := do
  let (year, rest) ← takeYear (trimFront s.toList)
  let (month, rest) ← takeNumber 2 (← takeHyphen rest)
  let (day, rest) ← takeNumber 2 (← takeHyphen rest)
  if trimFront rest = [] then Date.ofYmd? year month day else none

end CriteriaQuery.Calendar
