import CriteriaQuery.Json.Basic

/-! The numbers that JSON literals stand for. An integer is written without fraction and exponent.
A floating-point number is computed in floating point: the digits that fit into 64 bits, taken as
an integer, are scaled by a power of ten. -/
namespace CriteriaQuery.Json
open CriteriaQuery.Text Decimal
set_option autoImplicit false

/-! ## Integers -/

/-- The integer that a literal stands for. Minus zero is no integer. -/
def integer? (n : Literal) : Option Int :=
  if n.fraction ≠ [] ∨ n.exponent.isSome then none
  else
    let value := digitsValue n.whole
    if n.negative then (if value = 0 then none else some (-(value : Int))) else some value

/-! ## Floating-point numbers -/

/-- Appends digits to `significand` as long as it stays below 2^64; also what is left of them. -/
def appendFitting (significand : Nat) : List Char → Nat × List Char
  | [] => (significand, [])
  | c :: rest =>
    let next := significand * 10 + digitValue c
    if next < 2 ^ 64 then appendFitting next rest else (significand, c :: rest)

/-- The number `10 ^ n`, rounded. -/
def powerOfTen (n : Nat) : Float := Float.ofScientific 1 false n

/-- Scales by a power of ten, in steps that a power of ten can be had for; `none` where the result
is too large. -/
def scaleByTen (steps : Nat) (x : Float) (exponent : Int) : Option Float :=
  if exponent.natAbs ≤ 308 then
    if 0 ≤ exponent then
      let scaled := x * powerOfTen exponent.natAbs
      if scaled.isInf then none else some scaled
    else some (x / powerOfTen exponent.natAbs)
  else if x == 0 then some x
  else if 0 ≤ exponent then none
  else
    match steps with
    | 0 => some 0
    | steps + 1 => scaleByTen steps (x / powerOfTen 308) (exponent + 308)

/-- The floating-point number that a literal stands for. Whole digits beyond those that fit only
move the point; the digits of the fraction beyond those that fit are dropped. Three steps of
scaling bring every significand to zero. -/
def floating? (n : Literal) : Option Float :=
  let (significand, moved) := appendFitting 0 n.whole
  let (significand, dropped) := appendFitting significand n.fraction
  let exponent : Int :=
    moved.length - ((n.fraction.length : Int) - dropped.length) + n.exponent.getD 0
  (scaleByTen 3 (UInt64.ofNat significand).toFloat exponent).map fun x =>
    if n.negative then -x else x

end CriteriaQuery.Json
