import CriteriaQuery.Value

/-! Equality and order of values. Integers of both widths are one family, and a floating-point
number meets every number; values of different families are neither equal nor ordered. -/
namespace CriteriaQuery
set_option autoImplicit false

/-- Direction of a sort. -/
inductive Direction where
  | ascending
  | descending
deriving DecidableEq, Repr, Inhabited

/-- The order of two floating-point numbers; a number that is none has no place in it. -/
def orderFloats (x y : Float) : Option Ordering :=
  if x < y then some .lt else if x == y then some .eq else if y < x then some .gt else none

namespace Value

/-- Whether two values are equal; null equals nothing. -/
def equal (a b : Value) : Bool :=
  match a, b with
  | .bool a, .bool b => a == b
  | .string a, .string b => a == b
  | .date a, .date b => a == b
  | .float64 _, _ | _, .float64 _ =>
    match a.float?, b.float? with
    | some x, some y => x == y
    | _, _ => false
  | _, _ =>
    match a.int?, b.int? with
    | some m, some n => m == n
    | _, _ => false

/-- The order of two values, `none` where there is none. -/
def order? (a b : Value) : Option Ordering :=
  match a, b with
  | .bool a, .bool b => some (compare a b)
  | .string a, .string b => some (compare a b)
  | .date a, .date b => some (compare a b)
  | .float64 _, _ | _, .float64 _ =>
    match a.float?, b.float? with
    | some x, some y => orderFloats x y
    | _, _ => none
  | _, _ =>
    match a.int?, b.int? with
    | some m, some n => some (compare m.toInt n.toInt)
    | _, _ => none

/-- The place of two keys in ascending order: nulls first, values without an order side by side. -/
def ascending (a b : Value) : Ordering :=
  match a.isNull, b.isNull with
  | true, true => .eq
  | true, false => .lt
  | false, true => .gt
  | false, false => (a.order? b).getD .eq

def sortOrder (direction : Direction) (a b : Value) : Ordering :=
  match direction with
  | .ascending => ascending a b
  | .descending => (ascending a b).swap

end Value

end CriteriaQuery
