import CriteriaQuery.Decimal.Shortest

/-! Numbers as they are written: sign, whole part, fraction and exponent. One record holds the
decisions of a text form, and any finite number can be laid out in it. -/
namespace CriteriaQuery.Decimal
open Text
set_option autoImplicit false

/-- A written number. The parts are rows of decimal digits; an empty fraction is not written. -/
structure Literal where
  negative : Bool
  whole : List Char
  fraction : List Char
  exponent : Option Int
deriving DecidableEq

def Literal.ofInt (n : Int) : Literal :=
  ⟨decide (n < 0), digitsOf n.natAbs, [], none⟩

/-- Minus sign, whole part, point and fraction, exponent, each where there is one. An exponent has a
sign in any case. -/
def Literal.chars (l : Literal) : List Char :=
  (if l.negative then ['-'] else []) ++ l.whole ++
    (if l.fraction = [] then [] else '.' :: l.fraction) ++
    match l.exponent with
    | none => []
    | some e => 'e' :: (if e < 0 then '-' else '+') :: digitsOf e.natAbs

def Literal.text (l : Literal) : String := String.ofList l.chars

/-! ## Laying out floating-point numbers -/

/-- The decisions of a text form for floating-point numbers. -/
structure Style where
  /-- What follows the point of a whole number. -/
  wholeFraction : List Char
  /-- Which magnitudes are written without an exponent. -/
  positional : Int → Bool
  /-- Which digits are written where two rows of them are equally short and equally near. -/
  tie : Tie

/-- Writes the digits without an exponent, with zeros where the point lies outside them. -/
def Numeral.positional (style : Style) (negative : Bool) (n : Numeral) : Literal :=
  let digits := digitsOf n.digits
  let point := (digits.length : Int) + n.exponent
  if 0 ≤ n.exponent then
    ⟨negative, digits ++ List.replicate n.exponent.toNat '0', style.wholeFraction, none⟩
  else if 0 < point then ⟨negative, digits.take point.toNat, digits.drop point.toNat, none⟩
  else ⟨negative, ['0'], List.replicate point.natAbs '0' ++ digits, none⟩

/-- Writes one digit before the point and the others behind it, with an exponent. -/
def Numeral.scientific (negative : Bool) (n : Numeral) : Literal :=
  let digits := digitsOf n.digits
  ⟨negative, digits.take 1, digits.drop 1, some ((digits.length : Int) + n.exponent - 1)⟩

def Numeral.literal (style : Style) (negative : Bool) (n : Numeral) : Literal :=
  if style.positional ((digitCount n.digits : Int) + n.exponent) then n.positional style negative
  else n.scientific negative

/-- Writes a finite number, a zero with its sign; `none` for the others. -/
def literal? (style : Style) (x : Float) : Option Literal :=
  match signedMagnitude x with
  | (negative, .zero) => some ⟨negative, ['0'], style.wholeFraction, none⟩
  | (negative, .finite b) => some ((b.shortest style.tie).literal style negative)
  | (_, .infinite) | (_, .notANumber) => none

end CriteriaQuery.Decimal
