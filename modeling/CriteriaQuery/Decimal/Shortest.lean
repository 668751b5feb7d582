import CriteriaQuery.Text.Digits

/-! Decimal digits of binary floating-point numbers. A finite number is an integer times a power of
two; the reals that round to it form an interval around it, and of the decimals in that interval
the one with the fewest digits is written, the nearest one where several have as few. All of it is
exact integer arithmetic on the bits. -/
namespace CriteriaQuery.Decimal
open Text
set_option autoImplicit false

/-! ## Binary and decimal numbers -/

/-- The positive number `mantissa * 2 ^ exponent`. -/
structure Binary where
  mantissa : Nat
  exponent : Int
  /-- Whether the next smaller number is only half as far away as the next larger one. -/
  narrowBelow : Bool

/-- The number `digits * 10 ^ exponent`. -/
structure Numeral where
  digits : Nat
  exponent : Int
deriving DecidableEq, Repr

/-- What the 64 bits of a number stand for, its sign apart. -/
inductive Magnitude where
  | zero
  | finite (value : Binary)
  | infinite
  | notANumber

def Magnitude.ofBits (bits : Nat) : Magnitude :=
  let exponent := bits / Nat.pow 2 52 % Nat.pow 2 11
  let fraction := bits % Nat.pow 2 52
  if exponent = Nat.pow 2 11 - 1 then
    if fraction = 0 then .infinite else .notANumber
  else if exponent = 0 then
    if fraction = 0 then .zero else .finite ⟨fraction, -1074, false⟩
  else .finite ⟨Nat.pow 2 52 + fraction, (exponent : Int) - 1075, fraction == 0 && exponent != 1⟩

/-! ## Selecting the digits -/

/-- A positive fraction of two integers. -/
structure Fraction where
  num : Nat
  den : Nat

def Fraction.scale (f : Fraction) (power : Int) : Fraction :=
  if power < 0 then ⟨f.num, f.den * Nat.pow 10 power.natAbs⟩
  else ⟨f.num * Nat.pow 10 power.natAbs, f.den⟩

/-- `quarters / 4` times the unit `2 ^ exponent` of a binary number. -/
def Binary.quarters (exponent : Int) (quarters : Nat) : Fraction :=
  if exponent < 0 then ⟨quarters, 4 * Nat.pow 2 exponent.natAbs⟩
  else ⟨quarters * Nat.pow 2 exponent.natAbs, 4⟩

/-- A number with the ends of the interval of reals that round to it. -/
structure Interval where
  low : Fraction
  value : Fraction
  high : Fraction
  /-- Whether the ends round to the number too, which they do when its mantissa is even. -/
  closed : Bool

/-- The interval of a binary number: half a unit to each side, a quarter below a power of two. -/
def Binary.interval (b : Binary) : Interval where
  low := Binary.quarters b.exponent (4 * b.mantissa - if b.narrowBelow then 1 else 2)
  value := Binary.quarters b.exponent (4 * b.mantissa)
  high := Binary.quarters b.exponent (4 * b.mantissa + 2)
  closed := b.mantissa % 2 = 0

/-- The interval seen on a grid: every end times a power of ten. -/
def Interval.scale (i : Interval) (power : Int) : Interval :=
  ⟨i.low.scale power, i.value.scale power, i.high.scale power, i.closed⟩

def Interval.has (i : Interval) (n : Nat) : Bool :=
  if i.closed then i.low.num ≤ n * i.low.den && n * i.high.den ≤ i.high.num
  else i.low.num < n * i.low.den && n * i.high.den < i.high.num

/-- Which of two equally near neighbours is taken. -/
inductive Tie where
  | toEven
  | up
deriving DecidableEq, Repr

/-- Of `n` and `n + 1`, the one that is taken where both are equally near. -/
def Tie.settle : Tie → Nat → Nat
  | .toEven, n => if n % 2 = 0 then n else n + 1
  | .up, n => n + 1

/-- The integer in the interval that is nearest to its value, of those next to it. -/
def Interval.nearest? (i : Interval) (tie : Tie) : Option Nat :=
  let below := i.value.num / i.value.den
  let rest := i.value.num % i.value.den
  match i.has below, i.has (below + 1) with
  | true, true =>
    some (match compare (2 * rest) i.value.den with
      | .lt => below
      | .eq => tie.settle below
      | .gt => below + 1)
  | true, false => some below
  | false, true => some (below + 1)
  | false, false => none

def digitCount (n : Nat) : Nat := (digitsOf n).length

/-- The power of ten just above a fraction: `10 ^ (k - 1) ≤ f < 10 ^ k`. -/
def Fraction.magnitude (f : Fraction) : Int :=
  let guess : Int := (digitCount f.num : Int) - digitCount f.den
  let scaled := f.scale (-guess)
  if scaled.num < scaled.den then guess else guess + 1

/-- Moves the zeros at the end of the digits into the exponent. -/
def Numeral.strip (fuel : Nat) (d : Numeral) : Numeral :=
  match fuel with
  | 0 => d
  | fuel + 1 =>
    if d.digits ≠ 0 ∧ d.digits % 10 = 0 then Numeral.strip fuel ⟨d.digits / 10, d.exponent + 1⟩
    else d

/-- Tries the grids of `count` digits, then of one more, and so on. -/
def Interval.search (i : Interval) (tie : Tie) (magnitude : Int) : (tries count : Nat) → Numeral
  | 0, _ => ⟨0, 0⟩
  | tries + 1, count =>
    match (i.scale (count - magnitude)).nearest? tie with
    | some digits => ⟨digits, magnitude - count⟩
    | none => i.search tie magnitude tries (count + 1)

/-- The shortest decimal that rounds to a binary number. Seventeen digits always suffice. -/
def Binary.shortest (b : Binary) (tie : Tie) : Numeral :=
  let i := b.interval
  Numeral.strip 20 (i.search tie i.value.magnitude 17 1)

/-! ## Bits -/

def signedMagnitude (x : Float) : Bool × Magnitude :=
  let bits := x.toBits.toNat
  (bits / Nat.pow 2 63 = 1, Magnitude.ofBits bits)

end CriteriaQuery.Decimal
