import CriteriaQuery.Json.Basic

/-! The lexical half of JSON: tokens, their text, and the reading of a text into tokens. -/
namespace CriteriaQuery.Json
open CriteriaQuery.Text Decimal
set_option autoImplicit false

/-- A JSON token. -/
inductive Token where
  | openBrace
  | closeBrace
  | openBracket
  | closeBracket
  | comma
  | colon
  | null
  | bool (b : Bool)
  | number (n : Literal)
  | string (s : Json.Text)

/-! ## Text of tokens -/

def hexDigit (n : Nat) : Char := Nat.digitChar n

/-- A character as it stands in a string literal: quotes, backslashes and control characters are
escaped, everything else stands for itself. -/
def escapedChar (c : Char) : List Char :=
  if c = '"' then ['\\', '"']
  else if c = '\\' then ['\\', '\\']
  else if c = '\x08' then ['\\', 'b']
  else if c = '\x0c' then ['\\', 'f']
  else if c = '\n' then ['\\', 'n']
  else if c = '\r' then ['\\', 'r']
  else if c = '\t' then ['\\', 't']
  else if c.toNat < 0x20 then
    ['\\', 'u', '0', '0', hexDigit (c.toNat / 16), hexDigit (c.toNat % 16)]
  else [c]

def literalChars (s : String) : List Char :=
  '"' :: s.toList.flatMap escapedChar ++ ['"']

/-- The characters of a token. A literal that is no text is written as its replacement. -/
def Token.chars : Token → List Char
  | .openBrace => ['\x7b']
  | .closeBrace => ['\x7d']
  | .openBracket => ['[']
  | .closeBracket => [']']
  | .comma => [',']
  | .colon => [':']
  | .null => ['n', 'u', 'l', 'l']
  | .bool true => ['t', 'r', 'u', 'e']
  | .bool false => ['f', 'a', 'l', 's', 'e']
  | .number n => n.chars
  | .string s => literalChars (s.getD "\uFFFD")

/-! ## String literals -/

def hexValue? (c : Char) : Option Nat :=
  if c.isDigit then some (c.toNat - '0'.toNat)
  else if 'a' ≤ c ∧ c ≤ 'f' then some (c.toNat - 'a'.toNat + 10)
  else if 'A' ≤ c ∧ c ≤ 'F' then some (c.toNat - 'A'.toNat + 10)
  else none

def hexUnit? (a b c d : Char) : Option Nat := do
  return ((← hexValue? a) * 16 + (← hexValue? b)) * 256 + ((← hexValue? c) * 16 + (← hexValue? d))

/-- A part of a string literal: a character, or a 16-bit unit given by number. -/
inductive Piece where
  | char (c : Char)
  | unit (n : Nat)

/-- The character that a letter behind a backslash stands for. -/
def shortEscape? (c : Char) : Option Char :=
  if c = '"' ∨ c = '\\' ∨ c = '/' then some c
  else if c = 'b' then some '\x08'
  else if c = 'f' then some '\x0c'
  else if c = 'n' then some '\n'
  else if c = 'r' then some '\r'
  else if c = 't' then some '\t'
  else none

/-- Takes the pieces of a literal up to its closing quote, after those in `done`, which are in
reverse. Control characters may not stand in it. -/
def takePieces (done : List Piece) : List Char → Option (List Piece × List Char)
  | [] => none
  | '"' :: rest => some (done.reverse, rest)
  | '\\' :: 'u' :: a :: b :: c :: d :: rest =>
    match hexUnit? a b c d with
    | some n => takePieces (.unit n :: done) rest
    | none => none
  | '\\' :: c :: rest =>
    match shortEscape? c with
    | some c => takePieces (.char c :: done) rest
    | none => none
  | c :: rest => if c.toNat < 0x20 then none else takePieces (.char c :: done) rest

def isHighSurrogate (n : Nat) : Bool := 0xD800 ≤ n && n < 0xDC00
def isLowSurrogate (n : Nat) : Bool := 0xDC00 ≤ n && n < 0xE000

/-- Joins pieces into a text after `done`, which is in reverse. Two units that form a surrogate
pair are one character; half a pair is none. -/
def joinPieces (done : List Char) : List Piece → Option (List Char)
  | [] => some done.reverse
  | .char c :: rest => joinPieces (c :: done) rest
  | .unit high :: .unit low :: rest =>
    if isHighSurrogate high then
      if isLowSurrogate low then
        joinPieces (Char.ofNat (0x10000 + (high - 0xD800) * 0x400 + (low - 0xDC00)) :: done) rest
      else none
    else if isLowSurrogate high then none
    else joinPieces (Char.ofNat high :: done) (.unit low :: rest)
  | .unit n :: rest =>
    if isHighSurrogate n || isLowSurrogate n then none
    else joinPieces (Char.ofNat n :: done) rest

def takeString (cs : List Char) : Option (Json.Text × List Char) :=
  (takePieces [] cs).map fun (pieces, rest) => ((joinPieces [] pieces).map String.ofList, rest)

/-! ## Numbers -/

/-- Takes a row of digits, which may be empty. -/
def takeDigits (cs : List Char) : List Char × List Char := cs.span Char.isDigit

/-- Takes the whole part of a number: a zero alone, or digits that do not start with one. -/
def takeWhole (cs : List Char) : Option (List Char × List Char) :=
  match takeDigits cs with
  | ([], _) => none
  | ('0' :: _ :: _, _) => none
  | (digits, rest) => some (digits, rest)

/-- Takes a fraction if a point follows; at least one digit has to stand behind it. -/
def takeFraction (cs : List Char) : Option (List Char × List Char) :=
  match cs with
  | '.' :: rest =>
    match takeDigits rest with
    | ([], _) => none
    | (digits, rest) => some (digits, rest)
  | cs => some ([], cs)

def takeExponentDigits (sign : Int) (cs : List Char) : Option (Option Int × List Char) :=
  match takeDigits cs with
  | ([], _) => none
  | (digits, rest) => some (some (sign * digitsValue digits), rest)

/-- Takes an exponent if one follows. -/
def takeExponent (cs : List Char) : Option (Option Int × List Char) :=
  match cs with
  | c :: rest =>
    if c = 'e' ∨ c = 'E' then
      match rest with
      | '+' :: rest => takeExponentDigits 1 rest
      | '-' :: rest => takeExponentDigits (-1) rest
      | rest => takeExponentDigits 1 rest
    else some (none, c :: rest)
  | [] => some (none, [])

/-- Takes a number without its sign. -/
def takeUnsigned (negative : Bool) (cs : List Char) : Option (Literal × List Char) := do
  let (whole, rest) ← takeWhole cs
  let (fraction, rest) ← takeFraction rest
  let (exponent, rest) ← takeExponent rest
  return (⟨negative, whole, fraction, exponent⟩, rest)

def takeNumber (cs : List Char) : Option (Literal × List Char) :=
  match cs with
  | '-' :: rest => takeUnsigned true rest
  | cs => takeUnsigned false cs

/-! ## Tokens -/

def isSpace (c : Char) : Bool := c = ' ' || c = '\t' || c = '\n' || c = '\r'

def takeToken : List Char → Option (Token × List Char)
  | '\x7b' :: rest => some (.openBrace, rest)
  | '\x7d' :: rest => some (.closeBrace, rest)
  | '[' :: rest => some (.openBracket, rest)
  | ']' :: rest => some (.closeBracket, rest)
  | ',' :: rest => some (.comma, rest)
  | ':' :: rest => some (.colon, rest)
  | 'n' :: 'u' :: 'l' :: 'l' :: rest => some (.null, rest)
  | 't' :: 'r' :: 'u' :: 'e' :: rest => some (.bool true, rest)
  | 'f' :: 'a' :: 'l' :: 's' :: 'e' :: rest => some (.bool false, rest)
  | '"' :: rest => (takeString rest).map fun (s, rest) => (.string s, rest)
  | cs => (takeNumber cs).map fun (n, rest) => (.number n, rest)

/-- Takes at most `fuel` tokens after those in `done`, which are in reverse, up to the end. -/
def tokensFrom (fuel : Nat) (done : List Token) (cs : List Char) : Option (List Token) :=
  match cs.dropWhile isSpace with
  | [] => some done.reverse
  | c :: rest =>
    match fuel with
    | 0 => none
    | fuel + 1 =>
      match takeToken (c :: rest) with
      | some (token, rest) => tokensFrom fuel (token :: done) rest
      | none => none

/-- The tokens of a text; every token takes a character at least. -/
def tokens? (s : String) : Option (List Token) :=
  let cs := s.toList
  tokensFrom cs.length [] cs

end CriteriaQuery.Json
