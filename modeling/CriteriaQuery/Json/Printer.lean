import CriteriaQuery.Json.Token

/-! JSON text: without blanks, or indented with one item a line. -/
namespace CriteriaQuery.Json
set_option autoImplicit false

/-! ## Without blanks -/

mutual

def toTokens : Json → List Token
  | .null => [.null]
  | .bool b => [.bool b]
  | .number n => [.number n]
  | .string s => [.string s]
  | .array items => .openBracket :: itemTokens items ++ [.closeBracket]
  | .object members => .openBrace :: memberTokens members ++ [.closeBrace]

/-- The tokens of the items of an array, with commas between them. -/
def itemTokens : List Json → List Token
  | [] => []
  | [item] => toTokens item
  | item :: rest => toTokens item ++ .comma :: itemTokens rest

/-- The tokens of the members of an object, with commas between them. -/
def memberTokens : List (Json.Text × Json) → List Token
  | [] => []
  | [(name, value)] => .string name :: .colon :: toTokens value
  | (name, value) :: rest => .string name :: .colon :: toTokens value ++ .comma :: memberTokens rest

end

/-- The text of a value without blanks. -/
def compact (v : Json) : String := String.ofList (v.toTokens.flatMap Token.chars)

/-! ## Indented -/

def newline (level : Nat) : List Char := '\n' :: List.replicate (2 * level) ' '

mutual

/-- The text of a value at a level of indentation. Empty containers stay on one line. -/
def indentedChars (level : Nat) : Json → List Char
  | .array [] => ['[', ']']
  | .array items => '[' :: indentedItems (level + 1) items ++ newline level ++ [']']
  | .object [] => ['\x7b', '\x7d']
  | .object members => '\x7b' :: indentedMembers (level + 1) members ++ newline level ++ ['\x7d']
  | .null => Token.null.chars
  | .bool b => (Token.bool b).chars
  | .number n => n.chars
  | .string s => (Token.string s).chars

/-- The items of an array, each on a line of its own. -/
def indentedItems (level : Nat) : List Json → List Char
  | [] => []
  | [item] => newline level ++ indentedChars level item
  | item :: rest => newline level ++ indentedChars level item ++ ',' :: indentedItems level rest

/-- The members of an object, each on a line of its own. -/
def indentedMembers (level : Nat) : List (Json.Text × Json) → List Char
  | [] => []
  | [(name, value)] =>
    newline level ++ (Token.string name).chars ++ ':' :: ' ' :: indentedChars level value
  | (name, value) :: rest =>
    newline level ++ (Token.string name).chars ++ ':' :: ' ' :: indentedChars level value ++
      ',' :: indentedMembers level rest

end

/-- The text of a value, indented by two spaces a level. -/
def indented (v : Json) : String := String.ofList (indentedChars 0 v)

end CriteriaQuery.Json
