import CriteriaQuery.Text.Ranges
import CriteriaQuery.Text.EscapedRanges

/-! Texts shown between double quotes in messages, with what cannot be read off a line escaped. -/
namespace CriteriaQuery.Text
set_option autoImplicit false

/-- A character as it stands inside double quotes: a backslash before a quote or a backslash, a
letter for the common controls, the code point in braces for what would not show. -/
def quotedChar (c : Char) : String :=
  if c = '\x00' then "\\0"
  else if c = '\t' then "\\t"
  else if c = '\n' then "\\n"
  else if c = '\r' then "\\r"
  else if c = '"' then "\\\""
  else if c = '\\' then "\\\\"
  else if Ranges.has escapedRanges c then
    "\\u\x7b" ++ String.ofList (Nat.toDigits 16 c.toNat) ++ "\x7d"
  else c.toString

def quoted (s : String) : String :=
  "\"" ++ String.join (s.toList.map quotedChar) ++ "\""

end CriteriaQuery.Text
