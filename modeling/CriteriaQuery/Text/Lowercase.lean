import CriteriaQuery.Text.CaseProperties
import CriteriaQuery.Text.LowercaseTable

/-! Lower-casing of whole texts. Every character has an image of its own, capital sigma apart,
whose image depends on whether it ends a word. -/
namespace CriteriaQuery.Text
set_option autoImplicit false

/-- Lower-case image of one character, read on its own. The dotted capital I is the only one whose
image is two characters; capital sigma maps to the form it has inside a word. -/
def lowercaseChar (c : Char) : List Char :=
  if c.toNat < 0x80 then [c.toLower]
  else if c = 'Σ' then ['σ']
  else if c = 'İ' then ['i', '\u0307']
  else match lowercaseRuns.find? (·.has c.toNat) with
    | some run => [Char.ofNat (c.toNat + run.shift).toNat]
    | none => [c]

/-- Whether the nearest character that is not passed over has a case. -/
def meetsCased (cs : List Char) : Bool :=
  match cs.dropWhile isCaseIgnorable with
  | c :: _ => isCased c
  | [] => false

/-- Whether a capital sigma between `before`, read backwards, and `after` ends a word: a letter
precedes it and none follows. -/
def endsWord (before after : List Char) : Bool :=
  meetsCased before && !meetsCased after

/-- Lower-cases `cs`, which follows the characters `before`, read backwards. -/
def lowercaseFrom (before : List Char) : List Char → List Char
  | [] => []
  | c :: rest =>
    (if c = 'Σ' ∧ endsWord before rest then ['ς'] else lowercaseChar c) ++
      lowercaseFrom (c :: before) rest

def lowercase (s : String) : String :=
  String.ofList (lowercaseFrom [] s.toList)

end CriteriaQuery.Text
