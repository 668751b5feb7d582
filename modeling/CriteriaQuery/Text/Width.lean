import CriteriaQuery.Text.Emoji

/-! How many columns a text takes on a line of fixed-width text. Each character takes the columns
of its own, but a line break of two characters takes one, letters that are written as one sign and
characters that are shown as one emoji go together, and a selector may ask for another form of the
character before it. A text is read from its end, where such groups show what they are. -/
namespace CriteriaQuery.Text
set_option autoImplicit false

/-- The columns of a character on its own. Control characters take one. -/
def charWidth (c : Char) : Nat :=
  if c.toNat ≤ 0xA0 then 1
  else if c.toNat = 0x17D8 then 3
  else if zeroWidthRanges.has c then 0
  else if wideRanges.has c then 2
  else 1

/-! ## Forms of a character -/

/-- A form that a selector asks for. -/
inductive Form where
  | emoji
  | text
  /-- A form as wide as an ideograph. -/
  | fullWidth
deriving DecidableEq

/-- The form that a character asks for, if it is a selector. -/
def Form.selectedBy? (c : Char) : Option Form :=
  if c = '\ufe0f' then some .emoji
  else if c = '\ufe0e' then some .text
  else if c = '\ufe01' then some .fullWidth
  else none

/-- Whether a character has the form. Emoji in squares with ideographs have none as text. -/
def Form.isOf (form : Form) (c : Char) : Bool :=
  match form with
  | .emoji => emojiFormRanges.has c
  | .text =>
    emojiFormRanges.has c && emojiRanges.has c && !(0x1F200 ≤ c.toNat && c.toNat ≤ 0x1F2FF)
  | .fullWidth => c = '\u2018' || c = '\u2019' || c = '\u201c' || c = '\u201d'

/-! ## What is behind a character -/

/-- What a text begins with, as far as it counts for the character before it. -/
inductive Opening where
  | other
  | lineFeed
  | ligature (group : LigatureEnd)
  | emoji (sequence : EmojiEnd)
deriving DecidableEq

namespace Opening

/-- What a character is for the one before it. -/
def of (c : Char) : Opening :=
  if c = '\n' then .lineFeed
  else if c.toNat ≤ 0xA0 then .other
  else
    match LigatureEnd.of? c, EmojiEnd.of? c with
    | some group, _ => .ligature group
    | none, some sequence => .emoji sequence
    | none, none => .other

/-- What is left of an opening behind a selector that nothing came of: ligatures that may have marks
between their letters. -/
def behindMark : Opening → Opening
  | .ligature group => if group.spansMarks then .ligature group else .other
  | _ => .other

/-- What is left of an opening behind a selector. A joined emoji stays too where its neighbour may
become one. -/
def behindSelector (opening : Opening) (form : Form) : Opening :=
  match opening, form with
  | .emoji .joined, .emoji => .emoji .joined
  | .emoji .joinedKeycap, .emoji => .emoji .joinedKeycap
  | opening, _ => opening.behindMark

/-- The columns that a character adds as a part of what it stands before, and what the text begins
with then. -/
def behind? (opening : Opening) (c : Char) : Option (Int × Opening) :=
  match opening with
  | .other => none
  | .lineFeed => if c = '\r' then some (0, .other) else none
  | .ligature group =>
    (group.behind? c).map fun (columns, rest) => (columns, rest.elim .other .ligature)
  | .emoji sequence => (sequence.behind? c).map fun (columns, rest) => (columns, .emoji rest)

end Opening

/-- What a text begins with, and the forms that it asks the character before it to take, the first
selector first. -/
structure Start where
  opening : Opening
  forms : List Form := []
deriving DecidableEq

namespace Start

/-- The columns of a character in a form asked for, if it has one of them. An emoji with a joiner
behind it is counted with the one after that. -/
def formed? (start : Start) (c : Char) : Option (Int × Start) :=
  match start.forms.find? (·.isOf c), start.opening with
  | none, _ => none
  | some .emoji, .emoji _ => some (0, ⟨.emoji .whole, []⟩)
  | some .emoji, _ => some (2, ⟨.emoji .whole, []⟩)
  | some .text, _ => some (1, ⟨.other, []⟩)
  | some .fullWidth, _ => some (2, ⟨.other, []⟩)

/-- What a text begins with that had no part in the form of the character before it. -/
def rest (start : Start) : Opening :=
  if start.forms = [] then start.opening else start.opening.behindMark

/-- A selector before a text. Before a ligature the later selectors count as well, but only the
first one can ask for an emoji. -/
def select (start : Start) (form : Form) : Start :=
  match start.rest.behindSelector form with
  | .ligature group => ⟨.ligature group, form :: start.forms.filter (· ≠ .emoji)⟩
  | opening => ⟨opening, [form]⟩

/-- The columns that a character adds before a text, and what the text begins with then. -/
def add (start : Start) (c : Char) : Int × Start :=
  match start.formed? c, Form.selectedBy? c with
  | some formed, _ => formed
  | none, some form => (0, start.select form)
  | none, none =>
    match start.rest.behind? c with
    | some (columns, opening) => (columns, ⟨opening, []⟩)
    | none => (charWidth c, ⟨.of c, []⟩)

end Start

/-- The columns of a text, and what it begins with. -/
def measure (cs : List Char) : Int × Start :=
  cs.foldr (fun c (columns, start) =>
    let (added, start) := start.add c
    (columns + added, start)) (0, ⟨.other, []⟩)

@[simp] theorem measure_nil : measure [] = (0, ⟨.other, []⟩) := rfl

theorem measure_cons (c : Char) (cs : List Char) :
    measure (c :: cs) =
      ((measure cs).1 + ((measure cs).2.add c).1, ((measure cs).2.add c).2) := rfl

/-- The columns of a text. What a character takes off was added for a part of its group. -/
def width (cs : List Char) : Nat := (measure cs).1.toNat

end CriteriaQuery.Text
