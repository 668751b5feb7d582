import CriteriaQuery.Text.Ligature

/-! Sequences of characters that are shown as one emoji of two columns: a picture with a skin tone,
a flag of two letters or of tags, a key, and pictures with joiners between them. A sequence is read
from its last character on. -/
namespace CriteriaQuery.Text
set_option autoImplicit false

/-- Whether a character gives the picture before it a skin tone. -/
def isSkinTone (c : Char) : Bool := 0x1F3FB ≤ c.toNat && c.toNat ≤ 0x1F3FF

/-- Whether a character is a letter of which two make the flag of a country. -/
def isFlagLetter (c : Char) : Bool := 0x1F1E6 ≤ c.toNat && c.toNat ≤ 0x1F1FF

def isTagLetter (c : Char) : Bool := 0xE0061 ≤ c.toNat && c.toNat ≤ 0xE007A

def isTagDigit (c : Char) : Bool := 0xE0030 ≤ c.toNat && c.toNat ≤ 0xE0039

/-- Ends the tags behind a flag. -/
def tagEnd : Nat := 0xE007F

/-- The flag that tags say the region of. -/
def blackFlag : Nat := 0x1F3F4

/-- The key around the character before it. -/
def keycap : Char := '\u20e3'

/-- The end of a sequence that may be shown as one emoji. -/
inductive EmojiEnd where
  /-- A whole emoji. -/
  | whole
  | skinTone
  /-- So many letters of flags. -/
  | flagLetters (count : Nat)
  /-- A joiner and an emoji. In what follows these two come last. -/
  | joined
  | joinedKeycap
  | joinedFlagLetters (count : Nat)
  /-- The end of tags behind so many letters. -/
  | joinedTagLetters (count : Nat)
  /-- The tags of a region that has a number, from one of its digits on. -/
  | joinedTagDigits (count : Nat)
deriving DecidableEq

namespace EmojiEnd

/-- The sequence that a character may be the last one of. -/
def of? (c : Char) : Option EmojiEnd :=
  if isSkinTone c then some .skinTone
  else if isFlagLetter c then some (.flagLetters 1)
  else if emojiRanges.has c then some .whole
  else none

/-- Whether a joiner before the sequence ties it to another emoji. -/
def joinable : EmojiEnd → Bool
  | .whole | .skinTone => true
  | .flagLetters count | .joinedFlagLetters count => 2 ≤ count
  | _ => false

/-- The columns that a character before a joiner and an emoji adds when it goes with them. -/
def behindJoined? (c : Char) : Option (Int × EmojiEnd) :=
  if c = keycap then some (0, .joinedKeycap)
  else if isFlagLetter c then some (1, .joinedFlagLetters 1)
  else if isSkinTone c then some (0, .skinTone)
  else if c.toNat = tagEnd then some (0, .joinedTagLetters 0)
  else if emojiRanges.has c then some (0, .whole)
  else none

/-- The columns that a character before the end of a sequence adds as a part of it, and the end that
it begins with then; `none` where the character is no part of the sequence. Of flag letters before a
joiner each odd one is counted alone until its partner is seen. -/
def behind? (sequence : EmojiEnd) (c : Char) : Option (Int × EmojiEnd) :=
  if c = joiner && sequence.joinable then some (0, .joined)
  else
    match sequence with
    | .skinTone => if skinToneBaseRanges.has c then some (0, .whole) else none
    | .flagLetters count => if isFlagLetter c then some (1, .flagLetters (count + 1)) else none
    | .joined => behindJoined? c
    | .joinedFlagLetters count =>
      if isFlagLetter c then
        some (if count % 2 = 1 then -1 else 3, .joinedFlagLetters (count + 1))
      else none
    | .joinedTagLetters count =>
      if isTagLetter c && count < 6 then some (0, .joinedTagLetters (count + 1))
      else if isTagDigit c && count < 5 then some (0, .joinedTagDigits 1)
      else if c.toNat = blackFlag && 3 ≤ count then some (0, .whole)
      else none
    | .joinedTagDigits count =>
      if isTagDigit c && count < 3 then some (0, .joinedTagDigits (count + 1))
      else if c.toNat = blackFlag && count = 3 then some (0, .whole)
      else none
    | .whole | .joinedKeycap => none

end EmojiEnd

end CriteriaQuery.Text
