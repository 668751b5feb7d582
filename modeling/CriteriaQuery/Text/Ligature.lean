import CriteriaQuery.Text.WidthRanges

/-! Letters of one script that are written as a single sign. Such a group is read from its last
letter on: what is known of its end tells how many columns the character before it adds. -/
namespace CriteriaQuery.Text
set_option autoImplicit false

/-- Joins the characters on both sides of it. -/
def joiner : Char := '\u200d'

/-- Marks that are not seen, selectors among them. -/
def invisibleMarkRanges : Ranges := [
  (0x34F, 0x34F), (0x17B4, 0x17B5), (0x180B, 0x180D), (0x180F, 0x180F), (0xFE00, 0xFE0F),
  (0xE0100, 0xE01EF)]

/-- Arabic letters that are written as an alef is. -/
def alefRanges : Ranges := [
  (0x622, 0x623), (0x625, 0x625), (0x627, 0x627), (0x671, 0x673), (0x675, 0x675), (0x773, 0x774),
  (0x870, 0x882)]

/-- Arabic letters that are written as a lam is. -/
def lamRanges : Ranges := [
  (0x644, 0x644), (0x6B5, 0x6B8), (0x76A, 0x76A), (0x8A6, 0x8A6), (0x8C7, 0x8C7)]

/-- Khmer letters that are written below another one, and not beside it. -/
def subscriptRanges : Ranges := [
  (0x1780, 0x1782), (0x1784, 0x1787), (0x1789, 0x178C), (0x178E, 0x1793), (0x1795, 0x1798),
  (0x179B, 0x179D), (0x17A0, 0x17A0), (0x17A2, 0x17A2), (0x17A7, 0x17A7), (0x17AB, 0x17AC),
  (0x17AF, 0x17AF)]

/-- Tifinagh letters that can be tied to another one. -/
def tifinaghConsonantRanges : Ranges := [(0x2D31, 0x2D65), (0x2D6F, 0x2D6F)]

/-- The end of a group of letters that may be written as one. -/
inductive LigatureEnd where
  /-- An Arabic alef, which is written into a lam. -/
  | alef
  /-- A Hebrew lamed, which a joiner ties to an alef. -/
  | lamed (joined : Bool)
  /-- A Buginese ya, which a joiner ties to the vowel sign of the letter before it. -/
  | ya (joined : Bool)
  | vowelSignAndYa
  /-- A Tifinagh consonant, which a joiner or a consonant joiner ties to another one. -/
  | consonant (joined : Bool)
  | joinedConsonant
  /-- The second half of a Lisu tone. -/
  | tone
  /-- An Old Turkic i, which a joiner ties to the letter before it. -/
  | orkhonI (joined : Bool)
  /-- A Khmer letter that is written below another one behind a coeng. -/
  | subscript
  /-- The Kirat Rai vowel sign e, of which two are the sign ai. -/
  | vowelE
  | vowelAi
deriving DecidableEq

namespace LigatureEnd

/-- The group that a letter may be the last one of. -/
def of? (c : Char) : Option LigatureEnd :=
  if alefRanges.has c then some .alef
  else if c = '\u05dc' then some (.lamed false)
  else if c = '\u1a10' then some (.ya false)
  else if tifinaghConsonantRanges.has c then some (.consonant false)
  else if c = '\ua4fc' || c = '\ua4fd' then some .tone
  else if c.toNat = 0x10C03 then some (.orkhonI false)
  else if subscriptRanges.has c then some .subscript
  else if c.toNat = 0x16D67 then some .vowelE
  else if c.toNat = 0x16D68 then some .vowelAi
  else none

/-- A group with a joiner before it. -/
def join : LigatureEnd → LigatureEnd
  | .lamed _ => .lamed true
  | .ya _ => .ya true
  | .consonant _ => .consonant true
  | .orkhonI _ => .orkhonI true
  | group => group

/-- Whether the letters of a group may have characters between them that are not seen. Only the
vowel signs stand next to each other. -/
def spansMarks : LigatureEnd → Bool
  | .vowelE | .vowelAi => false
  | _ => true

/-- What a group becomes behind a character that is not seen; `none` for all other characters. An
Arabic group takes any mark that leaves the letters joined, but no joiner. -/
def behindMark? (group : LigatureEnd) (c : Char) : Option LigatureEnd :=
  if !group.spansMarks then none
  else if group = .alef then
    if zeroWidthRanges.has c && !separatingMarkRanges.has c then some .alef else none
  else if c = joiner then some group.join
  else if invisibleMarkRanges.has c then some group
  else none

/-- The columns that a letter before a group adds when it is written with it, and the group that
both are the end of. -/
def behindLetter? (group : LigatureEnd) (c : Char) : Option (Int × Option LigatureEnd) :=
  match group with
  | .alef => if lamRanges.has c then some (0, none) else none
  | .lamed true => if c = '\u05d0' then some (0, none) else none
  | .ya true => if c = '\u1a17' then some (0, some .vowelSignAndYa) else none
  | .vowelSignAndYa => if c = '\u1a15' then some (0, none) else none
  | .consonant joined =>
    if c = '\u2d7f' then some (1, some .joinedConsonant)
    else if joined && tifinaghConsonantRanges.has c then some (0, none)
    else none
  | .joinedConsonant => if tifinaghConsonantRanges.has c then some (-1, none) else none
  | .tone => if 0xA4F8 ≤ c.toNat && c.toNat ≤ 0xA4FB then some (0, none) else none
  | .orkhonI true => if c.toNat = 0x10C32 then some (0, none) else none
  | .subscript => if c = '\u17d2' then some (-1, none) else none
  | .vowelE =>
    if c.toNat = 0x16D67 then some (0, some .vowelAi)
    else if c.toNat = 0x16D68 then some (1, some .vowelE)
    else if c.toNat = 0x16D63 || c.toNat = 0x16D69 then some (0, none)
    else none
  | .vowelAi => if c.toNat = 0x16D63 then some (0, none) else none
  | .lamed false | .ya false | .orkhonI false => none

/-- The columns that a character before a group adds as a part of it, and the group that it begins
with then; `none` where the character is no part of the group. -/
def behind? (group : LigatureEnd) (c : Char) : Option (Int × Option LigatureEnd) :=
  match group.behindMark? c with
  | some group => some (0, some group)
  | none => group.behindLetter? c

end LigatureEnd

end CriteriaQuery.Text
