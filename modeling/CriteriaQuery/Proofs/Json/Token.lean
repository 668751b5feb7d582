import CriteriaQuery.Json.Token
import CriteriaQuery.Proofs.Text.Digits
import Mathlib.Data.List.Chain
import Mathlib.Data.List.TakeDrop

/-! Tokens are read back from their text. A string literal spells its text whatever is escaped in it,
and a number ends where its last digit does, so that a row of tokens can be told apart as long as no
two numbers stand side by side (`tokens?_chars`). -/
namespace CriteriaQuery
open Text Decimal
set_option autoImplicit false

/-- Whether a number is one that the grammar has: at least one digit before the point, and no zero
in front of others. -/
structure Decimal.Literal.WellFormed (l : Literal) : Prop where
  whole_ne_nil : l.whole ≠ []
  isDigit_of_mem_whole : ∀ c ∈ l.whole, c.isDigit = true
  whole_of_head : l.whole.head? = some '0' → l.whole = ['0']
  isDigit_of_mem_fraction : ∀ c ∈ l.fraction, c.isDigit = true

theorem Decimal.Literal.wellFormed_ofInt (n : Int) : (Literal.ofInt n).WellFormed where
  whole_ne_nil := digitsOf_ne_nil n.natAbs
  isDigit_of_mem_whole _ hc := isDigit_of_mem_digitsOf hc
  whole_of_head := digitsOf_of_head
  isDigit_of_mem_fraction _ hc := (List.not_mem_nil hc).elim

namespace Json

/-! ## Numbers -/

/-- Whether a number may end before a text: no more of it can be read from there. -/
def EndsNumber (rest : List Char) : Prop :=
  ∀ c ∈ rest.head?, c.isDigit = false ∧ c ≠ '.' ∧ c ≠ 'e' ∧ c ≠ 'E'

theorem endsNumber_nil : EndsNumber [] := by
  intro c hc
  cases hc

theorem endsNumber_cons {c : Char} (rest : List Char)
    (h : c.isDigit = false ∧ c ≠ '.' ∧ c ≠ 'e' ∧ c ≠ 'E') : EndsNumber (c :: rest) := by
  intro d hd
  rw [← Option.some.inj hd]
  exact h

theorem EndsNumber.endsDigits {rest : List Char} (h : EndsNumber rest) : EndsDigits rest :=
  fun c hc => (h c hc).1

theorem takeDigits_append {digits rest : List Char} (h : ∀ c ∈ digits, c.isDigit = true)
    (hrest : EndsDigits rest) : takeDigits (digits ++ rest) = (digits, rest) := by
  rw [takeDigits, List.span_eq_takeWhile_dropWhile, takeWhile_append_of_head h hrest,
    dropWhile_append_of_head h hrest]

section Number
variable {l : Literal} {rest : List Char}

theorem takeWhole_append (h : l.WellFormed) (hrest : EndsDigits rest) :
    takeWhole (l.whole ++ rest) = some (l.whole, rest) := by
  rw [takeWhole, takeDigits_append h.isDigit_of_mem_whole hrest]
  split
  · rename_i heq
    exact absurd (Prod.mk.inj heq).1 h.whole_ne_nil
  · rename_i heq
    have hwhole := (Prod.mk.inj heq).1
    have hzero := h.whole_of_head (by rw [hwhole]; rfl)
    rw [hwhole] at hzero
    cases hzero
  · rename_i heq
    rw [heq]

def fractionChars (l : Literal) : List Char := if l.fraction = [] then [] else '.' :: l.fraction

def exponentChars (l : Literal) : List Char :=
  match l.exponent with
  | none => []
  | some e => 'e' :: (if e < 0 then '-' else '+') :: digitsOf e.natAbs

theorem takeFraction_append (h : l.WellFormed) (hends : EndsDigits rest)
    (hpoint : ∀ more, rest ≠ '.' :: more) :
    takeFraction (fractionChars l ++ rest) = some (l.fraction, rest) := by
  rw [fractionChars]
  split
  · rename_i hnil
    rw [hnil, List.nil_append, takeFraction]
    exact hpoint
  · rename_i hne
    rw [List.cons_append, takeFraction, takeDigits_append h.isDigit_of_mem_fraction hends]
    split
    · rename_i heq
      exact absurd (Prod.mk.inj heq).1 hne
    · rename_i heq
      rw [heq]

theorem takeExponentDigits_append (sign : Int) (n : Nat) (hrest : EndsDigits rest) :
    takeExponentDigits sign (digitsOf n ++ rest) = some (some (sign * n), rest) := by
  rw [takeExponentDigits, takeDigits_append (fun c hc => isDigit_of_mem_digitsOf hc) hrest]
  split
  · rename_i heq
    exact absurd (Prod.mk.inj heq).1 (digitsOf_ne_nil n)
  · rename_i heq
    obtain ⟨rfl, rfl⟩ := Prod.mk.inj heq
    rw [digitsValue_digitsOf]

theorem takeExponent_append (hrest : EndsNumber rest) :
    takeExponent (exponentChars l ++ rest) = some (l.exponent, rest) := by
  rw [exponentChars]
  cases l.exponent with
  | none =>
    cases rest with
    | nil => rfl
    | cons c rest =>
      obtain ⟨-, -, he, hE⟩ := hrest c rfl
      simp only [List.nil_append, takeExponent, he, hE, or_self, if_false]
  | some e =>
    by_cases hsign : e < 0
    · have hvalue : -1 * (e.natAbs : Int) = e := by omega
      have hdigits := takeExponentDigits_append (-1) e.natAbs hrest.endsDigits
      rw [hvalue] at hdigits
      simp only [if_pos hsign]
      exact hdigits
    · have hvalue : 1 * (e.natAbs : Int) = e := by omega
      have hdigits := takeExponentDigits_append 1 e.natAbs hrest.endsDigits
      rw [hvalue] at hdigits
      simp only [if_neg hsign]
      exact hdigits

theorem chars_eq (l : Literal) :
    l.chars =
      (if l.negative then ['-'] else []) ++ (l.whole ++ (fractionChars l ++ exponentChars l)) := by
  rw [Literal.chars, List.append_assoc, List.append_assoc]
  rfl

/-- What follows the digits before the point of a number. -/
theorem endsDigits_exponentChars (hrest : EndsNumber rest) : EndsDigits (exponentChars l ++ rest) := by
  rw [exponentChars]
  cases l.exponent with
  | none => exact hrest.endsDigits
  | some e => exact endsDigits_cons _ rfl

theorem exponentChars_ne_point (hrest : EndsNumber rest) (more : List Char) :
    exponentChars l ++ rest ≠ '.' :: more := by
  rw [exponentChars]
  cases l.exponent with
  | none =>
    rintro rfl
    exact (hrest '.' rfl).2.1 rfl
  | some e => simp

theorem endsDigits_fractionChars (hrest : EndsNumber rest) :
    EndsDigits (fractionChars l ++ (exponentChars l ++ rest)) := by
  rw [fractionChars]
  split
  · exact endsDigits_exponentChars hrest
  · exact endsDigits_cons _ rfl

theorem takeUnsigned_append (h : l.WellFormed) (hrest : EndsNumber rest) :
    takeUnsigned l.negative (l.whole ++ (fractionChars l ++ (exponentChars l ++ rest))) =
      some (l, rest) := by
  rw [takeUnsigned, takeWhole_append h (endsDigits_fractionChars hrest)]
  simp only [Option.bind_eq_bind, Option.bind_some,
    takeFraction_append h (endsDigits_exponentChars hrest) (exponentChars_ne_point hrest),
    takeExponent_append hrest]
  rfl

theorem takeNumber_append (h : l.WellFormed) (hrest : EndsNumber rest) :
    takeNumber (l.chars ++ rest) = some (l, rest) := by
  have hunsigned := takeUnsigned_append h hrest
  simp only [chars_eq, List.append_assoc]
  cases hsign : l.negative with
  | true =>
    rw [hsign] at hunsigned
    exact hunsigned
  | false =>
    rw [hsign] at hunsigned
    obtain ⟨c, cs, hwhole⟩ := List.exists_cons_of_ne_nil h.whole_ne_nil
    have hc := h.isDigit_of_mem_whole c (by rw [hwhole]; exact List.mem_cons_self)
    simp only [Bool.false_eq_true, if_false, List.nil_append]
    rw [hwhole] at hunsigned ⊢
    rw [List.cons_append, takeNumber]
    · exact hunsigned
    · intro _ heq
      rw [(List.cons.inj heq).1] at hc
      cases hc

end Number

/-! ## String literals -/

theorem hexValue?_hexDigit {n : Nat} (h : n < 16) : hexValue? (hexDigit n) = some n := by
  have hall : ∀ m < 16, hexValue? (hexDigit m) = some m := by decide
  exact hall n h

theorem hexUnit?_hexDigit {n : Nat} (h : n < 0x20) :
    hexUnit? '0' '0' (hexDigit (n / 16)) (hexDigit (n % 16)) = some n := by
  have hzero : hexValue? '0' = some 0 := rfl
  simp only [hexUnit?, hzero, hexValue?_hexDigit (show n / 16 < 16 by omega),
    hexValue?_hexDigit (show n % 16 < 16 by omega), Option.bind_eq_bind, Option.bind_some]
  exact congrArg some (by omega)

/-- The characters that have an escape of one letter. -/
def shortEscaped : List Char := ['"', '\\', '\x08', '\x0c', '\n', '\r', '\t']

theorem escapedChar_of_not_mem {c : Char} (h : c ∉ shortEscaped) :
    escapedChar c =
      if c.toNat < 0x20 then
        ['\\', 'u', '0', '0', hexDigit (c.toNat / 16), hexDigit (c.toNat % 16)]
      else [c] := by
  simp only [shortEscaped, List.mem_cons, List.not_mem_nil, or_false, not_or] at h
  obtain ⟨h₁, h₂, h₃, h₄, h₅, h₆, h₇⟩ := h
  rw [escapedChar, if_neg h₁, if_neg h₂, if_neg h₃, if_neg h₄, if_neg h₅, if_neg h₆, if_neg h₇]

/-- A character is read back as itself, or as its number where it is escaped by that. -/
theorem takePieces_escapedChar (done : List Piece) (c : Char) (rest : List Char) :
    takePieces done (escapedChar c ++ rest) = takePieces (.char c :: done) rest ∨
      c.toNat < 0x20 ∧
        takePieces done (escapedChar c ++ rest) = takePieces (.unit c.toNat :: done) rest := by
  by_cases hshort : c ∈ shortEscaped
  · left
    simp only [shortEscaped, List.mem_cons, List.not_mem_nil, or_false] at hshort
    rcases hshort with rfl | rfl | rfl | rfl | rfl | rfl | rfl <;> rfl
  rw [escapedChar_of_not_mem hshort]
  split
  · rename_i hcontrol
    refine .inr ⟨hcontrol, ?_⟩
    simp only [List.cons_append, List.nil_append, takePieces, hexUnit?_hexDigit hcontrol]
  · rename_i hcontrol
    have hquote : c ≠ '"' := by
      rintro rfl
      exact hshort (by decide)
    have hbackslash : c ≠ '\\' := by
      rintro rfl
      exact hshort (by decide)
    left
    rw [List.singleton_append, takePieces, if_neg hcontrol]
    · exact hquote
    · intro _ _ _ _ _ hc
      exact absurd hc hbackslash
    · intro _ _ hc
      exact absurd hc hbackslash

theorem joinPieces_unit {n : Nat} (h : n < 0x20) (done : List Char) (pieces : List Piece) :
    joinPieces done (.unit n :: pieces) = joinPieces (Char.ofNat n :: done) pieces := by
  have hhigh : isHighSurrogate n = false := by simp [isHighSurrogate]; omega
  have hlow : isLowSurrogate n = false := by simp [isLowSurrogate]; omega
  cases pieces with
  | nil => simp [joinPieces, hhigh, hlow]
  | cons piece pieces => cases piece <;> simp [joinPieces, hhigh, hlow]

/-- The pieces of a literal join to the text that was escaped. -/
theorem takePieces_flatMap_escapedChar (cs rest : List Char) (done : List Piece) :
    ∃ pieces, takePieces done (cs.flatMap escapedChar ++ '"' :: rest) =
        some (done.reverse ++ pieces, rest) ∧
      ∀ before, joinPieces before pieces = some (before.reverse ++ cs) := by
  induction cs generalizing done with
  | nil => exact ⟨[], by simp [takePieces], fun before => by simp [joinPieces]⟩
  | cons c cs ih =>
    rw [List.flatMap_cons, List.append_assoc]
    rcases takePieces_escapedChar done c (cs.flatMap escapedChar ++ '"' :: rest) with
      hchar | ⟨hcontrol, hunit⟩
    · obtain ⟨pieces, htake, hjoin⟩ := ih (.char c :: done)
      refine ⟨.char c :: pieces, ?_, fun before => ?_⟩
      · rw [hchar, htake, List.reverse_cons, List.append_assoc, List.singleton_append]
      · rw [joinPieces, hjoin, List.reverse_cons, List.append_assoc, List.singleton_append]
    · obtain ⟨pieces, htake, hjoin⟩ := ih (.unit c.toNat :: done)
      refine ⟨.unit c.toNat :: pieces, ?_, fun before => ?_⟩
      · rw [hunit, htake, List.reverse_cons, List.append_assoc, List.singleton_append]
      · rw [joinPieces_unit hcontrol, Char.ofNat_toNat, hjoin, List.reverse_cons,
          List.append_assoc, List.singleton_append]

theorem takeString_escaped (s : String) (rest : List Char) :
    takeString (s.toList.flatMap escapedChar ++ '"' :: rest) = some (some s, rest) := by
  obtain ⟨pieces, htake, hjoin⟩ := takePieces_flatMap_escapedChar s.toList rest []
  rw [takeString, htake, Option.map_some]
  simp only [List.reverse_nil, List.nil_append, hjoin, Option.map_some, String.ofList_toList]

/-! ## Tokens -/

/-- Whether a token has a text that is its own. -/
def Token.WellFormed : Token → Prop
  | .number n => n.WellFormed
  | .string s => s.isSome = true
  | _ => True

def Token.isNumber : Token → Bool
  | .number _ => true
  | _ => false

/-- Whether one token may stand directly before another: a number ends only before something else. -/
def Token.Before (t next : Token) : Prop := t.isNumber = true → next.isNumber = false

theorem takeToken_of_number {c : Char} (cs : List Char) (h : c.isDigit = true ∨ c = '-') :
    takeToken (c :: cs) = (takeNumber (c :: cs)).map fun (n, rest) => (.number n, rest) := by
  have hother : ∀ d, d.isDigit = false → d ≠ '-' → c ≠ d := by
    rintro d hdigit hminus rfl
    rcases h with h | h
    · rw [h] at hdigit
      cases hdigit
    · exact hminus h
  rw [takeToken]
  all_goals
    intro _ heq
    exact hother _ rfl (by decide) (List.cons.inj heq).1

/-- A number begins with a digit or a minus sign. -/
theorem number_chars_eq_cons {l : Literal} (h : l.WellFormed) :
    ∃ c cs, l.chars = c :: cs ∧ (c.isDigit = true ∨ c = '-') := by
  rw [chars_eq]
  cases l.negative with
  | true => exact ⟨'-', _, rfl, .inr rfl⟩
  | false =>
    obtain ⟨c, cs, hwhole⟩ := List.exists_cons_of_ne_nil h.whole_ne_nil
    rw [hwhole]
    exact ⟨c, _, rfl, .inl (h.isDigit_of_mem_whole c (by rw [hwhole]; exact List.mem_cons_self))⟩

theorem takeToken_chars {t : Token} (h : t.WellFormed) {rest : List Char}
    (hrest : t.isNumber = true → EndsNumber rest) : takeToken (t.chars ++ rest) = some (t, rest) := by
  cases t with
  | number n =>
    obtain ⟨c, cs, hchars, hc⟩ := number_chars_eq_cons h
    have hnumber := takeNumber_append h (hrest rfl)
    rw [Token.chars, hchars, List.cons_append, takeToken_of_number _ hc, ← List.cons_append,
      ← hchars, hnumber]
    rfl
  | string s =>
    obtain ⟨s, rfl⟩ := Option.isSome_iff_exists.mp h
    have hstring := takeString_escaped s rest
    simp only [Token.chars, Option.getD_some, literalChars, List.cons_append, List.append_assoc,
      List.nil_append, takeToken, hstring, Option.map_some]
  | bool b => cases b <;> rfl
  | _ => rfl

theorem Token.chars_eq_cons {t : Token} (h : t.WellFormed) :
    ∃ c cs, t.chars = c :: cs ∧ isSpace c = false := by
  cases t with
  | number n =>
    obtain ⟨c, cs, hchars, hc⟩ := number_chars_eq_cons h
    refine ⟨c, cs, hchars, ?_⟩
    rcases hc with hc | rfl
    · have hrange : 48 ≤ c.toNat ∧ c.toNat ≤ 57 := Char.isDigit_iff_toNat.mp hc
      simp only [isSpace, Bool.or_eq_false_iff, decide_eq_false_iff_not]
      refine ⟨⟨⟨?_, ?_⟩, ?_⟩, ?_⟩ <;> (rintro rfl; simp at hrange)
    · rfl
  | bool b => cases b <;> exact ⟨_, _, rfl, rfl⟩
  | _ => exact ⟨_, _, rfl, rfl⟩

theorem endsNumber_chars {t : Token} (h : t.isNumber = false) (rest : List Char) :
    EndsNumber (t.chars ++ rest) := by
  cases t with
  | number n => cases h
  | bool b => cases b <;> exact endsNumber_cons _ (by decide)
  | _ => exact endsNumber_cons _ (by decide)

/-! ## Rows of tokens -/

theorem endsNumber_flatMap_chars {tokens : List Token}
    (h : ∀ t ∈ tokens.head?, t.isNumber = false) : EndsNumber (tokens.flatMap Token.chars) := by
  cases tokens with
  | nil => exact endsNumber_nil
  | cons t tokens =>
    rw [List.flatMap_cons]
    exact endsNumber_chars (h t rfl) _

theorem tokensFrom_chars {tokens : List Token} (hwell : ∀ t ∈ tokens, t.WellFormed)
    (hapart : tokens.IsChain Token.Before) {fuel : Nat} (hfuel : tokens.length ≤ fuel)
    (done : List Token) :
    tokensFrom fuel done (tokens.flatMap Token.chars) = some (done.reverse ++ tokens) := by
  induction tokens generalizing fuel done with
  | nil => cases fuel <;> simp [tokensFrom]
  | cons t tokens ih =>
    obtain ⟨ht, htokens⟩ := List.forall_mem_cons.mp hwell
    obtain ⟨hnext, hrest⟩ := List.isChain_cons.mp hapart
    obtain ⟨c, cs, hchars, hspace⟩ := Token.chars_eq_cons ht
    have hends : t.isNumber = true → EndsNumber (tokens.flatMap Token.chars) := fun hnumber =>
      endsNumber_flatMap_chars fun next hmem => hnext next hmem hnumber
    have htake := takeToken_chars ht hends
    rw [List.length_cons] at hfuel
    obtain ⟨fuel, rfl⟩ := Nat.exists_eq_add_of_lt (show 0 < fuel by omega)
    rw [List.flatMap_cons]
    rw [hchars, List.cons_append] at htake ⊢
    rw [tokensFrom, List.dropWhile_cons_of_neg (by rw [hspace]; exact Bool.false_ne_true)]
    simp only [htake]
    rw [ih htokens hrest (by omega), List.reverse_cons, List.append_assoc, List.singleton_append]

theorem length_le_length_flatMap_chars {tokens : List Token} (h : ∀ t ∈ tokens, t.WellFormed) :
    tokens.length ≤ (tokens.flatMap Token.chars).length := by
  induction tokens with
  | nil => exact Nat.le_refl 0
  | cons t tokens ih =>
    obtain ⟨ht, htokens⟩ := List.forall_mem_cons.mp h
    obtain ⟨c, cs, hchars, -⟩ := Token.chars_eq_cons ht
    have hle := ih htokens
    rw [List.flatMap_cons, hchars, List.length_append, List.length_cons, List.length_cons]
    omega

/-- A row of tokens is read back from its text. -/
theorem tokens?_chars {tokens : List Token} (hwell : ∀ t ∈ tokens, t.WellFormed)
    (hapart : tokens.IsChain Token.Before) :
    tokens? (String.ofList (tokens.flatMap Token.chars)) = some tokens := by
  rw [tokens?, String.toList_ofList]
  exact tokensFrom_chars hwell hapart (length_le_length_flatMap_chars hwell) []

end Json

end CriteriaQuery
