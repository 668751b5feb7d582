import CriteriaQuery.Text.Digits
import Mathlib.Algebra.Group.Nat.Defs
import Mathlib.Data.List.Basic

/-! What decimal digits say of their number, and where a row of them ends. -/
namespace CriteriaQuery.Text
set_option autoImplicit false

/-! ## The digits of a number -/

theorem isDigit_of_mem_digitsOf {c : Char} {n : Nat} (h : c ∈ digitsOf n) : c.isDigit = true :=
  Nat.isDigit_of_mem_toDigits (by omega) (by omega) h

theorem digitsOf_ne_nil (n : Nat) : digitsOf n ≠ [] := Nat.toDigits_ne_nil

theorem digitsValue_eq_ofDigitChars (cs : List Char) : digitsValue cs = Nat.ofDigitChars 10 cs 0 := by
  simp only [digitsValue, digitValue, Nat.ofDigitChars_eq_foldl, Nat.mul_comm]

theorem digitsValue_digitsOf (n : Nat) : digitsValue (digitsOf n) = n := by
  rw [digitsValue_eq_ofDigitChars]
  exact Nat.ofDigitChars_ten_toDigits

/-- Only zero has digits that begin with a zero. -/
theorem digitsOf_of_head {n : Nat} (h : (digitsOf n).head? = some '0') : digitsOf n = ['0'] := by
  induction n using Nat.strongRecOn with
  | ind n ih =>
    have hsplit := Nat.toDigits_eq_if (b := 10) (n := n) (by omega)
    by_cases hn : n < 10
    · have hdigits : digitsOf n = [n.digitChar] := by
        rw [digitsOf, hsplit, if_pos hn]
      rw [hdigits] at h ⊢
      rw [Option.some.inj h]
    · have hdigits : digitsOf n = digitsOf (n / 10) ++ [(n % 10).digitChar] := by
        rw [digitsOf, hsplit, if_neg hn, digitsOf]
      rw [hdigits, List.head?_append_of_ne_nil _ (digitsOf_ne_nil _)] at h
      have hzero := ih (n / 10) (by omega) h
      have hvalue : n / 10 = 0 := by
        rw [← digitsValue_digitsOf (n / 10), hzero]
        rfl
      omega

/-! ## Digits of a fixed width -/

theorem isDigit_of_mem_paddedDigits {c : Char} {width n : Nat} (h : c ∈ paddedDigits width n) :
    c.isDigit = true := by
  rcases List.mem_append.mp h with h | h
  · rw [List.eq_of_mem_replicate h]
    rfl
  · exact isDigit_of_mem_digitsOf h

theorem paddedDigits_ne_nil (width n : Nat) : paddedDigits width n ≠ [] :=
  List.append_ne_nil_of_right_ne_nil _ (digitsOf_ne_nil n)

theorem digitsValue_paddedDigits (width n : Nat) : digitsValue (paddedDigits width n) = n := by
  rw [digitsValue_eq_ofDigitChars, paddedDigits, Nat.ofDigitChars_append,
    Nat.ofDigitChars_replicate_zero, Nat.mul_zero, ← digitsValue_eq_ofDigitChars,
    digitsValue_digitsOf]

theorem length_paddedDigits {width n : Nat} (hwidth : 0 < width) (h : n < 10 ^ width) :
    (paddedDigits width n).length = width := by
  have hlength : (digitsOf n).length ≤ width :=
    (Nat.length_toDigits_le_iff (by omega) hwidth).mpr h
  rw [paddedDigits, List.length_append, List.length_replicate]
  omega

/-! ## Where digits end -/

/-- Whether a text begins with something other than a digit, or is empty. -/
def EndsDigits (rest : List Char) : Prop := ∀ c ∈ rest.head?, c.isDigit = false

theorem endsDigits_nil : EndsDigits [] := by
  intro c hc
  cases hc

theorem endsDigits_cons {c : Char} (rest : List Char) (h : c.isDigit = false) :
    EndsDigits (c :: rest) := by
  intro d hd
  rw [← Option.some.inj hd]
  exact h

/-! ## Where a row of characters ends -/

section Row
variable {p : Char → Bool} {row rest : List Char}

theorem takeWhile_append_of_head (h : ∀ c ∈ row, p c = true) (hrest : ∀ c ∈ rest.head?, p c = false) :
    (row ++ rest).takeWhile p = row := by
  rw [List.takeWhile_append_of_pos h]
  cases rest with
  | nil => rw [List.takeWhile_nil, List.append_nil]
  | cons c rest =>
    have hc := hrest c rfl
    rw [List.takeWhile_cons_of_neg (by rw [hc]; exact Bool.false_ne_true), List.append_nil]

theorem dropWhile_append_of_head (h : ∀ c ∈ row, p c = true) (hrest : ∀ c ∈ rest.head?, p c = false) :
    (row ++ rest).dropWhile p = rest := by
  have hall := List.takeWhile_append_dropWhile (p := p) (l := row ++ rest)
  rw [takeWhile_append_of_head h hrest] at hall
  exact List.append_cancel_left hall

end Row

end CriteriaQuery.Text
