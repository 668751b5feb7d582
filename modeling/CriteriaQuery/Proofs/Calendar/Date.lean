import CriteriaQuery.Calendar.Date
import CriteriaQuery.Proofs.Text.Digits

/-! The text of a date names it: every date is read back from its text, whatever the number of
digits and the sign of its year (`Date.parse?_text`). -/
namespace CriteriaQuery.Calendar
open Text
set_option autoImplicit false

/-! ## Blanks -/

theorem trimFront_cons {c : Char} (cs : List Char) (h : isBlank c = false) :
    trimFront (c :: cs) = c :: cs := by
  rw [trimFront, List.dropWhile_cons_of_neg (by rw [h]; exact Bool.false_ne_true)]

theorem isBlank_of_isDigit {c : Char} (h : c.isDigit = true) : isBlank c = false := by
  have hrange : 48 ≤ c.toNat ∧ c.toNat ≤ 57 := Char.isDigit_iff_toNat.mp h
  simp [isBlank]
  omega

variable {digits rest : List Char}

theorem trimFront_digits (h : ∀ c ∈ digits, c.isDigit = true) (hne : digits ≠ []) :
    trimFront (digits ++ rest) = digits ++ rest := by
  obtain ⟨c, cs, rfl⟩ := List.exists_cons_of_ne_nil hne
  exact trimFront_cons _ (isBlank_of_isDigit (h c List.mem_cons_self))

/-! ## Numbers -/

theorem takeNumber_append {limit : Nat} (h : ∀ c ∈ digits, c.isDigit = true) (hne : digits ≠ [])
    (hlength : digits.length ≤ limit) (hrest : EndsDigits rest) :
    takeNumber limit (digits ++ rest) = some (digitsValue digits, rest) := by
  have hends : EndsDigits (rest.take (limit - digits.length)) := by
    intro c hc
    rw [List.head?_take] at hc
    split at hc
    · cases hc
    · exact hrest c hc
  have htake : ((digits ++ rest).take limit).takeWhile Char.isDigit = digits := by
    rw [List.take_append, List.take_of_length_le hlength]
    exact takeWhile_append_of_head h hends
  rw [takeNumber, htake]
  split
  · exact absurd rfl hne
  · rw [List.drop_left]

theorem takeNumber_paddedDigits {width n : Nat} (hwidth : 0 < width) (h : n < 10 ^ width)
    (hrest : EndsDigits rest) : takeNumber width (paddedDigits width n ++ rest) = some (n, rest) := by
  have hlength := length_paddedDigits hwidth h
  rw [takeNumber_append (fun c hc => isDigit_of_mem_paddedDigits hc) (paddedDigits_ne_nil width n)
    (by omega) hrest, digitsValue_paddedDigits]

theorem takeHyphen_paddedDigits (width n : Nat) :
    takeHyphen ('-' :: (paddedDigits width n ++ rest)) = some (paddedDigits width n ++ rest) := by
  rw [takeHyphen, trimFront_cons _ rfl]
  exact congrArg some
    (trimFront_digits (fun c hc => isDigit_of_mem_paddedDigits hc) (paddedDigits_ne_nil width n))

/-! ## Years -/

/-- The year of a date, with the sign that its text gives it. -/
def yearChars (year : Int) : List Char :=
  (if 0 ≤ year ∧ year ≤ 9999 then [] else if year < 0 then ['-'] else ['+']) ++
    paddedDigits 4 year.natAbs

theorem takeYear_digits (h : ∀ c ∈ digits, c.isDigit = true) (hne : digits ≠ []) :
    takeYear (digits ++ rest) =
      (takeNumber 4 (digits ++ rest)).map fun (n, rest) => ((n : Int), rest) := by
  obtain ⟨c, cs, rfl⟩ := List.exists_cons_of_ne_nil hne
  have hc := h c List.mem_cons_self
  rw [List.cons_append, takeYear]
  · intro _ heq
    rw [(List.cons.inj heq).1] at hc
    cases hc
  · intro _ heq
    rw [(List.cons.inj heq).1] at hc
    cases hc

/-- A year is read with its sign; without one it has the four digits that are expected then. -/
theorem takeYear_yearChars (year : Int) :
    takeYear (yearChars year ++ '-' :: rest) = some (year, '-' :: rest) := by
  have hdigits : ∀ c ∈ paddedDigits 4 year.natAbs, c.isDigit = true :=
    fun c hc => isDigit_of_mem_paddedDigits hc
  have hne := paddedDigits_ne_nil 4 year.natAbs
  have hends : EndsDigits ('-' :: rest) := endsDigits_cons rest rfl
  have hsigned : takeNumber (paddedDigits 4 year.natAbs ++ '-' :: rest).length
      (paddedDigits 4 year.natAbs ++ '-' :: rest) = some (year.natAbs, '-' :: rest) := by
    rw [takeNumber_append hdigits hne (by simp) hends, digitsValue_paddedDigits]
  rw [yearChars]
  split
  · rename_i hplain
    have hnumber := takeNumber_paddedDigits (show 0 < 4 by omega)
      (show year.natAbs < 10 ^ 4 by omega) hends
    rw [List.nil_append, takeYear_digits hdigits hne, hnumber]
    simp only [Option.map_some, Int.natAbs_of_nonneg hplain.1]
  · split
    · rename_i hnegative
      have hyear : -(year.natAbs : Int) = year := by omega
      simp only [List.cons_append, List.nil_append, takeYear, hsigned, Option.map_some, hyear]
    · have hyear : (year.natAbs : Int) = year := by omega
      simp only [List.cons_append, List.nil_append, takeYear, hsigned, Option.map_some, hyear]

theorem trimFront_yearChars (year : Int) :
    trimFront (yearChars year ++ rest) = yearChars year ++ rest := by
  rw [yearChars]
  split
  · exact trimFront_digits (fun c hc => isDigit_of_mem_paddedDigits hc) (paddedDigits_ne_nil _ _)
  · split
    · exact trimFront_cons _ rfl
    · exact trimFront_cons _ rfl

/-! ## Dates -/

theorem Date.toList_text (date : Date) :
    date.text.toList = yearChars date.year ++
      '-' :: (paddedDigits 2 date.month ++ '-' :: (paddedDigits 2 date.day ++ [])) := by
  rw [Date.text, yearChars]
  split
  · simp
  · split <;> simp

theorem daysInMonth_le (year : Int) (month : Nat) : daysInMonth year month ≤ 31 := by
  unfold daysInMonth
  split
  · split <;> omega
  · split <;> omega

theorem Date.ofYmd?_self (date : Date) :
    Date.ofYmd? date.year date.month date.day = some date := dif_pos date.isDay

theorem Date.parse?_text (date : Date) : Date.parse? date.text = some date := by
  obtain ⟨-, ⟨-, hmonth⟩, -, hday⟩ := date.isDay
  have hdays := daysInMonth_le date.year date.month
  have hmonth := takeNumber_paddedDigits (show 0 < 2 by omega) (show date.month < 10 ^ 2 by omega)
    (endsDigits_cons (paddedDigits 2 date.day ++ []) (show ('-' : Char).isDigit = false from rfl))
  have hday := takeNumber_paddedDigits (show 0 < 2 by omega) (show date.day < 10 ^ 2 by omega)
    endsDigits_nil
  rw [Date.parse?, date.toList_text, trimFront_yearChars, takeYear_yearChars]
  simp only [Option.bind_eq_bind, Option.bind_some, takeHyphen_paddedDigits, hmonth, hday]
  exact date.ofYmd?_self

end CriteriaQuery.Calendar
