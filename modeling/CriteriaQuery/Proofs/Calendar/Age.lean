import CriteriaQuery.Proofs.Value.Family

/-! Ages in completed years. Who was born after the day that lies some years back has not completed
these years, and everybody else has (`Date.completedYears_lt_iff`). That holds although the day is
moved back from the end of February in a year that has no leap day: nobody is born in between. -/
namespace CriteriaQuery.Calendar
set_option autoImplicit false

theorem one_le_daysInMonth (year : Int) (month : Nat) : 1 ≤ daysInMonth year month := by
  unfold daysInMonth
  split
  · split <;> omega
  · split <;> omega

namespace Date

theorem earlier_iff {d e : Date} : d.Earlier e ↔ ¬e.Earlier d ∧ d ≠ e := by
  obtain ⟨_, _, _, _⟩ := d
  obtain ⟨_, _, _, _⟩ := e
  simp only [Earlier, ne_eq, mk.injEq]
  omega

/-- The years from one day to another, the last of them only if its day has come. -/
def completedYears (born today : Date) : Int :=
  today.year - born.year -
    if today.month < born.month ∨ today.month = born.month ∧ today.day < born.day then 1 else 0

variable {today born : Date} {n : Nat}

/-- Where the day so many years back is kept, it has the same month and the same day, or the last one
of the month. -/
theorem yearsBefore_eq (h : firstYear + n ≤ today.year) :
    (today.yearsBefore n).year = today.year - n ∧ (today.yearsBefore n).month = today.month ∧
      (today.yearsBefore n).day = min today.day (daysInMonth (today.year - n) today.month) := by
  obtain ⟨⟨-, hlast⟩, ⟨hfirst, hmonth⟩, hday, -⟩ := today.isDay
  have hyear : (today.year * 12 + (today.month - 1 : Int) - (12 * n : Nat)) / 12 =
      today.year - n := by omega
  have hmonths : ((today.year * 12 + (today.month - 1 : Int) - (12 * n : Nat)) % 12).toNat + 1 =
      today.month := by omega
  have hdays := one_le_daysInMonth (today.year - n) today.month
  have hkept : IsDay (today.year - n) today.month
      (min today.day (daysInMonth (today.year - n) today.month)) :=
    ⟨⟨by omega, by omega⟩, ⟨hfirst, hmonth⟩, by omega, by omega⟩
  have hbefore : today.yearsBefore n = ⟨today.year - n, today.month, _, hkept⟩ := by
    unfold yearsBefore monthsBefore?
    simp only [hyear, hmonths]
    rw [ofYmd?, dif_pos hkept, Option.getD_some]
  rw [hbefore]
  exact ⟨rfl, rfl, rfl⟩

theorem completedYears_lt_iff (h : firstYear + n ≤ today.year) (born : Date) :
    born.completedYears today < n ↔ (today.yearsBefore n).Earlier born := by
  obtain ⟨hyear, hmonth, hday⟩ := yearsBefore_eq h
  obtain ⟨-, -, -, hborn⟩ := born.isDay
  rw [Earlier, hyear, hmonth, hday, completedYears]
  rcases Int.lt_trichotomy (today.year - n) born.year with hlt | heq | hgt
  · refine iff_of_true ?_ (Or.inl hlt)
    split <;> omega
  · rw [heq]
    by_cases hsame : today.month = born.month
    · -- a day of birth behind the end of the month would be none of that year
      rw [hsame]
      split <;> omega
    · split <;> omega
  · refine iff_of_false ?_ ?_
    · split <;> omega
    · omega

/-- Who was born on a leap day turns eighteen on the first of March. -/
example : (completedYears ⟨2004, 2, 29, by decide⟩ ⟨2022, 2, 28, by decide⟩,
    completedYears ⟨2004, 2, 29, by decide⟩ ⟨2022, 3, 1, by decide⟩) = (17, 18) := by decide

end Date

end CriteriaQuery.Calendar
