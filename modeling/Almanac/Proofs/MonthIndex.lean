import Almanac.Calendar.Structure
import Almanac.Proofs.Hebrew.YearLength
import Mathlib.Order.Monotone.Basic

/-!
# Running month numbers

In every calendar the months form one sequence. All that the nine calendars have in common here is
that the numbers go on by one within a year (`monthIndex_eq`) and from a year to the next
(`monthIndex_succ_year`).

* `monthOfIndex_spec`: the month of a number exists and has that number.
* `monthOfIndex_monthIndex`: the number of a month leads back to it.
* `monthIndex_lt_iff`: the numbers have the order of the months.
* `nextMonth`, `nextMonth_spec`: the month after a month has the next number.
* `months_numbered_in_order`: **the months are the integers**, in their order and without a gap.
-/

namespace Almanac.Calendar

variable {c : Calendar}

theorem monthsInYear_bounds (c : Calendar) (year : Int) :
    12 ≤ c.monthsInYear year ∧ c.monthsInYear year ≤ 13 := by
  cases c <;> simp [monthsInYear, monthsPerYear?, Hebrew.monthsInYear]
  split <;> omega

/-- Within a year the running numbers go on by one. -/
theorem monthIndex_eq (c : Calendar) (year month : Int) :
    c.monthIndex year month = c.monthIndex year 1 + (month - 1) := by
  cases c <;> simp only [monthIndex, monthsPerYear?, Hebrew.indexOfMonth] <;> ring

/-- The next year begins after the last month of a year. -/
theorem monthIndex_succ_year (c : Calendar) (year : Int) :
    c.monthIndex (year + 1) 1 = c.monthIndex year 1 + c.monthsInYear year := by
  cases c
  case hebrew =>
    simp only [monthIndex, monthsPerYear?, Hebrew.indexOfMonth, monthsInYear, Option.getD_none,
      Hebrew.monthsBefore_succ]
    ring
  all_goals
    simp only [monthIndex, monthsPerYear?, monthsInYear, Option.getD_some]
    ring

theorem monthIndex_year_le (c : Calendar) {year year' : Int} (h : year ≤ year') :
    c.monthIndex year 1 ≤ c.monthIndex year' 1 := by
  refine monotone_int_of_le_succ (f := fun year => c.monthIndex year 1) ?_ h
  intro year
  have := (c.monthsInYear_bounds year).1
  rw [monthIndex_succ_year]
  omega

/-- **The month of a running number** exists and has that number. -/
theorem monthOfIndex_spec (c : Calendar) (i : Int) :
    c.HasMonth (c.monthOfIndex i).1 (c.monthOfIndex i).2 ∧
      c.monthIndex (c.monthOfIndex i).1 (c.monthOfIndex i).2 = i := by
  cases c
  case hebrew =>
    obtain ⟨h₁, h₂⟩ := Hebrew.monthsBefore_yearOfIndex_bounds i
    rw [Hebrew.monthsBefore_succ] at h₂
    simp only [HasMonth, monthOfIndex, monthIndex, monthsPerYear?, Hebrew.monthOfIndex,
      Hebrew.indexOfMonth, monthsInYear, Option.getD_none]
    omega
  all_goals
    simp only [HasMonth, monthOfIndex, monthIndex, monthsPerYear?, monthsInYear, Option.getD_some]
    omega

/-- A running number lies in its year. -/
theorem monthIndex_year_bounds {year month : Int} (h : c.HasMonth year month) :
    c.monthIndex year 1 ≤ c.monthIndex year month ∧
      c.monthIndex year month < c.monthIndex (year + 1) 1 := by
  rw [monthIndex_succ_year, monthIndex_eq c year month]
  have := h.1
  have := h.2
  omega

/-- **The running numbers have the order of the months.** -/
theorem monthIndex_lt_iff {y m y' m' : Int} (h : c.HasMonth y m) (h' : c.HasMonth y' m') :
    c.monthIndex y m < c.monthIndex y' m' ↔ y < y' ∨ y = y' ∧ m < m' := by
  have hb := monthIndex_year_bounds h
  have hb' := monthIndex_year_bounds h'
  rcases lt_trichotomy y y' with hy | rfl | hy
  · have := c.monthIndex_year_le (show y + 1 ≤ y' by omega)
    omega
  · rw [monthIndex_eq c y m, monthIndex_eq c y m']
    omega
  · have := c.monthIndex_year_le (show y' + 1 ≤ y by omega)
    omega

/-- A month is determined by its running number. -/
theorem monthIndex_inj {y m y' m' : Int} (h : c.HasMonth y m) (h' : c.HasMonth y' m')
    (he : c.monthIndex y m = c.monthIndex y' m') : y = y' ∧ m = m' := by
  have h₁ := monthIndex_lt_iff h h'
  have h₂ := monthIndex_lt_iff h' h
  omega

theorem monthOfIndex_monthIndex {year month : Int} (h : c.HasMonth year month) :
    c.monthOfIndex (c.monthIndex year month) = (year, month) := by
  obtain ⟨hm, he⟩ := c.monthOfIndex_spec (c.monthIndex year month)
  obtain ⟨h₁, h₂⟩ := monthIndex_inj hm h he
  exact Prod.ext h₁ h₂

/-- The month after a month: the next one of its year, or the first one of the next year. -/
def nextMonth (c : Calendar) (year month : Int) : Int × Int :=
  if month < c.monthsInYear year then (year, month + 1) else (year + 1, 1)

/-- **The next month** exists and has the next running number. -/
theorem nextMonth_spec {year month : Int} (h : c.HasMonth year month) :
    c.HasMonth (c.nextMonth year month).1 (c.nextMonth year month).2 ∧
      c.monthIndex (c.nextMonth year month).1 (c.nextMonth year month).2 =
        c.monthIndex year month + 1 := by
  obtain ⟨h₁, h₂⟩ := h
  unfold nextMonth
  split
  · next hlt =>
    refine ⟨⟨by omega, hlt⟩, ?_⟩
    rw [monthIndex_eq c year (month + 1), monthIndex_eq c year month]
    omega
  · next hlast =>
    have hlen := (c.monthsInYear_bounds (year + 1)).1
    refine ⟨⟨le_rfl, le_trans (show (1 : Int) ≤ 12 by decide) hlen⟩, ?_⟩
    rw [monthIndex_succ_year, monthIndex_eq c year month]
    omega

theorem monthOfIndex_succ (c : Calendar) (i : Int) :
    c.monthOfIndex (i + 1) = c.nextMonth (c.monthOfIndex i).1 (c.monthOfIndex i).2 := by
  obtain ⟨hm, hi⟩ := c.monthOfIndex_spec i
  obtain ⟨hnext, hsucc⟩ := nextMonth_spec hm
  rw [hi] at hsucc
  rw [← hsucc, monthOfIndex_monthIndex hnext]

/-- **The months of a calendar are the integers.** The running number of a month leads back to it,
every integer is the running number of a month, an earlier month has a smaller number, and the next
month, in the same year or at the beginning of the next one, has the next number. -/
theorem months_numbered_in_order (c : Calendar) :
    (∀ year month, c.HasMonth year month →
      c.monthOfIndex (c.monthIndex year month) = (year, month)) ∧
    (∀ i, c.HasMonth (c.monthOfIndex i).1 (c.monthOfIndex i).2 ∧
      c.monthIndex (c.monthOfIndex i).1 (c.monthOfIndex i).2 = i) ∧
    (∀ y m y' m', c.HasMonth y m → c.HasMonth y' m' →
      (c.monthIndex y m < c.monthIndex y' m' ↔ y < y' ∨ y = y' ∧ m < m')) ∧
    ∀ year month, c.HasMonth year month →
      c.HasMonth (c.nextMonth year month).1 (c.nextMonth year month).2 ∧
        c.monthIndex (c.nextMonth year month).1 (c.nextMonth year month).2 =
          c.monthIndex year month + 1 := by
  refine ⟨?_, c.monthOfIndex_spec, ?_, ?_⟩
  · intro year month h
    exact monthOfIndex_monthIndex h
  · intro y m y' m' h h'
    exact monthIndex_lt_iff h h'
  · intro year month h
    exact nextMonth_spec h

/-- The leap month of the Hebrew year 5784, and the end of the leap year before the first year. -/
theorem months_numbered_adarI5784 :
    hebrew.monthOfIndex (hebrew.monthIndex 5784 6) = (5784, 6) ∧
      hebrew.nextMonth 0 13 = (1, 1) ∧ hebrew.monthIndex 1 1 = hebrew.monthIndex 0 13 + 1 ∧
      hebrew.monthIndex 0 13 < hebrew.monthIndex 1 1 := by
  obtain ⟨hback, -, horder, hnext⟩ := months_numbered_in_order .hebrew
  exact ⟨hback 5784 6 (by decide), by decide, (hnext 0 13 (by decide)).2,
    (horder 0 13 1 1 (by decide) (by decide)).2 (by decide)⟩

end Almanac.Calendar
