import Almanac.Proofs.DayCount
import Mathlib.Algebra.BigOperators.Group.Finset.Basic
import Mathlib.Algebra.Order.Interval.Finset.SuccPred
import Mathlib.Data.Int.ConditionallyCompleteOrder
import Mathlib.Data.Int.Interval
import Mathlib.Data.Int.SuccPred
import Mathlib.Tactic.Ring

/-!
# The shape of a year

A calendar says of a year how long it is, how long its months are, on which days they begin and
whether the year is a leap year. All of this agrees, in every calendar and for every year.

* `firstOfNext`: the first day of the month that follows a month; `epochDay_firstOfNext`: it comes
  after the last day of the month.
* `sum_daysInMonth_Icc`: the days of the first months of a year, by induction on their number.
* `daysInYear_eq`: **the length of a year** is the distance of two new years.
* `IsLong`: the year has the longer form of its calendar; `isLeap_iff_isLong`: the leap years are
  these.
* `year_is_consistent`: **the shape of a year is consistent**.
-/

namespace Almanac

/-- The new years of the ISO calendar. -/
theorem Iso.epochDay_next_year (year : Int) :
    epochDay (year + 1) 1 1 = epochDay year 1 1 + daysInYear year := by
  rw [epochDay_of_month (by decide), epochDay_of_month (by decide), daysBeforeMonth_one,
    daysBeforeMonth_one, daysBeforeYear_succ]
  ring

namespace Calendar

variable {c : Calendar} {year month : Int}

/-- The first day of the month that follows a month: of the next one of the year, or of the first
one of the next year. -/
def firstOfNext (c : Calendar) (year month : Int) : YearMonthDay :=
  if month < c.monthsInYear year then ⟨year, month + 1, 1⟩ else ⟨year + 1, 1, 1⟩

/-- **A month is followed by the next one** after as many days as it has. -/
theorem epochDay_firstOfNext (h : c.HasMonth year month) :
    c.epochDay (c.firstOfNext year month) =
      c.epochDay ⟨year, month, 1⟩ + c.daysInMonth year month := by
  unfold firstOfNext
  split
  · next hlt => exact epochDay_succ_month h.1 hlt
  · next hlast =>
    obtain rfl : month = c.monthsInYear year := le_antisymm h.2 (not_lt.1 hlast)
    exact epochDay_succ_year c year

theorem firstOfNext_last (c : Calendar) (year : Int) :
    c.firstOfNext year (c.monthsInYear year) = ⟨year + 1, 1, 1⟩ := if_neg (lt_irrefl _)

/-- The first months of a year have as many days as lie before the month that follows them. -/
theorem sum_daysInMonth_Icc (h : c.HasMonth year month) :
    ∑ m ∈ Finset.Icc 1 month, c.daysInMonth year m =
      c.epochDay (c.firstOfNext year month) - c.epochDay ⟨year, 1, 1⟩ := by
  obtain ⟨h₁, h₂⟩ := h
  induction month, h₁ using Int.leInduction with
  | base =>
    rw [Finset.Icc_self, Finset.sum_singleton, epochDay_firstOfNext ⟨le_rfl, h₂⟩]
    ring
  | succ m hm ih =>
    have hbefore := ih (by omega)
    have hnext : c.firstOfNext year m = ⟨year, m + 1, 1⟩ := if_pos (by omega)
    rw [← Finset.insert_Icc_right_eq_Icc_add_one (by omega), Finset.sum_insert (by simp), hbefore,
      hnext, epochDay_firstOfNext ⟨by omega, h₂⟩]
    ring

/-- **The length of a year** is the distance of its new year from the next one. -/
theorem daysInYear_eq (c : Calendar) (year : Int) :
    c.daysInYear year = c.epochDay ⟨year + 1, 1, 1⟩ - c.epochDay ⟨year, 1, 1⟩ := by
  cases c
  case hebrew =>
    simp only [daysInYear, Hebrew.daysInYear, epochDay, Hebrew.dayOfDate]
    rw [show ((1 : Int) - 1).toNat = 0 by decide, Hebrew.daysInMonths, Hebrew.daysInMonths]
    ring
  case coptic | ethiopic =>
    simp only [daysInYear, Coptic.daysInYear, Coptic.isLeap, epochDay, Coptic.dayOfDate,
      decide_eq_true_eq]
    split <;> omega
  case islamicCivil | islamicTabular =>
    have h : 3 + 11 * (year + 1) = 3 + 11 * year + 11 := by ring
    simp only [daysInYear, Islamic.daysInYear, Islamic.isLeap_iff, epochDay, Islamic.dayOfDate, h]
    generalize 3 + 11 * year = s
    split <;> omega
  all_goals
    simp only [daysInYear, epochDay, add_sub_right_comm, Iso.epochDay_next_year]
    ring

/-- The year has the longer form of its calendar: one more day, or in the Hebrew calendar one more
month. -/
def IsLong (c : Calendar) (year : Int) : Prop :=
  match c with
  | hebrew => c.monthsInYear year = 13
  | islamicCivil | islamicTabular => c.daysInYear year = 355
  | _ => c.daysInYear year = 366

/-- **The leap years are the longer ones.** -/
theorem isLeap_iff_isLong (c : Calendar) (year : Int) : c.isLeap year = true ↔ c.IsLong year := by
  cases c
  case hebrew =>
    simp only [isLeap, IsLong, monthsInYear, monthsPerYear?, Option.getD_none, Hebrew.monthsInYear]
    split <;> simp_all
  case coptic | ethiopic =>
    simp only [isLeap, IsLong, daysInYear, Coptic.daysInYear]
    split <;> simp_all
  case islamicCivil | islamicTabular =>
    simp only [isLeap, IsLong, daysInYear, Islamic.daysInYear]
    split <;> simp_all
  all_goals
    simp only [isLeap, IsLong, daysInYear, Iso.daysInYear]
    split <;> simp_all

/-- If the days of a year can be counted in words, so can the first days of its months and the next
new year, since no month begins right behind the words. -/
theorem toEpochDay_first (hw : c.followsIso →
      fitsWord (c.epochDay ⟨year, 1, 1⟩) = true ∧ fitsWord (c.epochDay ⟨year, 12, 31⟩) = true)
    {year' : Int} (hyear : year' = year ∨ year' = year + 1 ∧ month = 1)
    (hm : c.HasMonth year' month) :
    c.toEpochDay ⟨year', month, 1⟩ = .ok (c.epochDay ⟨year', month, 1⟩) := by
  refine toEpochDay_eq (hasDate_first hm) fun hiso => ?_
  obtain ⟨hfirst, hlast⟩ := hw hiso
  have hmonth : 1 ≤ month ∧ month ≤ 12 := ⟨hm.1, monthsInYear_of_followsIso hiso year' ▸ hm.2⟩
  have hne := (Iso.epochDay_first_ne (year' - c.yearOffset) hmonth).2
  change Iso.epochDay (year' - c.yearOffset) month (1 : Int) ≠ _ at hne
  rw [← c.epochDay_of_followsIso hiso ⟨year', month, 1⟩] at hne
  -- the first day of the month lies between the ends of the year, or behind its last day
  have hbounds : c.epochDay ⟨year, 1, 1⟩ ≤ c.epochDay ⟨year', month, 1⟩ ∧
      c.epochDay ⟨year', month, 1⟩ ≤ c.epochDay ⟨year, 12, 31⟩ + 1 := by
    have hdecember : c.daysInMonth year 12 = 31 := by
      rw [daysInMonth_of_followsIso hiso, Iso.daysInMonth]
      simp
    have hmonths := monthsInYear_of_followsIso hiso year
    have hone : c.HasDate ⟨year, 1, 1⟩ := hasDate_first ⟨le_rfl, by omega⟩
    have hlong : c.HasMonth year 12 := ⟨by decide, hmonths.ge⟩
    have hend : c.HasDate ⟨year, 12, 31⟩ := ⟨hlong, (by decide : (1 : Int) ≤ 31), hdecember.ge⟩
    rcases hyear with rfl | ⟨rfl, rfl⟩
    · have hdate := hasDate_first hm
      have hafter := epochDay_lt_iff hdate hone
      have hbefore := epochDay_lt_iff hend hdate
      simp only [YearMonthDay.lt_iff] at hafter hbefore
      omega
    · have hnew := c.epochDay_succ_year year
      have horder := epochDay_lt_iff hend hone
      rw [hmonths, hdecember] at hnew
      rw [c.epochDay_eq year 12 31] at horder ⊢
      simp only [YearMonthDay.lt_iff] at horder
      omega
  rw [fitsWord_iff] at hfirst hlast ⊢
  omega

/-- **The shape of a year is consistent.** Its length is the distance of its new year from the next
one and the sum of the lengths of its months; each month is followed by the next one, and the last
by the first month of the next year, after as many days as it has; and the leap years are the longer
ones. In the calendars that follow the ISO calendar this is said of the years whose days can be
counted in a word. -/
theorem year_is_consistent (c : Calendar) (year : Int)
    (hw : c.followsIso →
      fitsWord (c.epochDay ⟨year, 1, 1⟩) = true ∧ fitsWord (c.epochDay ⟨year, 12, 31⟩) = true) :
    (∃ first next, c.toEpochDay ⟨year, 1, 1⟩ = .ok first ∧
      c.toEpochDay ⟨year + 1, 1, 1⟩ = .ok next ∧ c.daysInYear year = next - first) ∧
    c.daysInYear year = ∑ month ∈ Finset.Icc 1 (c.monthsInYear year), c.daysInMonth year month ∧
    (∀ month, c.HasMonth year month → ∃ first next, c.toEpochDay ⟨year, month, 1⟩ = .ok first ∧
      c.toEpochDay (c.firstOfNext year month) = .ok next ∧
        next = first + c.daysInMonth year month) ∧
    (c.isLeap year = true ↔ c.IsLong year) := by
  have hmonths := c.monthsInYear_bounds year
  have hmonths' := c.monthsInYear_bounds (year + 1)
  have hnew : c.toEpochDay ⟨year + 1, 1, 1⟩ = .ok (c.epochDay ⟨year + 1, 1, 1⟩) :=
    toEpochDay_first hw (.inr ⟨rfl, rfl⟩) ⟨le_rfl, by omega⟩
  refine ⟨?_, ?_, ?_, c.isLeap_iff_isLong year⟩
  · exact ⟨_, _, toEpochDay_first hw (.inl rfl) ⟨le_rfl, by omega⟩, hnew, c.daysInYear_eq year⟩
  · rw [sum_daysInMonth_Icc ⟨by omega, le_rfl⟩, firstOfNext_last, daysInYear_eq]
  · intro month hm
    obtain ⟨h₁, h₂⟩ := hm
    have hnext :
        c.toEpochDay (c.firstOfNext year month) = .ok (c.epochDay (c.firstOfNext year month)) := by
      unfold firstOfNext
      split
      · exact toEpochDay_first hw (.inl rfl) ⟨by omega, by omega⟩
      · exact hnew
    exact ⟨_, _, toEpochDay_first hw (.inl rfl) ⟨h₁, h₂⟩, hnext, epochDay_firstOfNext ⟨h₁, h₂⟩⟩

/-- A leap year of 383 days, and the last year of the Gregorian calendar whose days can be counted
in a word. -/
theorem year_is_consistent_5784 :
    (hebrew.daysInYear 5784 = ∑ month ∈ Finset.Icc 1 13, hebrew.daysInMonth 5784 month ∧
      hebrew.IsLong 5784) ∧
      ∃ first next, gregory.toEpochDay ⟨25252734927768523, 1, 1⟩ = .ok first ∧
        gregory.toEpochDay ⟨25252734927768524, 1, 1⟩ = .ok next ∧
        gregory.daysInYear 25252734927768523 = next - first := by
  obtain ⟨-, hsum, -, hlong⟩ :=
    year_is_consistent .hebrew 5784 (fun hiso => absurd hiso (by decide))
  obtain ⟨hlength, -⟩ := year_is_consistent .gregory 25252734927768523 (fun _ => by decide)
  exact ⟨⟨hsum, hlong.1 (by decide)⟩, hlength⟩

end Calendar

end Almanac
