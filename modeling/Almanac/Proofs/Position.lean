import Almanac.Proofs.Search
import Almanac.Proofs.Shift

/-!
# Positions of dates

The years and the months of a difference are searched for on dates whose day need not exist. Such
dates have positions: no month has more than 31 days, so 32 for each month and the day give their
order. Years and then months that lead on from a date lead to later positions.

* `Calendar.position`: the order of dates as numbers; `Calendar.position_lt_iff`,
  `Calendar.surpasses_eq_false_iff`.
* `Calendar.position_yearsLater`, `Calendar.position_monthsLater`: the positions that years and
  months lead to.
* `Calendar.strictMono_yearsLater`, `Calendar.strictMono_monthsLater`: **more of them lead
  further**.
* `Calendar.cutCount`, `Calendar.sign_mul_cutCount_le`: **a day that is cut off to its month** stays
  on its side of every date.
* `Calendar.position_lt_of_compare`: the order of ISO dates.
-/

namespace Almanac

theorem IsoDate.compare_cases (d e : IsoDate) :
    d.compare e = 0 ∨ d.compare e = 1 ∨ d.compare e = -1 := by
  unfold compare
  split
  · exact .inr (.inr rfl)
  · split
    · exact .inr (.inl rfl)
    · exact .inl rfl

namespace Calendar

variable {c : Calendar} {year month year' month' sign : Int} {d e start target : YearMonthDay}

/-- The position of a date, which need not exist, among the dates. -/
def position (c : Calendar) (d : YearMonthDay) : Int := 32 * c.monthIndex d.year d.month + d.day

/-- The year has the month, and some month has the day. -/
structure HasMonthOf (c : Calendar) (d : YearMonthDay) : Prop where
  month : c.HasMonth d.year d.month
  one_le_day : 1 ≤ d.day
  day_le : d.day ≤ 31

theorem HasDate.hasMonthOf (h : c.HasDate d) : c.HasMonthOf d :=
  ⟨h.1, h.2.1, le_trans h.2.2 (c.daysInMonth_le _ _)⟩

/-- **Dates come in the order of their positions.** -/
theorem position_lt_iff (hd : c.HasMonthOf d) (he : c.HasMonthOf e) :
    c.position d < c.position e ↔ d < e := by
  have hlt := monthIndex_lt_iff hd.month he.month
  have hgt := monthIndex_lt_iff he.month hd.month
  have hd₁ := hd.one_le_day
  have hd₂ := hd.day_le
  have he₁ := he.one_le_day
  have he₂ := he.day_le
  rw [YearMonthDay.lt_iff, position, position]
  omega

theorem surpasses_eq_false_iff (hs : sign = 1 ∨ sign = -1) (hd : c.HasMonthOf d)
    (he : c.HasMonthOf e) :
    YearMonthDay.surpasses sign d e = false ↔ sign * c.position d ≤ sign * c.position e := by
  rcases hs with rfl | rfl
  · rw [YearMonthDay.surpasses, if_pos (by decide), decide_eq_false_iff_not,
      ← position_lt_iff he hd]
    omega
  · rw [YearMonthDay.surpasses, if_neg (by decide), decide_eq_false_iff_not,
      ← position_lt_iff hd he]
    omega

theorem monthAfter_years (c : Calendar) (year month years : Int) :
    c.monthAfter year month years 0 =
      c.monthIndex (year + years) (c.monthOfCodeIn (c.monthCode year month) (year + years)) :=
  Int.add_zero _

theorem monthAfter_eq_add (c : Calendar) (year month years months : Int) :
    c.monthAfter year month years months = c.monthAfter year month years 0 + months := by
  rw [monthAfter_years, monthAfter]

/-- The month that years lead to is before or after another as its year is. -/
theorem monthAfter_lt_of_year (h : c.HasMonth year month) (h' : c.HasMonth year' month') (k : Int) :
    (year + k < year' → c.monthAfter year month k 0 < c.monthIndex year' month') ∧
      (year' < year + k → c.monthIndex year' month' < c.monthAfter year month k 0) := by
  have hk := hasMonth_monthOfCodeIn h (year + k)
  rw [monthAfter_years, monthIndex_lt_iff hk h', monthIndex_lt_iff h' hk]
  exact ⟨.inl, .inl⟩

/-- A month that is not before another is not in a year before it. -/
theorem year_le_of_monthIndex_le (h : c.HasMonth year month) (h' : c.HasMonth year' month')
    (hle : c.monthIndex year month ≤ c.monthIndex year' month') : year ≤ year' := by
  by_contra hbefore
  have := (monthIndex_lt_iff h' h).2 (.inl (not_le.1 hbefore))
  omega

/-- **More years lead to a later month.** -/
theorem strictMono_monthAfter (h : c.HasMonth year month) :
    StrictMono fun years => c.monthAfter year month years 0 := by
  intro j k hjk
  have hk := c.monthAfter_years year month k
  simp only [hk]
  exact (monthAfter_lt_of_year h (hasMonth_monthOfCodeIn h (year + k)) j).1 (by omega)

/-- Years and months in one direction do not lead back. -/
theorem monthIndex_le_monthAfter (h : c.HasMonth year month) (hs : sign = 1 ∨ sign = -1)
    {years months : Int} (hy : 0 ≤ sign * years) (hm : 0 ≤ sign * months) :
    sign * c.monthIndex year month ≤ sign * c.monthAfter year month years months := by
  have hyears := (sign_mul_le_iff (strictMono_monthAfter h) hs).2
    (show sign * 0 ≤ sign * years by rw [Int.mul_zero]; exact hy)
  simp only [monthAfter_zero h, Int.add_zero] at hyears
  rw [monthAfter_eq_add, Int.mul_add]
  omega

theorem yearsLater_eq (h : c.HasMonth year month) (day years : Int) :
    c.yearsLater ⟨year, month, day⟩ years =
      ⟨year + years, c.monthOfCodeIn (c.monthCode year month) (year + years), day⟩ := by
  unfold yearsLater
  split
  · next hzero =>
    simp only [hzero, Int.add_zero]
    rw [monthOfCodeIn_monthCode h rfl]
  · rfl

theorem hasMonthOf_yearsLater (h : c.HasMonthOf start) (years : Int) :
    c.HasMonthOf (c.yearsLater start years) := by
  rw [yearsLater_eq h.month]
  exact ⟨hasMonth_monthOfCodeIn h.month _, h.one_le_day, h.day_le⟩

theorem hasMonthOf_monthsLater (h : c.HasMonthOf start) (months : Int) :
    c.HasMonthOf (c.monthsLater start months) :=
  ⟨(c.monthOfIndex_spec _).1, h.one_le_day, h.day_le⟩

theorem position_yearsLater (h : c.HasMonthOf start) (years : Int) :
    c.position (c.yearsLater start years) =
      32 * c.monthAfter start.year start.month years 0 + start.day := by
  rw [yearsLater_eq h.month, position, monthAfter_years]

theorem position_monthsLater (c : Calendar) (start : YearMonthDay) (months : Int) :
    c.position (c.monthsLater start months) = c.position start + 32 * months := by
  obtain ⟨-, hi⟩ := c.monthOfIndex_spec (c.monthIndex start.year start.month + months)
  simp only [position, monthsLater, addMonths, hi]
  ring

/-- The position that years and then months lead to. -/
theorem position_later (h : c.HasMonthOf start) (years months : Int) :
    c.position (c.monthsLater (c.yearsLater start years) months) =
      32 * c.monthAfter start.year start.month years months + start.day := by
  rw [position_monthsLater, position_yearsLater h, monthAfter_eq_add c _ _ years months]
  ring

theorem strictMono_yearsLater (h : c.HasMonthOf start) :
    StrictMono fun years => c.position (c.yearsLater start years) := by
  intro j k hjk
  have hlater : c.monthAfter start.year start.month j 0 < c.monthAfter start.year start.month k 0 :=
    strictMono_monthAfter h.month hjk
  simp only [position_yearsLater h]
  omega

theorem strictMono_monthsLater (c : Calendar) (start : YearMonthDay) :
    StrictMono fun months => c.position (c.monthsLater start months) := by
  intro j k hjk
  simp only [position_monthsLater]
  omega

theorem monthsLater_yearsLater (h : c.HasMonth start.year start.month) (years months : Int)
    {i : Int} (hi : i = c.monthAfter start.year start.month years months) :
    c.monthsLater (c.yearsLater start years) months =
      ⟨(c.monthOfIndex i).1, (c.monthOfIndex i).2, start.day⟩ := by
  rw [yearsLater_eq h, hi]
  rfl

/-- The day count of a day of a month, which is cut off to the month. -/
def cutCount (c : Calendar) (i day : Int) : Int := c.monthStart i + (min day (c.monthLength i) - 1)

/-- A day that has been cut off to an earlier month comes before one that has been cut off to a
later one. -/
theorem cutCount_lt {i j day day' : Int} (hij : i < j) (hday : 1 ≤ day') :
    c.cutCount i day < c.cutCount j day' := by
  have hstart : c.monthStart (i + 1) ≤ c.monthStart j := monthStart_le_iff.2 hij
  have hlen := c.one_le_monthLength j
  rw [monthStart_succ] at hstart
  unfold cutCount
  omega

/-- **A day that is cut off to its month** does not pass a date that it has not passed as it was. -/
theorem sign_mul_cutCount_le (hs : sign = 1 ∨ sign = -1) {i day : Int} (h₁ : 1 ≤ day)
    (h₂ : day ≤ 31) (ht : c.HasDate target) (h : sign * (32 * i + day) ≤ sign * c.position target) :
    sign * c.cutCount i day ≤ sign * c.epochDay target := by
  have hcount :
      c.epochDay target = c.cutCount (c.monthIndex target.year target.month) target.day := by
    rw [cutCount, monthLength_monthIndex ht.1, min_eq_left ht.2.2, ← epochDay_eq_monthStart ht.1]
  have hday := ht.hasMonthOf.one_le_day
  have hday' := ht.hasMonthOf.day_le
  have hlast : target.day ≤ c.monthLength (c.monthIndex target.year target.month) := by
    rw [monthLength_monthIndex ht.1]
    exact ht.2.2
  rw [position] at h
  rw [hcount]
  generalize c.monthIndex target.year target.month = j at h hlast ⊢
  rcases lt_trichotomy i j with hij | rfl | hij
  · have hlt : c.cutCount i day < c.cutCount j target.day := cutCount_lt hij hday
    rcases hs with rfl | rfl <;> omega
  · unfold cutCount
    rcases hs with rfl | rfl <;> omega
  · have hlt : c.cutCount j target.day < c.cutCount i day := cutCount_lt hij h₁
    rcases hs with rfl | rfl <;> omega

theorem position_dateOf_lt_iff {one two : IsoDate} (hv : one.Valid) (hv' : two.Valid) :
    c.position (c.dateOf one) < c.position (c.dateOf two) ↔ one < two := by
  rw [position_lt_iff (hasDate_dateOf hv).hasMonthOf (hasDate_dateOf hv').hasMonthOf,
    dateOf_lt_iff hv hv']

/-- Seen in the direction in which it comes, the second of two dates is behind the first. -/
theorem position_lt_of_compare {one two : IsoDate} (hv : one.Valid) (hv' : two.Valid)
    (hne : two.compare one ≠ 0) :
    two.compare one * c.position (c.dateOf one) < two.compare one * c.position (c.dateOf two) := by
  have hbefore := position_dateOf_lt_iff (c := c) hv' hv
  have hafter := position_dateOf_lt_iff (c := c) hv hv'
  unfold IsoDate.compare at hne ⊢
  split
  · next h =>
    have := hbefore.2 h
    omega
  · split
    · next h =>
      have := hafter.2 h
      omega
    · next h h' => simp [h, h'] at hne

end Calendar

end Almanac
