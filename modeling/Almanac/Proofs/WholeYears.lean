import Almanac.Proofs.FirstDay

/-!
# The years between two months

The search for the years of a difference ends at the last year whose month is not past the target,
and the months that are left do not come to another year. Between two first days nothing else is
left.

* `DateSpan.heading`: the direction in which a span leads.
* `Calendar.FillsNoYear`: years and months towards a month, of which the months do not come to a
  year.
* `Calendar.fillsNoYear_difference`: **the difference of two first days is such a span**.
-/

namespace Almanac

/-- The sign of the direction in which a span leads; one of no length leads forwards. -/
def DateSpan.heading (span : DateSpan) : Int := if span.sign < 0 then -1 else 1

theorem DateSpan.heading_cases (span : DateSpan) : span.heading = 1 ∨ span.heading = -1 := by
  unfold heading
  split
  · exact .inr rfl
  · exact .inl rfl

/-- The years and months of a span alone. -/
def DateSpan.upToMonths (span : DateSpan) : DateSpan :=
  { years := span.years, months := span.months }

/-- The sign of years and months that lead in one direction. -/
theorem DateSpan.sign_eq {span : DateSpan} {s : Int} (hs : s = 1 ∨ s = -1)
    (hyears : 0 ≤ s * span.years) (hmonths : 0 ≤ s * span.months)
    (hne : span.years ≠ 0 ∨ span.months ≠ 0) : span.sign = s := by
  have hsign : ∀ x, 0 ≤ s * x → x ≠ 0 → x.sign = s := by
    intro x hx hx0
    rcases hs with rfl | rfl
    · exact Int.sign_eq_one_of_pos (by omega)
    · exact Int.sign_eq_neg_one_of_neg (by omega)
  unfold sign
  split
  · next h => exact hsign _ hyears h
  · next h =>
    have hm := hne.resolve_left h
    rw [if_pos hm]
    exact hsign _ hmonths hm

namespace Calendar

variable {c : Calendar} {year month year' month' sign : Int}
  {one two : IsoDate} {largest : TimeUnit} {span : DateSpan}

/-- Years and months that lead towards a month, the months of which do not come to another year, if
years are counted at all. -/
structure FillsNoYear (c : Calendar) (year month target : Int) (largest : TimeUnit)
    (span : DateSpan) : Prop where
  leads : c.monthAfter year month span.years span.months = target
  years_nonneg : 0 ≤ span.heading * span.years
  months_nonneg : 0 ≤ span.heading * span.months
  fillsNoYear : largest = .year →
    span.heading * target < span.heading * c.monthAfter year month (span.years + span.heading) 0

theorem count_first (hv : one.Valid) (hone : c.dateOf one = ⟨year, month, 1⟩) :
    one.count = c.monthStart (c.monthIndex year month) := by
  have hd : c.HasDate ⟨year, month, 1⟩ := hone ▸ hasDate_dateOf hv
  rw [← epochDay_dateOf (c := c) hv, hone, monthStart_monthIndex hd.1]

theorem fillsNoYear_zero (h : c.HasMonth year month) (largest : TimeUnit) :
    c.FillsNoYear year month (c.monthIndex year month) largest {} where
  leads := (monthAfter_zero h 0).trans (Int.add_zero _)
  years_nonneg := le_rfl
  months_nonneg := le_rfl
  fillsNoYear := by
    intro _
    have hlt := strictMono_monthAfter h (show (0 : Int) < 1 by decide)
    simp only [monthAfter_zero h, Int.add_zero] at hlt
    exact Int.mul_lt_mul_of_pos_left hlt (by decide)

/-- Years and months in the direction of a month, that are all of the way there. -/
theorem fillsNoYear_of_sign (hs : sign = 1 ∨ sign = -1) (h : c.HasMonth year month) {target : Int}
    (hne : c.monthIndex year month ≠ target)
    (hleads : c.monthAfter year month span.years span.months = target)
    (hyears : 0 ≤ sign * span.years) (hmonths : 0 ≤ sign * span.months)
    (hfills : largest = .year →
      sign * target < sign * c.monthAfter year month (span.years + sign) 0) :
    c.FillsNoYear year month target largest span.upToMonths ∧ span.upToMonths.sign = sign ∧
      span.sign = sign := by
  have hne₀ : span.years ≠ 0 ∨ span.months ≠ 0 := by
    by_contra hboth
    obtain ⟨hy, hm⟩ := not_or.1 hboth
    rw [not_not] at hy hm
    rw [hy, hm, monthAfter_zero h, Int.add_zero] at hleads
    exact hne hleads
  have hsign : span.upToMonths.sign = sign := DateSpan.sign_eq hs hyears hmonths hne₀
  have hheading : span.upToMonths.heading = sign := by
    rw [DateSpan.heading, hsign]
    rcases hs with rfl | rfl <;> rfl
  rw [← hheading] at hyears hmonths hfills
  exact ⟨⟨hleads, hyears, hmonths, hfills⟩, hsign,
    DateSpan.sign_eq hs (hheading ▸ hyears) (hheading ▸ hmonths) hne₀⟩

/-- **The difference of two first days** leads from the month of the one towards the month of the
other, and has the sign of their order. -/
theorem fillsNoYear_difference (hv : one.Valid) (hv' : two.Valid) (hy : one.YearFits)
    (hy' : two.YearFits) (hone : c.dateOf one = ⟨year, month, 1⟩)
    (htwo : c.dateOf two = ⟨year', month', 1⟩) (hl : largest = .year ∨ largest = .month)
    (hspan : c.difference one two largest = .ok span) :
    c.FillsNoYear year month (c.monthIndex year' month') largest span.upToMonths ∧
      span.upToMonths.sign = two.compare one ∧ span.sign = two.compare one := by
  have h : c.HasMonthOf ⟨year, month, 1⟩ := (hone ▸ hasDate_dateOf hv : c.HasDate _).hasMonthOf
  have hm : c.HasMonth year month := h.month
  by_cases hzero : two.compare one = 0
  · obtain rfl := IsoDate.compare_eq_zero_iff.1 hzero
    obtain ⟨rfl, rfl, -⟩ := YearMonthDay.mk.inj (hone.symm.trans htwo)
    obtain rfl : {} = span := by
      rwa [difference_self, Except.ok.injEq] at hspan
    exact ⟨fillsNoYear_zero hm largest, hzero.symm, hzero.symm⟩
  · have hread := (read_of_fitsWord hv (hy.fitsWord_count hv)).trans (congrArg _ hone)
    have hread' := (read_of_fitsWord hv' (hy'.fitsWord_count hv')).trans (congrArg _ htwo)
    have hleads := (difference_firstDays hv hv' hread hread' hl hspan).1
    have hmeasures := measures_difference hv hv' hy hy' hzero hl hspan
    have hs := (IsoDate.compare_cases two one).resolve_left hzero
    have horder := position_lt_of_compare (c := c) hv hv' hzero
    rw [hone, htwo] at hmeasures horder
    generalize two.compare one = sign at *
    have hne : c.monthIndex year month ≠ c.monthIndex year' month' := by
      intro hsame
      rw [position, position, hsame] at horder
      exact lt_irrefl _ horder
    have hyears : 0 ≤ sign * span.years := by
      rcases hl with rfl | rfl
      · exact (hmeasures.years_isLast rfl).nonneg
      · rw [hmeasures.years_eq_zero (by decide), Int.mul_zero]
    refine fillsNoYear_of_sign hs hm hne hleads hyears hmeasures.months_isLast.nonneg ?_
    intro hl
    have hbeyond := (hmeasures.years_isLast hl).beyond
    simp only [position_yearsLater h] at hbeyond
    simp only [position] at hbeyond
    rcases hs with rfl | rfl <;> omega

end Calendar

end Almanac
