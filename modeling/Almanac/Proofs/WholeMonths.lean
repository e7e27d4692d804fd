import Almanac.Proofs.Measurable

/-!
# Differences in whole months

The duration from one month to another, unrounded, is the distance of their running numbers: as
months, or, in a calendar whose years have the same number of months, divided into years and months
toward zero. So it depends on the months alone, and changes its sign when they change places.

* `tdiv_tmod_eq`: quotient and remainder toward zero, by their signs and bounds.
* `YearMonth.exact_of_difference`: an unrounded difference leads over whole months and fills no
  year.
* `YearMonth.wholeUnits`: a number of months as years and months.
* `YearMonth.toDurationParts_difference`: **an unrounded difference** is the distance in whole
  units.
* `YearMonth.difference_counts_months`: what this says of a difference and of the one the other way
  round.
-/

namespace Almanac

/-- Quotient and remainder of one sign, the remainder less than the divisor, are those toward
zero. -/
theorem tdiv_tmod_eq {sign n q r k : Int} (hs : sign = 1 ∨ sign = -1) (hk : 0 < k)
    (hn : q * k + r = n) (hq : 0 ≤ sign * q) (hr : 0 ≤ sign * r) (hlt : sign * r < k) :
    n.tdiv k = q ∧ n.tmod k = r := by
  -- the whole number has the sign of its quotient and its remainder
  have hprod : 0 ≤ sign * q * k := Int.mul_nonneg hq hk.le
  have hcomm : k * q = q * k := Int.mul_comm k q
  rcases hs with rfl | rfl
  · rw [Int.one_mul] at hprod hr hlt
    apply (Int.tdiv_tmod_unique (show 0 ≤ n by omega) hk.ne').2
    refine ⟨by omega, hr, by omega⟩
  · rw [Int.neg_one_mul, Int.neg_mul] at hprod
    apply (Int.tdiv_tmod_unique' (show n ≤ 0 by omega) hk.ne').2
    refine ⟨by omega, by omega, by omega⟩

namespace Calendar

variable {c : Calendar} {one two : IsoDate} {span : DateSpan}

/-- No years are counted where months are the largest unit. -/
theorem years_eq_zero_of_difference (hv : one.Valid) (hv' : two.Valid) (hy : one.YearFits)
    (hy' : two.YearFits) (h : c.difference one two .month = .ok span) : span.years = 0 := by
  by_cases hzero : two.compare one = 0
  · obtain rfl := IsoDate.compare_eq_zero_iff.1 hzero
    rw [difference_self] at h
    obtain rfl := Except.ok.inj h
    rfl
  · exact (measures_difference hv hv' hy hy' hzero (.inr rfl) h).years_eq_zero (by decide)

/-- **Years and months between two months**, of which the months fill no year, are quotient and
remainder of the months, where years have the same number of them. -/
theorem FillsNoYear.eq_tdiv {year month target k : Int}
    (h : c.FillsNoYear year month target .year span) (hm : c.HasMonth year month)
    (hk : c.monthsPerYear? = some k) :
    (target - c.monthIndex year month).tdiv k = span.years ∧
      (target - c.monthIndex year month).tmod k = span.months := by
  have hleads := h.leads
  have hfills := h.fillsNoYear rfl
  rw [monthAfter_of_monthsPerYear hk hm] at hleads hfills
  have hsum : span.years * k + span.months = target - c.monthIndex year month := by omega
  -- a year more leads past the target, so that less than a year of months is left
  have hlt : span.heading * span.months < k := by
    rw [Int.add_mul] at hfills
    rcases span.heading_cases with hs | hs <;> rw [hs] at hfills ⊢ <;> omega
  exact tdiv_tmod_eq span.heading_cases
    (monthsPerYear_pos hk) hsum h.years_nonneg h.months_nonneg hlt

end Calendar

namespace YearMonth

variable {a b : YearMonth} {direction : Direction} {options : DifferenceOptions} {r : Duration}

/-- Only months whose first days are represented are measured, unless they are anchored alike. -/
theorem inLimits_of_difference (hc : a.calendar = b.calendar) (hne : a.anchor ≠ b.anchor)
    (h : difference direction a b options = .ok r) : a.start.InLimits ∧ b.start.InLimits := by
  by_contra hbeyond
  rw [difference_eq_error hc hne hbeyond] at h
  split at h <;> cases h

/-- **An unrounded difference** leads over whole months to the other month and fills no year. -/
theorem exact_of_difference (ha : options.Accepted) (hs : options.smallest = .month)
    (hi : options.increment = 1) (hc : a.calendar = b.calendar)
    (h : difference direction a b options = .ok r) :
    ∃ span : DateSpan,
      (r.toward direction).toDurationParts = { years := span.years, months := span.months } ∧
      a.calendar.FillsNoYear a.reading.year a.reading.month b.index options.largest span ∧
      (options.largest = .month → span.years = 0) := by
  by_cases hanchor : a.anchor = b.anchor
  · -- months that are anchored alike are not measured
    have hindex : b.index = a.calendar.monthIndex a.reading.year a.reading.month := by
      rw [index, reading, reading, ← hc, hanchor]
    unfold difference at h
    rw [if_neg (not_not.2 hc), if_pos hanchor] at h
    obtain rfl := Except.ok.inj h
    refine ⟨{}, ?_, ?_, ?_⟩
    · cases direction <;> rfl
    · rw [hindex]
      exact Calendar.fillsNoYear_zero a.hasDate_reading.1 _
    · intro _
      rfl
  · -- the others are measured between their first days
    obtain ⟨ho, ht⟩ := inLimits_of_difference hc hanchor h
    obtain ⟨exact, d, hexact, hparts, hd⟩ :=
      exists_exact_difference ha hs hi hc hanchor ho ht direction
    obtain rfl : d.toward direction = r := Except.ok.inj (hd.symm.trans h)
    have htarget : a.calendar.dateOf b.start = ⟨b.reading.year, b.reading.month, 1⟩ :=
      hc ▸ b.dateOf_start
    have hy := IsoDate.yearFits_of_inLimits ho
    have hy' := IsoDate.yearFits_of_inLimits ht
    have hfills :=
      (Calendar.fillsNoYear_difference a.valid_start b.valid_start hy hy' a.dateOf_start htarget
        ha.largest hexact).1
    rw [hc, ← index, ← hc] at hfills
    refine ⟨exact.upToMonths, ?_, hfills, ?_⟩
    · rw [Duration.toward_toward]
      exact hparts
    · intro hmonth
      rw [hmonth] at hexact
      change exact.years = 0
      exact Calendar.years_eq_zero_of_difference a.valid_start b.valid_start hy hy' hexact

/-- A number of months in units no larger than `largest`, where a year has `k` of them. -/
def wholeUnits (largest : TimeUnit) (k n : Int) : DurationParts :=
  if largest = .year then { years := n.tdiv k, months := n.tmod k } else { months := n }

theorem wholeUnits_neg (largest : TimeUnit) (k n : Int) :
    wholeUnits largest k (-n) = (wholeUnits largest k n).neg := by
  unfold wholeUnits
  split
  · rw [Int.neg_tdiv, Int.neg_tmod]
    rfl
  · rfl

theorem wholeUnits_total (largest : TimeUnit) (k n : Int) :
    (wholeUnits largest k n).years * k + (wholeUnits largest k n).months = n := by
  unfold wholeUnits
  split
  · exact Int.tdiv_mul_add_tmod n k
  · simp only [Int.zero_mul, Int.zero_add]

/-- **An unrounded difference in months** is the distance of the running numbers, in every
calendar. -/
theorem toDurationParts_of_month (ha : options.Accepted) (hs : options.smallest = .month)
    (hi : options.increment = 1) (hc : a.calendar = b.calendar) (hl : options.largest = .month)
    (h : difference direction a b options = .ok r) :
    (r.toward direction).toDurationParts = { months := b.index - a.index } := by
  obtain ⟨span, hparts, hfills, hyears⟩ := exact_of_difference ha hs hi hc h
  have hleads := hfills.leads
  rw [hyears hl, Calendar.monthAfter_zero a.hasDate_reading.1, ← index] at hleads
  rw [hparts, hyears hl, show span.months = b.index - a.index by omega]

/-- **An unrounded difference** is the distance of the running numbers in whole units, where years
have the same number of months. -/
theorem toDurationParts_difference {k : Int} (ha : options.Accepted)
    (hs : options.smallest = .month) (hi : options.increment = 1) (hc : a.calendar = b.calendar)
    (hk : a.calendar.monthsPerYear? = some k) (h : difference direction a b options = .ok r) :
    (r.toward direction).toDurationParts = wholeUnits options.largest k (b.index - a.index) := by
  unfold wholeUnits
  rcases ha.largest with hl | hl
  · obtain ⟨span, hparts, hfills, -⟩ := exact_of_difference ha hs hi hc h
    rw [hl] at hfills
    obtain ⟨hyears, hmonths⟩ := hfills.eq_tdiv a.hasDate_reading.1 hk
    rw [← index] at hyears hmonths
    rw [if_pos hl, hparts, hyears, hmonths]
  · rw [if_neg (by rw [hl]; decide)]
    exact toDurationParts_of_month ha hs hi hc hl h

/-- **The difference the other way round** is the opposite one, and the same one taken backwards. -/
theorem difference_swap {k : Int} {d : Duration} (ha : options.Accepted)
    (hs : options.smallest = .month) (hi : options.increment = 1) (hc : a.calendar = b.calendar)
    (hk : a.calendar.monthsPerYear? = some k) (h : difference .until a b options = .ok d)
    (direction : Direction) :
    difference direction b a options = .ok ((-d).toward direction) := by
  have hlimits : b.anchor = a.anchor ∨ b.start.InLimits ∧ a.start.InLimits := by
    by_cases hanchor : a.anchor = b.anchor
    · exact .inl hanchor.symm
    · exact .inr (inLimits_of_difference hc hanchor h).symm
  obtain ⟨e, he⟩ : ∃ e, difference direction b a options = .ok e :=
    exists_difference ha hs hi hc.symm hlimits
  have hparts : d.toDurationParts = _ := toDurationParts_difference ha hs hi hc hk h
  have hparts' := toDurationParts_difference ha hs hi hc.symm (hc ▸ hk) he
  -- each of them is the distance of the running numbers, which changes its sign
  have hneg : e.toward direction = -d := by
    apply Duration.ext_parts
    change (e.toward direction).toDurationParts = d.toDurationParts.neg
    rw [hparts', hparts, ← wholeUnits_neg, Int.neg_sub]
  rw [he, ← hneg, Duration.toward_toward]

/-- The options of which only the largest unit is given are the same in both directions: nothing is
rounded that a direction could turn round. -/
theorem read_largestUnit_eq (direction : Direction) (u : Value) :
    DifferenceOptions.read direction disallowedUnits .month .year { largestUnit := u } =
      DifferenceOptions.read .until disallowedUnits .month .year { largestUnit := u } := by
  cases direction <;> rfl

/-- **The duration until a month is the distance of the two**, if the largest unit alone is chosen.
As months, it is the difference of their running numbers. In the calendars other than the Hebrew
one, whose years have the same number of months, as years and months it is the quotient and the
remainder of that number, toward zero; years and months come to that number, whichever is the
largest unit; and the duration the other way round is the opposite one, which taken backwards is the
same. -/
theorem difference_counts_months {u : Value} {d : Duration}
    (hread : DifferenceOptions.read .until disallowedUnits .month .year { largestUnit := u } =
      .ok options)
    (hd : a.differenceFrom .until (.yearMonth b) { largestUnit := u } = .ok d) :
    a.calendar = b.calendar ∧
    (options.largest = .month → d.toDurationParts = { months := b.index - a.index }) ∧
    (a.calendar ≠ .hebrew → ∃ k, a.calendar.monthsPerYear? = some k ∧
      (options.largest = .year → d.toDurationParts =
        { years := (b.index - a.index).tdiv k, months := (b.index - a.index).tmod k }) ∧
      d.years * k + d.months = b.index - a.index ∧
      b.differenceFrom .until (.yearMonth a) { largestUnit := u } = .ok (-d) ∧
      b.differenceFrom .since (.yearMonth a) { largestUnit := u } = .ok d) := by
  obtain ⟨ha, -⟩ := DifferenceOptions.read_eq_ok hread
  obtain ⟨-, hs, hi⟩ := read_largestUnit hread
  rw [differenceFrom_eq hread] at hd
  have hc := (monthAfter_difference ha.largest hs hi hd).1
  refine ⟨hc, ?_, ?_⟩
  · intro hl
    exact toDurationParts_of_month ha hs hi hc hl hd
  intro hne
  obtain ⟨k, hk⟩ := Calendar.exists_monthsPerYear hne
  have hparts : d.toDurationParts = _ := toDurationParts_difference ha hs hi hc hk hd
  refine ⟨k, hk, ?_, ?_, ?_, ?_⟩
  · intro hl
    rw [hparts, wholeUnits, if_pos hl]
  · rw [hparts]
    exact wholeUnits_total _ _ _
  · rw [differenceFrom_eq hread]
    exact difference_swap ha hs hi hc hk hd .until
  · rw [differenceFrom_eq ((read_largestUnit_eq .since u).trans hread),
      difference_swap ha hs hi hc hk hd .since]
    exact congrArg Except.ok (Duration.toward_toward d .since)

/-- The eleventh month of a Coptic year, held by its fifteenth day. -/
def midEpep1737 : YearMonth where
  anchor := ⟨2021, 7, 22⟩
  calendar := .coptic

/-- Twenty-seven months back, where a year has thirteen, and the other way round. -/
theorem difference_counts_months_mesori1739 :
    ∃ options d,
      DifferenceOptions.read .until disallowedUnits .month .year { largestUnit := .text "years" } =
        .ok options ∧
      options.largest = .year ∧
      mesori1739.differenceFrom .until (.yearMonth midEpep1737) { largestUnit := .text "years" } =
        .ok d ∧
      d.toDurationParts = { years := -2, months := -1 } ∧
      midEpep1737.differenceFrom .until (.yearMonth mesori1739) { largestUnit := .text "years" } =
        .ok (-d) ∧
      midEpep1737.differenceFrom .since (.yearMonth mesori1739) { largestUnit := .text "years" } =
        .ok d := by
  have hread :
      DifferenceOptions.read .until disallowedUnits .month .year { largestUnit := .text "years" } =
        .ok ⟨.month, .year, .trunc, 1⟩ := by decide +kernel
  have hreturns : (mesori1739.differenceFrom .until (.yearMonth midEpep1737)
      { largestUnit := .text "years" }).isOk = true := by decide +kernel
  obtain ⟨d, hd⟩ := exists_of_isOk hreturns
  obtain ⟨-, -, hcounts⟩ := difference_counts_months hread hd
  obtain ⟨k, hk, hparts, -, hback, hsince⟩ := hcounts (by decide)
  obtain rfl : 13 = k := Option.some.inj hk
  have hapart : midEpep1737.index - mesori1739.index = -27 := by decide
  refine ⟨_, d, hread, rfl, hd, ?_, hback, hsince⟩
  rw [hparts rfl, hapart]
  rfl

end YearMonth

end Almanac
