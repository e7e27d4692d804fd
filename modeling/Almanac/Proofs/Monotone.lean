import Almanac.Proofs.Order

/-!
# Addition keeps the order

A duration that is added leads from one day of a month, the first or the last, to a day, and the
result is the month of that day. Where the years of a duration come to the same number of months
from everywhere, a later month is led to a later one, and no day that is cut off there brings it
back before the end of an earlier one. So months that are moved by one duration keep their order.

* `YearMonth.countReached`: the day count that a duration leads to; `YearMonth.countReached_bounds`:
  the month that it lies in, but for the weeks and days.
* `YearMonth.hasDay_of_add`: **the sum is the month of the day that is reached**, which determines
  it.
* `YearMonth.countReached_le`: the days that are reached come in the order of the months.
* `YearMonth.add_keeps_order`: **a duration that is added or subtracted keeps the order** of two
  months.
-/

namespace Almanac

namespace Calendar

variable {c : Calendar} {years : Int}

/-- Years and months are a number of months, the same from every month, unless years are counted in
the Hebrew calendar. -/
theorem exists_monthAfter (h : c ≠ hebrew ∨ years = 0) (months : Int) :
    ∃ n, ∀ {year month}, c.HasMonth year month →
      c.monthAfter year month years months = c.monthIndex year month + n := by
  rcases h with hne | rfl
  · obtain ⟨k, hk⟩ := exists_monthsPerYear hne
    refine ⟨years * k + months, ?_⟩
    intro year month hm
    exact monthAfter_of_monthsPerYear hk hm years months
  · refine ⟨months, ?_⟩
    intro year month hm
    exact monthAfter_zero hm months

end Calendar

namespace YearMonth

variable {a b r s ym : YearMonth} {d : Duration} {overflow : Overflow}

/-- The day count that a duration leads to, a day that its month has not being cut off. -/
def countReached (ym : YearMonth) (d : Duration) : Int :=
  ym.calendar.countAfter ⟨ym.reading.year, ym.reading.month, ym.dayMoved d⟩ d.spanOfDays

/-- The day that is reached lies, but for the weeks and days, in the month that the years and months
lead to. -/
theorem countReached_bounds (ym : YearMonth) (d : Duration) {i : Int}
    (hi : ym.calendar.monthAfter ym.reading.year ym.reading.month d.years d.months = i) :
    ym.calendar.monthStart i + d.spanOfDays.dayCount ≤ ym.countReached d ∧
      ym.countReached d < ym.calendar.monthStart (i + 1) + d.spanOfDays.dayCount := by
  have hday := ym.one_le_dayMoved d
  have hlen := ym.calendar.one_le_monthLength i
  have hcount : ym.countReached d = ym.calendar.monthStart i +
      (min (ym.dayMoved d) (ym.calendar.monthLength i) - 1) + d.spanOfDays.dayCount := by
    rw [← hi]
    rfl
  rw [hcount, Calendar.monthStart_succ]
  omega

/-- **The sum is the month of the day that is reached.** -/
theorem hasDay_of_add (h : ym.add d .constrain = .ok r) :
    r.calendar = ym.calendar ∧ r.HasDay (.ofEpochDay (ym.countReached d)) := by
  obtain ⟨origin, hv, hl, hdate, h⟩ := exists_origin h
  obtain ⟨reached, hreached, hfields⟩ := bind_eq_ok h
  have hyear := Calendar.yearInWords_of_small (c := ym.calendar) hv
    (IsoDate.monthInLimits_of_inLimits hl) d.small_spanOfDays
  obtain ⟨rfl, hl'⟩ := Calendar.add_spec hv (IsoDate.fitsWord_of_date hv hl) hyear hdate hreached
  have hvalid := (IsoDate.ofEpochDay_spec (ym.countReached d)).1
  obtain ⟨hc, hread⟩ := reading_of_fieldsOf hvalid (IsoDate.monthInLimits_of_inLimits hl')
    (by decide) (by decide) hfields
  refine ⟨hc, hvalid, ?_, ?_⟩
  · rw [hc, hread]
  · rw [hc, hread]

/-- **The days that are reached come in the order of the months**, unless years are counted in the
Hebrew calendar. -/
theorem countReached_le (hc : a.calendar = b.calendar) (hkept : a.calendar ≠ .hebrew ∨ d.years = 0)
    (h : a.index ≤ b.index) : a.countReached d ≤ b.countReached d := by
  rcases h.lt_or_eq with hlt | heq
  · obtain ⟨n, hn⟩ := Calendar.exists_monthAfter hkept d.months
    have ha : a.countReached d < a.calendar.monthStart (a.index + n + 1) + d.spanOfDays.dayCount :=
      (a.countReached_bounds d (hn a.hasDate_reading.1)).2
    rw [hc] at ha hn
    have hb : b.calendar.monthStart (b.index + n) + d.spanOfDays.dayCount ≤ b.countReached d :=
      (b.countReached_bounds d (hn b.hasDate_reading.1)).1
    -- the earlier month is led to an earlier month, which ends before the later one begins
    have hstart : b.calendar.monthStart (a.index + n + 1) ≤ b.calendar.monthStart (b.index + n) :=
      Calendar.monthStart_le_iff.2 (by omega)
    omega
  · -- the months are the same, and so is the day that is moved
    obtain ⟨hyear, hmonth⟩ := Calendar.monthIndex_inj a.hasDate_reading.1 (hc ▸ b.hasDate_reading.1)
      (by rw [index, index, ← hc] at heq; exact heq)
    rw [countReached, countReached, dayMoved, dayMoved, hyear, hmonth, hc]

/-- Two sums of one duration come in the order of the months that it is added to. -/
theorem compare_add_nonpos (hc : a.calendar = b.calendar)
    (hkept : a.calendar ≠ .hebrew ∨ d.years = 0) (h : a.compare b ≤ 0)
    (hr : a.add d .constrain = .ok r) (hs : b.add d .constrain = .ok s) :
    r.compare s ≤ 0 := by
  obtain ⟨hrc, hrday⟩ := hasDay_of_add hr
  obtain ⟨hsc, hsday⟩ := hasDay_of_add hs
  have hcount := countReached_le hc hkept (index_le_of_compare hc h)
  have hrs : r.calendar = s.calendar := hrc.trans (hc.trans hsc.symm)
  have hindex : r.index ≤ s.index := by
    by_contra hlt
    have hbefore := lt_of_index_lt hrs.symm (not_le.1 hlt) hsday hrday
    rw [← IsoDate.count_lt_iff hsday.valid hrday.valid, IsoDate.count_ofEpochDay,
      IsoDate.count_ofEpochDay] at hbefore
    omega
  rw [compare_eq_sign hrs (isCanonical_of_add hr).2 (isCanonical_of_add hs).2]
  exact Int.sign_nonpos_iff.2 (by omega)

/-- **A duration that is added or subtracted keeps the order** of two months of one calendar,
whichever days they are held by and however many days are cut off and counted on, if both results
exist. In the Hebrew calendar, whose years have twelve or thirteen months, this is said of the
durations without years. -/
theorem add_keeps_order {v o : Value} (hc : a.calendar = b.calendar) (hle : a.compare b ≤ 0)
    (hd : v.toDuration = .ok d) (ho : o.toOverflow = .ok .constrain)
    (hkept : a.calendar ≠ .hebrew ∨ d.years = 0) :
    (∀ r s, a.addFrom v o = .ok r → b.addFrom v o = .ok s → r.compare s ≤ 0) ∧
      (∀ r s, a.subtractFrom v o = .ok r → b.subtractFrom v o = .ok s → r.compare s ≤ 0) := by
  constructor
  · intro r s hr hs
    simp only [addFrom, hd, ho, bind, Except.bind] at hr hs
    exact compare_add_nonpos hc hkept hle hr hs
  · intro r s hr hs
    simp only [subtractFrom, hd, ho, bind, Except.bind] at hr hs
    -- the opposite duration has no years either
    have hkept' : a.calendar ≠ .hebrew ∨ (-d).years = 0 := by
      refine hkept.imp_right fun hzero => ?_
      change -d.years = 0
      omega
    exact compare_add_nonpos hc hkept' hle hr hs

/-- A Hebrew month of thirty days. -/
def sivan5783 : YearMonth where
  anchor := ⟨2023, 5, 21⟩
  calendar := .hebrew

/-- The month after it, of twenty-nine days. -/
def tammuz5783 : YearMonth where
  anchor := ⟨2023, 6, 20⟩
  calendar := .hebrew

/-- Months, weeks, days and time back from the last day of the longer month and from that of the
shorter one. -/
theorem add_keeps_order_sivan5783 :
    sivan5783.IsCanonical ∧ tammuz5783.IsCanonical ∧ sivan5783.compare tammuz5783 ≤ 0 ∧
      ∃ r s, sivan5783.subtractFrom (.text "P1M3W8DT24H") .null = .ok r ∧
        tammuz5783.subtractFrom (.text "P1M3W8DT24H") .null = .ok s ∧ r.compare s ≤ 0 := by
  have hd : (Value.text "P1M3W8DT24H").toDuration =
      .ok { months := 1, weeks := 3, days := 8, hours := 24 } := by decide +kernel
  have hcanonical : sivan5783.IsCanonical ∧ tammuz5783.IsCanonical := by decide +kernel
  have hle : sivan5783.compare tammuz5783 ≤ 0 := by decide
  have hback : (sivan5783.subtractFrom (.text "P1M3W8DT24H") .null).isOk = true := by decide +kernel
  have hback' : (tammuz5783.subtractFrom (.text "P1M3W8DT24H") .null).isOk = true := by
    decide +kernel
  obtain ⟨r, hr⟩ := exists_of_isOk hback
  obtain ⟨s, hs⟩ := exists_of_isOk hback'
  have hkeeps :=
    add_keeps_order (a := sivan5783) (b := tammuz5783) (o := .null) rfl hle hd rfl (.inr rfl)
  exact ⟨hcanonical.1, hcanonical.2, hle, r, s, hr, hs, hkeeps.2 r s hr hs⟩

end YearMonth

end Almanac
