import Almanac.Proofs.FirstDay
import Almanac.Proofs.Refusal
import Almanac.Proofs.YearMonth
import Almanac.YearMonth.Difference

/-!
# Differences of year-months, added again

A duration of years and months is added to one day of a month, the first or the last, and leads to
the month that the day has nothing to do with. So the duration from one month to another leads from
the one to the other, forwards and backwards.

* `YearMonth.eq_of_firstDay`, `YearMonth.eq_of_lastDayFrom`: the days that a duration is added to.
* `YearMonth.exists_origin`: every addition is two steps from one of them;
  `YearMonth.monthIndex_add`: the month that a duration of years and months leads to.
* `YearMonth.monthAfter_difference`: the duration between two months.
* `YearMonth.add_until`: **the duration until a month, added, gives that month**.
-/

namespace Almanac

namespace YearMonth

variable {ym a b r : YearMonth}

theorem describes_day (ym : YearMonth) (day : Int) :
    ym.calendar.Describes ((ym.fields [.monthCode, .year]).set .day (.number day)) ym.reading.year
      ym.reading.month :=
  (ym.describes_fields [.monthCode, .year] (by decide) (by decide)).set_day _

theorem eq_of_firstDay {first : IsoDate} (h : ym.firstDay = .ok first) :
    first = ym.calendar.isoOf ⟨ym.reading.year, ym.reading.month, 1⟩ ∧ first.InLimits := by
  have hone := min_eq_left (Calendar.one_le_daysInMonth ym.hasDate_reading.1)
  have hd := Calendar.hasDate_first ym.hasDate_reading.1
  have hfirst := (ym.describes_day 1).eq_of_dateOfFields (Record.number?_set_self _ .day 1)
  rw [hone] at hfirst
  exact hfirst hd (fun _ => ym.fitsWord_first) h

/-- The last day of a month, which is found on the way back from the first day of the next one. -/
theorem eq_of_lastDayFrom {first last : IsoDate} (hv : first.Valid) (hfl : first.InLimits)
    (hfirst : ym.calendar.dateOf first = ⟨ym.reading.year, ym.reading.month, 1⟩)
    (h : ym.lastDayFrom first = .ok last) :
    last = ym.calendar.isoOf ⟨ym.reading.year, ym.reading.month,
      ym.calendar.daysInMonth ym.reading.year ym.reading.month⟩ ∧ last.InLimits := by
  obtain ⟨next, hnext, h⟩ := bind_eq_ok h
  obtain ⟨found, hbalance, h⟩ := bind_eq_ok h
  obtain ⟨before, hlimits, h⟩ := bind_eq_ok h
  obtain ⟨date, hdate, hfields⟩ := bind_eq_ok h
  obtain ⟨rfl, hbl⟩ := IsoDate.checkLimits_eq_ok hlimits
  have hm := ym.hasDate_reading.1
  have hyear := Calendar.yearInWords_of_small (c := ym.calendar) hv
    (IsoDate.monthInLimits_of_inLimits hfl) (show DateSpan.Small { months := 1 } by
      constructor <;> decide)
  -- one month on is the first day of the next month, and one day back the last day of this one
  obtain ⟨hnext, hnl⟩ := Calendar.add_spec hv (IsoDate.fitsWord_of_date hv hfl) hyear hfirst hnext
  have hnv : next.Valid := hnext ▸ (IsoDate.ofEpochDay_spec _).1
  rw [Calendar.countAfter, Calendar.monthAfter_zero hm, Calendar.monthStart_succ,
    Calendar.monthLength_monthIndex hm, min_eq_left (Calendar.one_le_monthLength _ _)] at hnext
  have hyears : next.YearFits := IsoDate.yearFits_of_inLimits hnl
  have hbefore : before = ym.calendar.isoOf ⟨ym.reading.year, ym.reading.month,
      ym.calendar.daysInMonth ym.reading.year ym.reading.month⟩ := by
    rw [IsoDate.eq_of_balance (d := { next with day := next.day - 1 }) ⟨hnv.1, hnv.2.1⟩ hyears
        hbalance hbl,
      Int.sub_eq_add_neg, IsoDate.count_add_days, hnext, IsoDate.count_ofEpochDay, Calendar.isoOf,
      Calendar.epochDay_eq_monthStart hm]
    simp only [DateSpan.dayCount]
    congr 1
    omega
  have hlast := Calendar.hasDate_last hm
  have hw : fitsWord before.count = true :=
    IsoDate.fitsWord_of_date (hbefore ▸ Calendar.valid_isoOf _ _) hbl
  have hday : date.day = ym.calendar.daysInMonth ym.reading.year ym.reading.month := by
    rw [Calendar.eq_dateOf (hbefore ▸ Calendar.valid_isoOf _ _) hw hdate, hbefore]
    exact congrArg YearMonthDay.day (Calendar.dateOf_isoOf hlast)
  rw [hbefore, Calendar.count_isoOf] at hw
  dsimp only at hfields
  rw [hday] at hfields
  have hiso := (ym.describes_day (ym.calendar.daysInMonth ym.reading.year
    ym.reading.month)).eq_of_dateOfFields (Record.number?_set_self _ .day _)
  rw [min_self] at hiso
  exact hiso hlast (fun _ => hw) hfields

/-- From whichever day of a month, years and months lead to the first day of one month. -/
theorem monthIndex_of_start {c : Calendar} {year month day : Int} {start : IsoDate}
    (hv : start.Valid) (hw : fitsWord start.count = true)
    (hdate : c.dateOf start = ⟨year, month, day⟩) {span : DateSpan}
    (hyear : c.YearInWords start span) (hdays : span.dayCount = 0) (h : (do
      let reached ← c.add start span .constrain
      ofFields c (c.fieldsOf (c.dateOf reached) (c.fieldsFor [.monthCode, .year])) .constrain) =
        .ok r) :
    r.calendar = c ∧ ∃ year' month', r.anchor = c.isoOf ⟨year', month', 1⟩ ∧
      c.HasMonth year' month' ∧
      c.monthIndex year' month' = c.monthAfter year month span.years span.months := by
  obtain ⟨reached, hreached, hfields⟩ := bind_eq_ok h
  obtain ⟨-, hlimits⟩ := Calendar.add_spec hv hw hyear hdate hreached
  obtain ⟨hvalid, hindex⟩ := Calendar.monthIndex_of_add hv hw hyear hdate hdays hreached
  obtain ⟨hcalendar, hread⟩ := reading_of_fieldsOf hvalid
    (IsoDate.monthInLimits_of_inLimits hlimits) (by decide) (by decide) hfields
  refine ⟨hcalendar, _, _, ?_, (Calendar.hasDate_dateOf hvalid).1, hindex⟩
  rw [← r.isoOf_reading, hcalendar, hread]

/-- The day of a month that a duration is added to: the first, or the last for a duration
backwards. -/
def dayMoved (ym : YearMonth) (d : Duration) : Int :=
  if d.spanOfDays.sign < 0 then ym.calendar.daysInMonth ym.reading.year ym.reading.month else 1

theorem one_le_dayMoved (ym : YearMonth) (d : Duration) : 1 ≤ ym.dayMoved d := by
  unfold dayMoved
  split
  · exact Calendar.one_le_daysInMonth ym.hasDate_reading.1
  · exact le_rfl

/-- **The date that a duration is added to**, and the two steps that are taken from there. -/
theorem exists_origin {d : Duration} {overflow : Overflow} (h : ym.add d overflow = .ok r) :
    ∃ origin, origin.Valid ∧ origin.InLimits ∧
      ym.calendar.dateOf origin = ⟨ym.reading.year, ym.reading.month, ym.dayMoved d⟩ ∧
      (do
        let reached ← ym.calendar.add origin d.spanOfDays overflow
        ofFields ym.calendar (ym.calendar.fieldsOf (ym.calendar.dateOf reached)
          (ym.calendar.fieldsFor [.monthCode, .year])) overflow) = .ok r := by
  have hm := ym.hasDate_reading.1
  have hone := Calendar.dateOf_isoOf (Calendar.hasDate_first hm)
  obtain ⟨first, hfirst, h⟩ := bind_eq_ok h
  obtain ⟨rfl, hl⟩ := eq_of_firstDay hfirst
  dsimp only at h
  unfold dayMoved
  split at h
  · next hsign =>
    obtain ⟨last, hlast, h⟩ := bind_eq_ok h
    obtain ⟨rfl, hl'⟩ := eq_of_lastDayFrom (Calendar.valid_isoOf _ _) hl hone hlast
    rw [if_pos hsign]
    exact ⟨_, Calendar.valid_isoOf _ _, hl', Calendar.dateOf_isoOf (Calendar.hasDate_last hm), h⟩
  · next hsign =>
    rw [if_neg hsign]
    exact ⟨_, Calendar.valid_isoOf _ _, hl, hone, h⟩

/-- **The month that a duration leads to**, if it has neither days nor time: that of its years and
months, counted from the month itself. -/
theorem monthIndex_add {d : Duration} (hdays : d.spanOfDays.dayCount = 0)
    (h : ym.add d .constrain = .ok r) :
    r.calendar = ym.calendar ∧ ∃ year month, r.anchor = ym.calendar.isoOf ⟨year, month, 1⟩ ∧
      ym.calendar.HasMonth year month ∧
      ym.calendar.monthIndex year month = ym.calendar.monthAfter ym.reading.year ym.reading.month
        d.spanOfDays.years d.spanOfDays.months := by
  obtain ⟨origin, hv, hl, hdate, h⟩ := exists_origin h
  have hyear := Calendar.yearInWords_of_small (c := ym.calendar) hv
    (IsoDate.monthInLimits_of_inLimits hl) d.small_spanOfDays
  exact monthIndex_of_start hv (IsoDate.fitsWord_of_date hv hl) hdate hyear hdays h

theorem spanOfDays_of_parts {d : Duration} {years months : Int}
    (h : Duration.ofParts { years, months } = .ok d) : d.spanOfDays = { years, months } := by
  unfold Duration.ofParts at h
  split at h
  · obtain rfl := Except.ok.inj h
    rfl
  · cases h

/-- **The duration between two months**, unrounded, leads from the one to the other. -/
theorem monthAfter_difference {options : DifferenceOptions} {d : Duration}
    (hl : options.largest = .year ∨ options.largest = .month) (hs : options.smallest = .month)
    (hi : options.increment = 1) (h : difference .until a b options = .ok d) :
    a.calendar = b.calendar ∧ d.spanOfDays.dayCount = 0 ∧
      a.calendar.monthAfter a.reading.year a.reading.month d.spanOfDays.years d.spanOfDays.months =
        a.calendar.monthIndex b.reading.year b.reading.month := by
  unfold difference at h
  split at h
  · cases h
  · next hc =>
    have hc : a.calendar = b.calendar := not_not.1 hc
    refine ⟨hc, ?_⟩
    split at h
    · next hanchor =>
      obtain rfl := Except.ok.inj h
      have hread : b.reading = a.reading := by
        rw [reading, reading, hc, hanchor]
      refine ⟨by decide, ?_⟩
      rw [hread]
      exact (Calendar.monthAfter_zero a.hasDate_reading.1 0).trans (Int.add_zero _)
    · obtain ⟨first, hfirst, h⟩ := bind_eq_ok h
      obtain ⟨second, hsecond, h⟩ := bind_eq_ok h
      obtain ⟨span, hspan, h⟩ := bind_eq_ok h
      obtain ⟨parts, hparts, hreturn⟩ := bind_eq_ok h
      obtain rfl : parts = d := Except.ok.inj hreturn
      obtain ⟨measured, hmeasured, hspan⟩ := bind_eq_ok hspan
      obtain ⟨rfl, hl₁⟩ := eq_of_firstDay hfirst
      obtain ⟨rfl, hl₂⟩ := eq_of_firstDay hsecond
      -- whole months are not rounded
      obtain rfl : { years := measured.years, months := measured.months } = span := by
        rw [if_pos ⟨hs, hi⟩] at hspan
        exact Except.ok.inj hspan
      rw [spanOfDays_of_parts hparts]
      have hm := a.hasDate_reading.1
      have hm' : a.calendar.HasMonth b.reading.year b.reading.month := hc ▸ b.hasDate_reading.1
      rw [← hc] at hmeasured hl₂
      have hread {year month : Int} (hm : a.calendar.HasMonth year month)
          (hl : (a.calendar.isoOf ⟨year, month, 1⟩).InLimits) :
          a.calendar.read (a.calendar.isoOf ⟨year, month, 1⟩) = .ok ⟨year, month, 1⟩ :=
        (Calendar.read_eq (Calendar.valid_isoOf _ _) (IsoDate.monthInLimits_of_inLimits hl)).trans
          (congrArg _ (Calendar.dateOf_isoOf (Calendar.hasDate_first hm)))
      have hmeet := Calendar.difference_firstDays (Calendar.valid_isoOf _ _)
        (Calendar.valid_isoOf _ _) (hread hm hl₁) (hread hm' hl₂) hl hmeasured
      exact ⟨rfl, hmeet.1⟩

/-- The options of a difference of which only the largest unit is given. -/
theorem read_largestUnit {u : Value} {options : DifferenceOptions}
    (h : DifferenceOptions.read .until disallowedUnits .month .year { largestUnit := u } =
      .ok options) :
    (options.largest = .year ∨ options.largest = .month) ∧ options.smallest = .month ∧
      options.increment = 1 := by
  obtain ⟨given, -, h⟩ := bind_eq_ok h
  dsimp only at h
  generalize given.getD .auto = choice at h
  cases choice with
  | auto =>
    obtain rfl := Except.ok.inj h
    exact ⟨.inl rfl, rfl, rfl⟩
  | unit largest =>
    cases largest
    case year =>
      obtain rfl := Except.ok.inj h
      exact ⟨.inl rfl, rfl, rfl⟩
    case month =>
      obtain rfl := Except.ok.inj h
      exact ⟨.inr rfl, rfl, rfl⟩
    all_goals cases h

/-- **The duration until a month, added, gives that month**, which may be earlier or later, if it is
held by its first day and the largest unit alone is chosen. -/
theorem add_until (a b : YearMonth) (hb : b.IsCanonical) (u : Value) {d : Duration} {v : Value}
    (hd : a.differenceFrom .until (.yearMonth b) { largestUnit := u } = .ok d)
    (hv : v.toOverflow = .ok .constrain) (hr : a.addFrom (.duration d) v = .ok r) : r = b := by
  obtain ⟨other, hother, hd⟩ := bind_eq_ok hd
  obtain ⟨options, hoptions, hd⟩ := bind_eq_ok hd
  obtain rfl : b = other := Except.ok.inj hother
  obtain ⟨hl, hs, hi⟩ := read_largestUnit hoptions
  obtain ⟨hc, hdays, hmonth⟩ := monthAfter_difference hl hs hi hd
  have hr : a.add d .constrain = .ok r := by
    obtain ⟨d', hd', hr⟩ := bind_eq_ok hr
    obtain rfl : d = d' := Except.ok.inj hd'
    rw [hv] at hr
    exact hr
  -- both the sum and the target have the running number that the duration leads to
  obtain ⟨hcalendar, year, month, hanchor, hm, hindex⟩ := monthIndex_add hdays hr
  obtain ⟨rfl, rfl⟩ := Calendar.monthIndex_inj hm (hc ▸ b.hasDate_reading.1) (hindex.trans hmonth)
  have hfirst : b.reading = ⟨b.reading.year, b.reading.month, 1⟩ :=
    congrArg (YearMonthDay.mk b.reading.year b.reading.month) hb
  refine ext ?_ (hcalendar.trans hc)
  rw [hanchor, ← hfirst, hc, isoOf_reading]

/-- The leap month of a Hebrew year. -/
def adarI5784 : YearMonth where
  anchor := ⟨2024, 2, 10⟩
  calendar := .hebrew

/-- The first month of a common Hebrew year. -/
def tishri5783 : YearMonth where
  anchor := ⟨2022, 9, 26⟩
  calendar := .hebrew

/-- Back from a leap month by a year and months. -/
theorem add_until_tishri5783 :
    ∃ d r, adarI5784.differenceFrom .until (.yearMonth tishri5783) { largestUnit := .text "year" } =
      .ok d ∧ adarI5784.addFrom (.duration d) .null = .ok r ∧ r = tishri5783 := by
  have hreturns : (adarI5784.differenceFrom .until (.yearMonth tishri5783)
      { largestUnit := .text "year" } >>= fun d => adarI5784.addFrom (.duration d) .null).isOk =
        true := by decide +kernel
  obtain ⟨r, hr⟩ := exists_of_isOk hreturns
  obtain ⟨d, hd, hr⟩ := bind_eq_ok hr
  exact ⟨d, r, hd, hr, add_until adarI5784 tishri5783 (by decide) (.text "year") hd rfl hr⟩

end YearMonth

end Almanac
