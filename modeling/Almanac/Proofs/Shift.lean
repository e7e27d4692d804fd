import Almanac.Proofs.MonthCode
import Almanac.Proofs.Resolution

/-!
# Dates moved by years and months

A date that is moved goes by years, which keep the month code, then by months, then by days. The
month that it reaches on the way depends on its month alone, whether the calendar counts its own
months or leaves the counting to the ISO calendar.

* `Calendar.monthAfter`, `Calendar.countAfter`: the running number of the month that years and
  months lead to, and the day count that a span leads to.
* `Calendar.Reaches`: where a span leads from a date.
* `Calendar.reaches_of_addByMonths`, `Calendar.addByMonths_of_reaches`: that is the date that the
  months of the calendar lead to; `Calendar.reaches_of_isoAdd`, `Calendar.isoAdd_of_reaches`: and
  those of the ISO calendar.
* `Calendar.reaches_of_add`, `Calendar.add_of_reaches`: **a date moved by a span**, in every
  calendar.
* `Calendar.month_of_count`: a day between the first days of two months lies in the first of them.
-/

namespace Almanac

namespace Calendar

variable {c : Calendar} {year month day : Int}

/-- The running number of the month that years, which keep the month code, and then months lead
to. -/
def monthAfter (c : Calendar) (year month years months : Int) : Int :=
  c.monthIndex (year + years) (c.monthOfCodeIn (c.monthCode year month) (year + years)) + months

/-- The day count that a span leads to from a date: in the month that years and months lead to, the
day kept or cut off, and then weeks and days on. -/
def countAfter (c : Calendar) (d : YearMonthDay) (span : DateSpan) : Int :=
  c.monthStart (c.monthAfter d.year d.month span.years span.months) +
    (min d.day (c.monthLength (c.monthAfter d.year d.month span.years span.months)) - 1) +
    span.dayCount

theorem monthAfter_zero (h : c.HasMonth year month) (months : Int) :
    c.monthAfter year month 0 months = c.monthIndex year month + months := by
  rw [monthAfter, monthOfCodeIn_monthCode h (by rw [Int.add_zero]), Int.add_zero]

theorem monthIndex_of_followsIso (h : c.followsIso) (year month : Int) :
    c.monthIndex year month = 12 * year + month - 1 := by
  cases c <;> first | exact absurd h (by decide) | simp only [monthIndex, monthsPerYear?]; omega

/-- Years are twelve months in a calendar that follows the ISO calendar. -/
theorem monthAfter_of_followsIso (hiso : c.followsIso) (h : c.HasMonth year month)
    (years months : Int) :
    c.monthAfter year month years months = c.monthIndex year month + (12 * years + months) := by
  have hne : c ≠ hebrew := by
    rintro rfl
    cases hiso
  rw [monthAfter,
    monthOfCodeIn_monthCode h (by rw [isHebrewLeap_eq_false hne, isHebrewLeap_eq_false hne]),
    monthIndex_of_followsIso hiso, monthIndex_of_followsIso hiso]
  ring

theorem monthOfIndex_of_followsIso (h : c.followsIso) (i : Int) :
    c.monthOfIndex i = (i / 12, i % 12 + 1) := by
  cases c <;> first | exact absurd h (by decide) | rfl

/-- The ISO date that years and months lead to, which need not exist, by the months of a calendar
that follows the ISO calendar. -/
theorem later_of_followsIso (hiso : c.followsIso) {iso : IsoDate} (hv : iso.Valid)
    (years months : Int) {i : Int}
    (hi : i = c.monthAfter (iso.year + c.yearOffset) iso.month years months) :
    (iso.yearsLater years).monthsLater months =
      ⟨(c.monthOfIndex i).1 - c.yearOffset, (c.monthOfIndex i).2, iso.day⟩ := by
  have hm : c.HasMonth (iso.year + c.yearOffset) iso.month := ((hasDate_shiftYear_iff hiso).2 hv).1
  rw [monthAfter_of_followsIso hiso hm, monthIndex_of_followsIso hiso] at hi
  simp only [monthOfIndex_of_followsIso hiso, IsoDate.yearsLater, IsoDate.monthsLater,
    Iso.balanceMonth, IsoDate.mk.injEq]
  refine ⟨?_, ?_, trivial⟩ <;> omega

/-- The nearest date, of a month that exists. -/
theorem clamp_of_followsIso (hiso : c.followsIso) (hm : c.HasMonth year month) (hday : 1 ≤ day) :
    IsoDate.clamp ⟨year - c.yearOffset, month, day⟩ =
      ⟨year - c.yearOffset, month, min day (c.daysInMonth year month)⟩ := by
  have hlast := hm.2
  rw [monthsInYear_of_followsIso hiso] at hlast
  simp only [IsoDate.clamp, daysInMonth_of_followsIso hiso, max_eq_left hm.1, min_eq_left hlast,
    max_eq_left hday]

/-- The shift of an ISO date by years and months, in a calendar that follows the ISO calendar. -/
theorem shift_of_followsIso (hiso : c.followsIso) {iso : IsoDate} (hv : iso.Valid)
    (years months : Int) {i : Int}
    (hi : i = c.monthAfter (iso.year + c.yearOffset) iso.month years months) :
    iso.shift years months =
      ⟨(c.monthOfIndex i).1 - c.yearOffset,
      (c.monthOfIndex i).2, min iso.day (c.monthLength i)⟩ := by
  rw [IsoDate.shift, later_of_followsIso hiso hv years months hi,
    clamp_of_followsIso hiso (c.monthOfIndex_spec i).1 hv.2.2.1, monthLength]

/-- An ISO date, of a month that exists, is regulated as its day is in a calendar that follows the
ISO calendar. -/
theorem regulate_eq_ok_iff (hiso : c.followsIso) {overflow : Overflow} {e : IsoDate}
    (hm : c.HasMonth year month) (hday : 1 ≤ day) :
    IsoDate.regulate ⟨year - c.yearOffset, month, day⟩ overflow = .ok e ↔
      ∃ regulated, c.regulateDay year month day overflow = .ok regulated ∧
        e = ⟨year - c.yearOffset, month, regulated⟩ := by
  cases overflow with
  | constrain =>
    simp only [IsoDate.regulate, clamp_of_followsIso hiso hm hday, regulateDay_constrain,
      Except.ok.injEq]
    constructor
    · rintro rfl
      exact ⟨_, rfl, rfl⟩
    · rintro ⟨_, rfl, rfl⟩
      rfl
  | reject =>
    have hvalid : IsoDate.Valid ⟨year - c.yearOffset, month, day⟩ ↔
        ¬ c.daysInMonth year month < day := by
      rw [← hasDate_shiftYear_iff hiso, not_lt]
      simp only [shiftYear, Int.sub_add_cancel]
      exact ⟨fun h => h.2.2, fun h => ⟨hm, hday, h⟩⟩
    by_cases h : c.daysInMonth year month < day
    · simp only [IsoDate.regulate, IsoDate.checkValid, if_neg (mt hvalid.1 (not_not.2 h)),
        regulateDay, if_pos h, reduceCtorEq, false_and, exists_false]
    · simp only [IsoDate.regulate, IsoDate.checkValid, if_pos (hvalid.2 h), regulateDay, if_neg h,
        Except.ok.injEq, exists_eq_left', eq_comm]

/-- A number of years keeps the month: no leap month is refused in the year that it leads to. -/
def KeepsMonth (c : Calendar) (years : Int) (overflow : Overflow) : Prop :=
  overflow = .constrain ∨ c ≠ hebrew ∨ years = 0

theorem keepsMonth_of_followsIso (h : c.followsIso) (years : Int) (overflow : Overflow) :
    c.KeepsMonth years overflow := by
  refine .inr (.inl ?_)
  rintro rfl
  cases h

/-- A shift by years keeps the month code, where a leap month that a year has not is Adar unless it
is refused. -/
theorem shiftYears_eq {overflow : Overflow} {years : Int} (hkept : c.KeepsMonth years overflow)
    (h : c.HasMonth year month) :
    c.shiftYears year month years overflow =
      .ok (year + years, c.monthOfCodeIn (c.monthCode year month) (year + years)) := by
  unfold shiftYears
  split
  · next hzero =>
    rw [hzero, Int.add_zero, monthOfCodeIn_monthCode h rfl]
  · next hyears =>
    have hleap : overflow = .constrain ∨ (c.monthCode year month).leap = false := by
      refine hkept.imp_right fun hne => leap_monthCode_eq_false ?_ year month
      exact hne.resolve_right hyears
    simp only [monthOfCode_eq (hasMonthCode_monthCode h) hleap, Except.map,
      monthOfCodeIn_eq (hasMonthCode_monthCode h)]

theorem shiftMonths_eq (h : c.HasMonth year month) (months : Int) :
    c.shiftMonths year month months = c.monthOfIndex (c.monthIndex year month + months) := by
  unfold shiftMonths addMonths
  split
  · next hzero =>
    rw [hzero, Int.add_zero, monthOfIndex_monthIndex h]
  · rfl

/-- The month that years and then months lead to. -/
theorem shiftMonths_years (h : c.HasMonth year month) (years months : Int) :
    c.shiftMonths (year + years) (c.monthOfCodeIn (c.monthCode year month) (year + years)) months =
      c.monthOfIndex (c.monthAfter year month years months) := by
  rw [shiftMonths_eq (hasMonth_monthOfCodeIn h _), monthAfter]

/-- **Where a span leads from a date**: years and months to a month, in which the day is regulated,
and then weeks and days on to a date that is represented. -/
def Reaches (c : Calendar) (iso : IsoDate) (span : DateSpan) (overflow : Overflow)
    (reached : IsoDate) : Prop :=
  ∃ i day, i = c.monthAfter (c.dateOf iso).year (c.dateOf iso).month span.years span.months ∧
    c.regulateDay (c.monthOfIndex i).1 (c.monthOfIndex i).2 (c.dateOf iso).day overflow = .ok day ∧
    reached = .ofEpochDay (c.monthStart i + (day - 1) + span.dayCount) ∧ reached.InLimits

section

variable {iso reached : IsoDate} {span : DateSpan} {overflow : Overflow}

/-- A date that has been moved is that of a day count, and is represented. -/
theorem exists_count_of_add (h : c.add iso span overflow = .ok reached) :
    ∃ n, reached = .ofEpochDay n ∧ reached.InLimits := by
  unfold add at h
  split at h
  · obtain ⟨e, he, h⟩ := bind_eq_ok h
    obtain ⟨rfl, hl⟩ := IsoDate.checkLimits_eq_ok h
    obtain ⟨moved, -, he⟩ := bind_eq_ok he
    obtain ⟨n, -, he⟩ := bind_eq_ok he
    exact ⟨n, IsoDate.ofEpochDay?_eq_ok he, hl⟩
  · obtain ⟨d, -, h⟩ := bind_eq_ok h
    obtain ⟨⟨y, m⟩, -, h⟩ := bind_eq_ok h
    obtain ⟨day, -, h⟩ := bind_eq_ok h
    obtain ⟨n, -, h⟩ := bind_eq_ok h
    obtain ⟨e, he, h⟩ := bind_eq_ok h
    obtain ⟨rfl, hl⟩ := IsoDate.checkLimits_eq_ok h
    exact ⟨_, IsoDate.ofEpochDay?_eq_ok he, hl⟩

theorem valid_of_add (h : c.add iso span overflow = .ok reached) : reached.Valid := by
  obtain ⟨n, rfl, -⟩ := exists_count_of_add h
  exact (IsoDate.ofEpochDay_spec n).1

theorem inLimits_of_add (h : c.add iso span overflow = .ok reached) : reached.InLimits := by
  obtain ⟨n, -, hl⟩ := exists_count_of_add h
  exact hl

/-- Where the day is cut off to the month, a span leads to one day count. -/
theorem reaches_constrain_iff : c.Reaches iso span .constrain reached ↔
    reached = .ofEpochDay (c.countAfter (c.dateOf iso) span) ∧ reached.InLimits := by
  simp only [Reaches, regulateDay_constrain, Except.ok.injEq]
  constructor
  · rintro ⟨_, _, rfl, rfl, hreached⟩
    exact hreached
  · exact fun hreached => ⟨_, _, rfl, rfl, hreached⟩

/-- The days of the year in which a span of years and months ends can be counted in a word, where
they are. -/
def YearInWords (c : Calendar) (iso : IsoDate) (span : DateSpan) : Prop :=
  c.followsIso → fitsWord (366 * ((iso.yearsLater span.years).monthsLater span.months).year) = true

/-- A day of the month that a span of years and months leads to can be counted. -/
theorem YearInWords.countable {i : Int} (hv : iso.Valid) (hyear : c.YearInWords iso span)
    (hi : i = c.monthAfter (c.dateOf iso).year (c.dateOf iso).month span.years span.months)
    (hd : c.HasDate ⟨(c.monthOfIndex i).1, (c.monthOfIndex i).2, day⟩) :
    c.Countable ⟨(c.monthOfIndex i).1, (c.monthOfIndex i).2, day⟩ := by
  refine countable_of_year hd fun hiso => ?_
  have hfits := hyear hiso
  rw [dateOf, if_pos hiso] at hi
  rwa [later_of_followsIso hiso hv _ _ hi] at hfits

/-- The date that is reached by the months of the calendar. -/
theorem reaches_of_addByMonths (hv : iso.Valid) (hw : fitsWord iso.count = true)
    (hkept : c.KeepsMonth span.years overflow) (hyear : c.YearInWords iso span)
    (h : c.addByMonths iso span overflow = .ok reached) : c.Reaches iso span overflow reached := by
  obtain ⟨d, hread, h⟩ := bind_eq_ok h
  obtain rfl := eq_dateOf hv hw hread
  have hd := hasDate_dateOf (c := c) hv
  simp only [shiftYears_eq hkept hd.1, bind, Except.bind, shiftMonths_years hd.1] at h
  obtain ⟨day, hday, h⟩ := bind_eq_ok h
  obtain ⟨n, hn, h⟩ := bind_eq_ok h
  obtain ⟨e, he, h⟩ := bind_eq_ok h
  obtain ⟨rfl, hr⟩ := IsoDate.checkLimits_eq_ok h
  have hdate := hasDate_of_regulateDay (c.monthOfIndex_spec _).1 hd.2.1 hday
  refine ⟨_, day, rfl, hday, ?_, hr⟩
  rw [IsoDate.ofEpochDay?_eq_ok he, eq_epochDay hdate (hyear.countable hv rfl hdate) hn,
    epochDay_eq]
  rfl

/-- What the ISO calendar adds, by the months of a calendar that follows it. -/
theorem isoAdd_eq_ok_iff (hiso : c.followsIso) (hv : iso.Valid) {i : Int}
    (hi : i = c.monthAfter (iso.year + c.yearOffset) iso.month span.years span.months) :
    c.add iso span overflow = .ok reached ↔
      ∃ day, c.regulateDay (c.monthOfIndex i).1 (c.monthOfIndex i).2 iso.day overflow = .ok day ∧
        IsoDate.balance ⟨(c.monthOfIndex i).1 - c.yearOffset,
        (c.monthOfIndex i).2, day + span.dayCount⟩ =
          .ok reached ∧ reached.InLimits := by
  have hregulate := fun e => (regulate_eq_ok_iff hiso (c.monthOfIndex_spec i).1 hv.2.2.1 :
    IsoDate.regulate _ overflow = .ok e ↔ _)
  rw [add, if_pos hiso, bind_eq_ok_iff]
  simp only [IsoDate.add, later_of_followsIso hiso hv _ _ hi, bind_eq_ok_iff, hregulate,
    IsoDate.checkLimits_eq_ok_iff]
  constructor
  · rintro ⟨_, ⟨_, ⟨day, hday, rfl⟩, hbalance⟩, rfl, hl⟩
    exact ⟨day, hday, hbalance, hl⟩
  · rintro ⟨day, hday, hbalance, hl⟩
    exact ⟨reached, ⟨_, ⟨day, hday, rfl⟩, hbalance⟩, rfl, hl⟩

/-- The date that is reached by the months of the ISO calendar, in a calendar that follows it. -/
theorem reaches_of_isoAdd (hiso : c.followsIso) (hv : iso.Valid) (hyear : c.YearInWords iso span)
    (h : c.add iso span overflow = .ok reached) : c.Reaches iso span overflow reached := by
  have hdate : c.dateOf iso = c.shiftYear iso := if_pos hiso
  obtain ⟨day, hday, hbalance, hl⟩ := (isoAdd_eq_ok_iff hiso hv rfl).1 h
  refine ⟨_, day, by rw [hdate], by rw [hdate]; exact hday, ?_, hl⟩
  have hfits := hyear hiso
  rw [later_of_followsIso hiso hv _ _ rfl] at hfits
  have hm := (c.monthOfIndex_spec
    (c.monthAfter (iso.year + c.yearOffset) iso.month span.years span.months)).1
  have hlast := hm.2
  rw [monthsInYear_of_followsIso hiso] at hlast
  rw [IsoDate.eq_of_balance (d := ⟨_, _, day + span.dayCount⟩) ⟨hm.1, hlast⟩ hfits hbalance hl,
    count_of_followsIso hiso, epochDay_eq, add_sub_right_comm, ← Int.add_assoc]
  rfl

section

variable {i day : Int}

/-- **The date that is reached by the months of the calendar**, if it is represented. -/
theorem addByMonths_eq (hv : iso.Valid) (hl : Iso.MonthInLimits iso.year iso.month)
    (hkept : c.KeepsMonth span.years overflow) (hyear : c.YearInWords iso span)
    (hi : i = c.monthAfter (c.dateOf iso).year (c.dateOf iso).month span.years span.months)
    (hday : c.regulateDay (c.monthOfIndex i).1 (c.monthOfIndex i).2 (c.dateOf iso).day overflow =
      .ok day)
    (hcount : fitsWord (c.monthStart i + (day - 1) + span.dayCount) = true) :
    c.addByMonths iso span overflow =
      (IsoDate.ofEpochDay (c.monthStart i + (day - 1) + span.dayCount)).checkLimits := by
  have hd := hasDate_dateOf (c := c) hv
  have hdate := hasDate_of_regulateDay (c.monthOfIndex_spec i).1 hd.2.1 hday
  have hmonths := shiftMonths_years hd.1 span.years span.months
  rw [← hi] at hmonths
  have hdays : c.toEpochDay ⟨(c.monthOfIndex i).1, (c.monthOfIndex i).2, day⟩ =
      .ok (c.monthStart i + (day - 1)) :=
    (toEpochDay_eq hdate (hyear.countable hv hi hdate)).trans (congrArg _ (epochDay_eq _ _ _ _))
  rw [addByMonths, read_eq hv hl]
  simp only [bind, Except.bind, shiftYears_eq hkept hd.1, hmonths, hday, hdays, IsoDate.ofEpochDay?,
    if_pos hcount]

/-- **The date that is reached by the months of the ISO calendar**, in a calendar that follows it,
if it is represented. -/
theorem isoAdd_eq (hiso : c.followsIso) (hv : iso.Valid) (hyear : c.YearInWords iso span)
    (hi : i = c.monthAfter (c.dateOf iso).year (c.dateOf iso).month span.years span.months)
    (hday : c.regulateDay (c.monthOfIndex i).1 (c.monthOfIndex i).2 (c.dateOf iso).day overflow =
      .ok day)
    (hword : (IsoDate.ofEpochDay (c.monthStart i + (day - 1) + span.dayCount)).InLimits ∨
      (fitsWord (day + span.dayCount - 1) = true ∧ day + span.dayCount - 1 ≠ noTime) ∧
        fitsWord (c.monthStart i + (day - 1) + span.dayCount) = true) :
    c.add iso span overflow =
      (IsoDate.ofEpochDay (c.monthStart i + (day - 1) + span.dayCount)).checkLimits := by
  rw [dateOf, if_pos hiso] at hi hday
  have hlater := later_of_followsIso hiso hv span.years span.months hi
  have hfits := hyear hiso
  rw [hlater] at hfits
  have hm := (c.monthOfIndex_spec i).1
  have hlast := hm.2
  rw [monthsInYear_of_followsIso hiso] at hlast
  have hregulate := (regulate_eq_ok_iff hiso hm hv.2.2.1).2 ⟨day, hday, rfl⟩
  -- the ISO calendar carries the days out of the month, which is no date of the calendar then
  have hcount : IsoDate.count ⟨(c.monthOfIndex i).1 - c.yearOffset, (c.monthOfIndex i).2,
      day + span.dayCount⟩ = c.monthStart i + (day - 1) + span.dayCount := by
    rw [count_of_followsIso hiso, epochDay_eq, add_sub_right_comm, ← Int.add_assoc]
    rfl
  rw [← hcount] at hword ⊢
  obtain ⟨hdays, hne⟩ := hword.elim (IsoDate.day_of_inLimits (d := ⟨_, _, _⟩) ⟨hm.1, hlast⟩ hfits)
    And.left
  have hbalance := IsoDate.balance_eq (d := ⟨_, _, day + span.dayCount⟩) ⟨hm.1, hlast⟩
    (IsoDate.nearWord_first (d := ⟨_, _, _⟩) ⟨hm.1, hlast⟩ hfits) hdays hne
    (hword.elim IsoDate.fitsWord_of_inLimits And.right)
  rw [add, if_pos hiso, IsoDate.add, hlater, hregulate]
  simp only [bind, Except.bind]
  rw [hbalance]

end

/-- The months of the calendar lead to every date that a span leads to. -/
theorem addByMonths_of_reaches (hv : iso.Valid) (hl : iso.InLimits)
    (hkept : c.KeepsMonth span.years overflow) (hyear : c.YearInWords iso span)
    (h : c.Reaches iso span overflow reached) : c.addByMonths iso span overflow = .ok reached := by
  obtain ⟨i, day, hi, hday, rfl, hr⟩ := h
  rw [addByMonths_eq hv (IsoDate.monthInLimits_of_inLimits hl) hkept hyear hi hday
    (IsoDate.fitsWord_of_inLimits hr)]
  exact if_pos hr

/-- The months of the ISO calendar lead to every date that a span leads to, in a calendar that
follows it. -/
theorem isoAdd_of_reaches (hiso : c.followsIso) (hv : iso.Valid) (hyear : c.YearInWords iso span)
    (h : c.Reaches iso span overflow reached) : c.add iso span overflow = .ok reached := by
  obtain ⟨i, day, hi, hday, rfl, hr⟩ := h
  rw [isoAdd_eq hiso hv hyear hi hday (.inl hr)]
  exact if_pos hr

/-- **A date moved by a span** comes to where the span leads. -/
theorem reaches_of_add (hv : iso.Valid) (hw : fitsWord iso.count = true)
    (hkept : c.KeepsMonth span.years overflow) (hyear : c.YearInWords iso span)
    (h : c.add iso span overflow = .ok reached) : c.Reaches iso span overflow reached := by
  by_cases hiso : c.followsIso
  · exact reaches_of_isoAdd hiso hv hyear h
  · rw [add, if_neg hiso] at h
    exact reaches_of_addByMonths hv hw hkept hyear h

/-- **A date is moved by a span**, if the span leads somewhere. -/
theorem add_of_reaches (hv : iso.Valid) (hl : iso.InLimits)
    (hkept : c.KeepsMonth span.years overflow) (hyear : c.YearInWords iso span)
    (h : c.Reaches iso span overflow reached) : c.add iso span overflow = .ok reached := by
  by_cases hiso : c.followsIso
  · exact isoAdd_of_reaches hiso hv hyear h
  · rw [add, if_neg hiso]
    exact addByMonths_of_reaches hv hl hkept hyear h

/-- A date moved by a span, its day cut off, if it is not refused. -/
theorem add_spec (hv : iso.Valid) (hw : fitsWord iso.count = true) (hyear : c.YearInWords iso span)
    (hdate : c.dateOf iso = ⟨year, month, day⟩) (h : c.add iso span .constrain = .ok reached) :
    reached = .ofEpochDay (c.countAfter ⟨year, month, day⟩ span) ∧ reached.InLimits := by
  rw [← hdate, ← reaches_constrain_iff]
  exact reaches_of_add hv hw (.inl rfl) hyear h

/-- **Years and months lead to a date** whose day count fits a word: it is reached, if it is
represented. -/
theorem add_eq_checkLimits_of_fitsWord (hv : iso.Valid) (hl : Iso.MonthInLimits iso.year iso.month)
    (hdays : span.dayCount = 0) (hw : fitsWord (c.countAfter (c.dateOf iso) span) = true) :
    c.add iso span .constrain =
      (IsoDate.ofEpochDay (c.countAfter (c.dateOf iso) span)).checkLimits := by
  have hd := hasDate_dateOf (c := c) hv
  by_cases hiso : c.followsIso
  · -- the day that is reached exists, so that nothing is carried out of its month
    have hdate : c.dateOf iso = c.shiftYear iso := if_pos hiso
    rw [hdate] at hw hd ⊢
    generalize hi :
      c.monthAfter (c.shiftYear iso).year (c.shiftYear iso).month span.years span.months = i
    have hm := (c.monthOfIndex_spec i).1
    have hreached :
        c.HasDate ⟨(c.monthOfIndex i).1, (c.monthOfIndex i).2, min iso.day (c.monthLength i)⟩ :=
      ⟨hm, le_min hd.2.1 (c.one_le_monthLength i), min_le_right _ _⟩
    have hregulate := (regulate_eq_ok_iff hiso hm hv.2.2.1).2
      ⟨min iso.day (c.monthLength i), regulateDay_constrain _ _ _ _, rfl⟩
    have hvalid : IsoDate.Valid
        ⟨(c.monthOfIndex i).1 - c.yearOffset,
        (c.monthOfIndex i).2, min iso.day (c.monthLength i)⟩ := by
      rw [← hasDate_shiftYear_iff hiso, shiftYear]
      simpa only [Int.sub_add_cancel] using hreached
    have hcount : c.countAfter (c.shiftYear iso) span = IsoDate.count
        ⟨(c.monthOfIndex i).1 - c.yearOffset,
        (c.monthOfIndex i).2, min iso.day (c.monthLength i)⟩ := by
      rw [count_of_followsIso hiso, epochDay_eq, countAfter, hi, hdays, Int.add_zero]
      rfl
    rw [hcount] at hw
    rw [hcount, IsoDate.ofEpochDay_count hvalid, add, if_pos hiso, IsoDate.add,
      later_of_followsIso hiso hv span.years span.months hi.symm, hregulate]
    simp only [bind, Except.bind, hdays, Int.add_zero]
    rw [IsoDate.balance_of_valid hvalid hw]
  · rw [add, if_neg hiso]
    exact addByMonths_eq hv hl (.inl rfl) (fun h => absurd h hiso) rfl
      (regulateDay_constrain _ _ _ _) hw

/-- A date is reached by years and months whose day count fits a word. -/
theorem add_spec_of_fitsWord (hv : iso.Valid) (hl : Iso.MonthInLimits iso.year iso.month)
    (hdays : span.dayCount = 0) (hw : fitsWord (c.countAfter (c.dateOf iso) span) = true)
    (h : c.add iso span .constrain = .ok reached) :
    reached = .ofEpochDay (c.countAfter (c.dateOf iso) span) ∧ reached.InLimits := by
  rw [add_eq_checkLimits_of_fitsWord hv hl hdays hw] at h
  obtain ⟨heq, hl⟩ := IsoDate.checkLimits_eq_ok h
  exact ⟨heq, heq ▸ hl⟩

end

/-- **A day between the first days of two months** lies in the first of them. -/
theorem month_of_count {iso : IsoDate} (hv : iso.Valid) {i : Int} (h₁ : c.monthStart i ≤ iso.count)
    (h₂ : iso.count < c.monthStart (i + 1)) :
    c.monthIndex (c.dateOf iso).year (c.dateOf iso).month = i := by
  have hb := epochDay_bounds (hasDate_dateOf (c := c) hv)
  rw [epochDay_dateOf hv] at hb
  have hlow := (lt_iff_lt_of_le_iff_le monthStart_le_iff).1 (lt_of_le_of_lt h₁ hb.2)
  have hhigh := (lt_iff_lt_of_le_iff_le monthStart_le_iff).1 (lt_of_le_of_lt hb.1 h₂)
  omega

/-- **The month that years and months lead to**, wherever in its month a date stands. -/
theorem monthIndex_of_add {iso reached : IsoDate} {span : DateSpan} (hv : iso.Valid)
    (hw : fitsWord iso.count = true) (hyear : c.YearInWords iso span)
    (hdate : c.dateOf iso = ⟨year, month, day⟩) (hdays : span.dayCount = 0)
    (h : c.add iso span .constrain = .ok reached) :
    reached.Valid ∧ c.monthIndex (c.dateOf reached).year (c.dateOf reached).month =
      c.monthAfter year month span.years span.months := by
  have hd : c.HasDate ⟨year, month, day⟩ := hdate ▸ hasDate_dateOf hv
  have hday : 1 ≤ day := hd.2.1
  obtain ⟨rfl, -⟩ := add_spec hv hw hyear hdate h
  have hlen := c.one_le_monthLength (c.monthAfter year month span.years span.months)
  have hcount : c.countAfter ⟨year, month, day⟩ span =
      c.monthStart (c.monthAfter year month span.years span.months) +
        (min day (c.monthLength (c.monthAfter year month span.years span.months)) - 1) + 0 := by
    rw [countAfter, hdays]
  -- the day that is reached has been cut off to the length of the month
  refine ⟨(IsoDate.ofEpochDay_spec _).1, month_of_count (IsoDate.ofEpochDay_spec _).1 ?_ ?_⟩
  · rw [IsoDate.count_ofEpochDay, hcount]
    omega
  · rw [IsoDate.count_ofEpochDay, hcount, monthStart_succ]
    omega

end Calendar

end Almanac
