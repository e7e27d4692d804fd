import Almanac.Proofs.Balance
import Almanac.Proofs.CutDay
import Almanac.Proofs.Monotone
import Almanac.Proofs.Reported.Addition

/-!
# The day that an addition reaches

A duration moves one day of a month, the first or backwards the last: by years to the month of the
same code, by months in the order of all the months, to that day of the month there or to its last
one, and then by weeks, by days and by the whole days of its time. The sum is the month of the day
that is reached.

* `Calendar.Leads`: **where a duration leads** from a day; `Calendar.leads_iff`: it is the day count
  that the span of the duration leads to.
* `YearMonth.Adds`: the month that a duration leads to; `YearMonth.add_eq_ok_iff`: it is the sum, if
  all the days on the way are represented.
* `YearMonth.add_leads`: **the sum of a month and a duration**, and what it is without years and
  months.
-/

namespace Almanac

namespace Duration

variable {d : Duration}

/-- The whole days of a duration: its days, and those that its time comes to, toward zero. -/
def wholeDays (d : Duration) : Int := d.days + d.timeNanoseconds.tdiv 86400000000000

/-- The first count that is not zero is negative. -/
def LeadsBack (d : Duration) : Prop :=
  d.years < 0 ∨ d.years = 0 ∧
    (d.months < 0 ∨ d.months = 0 ∧ (d.weeks < 0 ∨ d.weeks = 0 ∧ d.wholeDays < 0))

instance (d : Duration) : Decidable d.LeadsBack := by
  unfold LeadsBack; infer_instance

/-- The days of the time are those that it is balanced to. -/
theorem exists_balance_wholeDays (d : Duration) :
    ∃ b, balance d.timeNanoseconds .day = .ok b ∧ d.wholeDays = d.days + b.days := by
  obtain ⟨b, hb, hdays⟩ := d.exists_balance
  exact ⟨b, hb, by rw [hdays]; rfl⟩

theorem leadsBack_iff : d.LeadsBack ↔ d.spanOfDays.sign < 0 := by
  have hspan : d.spanOfDays = ⟨d.years, d.months, d.weeks, d.wholeDays⟩ := rfl
  rw [hspan, LeadsBack, DateSpan.sign]
  dsimp only
  split
  · rw [Int.sign_neg_iff]
    omega
  · split
    · rw [Int.sign_neg_iff]
      omega
    · split
      · rw [Int.sign_neg_iff]
        omega
      · rw [Int.sign_neg_iff]
        omega

theorem wholeDays_neg (d : Duration) : (-d).wholeDays = -d.wholeDays := by
  have htime : (-d).timeNanoseconds = -d.timeNanoseconds := by
    change DurationParts.timeNanoseconds d.neg.toDurationParts = _
    simp only [DurationParts.timeNanoseconds, neg, DurationParts.neg, DurationParts.ofCounts,
      DurationParts.count]
    ring
  have hdays : (-d).days = -d.days := rfl
  rw [wholeDays, wholeDays, htime, hdays, Int.neg_tdiv]
  ring

/-- The weeks and the whole days have one sign. -/
theorem uniform_weeks_wholeDays (d : Duration) :
    0 ≤ d.weeks ∧ 0 ≤ d.wholeDays ∨ d.weeks ≤ 0 ∧ d.wholeDays ≤ 0 := by
  have huniform := d.uniform
  simp only [DurationParts.Uniform, DurationParts.toList, List.forall_mem_cons, List.not_mem_nil,
    false_implies, implies_true, and_true] at huniform
  have htime := Int.tdiv_mul_add_tmod d.timeNanoseconds 86400000000000
  have hrest := Int.tmod_lt_of_pos d.timeNanoseconds (show 0 < (86400000000000 : Int) by decide)
  have hrest' := Int.lt_tmod_of_pos d.timeNanoseconds (show 0 < (86400000000000 : Int) by decide)
  have htotal :
    d.timeNanoseconds = d.hours * 3600000000000 + d.minutes * 60000000000 + d.seconds * 1000000000 +
    d.milliseconds * 1000000 + d.microseconds * 1000 + d.nanoseconds := rfl
  unfold wholeDays
  omega

/-- A duration without years and months leads back if its weeks and days do. -/
theorem leadsBack_iff_of_days (hyears : d.years = 0) (hmonths : d.months = 0) :
    d.LeadsBack ↔ 7 * d.weeks + d.wholeDays < 0 := by
  have huniform := d.uniform_weeks_wholeDays
  unfold LeadsBack
  omega

theorem dayCount_spanOfDays (d : Duration) : d.spanOfDays.dayCount = 7 * d.weeks + d.wholeDays :=
  rfl

end Duration

namespace Calendar

variable {c : Calendar} {start : YearMonthDay} {d : Duration} {n : Int}

/-- **Where a duration leads from a day**, as a day count: through the month of the same code its
years later, where Adar stands for a leap month that the year has not, and the month its months
after that one, to the same day or the last one before it, and on by its weeks and its whole
days. -/
inductive Leads (c : Calendar) (start : YearMonthDay) (d : Duration) : Int → Prop
  | through {month year' month' : Int} (hm : c.HasMonth (start.year + d.years) month)
      (hcode : c.monthCode (start.year + d.years) month =
        c.codeIn (c.monthCode start.year start.month) (start.year + d.years))
      (hm' : c.HasMonth year' month')
      (hindex : c.monthIndex year' month' = c.monthIndex (start.year + d.years) month + d.months) :
      Leads c start d
        (c.epochDay
          ⟨year', month', min start.day (c.daysInMonth year' month')⟩ + (7 * d.weeks + d.wholeDays))

/-- **A duration leads to one day**, the one that its span leads to. -/
theorem leads_iff (hm : c.HasMonth start.year start.month) :
    c.Leads start d n ↔ n = c.countAfter start d.spanOfDays := by
  obtain ⟨year, month, day⟩ := start
  have hkept := hasMonth_monthOfCodeIn hm (year + d.years)
  have hcode := monthCode_monthOfCodeIn hm (year + d.years)
  have hafter : c.monthAfter year month d.spanOfDays.years d.spanOfDays.months =
      c.monthIndex (year + d.years)
        (c.monthOfCodeIn (c.monthCode year month) (year + d.years)) + d.months := rfl
  constructor
  · rintro ⟨hm₁, hcode₁, hm₂, hindex⟩
    -- the month of a code is the only one, and so is that of a running number
    obtain rfl := monthCode_inj (hcode₁.trans hcode.symm)
    rw [← hafter] at hindex
    rw [countAfter, ← hindex, monthStart_monthIndex hm₂, monthLength_monthIndex hm₂,
      d.dayCount_spanOfDays, epochDay_eq]
  · rintro rfl
    obtain ⟨hm₂, hindex⟩ :=
      c.monthOfIndex_spec (c.monthAfter year month d.spanOfDays.years d.spanOfDays.months)
    have hleads : c.Leads ⟨year, month, day⟩ d _ := .through hkept hcode hm₂ (hindex.trans hafter)
    rw [epochDay_eq] at hleads
    exact hleads

end Calendar

namespace YearMonth

variable {ym r : YearMonth} {d : Duration} {iso : IsoDate} {c : Calendar} {overflow : Overflow}

/-- The month of a date is made from its first day, and no other one is. -/
theorem of_monthStart_eq_ok_iff (hv : iso.Valid) :
    of (.ofEpochDay (c.monthStart (c.monthIndex (c.dateOf iso).year (c.dateOf iso).month))) c =
      .ok r ↔
      r.calendar = c ∧ r.IsCanonical ∧ r.HasDay iso := by
  have hm := (Calendar.hasDate_dateOf (c := c) hv).1
  rw [Calendar.monthStart_monthIndex hm]
  change of (c.isoOf ⟨(c.dateOf iso).year, (c.dateOf iso).month, 1⟩) c = .ok r ↔ _
  constructor
  · intro h
    by_cases hl : Iso.MonthInLimits (c.isoOf ⟨(c.dateOf iso).year, (c.dateOf iso).month, 1⟩).year
        (c.isoOf ⟨(c.dateOf iso).year, (c.dateOf iso).month, 1⟩).month
    · rw [of_isoOf _ hl] at h
      obtain rfl := Except.ok.inj h
      have hdate := Calendar.dateOf_isoOf (Calendar.hasDate_first hm)
      exact ⟨rfl, congrArg YearMonthDay.day hdate, hv, (congrArg YearMonthDay.year hdate).symm,
        (congrArg YearMonthDay.month hdate).symm⟩
    · rw [of_isoOf_beyond _ hl] at h
      cases h
  · rintro ⟨rfl, hcanonical, -, hyear, hmonth⟩
    rw [hyear, hmonth]
    change of r.start r.calendar = .ok r
    rw [← anchor_eq_start hcanonical, of_anchor]

/-- The way forwards begins on the first day of the month. -/
theorem add_of_sign_nonneg (hl : ym.start.InLimits) (hd : ¬ d.spanOfDays.sign < 0)
    (overflow : Overflow) :
    ym.add d overflow = (do
      let reached ← ym.calendar.add ym.start d.spanOfDays overflow
      ofFields ym.calendar (ym.calendar.fieldsOf (ym.calendar.dateOf reached)
        (ym.calendar.fieldsFor [.monthCode, .year])) overflow) := by
  unfold add
  rw [firstDay_of_inLimits hl]
  simp only [bind, Except.bind]
  rw [if_neg hd]
  rfl

/-- From the day that a duration is added to, the calendar leads to the day that is counted. -/
theorem add_origin {origin : IsoDate} (hv : origin.Valid) (hl : origin.InLimits)
    (hdate : ym.calendar.dateOf origin = ⟨ym.reading.year, ym.reading.month, ym.dayMoved d⟩) :
    ym.calendar.add origin d.spanOfDays .constrain =
      (IsoDate.ofEpochDay (ym.countReached d)).checkLimits := by
  rw [Calendar.add_eq_checkLimits hv (IsoDate.monthInLimits_of_inLimits hl) d.small_spanOfDays
    (.inl rfl) rfl (Calendar.regulateDay_constrain _ _ _ _), hdate]
  rfl

/-- **An addition whose first days are represented** is made if the day that it reaches is
represented, and gives the month of that day. -/
theorem add_constrain_eq (hl : ym.start.InLimits)
    (hnext : d.spanOfDays.sign < 0 → ym.nextStart.InLimits) :
    ym.add d .constrain = (do
      let reached ← (IsoDate.ofEpochDay (ym.countReached d)).checkLimits
      ofFields ym.calendar (ym.calendar.fieldsOf (ym.calendar.dateOf reached)
        (ym.calendar.fieldsFor [.monthCode, .year])) .constrain) := by
  by_cases hsign : d.spanOfDays.sign < 0
  · have hdate :
        ym.calendar.dateOf ym.finish = ⟨ym.reading.year, ym.reading.month, ym.dayMoved d⟩ := by
      rw [dateOf_finish, monthLength_index, dayMoved, if_pos hsign]
    rw [add_of_sign_neg hl hsign, IsoDate.checkLimits, if_pos (hnext hsign),
      add_origin ym.valid_finish (inLimits_finish hl (hnext hsign)) hdate]
    rfl
  · have hdate :
        ym.calendar.dateOf ym.start = ⟨ym.reading.year, ym.reading.month, ym.dayMoved d⟩ := by
      rw [dateOf_start, dayMoved, if_neg hsign]
    rw [add_of_sign_nonneg hl hsign, add_origin ym.valid_start hl hdate]

/-- **The month that a duration leads to**: that of the day which it leads to from the first day of
a month, or backwards from the last one. The days on the way are represented. -/
structure Adds (ym : YearMonth) (d : Duration) (r : YearMonth) : Prop where
  start_inLimits : ym.start.InLimits
  next_inLimits : d.LeadsBack → ym.nextStart.InLimits
  exists_day :
    ∃ n, ym.calendar.Leads
      ⟨ym.reading.year, ym.reading.month, if d.LeadsBack then ym.days else 1⟩ d n ∧
    (IsoDate.ofEpochDay n).InLimits ∧ r.HasDay (.ofEpochDay n)
  calendar_eq : r.calendar = ym.calendar
  isCanonical : r.IsCanonical

/-- The day that a duration leads to is the one that the addition counts. -/
theorem leads_iff_countReached {n : Int} :
    ym.calendar.Leads ⟨ym.reading.year, ym.reading.month, if d.LeadsBack then ym.days else 1⟩ d n ↔
      n = ym.countReached d := by
  have hday : (if d.LeadsBack then ym.days else 1) = ym.dayMoved d := by
    simp only [dayMoved, ← Duration.leadsBack_iff, days]
  rw [hday]
  exact Calendar.leads_iff ym.hasDate_reading.1

/-- **The sum of a month and a duration** is the month that the duration leads to, and there is none
if there is no such month. -/
theorem add_eq_ok_iff : ym.add d .constrain = .ok r ↔ ym.Adds d r := by
  have hv := (IsoDate.ofEpochDay_spec (ym.countReached d)).1
  constructor
  · intro h
    have hl : ym.start.InLimits := by
      by_contra hbeyond
      rw [add_eq_of_start hbeyond] at h
      cases h
    have hnext : d.spanOfDays.sign < 0 → ym.nextStart.InLimits := by
      intro hsign
      by_contra hbeyond
      rw [add_eq_of_next hl hbeyond hsign] at h
      cases h
    obtain ⟨hcalendar, hcanonical⟩ := isCanonical_of_add h
    have hday := (hasDay_of_add h).2
    rw [add_constrain_eq hl hnext] at h
    obtain ⟨reached, hreached, -⟩ := bind_eq_ok h
    exact ⟨hl, fun hback => hnext (Duration.leadsBack_iff.1 hback),
      ⟨_, leads_iff_countReached.2 rfl, (IsoDate.checkLimits_eq_ok hreached).2, hday⟩, hcalendar,
      hcanonical⟩
  · rintro ⟨hl, hnext, ⟨n, hn, hlim, hday⟩, hcalendar, hcanonical⟩
    obtain rfl := leads_iff_countReached.1 hn
    obtain ⟨hm, hone, hlast⟩ := Calendar.hasDate_dateOf (c := ym.calendar) hv
    rw [← Calendar.monthLength_monthIndex hm] at hlast
    have hcount := Calendar.epochDay_dateOf (c := ym.calendar) hv
    rw [Calendar.epochDay_eq_monthStart hm, IsoDate.count_ofEpochDay] at hcount
    rw [add_constrain_eq hl fun hsign => hnext (Duration.leadsBack_iff.2 hsign),
      IsoDate.checkLimits, if_pos hlim]
    refine (ofFields_dateOf hone hlast ?_ hlim .constrain).trans ?_
    · rw [hcount]
    · exact (of_monthStart_eq_ok_iff hv).2 ⟨hcalendar, hcanonical, hday⟩

/-- A day between the first days of a month and of the next one is a day of the month. -/
theorem hasDay_of_count (hv : iso.Valid) (h₁ : ym.calendar.monthStart ym.index ≤ iso.count)
    (h₂ : iso.count < ym.calendar.monthStart (ym.index + 1)) : ym.HasDay iso := by
  obtain ⟨hyear, hmonth⟩ :=
    Calendar.monthIndex_inj (Calendar.hasDate_dateOf hv).1 ym.hasDate_reading.1
      (Calendar.month_of_count hv h₁ h₂)
  exact ⟨hv, hyear, hmonth⟩

/-- The months of one calendar that have a day in common are one month. -/
theorem index_eq_of_hasDay (hc : r.calendar = ym.calendar) (hr : r.HasDay iso) (h : ym.HasDay iso) :
    r.index = ym.index := by
  rw [index, index, ← hr.year_eq, ← hr.month_eq, ← h.year_eq, ← h.month_eq, hc]

theorem count_start (ym : YearMonth) : ym.start.count = ym.calendar.monthStart ym.index := by
  rw [start_eq_ofEpochDay, IsoDate.count_ofEpochDay]

theorem count_finish (ym : YearMonth) :
    ym.finish.count = ym.calendar.monthStart (ym.index + 1) - 1 := by
  rw [finish_eq_ofEpochDay, IsoDate.count_ofEpochDay]

/-- **Without years and months** a duration leads its days on from the day that it is added to. -/
theorem countReached_of_days (hyears : d.years = 0) (hmonths : d.months = 0) :
    ym.countReached d =
      ym.calendar.monthStart ym.index + (ym.dayMoved d - 1) + (7 * d.weeks + d.wholeDays) := by
  have hafter :
    ym.calendar.monthAfter ym.reading.year ym.reading.month d.spanOfDays.years d.spanOfDays.months =
      ym.index := by
    change ym.calendar.monthAfter _ _ d.years d.months = _
    rw [hyears, hmonths, Calendar.monthAfter_zero ym.hasDate_reading.1, Int.add_zero, index]
  have hle : ym.dayMoved d ≤ ym.calendar.monthLength ym.index := by
    unfold dayMoved
    split
    · exact ym.monthLength_index.ge
    · exact ym.calendar.one_le_monthLength ym.index
  rw [countReached, Calendar.countAfter, hafter, min_eq_left hle, d.dayCount_spanOfDays]

section

variable {n : Int} (hyears : d.years = 0) (hmonths : d.months = 0)
  (hn : 7 * d.weeks + d.wholeDays = n) (hnonneg : 0 ≤ n)

include hyears hmonths hn hnonneg

/-- **Days are added** to the first day of a month. -/
theorem countReached_add_days : ym.countReached d = ym.start.count + n := by
  have hforwards : ¬ d.spanOfDays.sign < 0 := by
    rw [← Duration.leadsBack_iff, Duration.leadsBack_iff_of_days hyears hmonths]
    omega
  rw [countReached_of_days hyears hmonths, dayMoved, if_neg hforwards, count_start]
  omega

/-- **Days are subtracted** from the last day of a month, and no days are subtracted from the
first. -/
theorem countReached_subtract_days :
    ym.countReached (-d) = if n = 0 then ym.start.count else ym.finish.count - n := by
  have hyears' : (-d).years = 0 := by
    change -d.years = 0
    omega
  have hmonths' : (-d).months = 0 := by
    change -d.months = 0
    omega
  have hback : 7 * (-d).weeks + (-d).wholeDays = -n := by
    rw [Duration.wholeDays_neg]
    change 7 * -d.weeks + _ = _
    omega
  have hsign : (-d).spanOfDays.sign < 0 ↔ n ≠ 0 := by
    rw [← Duration.leadsBack_iff, Duration.leadsBack_iff_of_days hyears' hmonths', hback]
    omega
  rw [countReached_of_days hyears' hmonths', hback, dayMoved]
  by_cases hzero : n = 0
  · rw [if_pos hzero, if_neg (by rw [hsign]; exact not_not.2 hzero), count_start]
    omega
  · rw [if_neg hzero, if_pos (hsign.2 hzero), count_finish, Calendar.monthStart_succ,
      monthLength_index]
    omega

/-- The month that is reached by subtracting days has the day that many days before the last one. -/
theorem hasDay_of_subtract_days (h : ym.subtract d .constrain = .ok r) :
    r.HasDay (.ofEpochDay (ym.finish.count - n)) := by
  obtain ⟨hcalendar, hday⟩ := hasDay_of_add h
  rw [countReached_subtract_days hyears hmonths hn hnonneg] at hday
  split at hday
  · next hzero =>
    -- the month of its first day is that of its last day
    have hlen := ym.calendar.one_le_monthLength ym.index
    have hstart : ym.HasDay (.ofEpochDay ym.start.count) := by
      apply hasDay_of_count (IsoDate.ofEpochDay_spec _).1
      · rw [IsoDate.count_ofEpochDay, count_start]
      · rw [IsoDate.count_ofEpochDay, count_start, Calendar.monthStart_succ]
        omega
    have hindex := index_eq_of_hasDay hcalendar hday hstart
    apply hasDay_of_count (IsoDate.ofEpochDay_spec _).1
    · rw [IsoDate.count_ofEpochDay, count_finish, hcalendar, hindex, Calendar.monthStart_succ]
      omega
    · rw [IsoDate.count_ofEpochDay, count_finish, hcalendar, hindex]
      omega
  · exact hday

/-- **Fewer days than the month has** lead to a day of the month. -/
theorem hasDay_countReached (hfew : n < ym.days) :
    ym.HasDay (.ofEpochDay (ym.countReached (-d))) := by
  have hdays : ym.calendar.monthLength ym.index = ym.days := ym.monthLength_index
  have hlen := ym.calendar.one_le_monthLength ym.index
  have hstart := ym.count_start
  have hfinish := ym.count_finish
  have hsucc := ym.calendar.monthStart_succ ym.index
  apply hasDay_of_count (IsoDate.ofEpochDay_spec _).1
  all_goals
    rw [IsoDate.count_ofEpochDay, countReached_subtract_days hyears hmonths hn hnonneg]
    split <;> omega

/-- A month from which fewer days than it has are subtracted is left as it is. -/
theorem anchor_of_subtract_days (hfew : n < ym.days) (h : ym.subtract d .constrain = .ok r) :
    r.anchor = ym.start := by
  obtain ⟨hcalendar, hday⟩ := hasDay_of_add h
  have hindex :=
    index_eq_of_hasDay hcalendar hday (hasDay_countReached hyears hmonths hn hnonneg hfew)
  rw [anchor_eq_start (isCanonical_of_add h).2, start_eq_ofEpochDay, start_eq_ofEpochDay, hcalendar,
    hindex]

/-- Fewer days than a month has can be subtracted from it, if it is represented from its first day
to that of the next month. -/
theorem exists_subtract_days (hfew : n < ym.days) (hl : ym.start.InLimits)
    (hnext : ym.nextStart.InLimits) :
    ∃ r, ym.subtract d .constrain = .ok r := by
  have hday := hasDay_countReached hyears hmonths hn hnonneg hfew
  have hdate := ym.dateOf_start
  obtain ⟨r, hr⟩ : ∃ r : YearMonth, r.calendar = ym.calendar ∧ r.anchor = ym.start :=
    ⟨⟨ym.start, ym.calendar, ym.valid_start, IsoDate.monthInLimits_of_inLimits hl⟩, rfl, rfl⟩
  obtain ⟨hcalendar, hanchor⟩ := hr
  have hreading : r.reading = ⟨ym.reading.year, ym.reading.month, 1⟩ := by
    rw [reading, hcalendar, hanchor, hdate]
  -- the day that is reached lies between two represented days, and the month that has it is there
  have hlim : (IsoDate.ofEpochDay (ym.countReached (-d))).InLimits := by
    have hbounds := count_bounds hday
    have hlast := inLimits_finish hl hnext
    rw [IsoDate.count_ofEpochDay] at hbounds
    rw [start_eq_ofEpochDay, IsoDate.inLimits_ofEpochDay_iff] at hl
    rw [finish_eq_ofEpochDay, IsoDate.inLimits_ofEpochDay_iff] at hlast
    rw [IsoDate.inLimits_ofEpochDay_iff]
    omega
  refine ⟨r,
    add_eq_ok_iff.2 ⟨hl, fun _ => hnext, ⟨_, leads_iff_countReached.2 rfl, hlim, ?_⟩, hcalendar,
    ?_⟩⟩
  · exact ⟨hday.valid, by rw [hcalendar, hreading]; exact hday.year_eq,
      by rw [hcalendar, hreading]; exact hday.month_eq⟩
  · exact congrArg YearMonthDay.day hreading

end

/-- **The sum of a month and a duration.** A duration is added by moving the first day of the month,
or the last one if its first count that is not zero is negative: by its years, which keep the month
code or lead from the Hebrew leap month to Adar, by its months, with the day cut off to the month
that is reached, and by seven days for each week and its whole days. The sum is the month of the day
that is reached, held by its first day, and there is a sum exactly if the days on the way are
represented; what is subtracted is the opposite duration. So days alone are added to the first day
and subtracted from the last one, and fewer of them than the month has do not lead out of it. -/
theorem add_leads (ym : YearMonth) {v o : Value} (hd : v.toDuration = .ok d)
    (ho : o.toOverflow = .ok .constrain) :
    (∃ b, Duration.balance d.timeNanoseconds .day = .ok b ∧ d.wholeDays = d.days + b.days) ∧
      (∀ r, ym.addFrom v o = .ok r ↔ ym.Adds d r) ∧
      (∀ r, ym.subtractFrom v o = .ok r ↔ ym.Adds (-d) r) ∧
      ∀ n, d.years = 0 → d.months = 0 → 7 * d.weeks + d.wholeDays = n → 0 ≤ n →
        (∀ r, ym.addFrom v o = .ok r → r.HasDay (.ofEpochDay (ym.start.count + n))) ∧
        (∀ r, ym.subtractFrom v o = .ok r → r.HasDay (.ofEpochDay (ym.finish.count - n))) ∧
        (n < ym.days →
          (∀ r, ym.subtractFrom v o = .ok r → r.calendar = ym.calendar ∧ r.anchor = ym.start) ∧
          (ym.start.InLimits → ym.nextStart.InLimits → ∃ r, ym.subtractFrom v o = .ok r)) := by
  have hadd : ym.addFrom v o = ym.add d .constrain := by
    simp only [addFrom, hd, ho, bind, Except.bind]
  have hsubtract : ym.subtractFrom v o = ym.subtract d .constrain := by
    simp only [subtractFrom, hd, ho, bind, Except.bind]
  rw [hadd, hsubtract]
  refine ⟨d.exists_balance_wholeDays, fun r => add_eq_ok_iff, fun r => add_eq_ok_iff, ?_⟩
  intro n hyears hmonths hn hnonneg
  refine ⟨?_, ?_, ?_⟩
  · intro r hr
    have hday := (hasDay_of_add hr).2
    rwa [countReached_add_days hyears hmonths hn hnonneg] at hday
  · intro r hr
    exact hasDay_of_subtract_days hyears hmonths hn hnonneg hr
  · intro hfew
    refine ⟨?_, exists_subtract_days hyears hmonths hn hnonneg hfew⟩
    intro r hr
    exact ⟨(hasDay_of_add hr).1, anchor_of_subtract_days hyears hmonths hn hnonneg hfew hr⟩

/-- A year, a month and thirty-one days back from the last day of the Hebrew leap month lead through
Adar and Shevat of a common year into Tevet, and twenty-nine days back stay in the leap month, which
has thirty. -/
theorem add_leads_from_adarI5784 :
    (∃ d r, (Value.text "P1Y1M4W1DT49H").toDuration = .ok d ∧
      adarI5784.subtractFrom (.text "P1Y1M4W1DT49H") .null = .ok r ∧ adarI5784.Adds (-d) r) ∧
    ∃ r, adarI5784.subtractFrom (.text "P4WT47H") .null = .ok r ∧ r.anchor = adarI5784.start := by
  constructor
  · have hd : (Value.text "P1Y1M4W1DT49H").toDuration =
        .ok { years := 1, months := 1, weeks := 4, days := 1, hours := 49 } := by decide +kernel
    have hback : (adarI5784.subtractFrom (.text "P1Y1M4W1DT49H") .null).isOk = true := by
      decide +kernel
    obtain ⟨r, hr⟩ := exists_of_isOk hback
    obtain ⟨-, -, hsubtract, -⟩ := add_leads adarI5784 (o := .null) hd rfl
    exact ⟨_, r, hd, hr, (hsubtract r).1 hr⟩
  · have hd : (Value.text "P4WT47H").toDuration = .ok { weeks := 4, hours := 47 } := by
      decide +kernel
    have hlimits : adarI5784.start.InLimits ∧ adarI5784.nextStart.InLimits := by decide +kernel
    obtain ⟨-, -, -, hdays⟩ := add_leads adarI5784 (o := .null) hd rfl
    obtain ⟨-, -, hfew⟩ := hdays 29 rfl rfl (by decide) (by decide)
    obtain ⟨hkept, hexists⟩ := hfew (by decide +kernel)
    obtain ⟨r, hr⟩ := hexists hlimits.1 hlimits.2
    exact ⟨r, hr, (hkept r hr).2⟩

end YearMonth

end Almanac
