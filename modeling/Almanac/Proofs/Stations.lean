import Almanac.Proofs.Refusal
import Almanac.Proofs.Translation

/-!
# The days that a month is moved through

A month that is moved by months is taken through days: its first day, backwards also the first day
of the month after it and then its last day, and the day that the duration leads to. The first one
of them that lies outside the represented range ends the way.

* `YearMonth.firstDay_eq`, `YearMonth.lastDayFrom_eq`: the days that a duration is added to.
* `Operation.withOverflow`, `YearMonth.exists_add_of_moves`: the duration that an operation adds.
* `YearMonth.add_eq_of_start`, `YearMonth.add_eq_of_next`: the refusals before the duration is
  added.
* `YearMonth.add_forwards`, `YearMonth.add_backwards`: **the month that is reached**, if its day is
  represented.
* `YearMonth.add_backwards_error`: the refusal of a last day that the month that is reached has not.
-/

namespace Almanac

namespace Duration

variable {d : Duration} {c : Calendar} {n : Int}

theorem uniform_years_months (d : Duration) :
    0 ≤ d.years ∧ 0 ≤ d.months ∨ d.years ≤ 0 ∧ d.months ≤ 0 := by
  have hyears : d.years ∈ d.toDurationParts.toList := by simp [DurationParts.toList]
  have hmonths : d.months ∈ d.toDurationParts.toList := by simp [DurationParts.toList]
  rcases d.uniform with h | h
  · exact .inl ⟨h _ hyears, h _ hmonths⟩
  · exact .inr ⟨h _ hyears, h _ hmonths⟩

/-- The months of a year that a duration is reckoned with, 12 or 13 of them, if there are years at
all. -/
theorem exists_of_monthsIn? (h : d.monthsIn? c = some n) :
    ∃ k, (k = 12 ∨ k = 13) ∧ n = d.years * k + d.months ∧ (c ≠ .hebrew ∨ d.years = 0) := by
  unfold monthsIn? at h
  split at h
  · cases hk : c.monthsPerYear? with
    | some k =>
      rw [hk] at h
      refine ⟨k, ?_, (Option.some.inj h).symm, .inl ?_⟩
      · cases c <;> simp [Calendar.monthsPerYear?] at hk <;> omega
      · rintro rfl
        cases hk
    | none =>
      rw [hk] at h
      simp only at h
      split at h
      · next hzero =>
        refine ⟨12, .inl rfl, ?_, .inr hzero⟩
        rw [hzero, Int.zero_mul, Int.zero_add]
        exact (Option.some.inj h).symm
      · cases h
  · cases h

/-- A duration that comes to months leads in their direction. -/
theorem sign_lt_zero_iff (h : d.monthsIn? c = some n) : d.spanOfDays.sign < 0 ↔ n < 0 := by
  have huniform := d.uniform_years_months
  have hsign : d.spanOfDays.sign < 0 ↔ d.years < 0 ∨ d.months < 0 := by
    rw [spanOfDays_of_monthsIn? h]
    simp only [DateSpan.sign, Int.sign_zero]
    split
    · rw [Int.sign_neg_iff]
      omega
    · split
      · rw [Int.sign_neg_iff]
        omega
      · omega
  obtain ⟨k, hk, rfl, -⟩ := exists_of_monthsIn? h
  rw [hsign]
  rcases hk with rfl | rfl <;> omega

theorem small_of_monthsIn? (h : d.monthsIn? c = some n) : d.spanOfDays.Small := by
  obtain ⟨hyears, hmonths, -, -⟩ := d.inLimits
  rw [spanOfDays_of_monthsIn? h]
  simp only [DurationParts.maxCount] at hyears hmonths
  refine ⟨?_, ?_, ?_⟩
  · exact le_trans hyears.le (by decide)
  · exact le_trans hmonths.le (by decide)
  · exact Nat.zero_le _

theorem keepsMonth_of_monthsIn? (h : d.monthsIn? c = some n) (overflow : Overflow) :
    c.KeepsMonth d.spanOfDays.years overflow := by
  obtain ⟨-, -, -, hyears⟩ := exists_of_monthsIn? h
  rw [spanOfDays_of_monthsIn? h]
  exact .inr hyears

end Duration

/-- The day before a represented date, which may be the last one of the month before. -/
theorem IsoDate.balance_day_before {d : IsoDate} (hv : d.Valid)
    (hl : Iso.MonthInLimits d.year d.month) :
    balance { d with day := d.day - 1 } = .ok (.ofEpochDay (d.count - 1)) := by
  have hlen := Iso.daysInMonth_le d.year d.month
  have hb := count_bounds hv hl
  have hcount : count { d with day := d.day - 1 } = d.count - 1 := d.count_add_days (-1)
  obtain ⟨hm₁, hm₂, hd₁, hd₂⟩ := hv
  rw [← hcount]
  apply balance_eq (d := ⟨d.year, d.month, d.day - 1⟩) ⟨hm₁, hm₂⟩
  · exact nearWord_first (d := d) ⟨hm₁, hm₂⟩ (yearFits_of_monthInLimits hl)
  · rw [fitsWord_iff]
    dsimp only
    omega
  · unfold noTime
    dsimp only
    omega
  · rw [hcount, fitsWord_iff]
    omega

/-- The operation with another treatment of overflow. -/
def Operation.withOverflow (o : Value) : Operation → Operation
  | .patch fields _ => .patch fields o
  | .add d _ => .add d o
  | .subtract d _ => .subtract d o

namespace YearMonth

variable {ym : YearMonth} {d : Duration} {n i day : Int} {overflow : Overflow}

/-- An operation that moves by months adds a duration, with either treatment of overflow. -/
theorem exists_add_of_moves {op : Operation} (h : Moves ym.calendar op n) :
    ∃ d : Duration, d.monthsIn? ym.calendar = some n ∧ ym.perform op = ym.add d .constrain ∧
      ∀ o overflow, o.toOverflow = .ok overflow →
        ym.perform (op.withOverflow o) = ym.add d overflow := by
  cases h with
  | @add v o d n hd ho hn =>
    refine ⟨d, hn, ?_, ?_⟩
    · simp only [perform, addFrom, hd, ho, bind, Except.bind]
    · intro o overflow ho
      simp only [Operation.withOverflow, perform, addFrom, hd, ho, bind, Except.bind]
  | @subtract v o d n hd ho hn =>
    refine ⟨-d, Duration.monthsIn?_neg hn, ?_, ?_⟩
    · simp only [perform, subtractFrom, subtract, hd, ho, bind, Except.bind]
    · intro o overflow ho
      simp only [Operation.withOverflow, perform, subtractFrom, subtract, hd, ho, bind, Except.bind]

/-- The first day of the month after a month. -/
def nextStart (ym : YearMonth) : IsoDate := .ofEpochDay (ym.calendar.monthStart (ym.index + 1))

/-- The last day of a month. -/
def finish (ym : YearMonth) : IsoDate :=
  ym.calendar.isoOf ⟨ym.reading.year, ym.reading.month, ym.calendar.monthLength ym.index⟩

theorem monthLength_index (ym : YearMonth) :
    ym.calendar.monthLength ym.index = ym.calendar.daysInMonth ym.reading.year ym.reading.month :=
  Calendar.monthLength_monthIndex ym.hasDate_reading.1

theorem start_eq_ofEpochDay (ym : YearMonth) :
    ym.start = .ofEpochDay (ym.calendar.monthStart ym.index) := by
  rw [start, Calendar.isoOf, index, Calendar.monthStart_monthIndex ym.hasDate_reading.1]

theorem finish_eq_ofEpochDay (ym : YearMonth) :
    ym.finish = .ofEpochDay (ym.calendar.monthStart (ym.index + 1) - 1) := by
  rw [finish, Calendar.isoOf, Calendar.epochDay_eq_monthStart ym.hasDate_reading.1,
    Calendar.monthStart_succ, index, Int.add_sub_assoc]

theorem valid_finish (ym : YearMonth) : ym.finish.Valid := Calendar.valid_isoOf _ _

theorem valid_nextStart (ym : YearMonth) : ym.nextStart.Valid := (IsoDate.ofEpochDay_spec _).1

theorem count_nextStart (ym : YearMonth) :
    ym.nextStart.count = ym.calendar.monthStart (ym.index + 1) := IsoDate.count_ofEpochDay _

theorem hasDate_finish (ym : YearMonth) :
    ym.calendar.HasDate ⟨ym.reading.year, ym.reading.month, ym.calendar.monthLength ym.index⟩ := by
  rw [monthLength_index]
  exact Calendar.hasDate_last ym.hasDate_reading.1

theorem dateOf_finish (ym : YearMonth) :
    ym.calendar.dateOf ym.finish =
      ⟨ym.reading.year, ym.reading.month, ym.calendar.monthLength ym.index⟩ :=
  Calendar.dateOf_isoOf ym.hasDate_finish

/-- A month between two represented days is represented to the last day. -/
theorem inLimits_finish (hl : ym.start.InLimits) (hnext : ym.nextStart.InLimits) :
    ym.finish.InLimits := by
  have hlen := ym.calendar.one_le_monthLength ym.index
  rw [start_eq_ofEpochDay, IsoDate.inLimits_ofEpochDay_iff] at hl
  rw [nextStart, IsoDate.inLimits_ofEpochDay_iff, Calendar.monthStart_succ] at hnext
  rw [finish_eq_ofEpochDay, IsoDate.inLimits_ofEpochDay_iff, Calendar.monthStart_succ]
  omega

/-- The first day of a month, unless it lies outside the represented range. -/
theorem firstDay_eq (ym : YearMonth) : ym.firstDay = ym.start.checkLimits :=
  (ym.describes_day 1).dateOfFields_eq (Record.number?_set_self _ .day 1)
    (Calendar.hasDate_first ym.hasDate_reading.1) ym.fitsWord_first .constrain

theorem firstDay_of_inLimits (hl : ym.start.InLimits) : ym.firstDay = .ok ym.start :=
  ym.firstDay_eq.trans (if_pos hl)

/-- The last day of a month, unless the first day of the next one lies outside the represented
range. -/
theorem lastDayFrom_eq (hl : ym.start.InLimits) :
    ym.lastDayFrom ym.start = ym.nextStart.checkLimits.map fun _ => ym.finish := by
  have hm := ym.hasDate_reading.1
  have hmonth := IsoDate.monthInLimits_of_inLimits hl
  have hnext : ym.calendar.add ym.start { months := 1 } .constrain = ym.nextStart.checkLimits := by
    have hindex : ym.index + 1 = ym.calendar.monthAfter (ym.calendar.dateOf ym.start).year
        (ym.calendar.dateOf ym.start).month 0 1 := by
      rw [dateOf_start, Calendar.monthAfter_zero hm, index]
    have hday : ym.calendar.regulateDay (ym.calendar.monthOfIndex (ym.index + 1)).1
        (ym.calendar.monthOfIndex (ym.index + 1)).2 (ym.calendar.dateOf ym.start).day .constrain =
          .ok 1 := by
      rw [dateOf_start]
      exact Calendar.regulateDay_of_le (ym.calendar.one_le_monthLength _) _
    rw [Calendar.add_eq_checkLimits ym.valid_start hmonth ⟨by decide, by decide, by decide⟩
      (.inl rfl) hindex hday, nextStart]
    simp only [DateSpan.dayCount, sub_self, Int.mul_zero, Int.add_zero]
  unfold lastDayFrom
  rw [hnext]
  unfold IsoDate.checkLimits
  split
  · next hlnext =>
    have hfinish := inLimits_finish hl hlnext
    -- the day before the first day of the next month is counted back into the month
    have hbalance : IsoDate.balance { ym.nextStart with day := ym.nextStart.day - 1 } =
        .ok ym.finish := by
      have hbefore :=
        IsoDate.balance_day_before ym.valid_nextStart (IsoDate.monthInLimits_of_inLimits hlnext)
      rwa [count_nextStart, ← finish_eq_ofEpochDay] at hbefore
    have hread : ym.calendar.read ym.finish = .ok (ym.calendar.dateOf ym.finish) :=
      Calendar.read_eq ym.valid_finish (IsoDate.monthInLimits_of_inLimits hfinish)
    have hfields := (ym.describes_day (ym.calendar.monthLength ym.index)).dateOfFields_eq
      (Record.number?_set_self _ .day _) ym.hasDate_finish
        (IsoDate.fitsWord_of_inLimits hfinish) .constrain
    simp only [bind, Except.bind, hbalance, Except.map]
    rw [if_pos hfinish]
    simp only
    rw [hread, dateOf_finish]
    simp only
    rw [hfields]
    exact if_pos hfinish
  · rfl

/-- The month of a day of it. -/
theorem ofFields_dateOf {c : Calendar} {reached : IsoDate} (h₁ : 1 ≤ day)
    (h₂ : day ≤ c.monthLength i) (hreached : reached = .ofEpochDay (c.monthStart i + (day - 1)))
    (hl : reached.InLimits) (overflow : Overflow) :
    ofFields c (c.fieldsOf (c.dateOf reached) (c.fieldsFor [.monthCode, .year])) overflow =
      of (.ofEpochDay (c.monthStart i)) c := by
  have hm := (c.monthOfIndex_spec i).1
  have hdate : c.HasDate ⟨(c.monthOfIndex i).1, (c.monthOfIndex i).2, day⟩ := ⟨hm, h₁, h₂⟩
  have hiso : reached = c.isoOf ⟨(c.monthOfIndex i).1, (c.monthOfIndex i).2, day⟩ := by
    rw [hreached, Calendar.isoOf, Calendar.epochDay_eq, Calendar.monthStart]
  have hml := IsoDate.monthInLimits_of_inLimits hl
  rw [hiso] at hml
  have hdesc : c.Describes (c.fieldsOf (c.dateOf reached) (c.fieldsFor [.monthCode, .year]))
      (c.monthOfIndex i).1 (c.monthOfIndex i).2 := by
    rw [hiso, Calendar.dateOf_isoOf hdate]
    exact Calendar.describes_fieldsOf (d := ⟨_, _, day⟩) hm (by decide) (by decide)
  rw [ofFields_of_resolve hdesc.toNamesYear.resolveYear (hdesc.resolveMonth overflow) hm
    (Calendar.fitsWord_firstDay hdate hml), Calendar.isoOf, Calendar.monthStart]

/-- **Nothing is added** to a month whose first day lies outside the represented range. -/
theorem add_eq_of_start (hl : ¬ ym.start.InLimits) (d : Duration) (overflow : Overflow) :
    ym.add d overflow = .error (.dateBeyondLimits ym.start.year ym.start.month ym.start.day) := by
  unfold add
  rw [firstDay_eq, IsoDate.checkLimits, if_neg hl]
  rfl

/-- The way backwards goes through the first day of the next month, and begins on the last day of
the month. -/
theorem add_of_sign_neg (hl : ym.start.InLimits) (hd : d.spanOfDays.sign < 0)
    (overflow : Overflow) :
    ym.add d overflow = (do
      discard ym.nextStart.checkLimits
      let reached ← ym.calendar.add ym.finish d.spanOfDays overflow
      ofFields ym.calendar (ym.calendar.fieldsOf (ym.calendar.dateOf reached)
        (ym.calendar.fieldsFor [.monthCode, .year])) overflow) := by
  unfold add
  rw [firstDay_of_inLimits hl]
  simp only [bind, Except.bind]
  rw [if_pos hd, lastDayFrom_eq hl]
  cases ym.nextStart.checkLimits <;> rfl

/-- **Nothing is subtracted** from a month if the month after it begins outside the represented
range. -/
theorem add_eq_of_next (hl : ym.start.InLimits) (hnext : ¬ ym.nextStart.InLimits)
    (hd : d.spanOfDays.sign < 0) (overflow : Overflow) :
    ym.add d overflow =
      .error (.dateBeyondLimits ym.nextStart.year ym.nextStart.month ym.nextStart.day) := by
  rw [add_of_sign_neg hl hd, IsoDate.checkLimits, if_neg hnext]
  rfl

/-- **From a day of a month**, months lead to the month of the day that they lead to. -/
theorem moved_from {origin : IsoDate} (hn : d.monthsIn? ym.calendar = some n) (hv : origin.Valid)
    (hl : origin.InLimits) (hyear : (ym.calendar.dateOf origin).year = ym.reading.year)
    (hmonth : (ym.calendar.dateOf origin).month = ym.reading.month)
    (hday : ym.calendar.regulateDay (ym.calendar.monthOfIndex (ym.index + n)).1
      (ym.calendar.monthOfIndex (ym.index + n)).2 (ym.calendar.dateOf origin).day overflow =
        .ok day) :
    (do
      let reached ← ym.calendar.add origin d.spanOfDays overflow
      ofFields ym.calendar (ym.calendar.fieldsOf (ym.calendar.dateOf reached)
        (ym.calendar.fieldsFor [.monthCode, .year])) overflow) =
      (do
        discard (IsoDate.ofEpochDay (ym.calendar.monthStart (ym.index + n) + (day - 1))).checkLimits
        of (.ofEpochDay (ym.calendar.monthStart (ym.index + n))) ym.calendar) := by
  have hregulated :=
    Calendar.hasDate_of_regulateDay (ym.calendar.monthOfIndex_spec (ym.index + n)).1
      (Calendar.hasDate_dateOf hv).2.1 hday
  have hindex : ym.index + n = ym.calendar.monthAfter (ym.calendar.dateOf origin).year
      (ym.calendar.dateOf origin).month d.spanOfDays.years d.spanOfDays.months := by
    rw [hyear, hmonth, Duration.monthAfter_of_monthsIn? ym.hasDate_reading.1 hn, index]
  have hdays : d.spanOfDays.dayCount = 0 := by
    rw [Duration.spanOfDays_of_monthsIn? hn]
    rfl
  rw [Calendar.add_eq_checkLimits hv (IsoDate.monthInLimits_of_inLimits hl)
    (Duration.small_of_monthsIn? hn) (Duration.keepsMonth_of_monthsIn? hn overflow) hindex hday,
    hdays, Int.add_zero]
  unfold IsoDate.checkLimits
  split
  · next hreached =>
    exact ofFields_dateOf hregulated.2.1 hregulated.2.2 rfl hreached overflow
  · rfl

/-- **The month that is reached forwards**, if its first day is represented; no day is lost on the
way. -/
theorem add_forwards (hn : d.monthsIn? ym.calendar = some n) (hsign : 0 ≤ n)
    (hl : ym.start.InLimits) (overflow : Overflow) :
    ym.add d overflow = (do
      discard (IsoDate.ofEpochDay (ym.calendar.monthStart (ym.index + n))).checkLimits
      of (.ofEpochDay (ym.calendar.monthStart (ym.index + n))) ym.calendar) := by
  have hstart := ym.dateOf_start
  have hday : ym.calendar.regulateDay (ym.calendar.monthOfIndex (ym.index + n)).1
      (ym.calendar.monthOfIndex (ym.index + n)).2 (ym.calendar.dateOf ym.start).day overflow =
        .ok 1 := by
    rw [hstart]
    exact Calendar.regulateDay_of_le (ym.calendar.one_le_monthLength _) overflow
  have hmoved := moved_from hn ym.valid_start hl (by rw [hstart]) (by rw [hstart]) hday
  rw [sub_self, Int.add_zero] at hmoved
  have hforwards : ¬ d.spanOfDays.sign < 0 := by
    rw [Duration.sign_lt_zero_iff hn]
    omega
  unfold add
  rw [firstDay_of_inLimits hl]
  simp only [bind, Except.bind] at hmoved ⊢
  rw [if_neg hforwards]
  exact hmoved

/-- The way backwards is taken from the last day of the month, if the next month begins in the
represented range. -/
theorem add_from_finish (hn : d.monthsIn? ym.calendar = some n) (hsign : n < 0)
    (hl : ym.start.InLimits) (hnext : ym.nextStart.InLimits) (overflow : Overflow) :
    ym.add d overflow = (do
      let reached ← ym.calendar.add ym.finish d.spanOfDays overflow
      ofFields ym.calendar (ym.calendar.fieldsOf (ym.calendar.dateOf reached)
        (ym.calendar.fieldsFor [.monthCode, .year])) overflow) := by
  rw [add_of_sign_neg hl ((Duration.sign_lt_zero_iff hn).2 hsign), IsoDate.checkLimits,
    if_pos hnext]
  rfl

/-- **The month that is reached backwards**, if the day that the last day of the month is regulated
to there is represented. -/
theorem add_backwards (hn : d.monthsIn? ym.calendar = some n) (hsign : n < 0)
    (hl : ym.start.InLimits) (hnext : ym.nextStart.InLimits)
    (hday : ym.calendar.regulateDay (ym.calendar.monthOfIndex (ym.index + n)).1
      (ym.calendar.monthOfIndex (ym.index + n)).2 (ym.calendar.monthLength ym.index) overflow =
        .ok day) :
    ym.add d overflow = (do
      discard (IsoDate.ofEpochDay (ym.calendar.monthStart (ym.index + n) + (day - 1))).checkLimits
      of (.ofEpochDay (ym.calendar.monthStart (ym.index + n))) ym.calendar) := by
  have hfinish := ym.dateOf_finish
  rw [add_from_finish hn hsign hl hnext]
  apply moved_from hn ym.valid_finish (inLimits_finish hl hnext)
  · rw [hfinish]
  · rw [hfinish]
  · rw [hfinish]
    exact hday

/-- **The way backwards is refused** if the month that is reached has not the last day of the month,
and no day may be cut off. -/
theorem add_backwards_error (hn : d.monthsIn? ym.calendar = some n) (hsign : n < 0)
    (hl : ym.start.InLimits) (hnext : ym.nextStart.InLimits)
    (hday : ym.calendar.monthLength (ym.index + n) < ym.calendar.monthLength ym.index) :
    ym.add d .reject =
      .error (ym.calendar.dayRefusal (ym.calendar.monthOfIndex (ym.index + n)).1
        (ym.calendar.monthOfIndex (ym.index + n)).2 (ym.calendar.monthLength ym.index)) := by
  have hfinish := ym.dateOf_finish
  have hindex : ym.index + n = ym.calendar.monthAfter (ym.calendar.dateOf ym.finish).year
      (ym.calendar.dateOf ym.finish).month d.spanOfDays.years d.spanOfDays.months := by
    rw [hfinish, Duration.monthAfter_of_monthsIn? ym.hasDate_reading.1 hn, index]
  have hrefused := Calendar.add_eq_error ym.valid_finish
    (IsoDate.monthInLimits_of_inLimits (inLimits_finish hl hnext))
    (Duration.keepsMonth_of_monthsIn? hn .reject) hindex (by rw [hfinish]; exact hday)
  rw [add_from_finish hn hsign hl hnext, hrefused, hfinish]
  rfl

end YearMonth

end Almanac
