import Almanac.Proofs.Prepared
import Almanac.Proofs.RoundTrip

/-!
# The ways from a date to its month

A date gives its month in several forms: as the date itself, as its text, and as mappings of its
fields, the year by itself or by its era, the month by its place or by its code. All of them lead to
the year-month that the first day of the date's month anchors, or all are refused because that day
lies beyond the range of the months.

* `Calendar.monthFieldSets`: the sets of fields that give a month;
  `Calendar.MonthFieldsAmong.resolve`: each of them gives the year and the month of the date that
  filled it.
* `Date.month`: the year-month that a date anchors; `Date.latestMonthStart`: its first day is the
  latest first day of a month that is not after the date.
* `Date.forms`: the forms of a date; `Date.ofItem_forms`: each of them leads to that month.
* `Date.entry_paths_agree`: **all ways from a date to its month agree**.
-/

namespace Almanac

namespace Calendar

variable {c : Calendar} {d : YearMonthDay} {fields : Record Reading}

/-- A field of a date is read back from its value. -/
theorem convert_ofReading (hd : c.HasDate d) {f : Field} {v : Reading}
    (h : c.fieldOf? d f = some v) :
    f.convert (.ofReading v) = .ok v := by
  cases f with
  | day =>
    obtain rfl := Option.some.inj h
    simp only [Field.convert, Value.ofReading, Value.positive_whole hd.2.1, Except.map]
  | month =>
    obtain rfl := Option.some.inj h
    simp only [Field.convert, Value.ofReading, Value.positive_whole hd.1.1, Except.map]
  | year =>
    obtain rfl := Option.some.inj h
    rfl
  | monthCode =>
    obtain rfl := Option.some.inj h
    rfl
  | era =>
    obtain ⟨e, -, rfl⟩ := Option.map_eq_some_iff.1 h
    rfl
  | eraYear =>
    obtain ⟨e, -, rfl⟩ := Option.map_eq_some_iff.1 h
    rfl

/-- The latest first day of a month of the calendar that is not after a date. -/
structure LatestMonthStart (c : Calendar) (d first : IsoDate) : Prop where
  valid : first.Valid
  day_eq : (c.dateOf first).day = 1
  not_after : first ≤ d
  latest : ∀ e : IsoDate, e.Valid → (c.dateOf e).day = 1 → e ≤ d → e ≤ first

/-- The sets of fields that give a month: the year with the month or its code, or the era with the
code. -/
def monthFieldSets (c : Calendar) : List (List Field) :=
  [[.year, .month], [.year, .monthCode]] ++ if c.hasEras then [[.era, .eraYear, .monthCode]] else []

/-- The fields of a date that are among some. -/
def valueAmong (c : Calendar) (d : YearMonthDay) (wanted : List Field) (f : Field) :
    Option Reading :=
  if f ∈ wanted then c.fieldOf? d f else none

/-- A month that exists is not cut off. -/
theorem regulateMonth_of_hasMonth {year month : Int} (h : c.HasMonth year month)
    (overflow : Overflow) :
    c.regulateMonth year month overflow = .ok month := by
  unfold regulateMonth
  rw [if_neg (not_lt.2 h.2)]

/-- **The era alone** gives the year. -/
theorem resolveYear_of_era {year : Int} {e : String × Int} (he : c.eraOf year = some e)
    (hyear : fields.number? .year = none) (hera : fields.text? .era = some e.1)
    (heraYear : fields.number? .eraYear = some e.2) : c.resolveYear fields = .ok year := by
  have heras : c.hasEras = true := by rw [← c.eraOf_isSome_iff year, he, Option.isSome_some]
  have hfrom : c.yearFromEra fields = .ok (some year) := by
    simp only [yearFromEra, heras, Bool.not_true, Bool.false_eq_true, if_false, hera, heraYear,
      yearOfEra_eraOf he, Except.map]
  rw [resolveYear, hyear, hfrom]
  rfl

/-- A record that holds those fields of a date that are among some and that a month is made of. -/
def MonthFieldsAmong (c : Calendar) (d : YearMonthDay) (wanted : List Field)
    (fields : Record Reading) : Prop :=
  ∀ f, fields.get? f = if f ∈ YearMonth.fieldsOfMonth c then c.valueAmong d wanted f else none

namespace MonthFieldsAmong

variable {wanted : List Field}

theorem get?_eq_none (h : c.MonthFieldsAmong d wanted fields) {f : Field} (hf : f ∉ wanted) :
    fields.get? f = none := by
  rw [h, valueAmong, if_neg hf, ite_self]

theorem get?_eq (h : c.MonthFieldsAmong d wanted fields) {f : Field}
    (hmem : f ∈ YearMonth.fieldsOfMonth c) (hf : f ∈ wanted) : fields.get? f = c.fieldOf? d f := by
  rw [h, if_pos hmem, valueAmong, if_pos hf]

/-- Without the fields of an era the year names itself. -/
theorem namesYear (h : c.MonthFieldsAmong d wanted fields) (hyear : .year ∈ wanted)
    (hera : .era ∉ wanted) (heraYear : .eraYear ∉ wanted) : c.NamesYear fields d.year where
  year_eq := by
    rw [Record.number?, h.get?_eq (mem_fieldsFor.2 (.inl (by decide))) hyear]
    rfl
  era_eq :=
    .inl
    ⟨by rw [Record.text?, h.get?_eq_none hera], by rw [Record.number?, h.get?_eq_none heraYear]⟩

/-- A month that is given by its place, and not by its code. -/
theorem resolveMonth_of_month (h : c.MonthFieldsAmong d wanted fields) (hd : c.HasDate d)
    (hmonth : .month ∈ wanted) (hcode : .monthCode ∉ wanted) (overflow : Overflow) :
    c.resolveMonth d.year fields overflow = .ok d.month := by
  rw [resolveMonth, Record.number?, h.get?_eq (mem_fieldsFor.2 (.inl (by decide))) hmonth,
    Record.text?, h.get?_eq_none hcode]
  exact regulateMonth_of_hasMonth hd.1 overflow

/-- A month that is given by its code, and not by its place. -/
theorem resolveMonth_of_code (h : c.MonthFieldsAmong d wanted fields) (hd : c.HasDate d)
    (hcode : .monthCode ∈ wanted) (hmonth : .month ∉ wanted) (overflow : Overflow) :
    c.resolveMonth d.year fields overflow = .ok d.month := by
  rw [resolveMonth, Record.number?, h.get?_eq_none hmonth, Record.text?,
    h.get?_eq (mem_fieldsFor.2 (.inl (by decide))) hcode]
  exact monthOfText_monthCode hd.1 overflow

/-- A year that is given by the era, and not by itself. -/
theorem resolveYear_of_eraFields (h : c.MonthFieldsAmong d wanted fields) (heras : c.hasEras = true)
    (hyear : .year ∉ wanted) (hera : .era ∈ wanted) (heraYear : .eraYear ∈ wanted) :
    c.resolveYear fields = .ok d.year := by
  obtain ⟨e, he⟩ := Option.isSome_iff_exists.1 ((c.eraOf_isSome_iff d.year).trans heras)
  have hmem : ∀ f, f = .era ∨ f = .eraYear → f ∈ YearMonth.fieldsOfMonth c := fun f hf =>
    mem_fieldsFor.2 (.inr ⟨⟨heras, by decide⟩, hf⟩)
  refine resolveYear_of_era he (by rw [Record.number?, h.get?_eq_none hyear]) ?_ ?_
  · rw [Record.text?, h.get?_eq (hmem _ (.inl rfl)) hera, fieldOf?, he]
    rfl
  · rw [Record.number?, h.get?_eq (hmem _ (.inr rfl)) heraYear, fieldOf?, he]
    rfl

/-- **Each set of fields that gives a month** gives the year and the month of the date. -/
theorem resolve (h : c.MonthFieldsAmong d wanted fields) (hd : c.HasDate d)
    (hw : wanted ∈ c.monthFieldSets) (overflow : Overflow) :
    c.resolveYear fields = .ok d.year ∧ c.resolveMonth d.year fields overflow = .ok d.month := by
  simp only [monthFieldSets, List.cons_append, List.nil_append, List.mem_cons] at hw
  rcases hw with rfl | rfl | hw
  · exact ⟨(h.namesYear (by decide) (by decide) (by decide)).resolveYear,
      h.resolveMonth_of_month hd (by decide) (by decide) overflow⟩
  · exact ⟨(h.namesYear (by decide) (by decide) (by decide)).resolveYear,
      h.resolveMonth_of_code hd (by decide) (by decide) overflow⟩
  · split at hw
    · next heras =>
      obtain rfl := List.mem_singleton.1 hw
      exact ⟨h.resolveYear_of_eraFields heras (by decide) (by decide) (by decide),
        h.resolveMonth_of_code hd (by decide) (by decide) overflow⟩
    · cases hw

end MonthFieldsAmong

end Calendar

namespace Date

/-- The month that a date lies in, held by that date. -/
def month (d : Date) : YearMonth :=
  ⟨d.iso, d.calendar, d.valid, IsoDate.monthInLimits_of_inLimits d.inLimits⟩

/-- What a date shows for some fields, under their names. -/
def shown (d : Date) (wanted : List Field) : List (String × Value) :=
  (wanted.filterMap fun f => (d.calendar.fieldOf? d.reading f).map fun v => (f, v)).map
    fun e => (e.1.name, .ofReading e.2)

/-- The forms in which a date gives its month: the date, its text, and mappings of its fields with
its calendar, as it is or by its identifier. -/
def forms (d : Date) : List Value :=
  .date d :: .text (d.text .auto) :: d.calendar.monthFieldSets.flatMap fun wanted =>
    [.calendar d.calendar, .text d.calendar.id].map fun c => .mapping
      (("calendar", c) :: d.shown wanted)

variable {d : Date} {wanted : List Field}

/-- **What a mapping of a date's fields has** under the name of a field. -/
theorem lookup_shown (d : Date) (wanted : List Field) (v : Value) (f : Field) :
    Value.lookup (("calendar", v) :: d.shown wanted) f.name =
      ((d.calendar.valueAmong d.reading wanted f).map Value.ofReading).getD .null := by
  have hne : ¬ "calendar" = f.name := by cases f <;> decide
  have hfind : (d.shown wanted).find? (fun e => e.1 = f.name) =
      ((wanted.filterMap fun g => (d.calendar.fieldOf? d.reading g).map fun v => (g, v)).find?
        fun e => e.1 = f).map fun e => (e.1.name, .ofReading e.2) := by
    rw [shown, List.find?_map]
    congr 2
    funext e
    exact decide_eq_decide.2 ⟨Field.name_injective, congrArg Field.name⟩
  have hvalue := Field.find?_filterMap (d.calendar.fieldOf? d.reading) wanted f
  rw [Value.lookup, List.find?_cons_of_neg (by simpa using hne), hfind, Calendar.valueAmong,
    ← hvalue, Option.map_map, Option.map_map]
  rfl

/-- A mapping of a date's fields gives their values. -/
theorem gives_shown (d : Date) (wanted : List Field) (v : Value) :
    Record.Gives (("calendar", v) :: d.shown wanted) (d.calendar.valueAmong d.reading wanted) where
  absent f hf := by rw [lookup_shown, hf]; rfl
  present f r hr := by
    have hfield : d.calendar.fieldOf? d.reading f = some r := by
      rw [Calendar.valueAmong] at hr
      split at hr
      · exact hr
      · cases hr
    rw [lookup_shown, hr]
    refine ⟨by cases r <;> rfl, ?_⟩
    exact Calendar.convert_ofReading d.month.hasDate_reading hfield

/-- A mapping of a date's fields gives the month of the date. -/
theorem ofMapping_shown (d : Date) (hw : wanted ∈ d.calendar.monthFieldSets) {v : Value}
    (hv : v = .calendar d.calendar ∨ v = .text d.calendar.id) (overflow : Overflow) :
    YearMonth.ofMapping (("calendar", v) :: d.shown wanted) overflow =
      YearMonth.of d.month.start d.calendar := by
  have hcalendar : YearMonth.calendarOf (("calendar", v) :: d.shown wanted) = .ok d.calendar := by
    rcases hv with rfl | rfl
    · rfl
    · change (Value.text d.calendar.id).toCalendar = _
      rw [Value.toCalendar, Calendar.ofId?_id]
  obtain ⟨fields, hfields, hget⟩ :=
    (d.gives_shown wanted v).prepare (YearMonth.fieldsOfMonth d.calendar)
  have hamong : d.calendar.MonthFieldsAmong d.reading wanted fields := hget
  obtain ⟨hyear, hmonth⟩ := hamong.resolve d.month.hasDate_reading hw overflow
  have hof :=
    YearMonth.ofFields_of_resolve hyear hmonth d.month.hasDate_reading.1 d.month.fitsWord_first
  rw [YearMonth.ofMapping, hcalendar]
  simp only [bind, Except.bind, hfields]
  exact hof

/-- The date gives the month of the date. -/
theorem ofDate_eq (d : Date) (overflow : Overflow) :
    YearMonth.ofDate d overflow = YearMonth.of d.month.start d.calendar := by
  have hdescribes :
    d.calendar.Describes (d.calendar.fieldsOf d.reading (YearMonth.fieldsOfMonth d.calendar))
      d.reading.year d.reading.month :=
    Calendar.describes_fieldsOf d.month.hasDate_reading.1 (by decide) (by decide)
  exact YearMonth.ofFields_of_resolve hdescribes.toNamesYear.resolveYear
    (hdescribes.resolveMonth overflow) hdescribes.hasMonth d.month.fitsWord_first

/-- The text of the date gives the month of the date. -/
theorem ofText_text (d : Date) :
    YearMonth.ofText (d.text .auto) = YearMonth.of d.month.start d.calendar := by
  have hl := d.month.inLimits
  exact YearMonth.ofText_eq
    (IsoDate.parse_dateChars d.valid (Iso.natAbs_lt_of_monthInLimits hl) d.calendar .auto)
    (CalendarDisplay.toCalendar_named? (by decide) d.calendar) d.valid hl

/-- **Each form of a date** gives the month that the first day of the date's month anchors. -/
theorem ofItem_forms (d : Date) {v : Value} (hv : v ∈ d.forms) :
    YearMonth.ofItem v .null = YearMonth.of d.month.start d.calendar := by
  simp only [forms, List.mem_cons, List.mem_flatMap, List.mem_map, List.not_mem_nil, or_false] at hv
  rcases hv with rfl | rfl | ⟨wanted, hw, c, hc, rfl⟩
  · exact d.ofDate_eq .constrain
  · exact d.ofText_text
  · exact d.ofMapping_shown hw hc .constrain

theorem dateOf_start (d : Date) :
    d.calendar.dateOf d.month.start = ⟨d.reading.year, d.reading.month, 1⟩ :=
  d.month.dateOf_start

/-- **The first day of its month** is the latest month start that is not after a date. -/
theorem latestMonthStart (d : Date) : d.calendar.LatestMonthStart d.iso d.month.start where
  valid := d.month.valid_start
  day_eq := congrArg YearMonthDay.day d.dateOf_start
  not_after hbefore := by
    have hbefore := (Calendar.dateOf_lt_iff (c := d.calendar) d.valid d.month.valid_start).2 hbefore
    have hday := (Calendar.hasDate_dateOf (c := d.calendar) d.valid).2.1
    rw [d.dateOf_start, YearMonthDay.lt_iff] at hbefore
    simp only [reading] at hbefore
    omega
  latest e he hfirst hle hafter := by
    have hafter := (Calendar.dateOf_lt_iff (c := d.calendar) d.month.valid_start he).2 hafter
    have hle : ¬ d.calendar.dateOf d.iso < d.calendar.dateOf e :=
      fun h => hle ((Calendar.dateOf_lt_iff d.valid he).1 h)
    -- a first day after this one is of a later month, so that it is after the date as well
    rw [d.dateOf_start, YearMonthDay.lt_iff, hfirst] at hafter
    rw [YearMonthDay.lt_iff] at hle
    simp only [reading] at hafter
    omega

/-- **All ways from a date to its month agree.** If the latest month start that is not after the
date lies in a represented month, each form of the date gives the year-month that this day anchors;
otherwise each of them is refused because that day lies beyond the range. -/
theorem entry_paths_agree (d : Date) :
    d.calendar.LatestMonthStart d.iso d.month.start ∧
      ∀ v ∈ d.forms, YearMonth.ofItem v .null =
        if hl : Iso.MonthInLimits d.month.start.year d.month.start.month then
          .ok ⟨d.month.start, d.calendar, d.month.valid_start, hl⟩
        else .error (.yearMonthBeyondLimits d.month.start.year d.month.start.month) := by
  refine ⟨d.latestMonthStart, fun v hv => ?_⟩
  rw [d.ofItem_forms hv]
  split
  · next hl => exact YearMonth.of_isoOf _ hl
  · next hl => exact YearMonth.of_isoOf_beyond _ hl

/-- A day in the second Adar of a leap year, and the first date of the range, in an Ethiopic month
that begins before the range of the months. -/
theorem entry_paths_agree_adarII5784 :
    (∀ v ∈ forms ⟨⟨2024, 3, 20⟩, .hebrew, by decide, by decide⟩, YearMonth.ofItem v .null =
      .ok ⟨⟨2024, 3, 11⟩, .hebrew, by decide, by decide⟩) ∧
    ∀ v ∈ forms ⟨⟨-271821, 4, 19⟩, .ethiopic, by decide, by decide⟩, YearMonth.ofItem v .null =
      .error (.yearMonthBeyondLimits (-271821) 3) := by
  constructor
  · intro v hv
    rw [(entry_paths_agree ⟨⟨2024, 3, 20⟩, .hebrew, by decide, by decide⟩).2 v hv,
      dif_pos (by decide +kernel)]
    exact congrArg Except.ok (YearMonth.ext (by decide +kernel) rfl)
  · intro v hv
    rw [(entry_paths_agree ⟨⟨-271821, 4, 19⟩, .ethiopic, by decide, by decide⟩).2 v hv,
      dif_neg (by decide +kernel)]
    exact congrArg Except.error
      (congrArg₂ Error.yearMonthBeyondLimits (by decide +kernel) (by decide +kernel))

end Date

end Almanac
