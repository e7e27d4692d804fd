import Almanac.Proofs.Reported.Difference
import Almanac.Proofs.Reported.Fields
import Almanac.YearMonth.Change

/-!
# Operations and failures that are reported

The operations on year-months report what they refuse, except where a number that a caller passes
has no double, no word or no value, or where the refusal would show what cannot be written. For each
operation these inputs are named, in the order in which the operation reads its arguments: an
earlier refusal is reported.

* `YearMonth.ConstructorEscapes`, `YearMonth.ItemEscapes`, `YearMonth.PatchEscapes`,
  `YearMonth.DifferenceEscapes`: the inputs from which an operation fails without a report.
* `YearMonth.operations_report_iff`: **an operation reports** exactly if its input is none of these.
* `YearMonth.operations_escape`: each operation has such an input.
* `YearMonth.arithmetic_reports`: **the arithmetic of year-months and durations** always reports,
  and counts within words.
-/

namespace Almanac.YearMonth

variable {free : Nat} {ym : YearMonth} {overflow : Value}

/-- The calendar that the argument of a constructor names, the ISO calendar if it is left out. -/
def calendarNamed (v : Value) : Except Error Calendar :=
  if v.isNull then .ok .iso8601 else do (Value.text (← v.string "calendar")).toCalendar

/-- The day of the anchor that the argument of a constructor gives, the first if it is left out. -/
def dayGiven (v : Value) : Except Error Int :=
  if v.isNull then .ok 1 else v.argument "reference_iso_day"

theorem ofArguments_eq (isoYear isoMonth calendar referenceDay : Value) :
    ofArguments isoYear isoMonth calendar referenceDay = (do
      let year ← isoYear.argument "iso_year"
      let month ← isoMonth.argument "iso_month"
      let c ← calendarNamed calendar
      let day ← dayGiven referenceDay
      of ⟨year, month, day⟩ c) := by
  unfold ofArguments calendarNamed dayGiven
  cases calendar.isNull <;> cases referenceDay.isNull <;>
    simp only [Bool.false_eq_true, if_false, if_true, bind_assoc] <;> rfl

theorem reports_calendarNamed (v : Value) : Reports free (calendarNamed v) := by
  unfold calendarNamed
  split
  · exact reports_ok _
  · exact (v.reports_string _).bind fun name _ => Value.reports_toCalendar _

theorem dayGiven_reports_iff {v : Value} : Reports free (dayGiven v) ↔ ¬ v.ArgumentEscapes := by
  unfold dayGiven
  split
  · next hnull =>
    refine iff_of_true (reports_ok 1) ?_
    rintro (_ | _ | _) <;> cases hnull
  · exact Value.argument_reports_iff

/-- The arguments of the constructor of which one is read without a report, the ones before it being
read, or which all are read and give an anchor with a part of too many digits. -/
inductive ConstructorEscapes (isoYear isoMonth calendar referenceDay : Value) : Prop
  | year (h : isoYear.ArgumentEscapes) : ConstructorEscapes isoYear isoMonth calendar referenceDay
  | month {year : Int} (hyear : isoYear.argument "iso_year" = .ok year)
    (h : isoMonth.ArgumentEscapes) :
    ConstructorEscapes isoYear isoMonth calendar referenceDay
  | day {year month : Int} {c : Calendar} (hyear : isoYear.argument "iso_year" = .ok year)
    (hmonth : isoMonth.argument "iso_month" = .ok month) (hc : calendarNamed calendar = .ok c)
    (h : referenceDay.ArgumentEscapes) : ConstructorEscapes isoYear isoMonth calendar referenceDay
  | anchor {year month day : Int} {c : Calendar} (hyear : isoYear.argument "iso_year" = .ok year)
    (hmonth : isoMonth.argument "iso_month" = .ok month) (hc : calendarNamed calendar = .ok c)
    (hday : dayGiven referenceDay = .ok day) (h : ¬ IsoDate.IsShort ⟨year, month, day⟩) :
    ConstructorEscapes isoYear isoMonth calendar referenceDay

/-- **The constructor** reports, unless from those arguments. -/
theorem ofArguments_reports_iff {isoYear isoMonth calendar referenceDay : Value} :
    Reports free (ofArguments isoYear isoMonth calendar referenceDay) ↔
      ¬ ConstructorEscapes isoYear isoMonth calendar referenceDay := by
  rw [ofArguments_eq]
  simp only [reports_bind_iff, Value.argument_reports_iff, reports_calendarNamed,
    dayGiven_reports_iff, of_reports_iff, true_and]
  constructor
  · rintro ⟨hyear, hrest⟩ hescapes
    cases hescapes with
    | year h => exact hyear h
    | month hy h => exact (hrest _ hy).1 h
    | day hy hm hc h => exact ((hrest _ hy).2 _ hm _ hc).1 h
    | anchor hy hm hc hd h => exact h (((hrest _ hy).2 _ hm _ hc).2 _ hd)
  · intro h
    exact ⟨fun hyear => h (.year hyear), fun year hy => ⟨fun hmonth => h (.month hy hmonth),
      fun month hm c hc => ⟨fun hd => h (.day hy hm hc hd),
        fun day hd => by_contra fun hlong => h (.anchor hy hm hc hd hlong)⟩⟩⟩

/-- The values from which a year-month is made without a report, the treatment of overflow being
read. -/
def ItemEscapes (item overflow : Value) : Prop :=
  ∃ o, overflow.toOverflow = .ok o ∧ item.ItemEscapes o

/-- **A year-month is made from a value** with a report, unless it is one of those. -/
theorem ofItem_reports_iff {item : Value} :
    Reports free (ofItem item overflow) ↔ ¬ ItemEscapes item overflow := by
  unfold ofItem ItemEscapes
  simp only [reports_bind_iff, Value.reports_toOverflow, Value.toYearMonth_reports_iff, true_and,
    not_exists, not_and]

/-- A mapping and a treatment of overflow that are accepted before the fields of the mapping are
read. A mapping with a calendar or a time zone is refused. -/
structure PatchAccepted (fields overflow : Value) (entries : List (String × Value)) (o : Overflow) :
    Prop where
  entries_eq : fields.entries? = some entries
  keys_null : ∀ k ∈ temporalKeys, (Value.lookup entries k).isNull = true
  overflow_eq : overflow.toOverflow = .ok o

/-- The mappings by which fields are replaced without a report: a field is read without one, or the
month is resolved without one. -/
inductive PatchEscapes (ym : YearMonth) (fields overflow : Value) : Prop
  | field {entries : List (String × Value)} {o : Overflow}
    (haccepted : PatchAccepted fields overflow entries o)
    (h : Record.FieldsEscape entries (fieldsOfMonth ym.calendar)) : PatchEscapes ym fields overflow
  | month {entries : List (String × Value)} {o : Overflow} {patch : Record Reading}
    (haccepted : PatchAccepted fields overflow entries o)
    (hpatch : Record.preparePartial entries ((fieldsOfMonth ym.calendar).map Field.name) =
      .ok patch)
    (h : ym.calendar.MonthEscapes
      ((ym.fields [.month, .monthCode, .year]).merge ym.calendar.hasEras patch) o) :
    PatchEscapes ym fields overflow

/-- **The entries of a mapping** replace fields with a report, unless one of them or the month is
not. -/
theorem patchEntries_reports_iff {fields : Value} {entries : List (String × Value)}
    (hentries : fields.entries? = some entries) :
    Reports free (ym.patchEntries entries overflow) ↔ ¬ PatchEscapes ym fields overflow := by
  unfold patchEntries
  split
  · next key hkey =>
    refine iff_of_true (reports_error rfl) ?_
    have hrefused : ∀ e o, ¬ PatchAccepted fields overflow e o := by
      intro e o haccepted
      obtain rfl := Option.some.inj (hentries.symm.trans haccepted.entries_eq)
      have hgiven := List.find?_some hkey
      rw [haccepted.keys_null key (List.mem_of_find?_eq_some hkey)] at hgiven
      cases hgiven
    rintro (⟨haccepted, -⟩ | ⟨haccepted, -, -⟩) <;> exact hrefused _ _ haccepted
  · next hkeys =>
    have haccepted : ∀ o, overflow.toOverflow = .ok o →
        PatchAccepted fields overflow entries o := by
      intro o ho
      refine ⟨hentries, fun k hk => ?_, ho⟩
      simpa using List.find?_eq_none.1 hkeys k hk
    unfold patch
    simp only [reports_bind_iff, Value.reports_toOverflow, Record.preparePartial_reports_iff,
      ofFields_reports_iff, true_and]
    constructor
    · rintro h (⟨hmapping, hfield⟩ | ⟨hmapping, hpatch, hmonth⟩)
      all_goals obtain rfl := Option.some.inj (hentries.symm.trans hmapping.entries_eq)
      · exact (h _ hmapping.overflow_eq).1 hfield
      · exact (h _ hmapping.overflow_eq).2 _ hpatch hmonth
    · intro h o ho
      exact ⟨fun hfield => h (.field (haccepted o ho) hfield),
        fun patch hpatch hmonth => h (.month (haccepted o ho) hpatch hmonth)⟩

/-- **Fields are replaced** with a report, unless by one of those mappings. -/
theorem patchFrom_reports_iff {fields : Value} :
    Reports free (ym.patchFrom fields overflow) ↔ ¬ PatchEscapes ym fields overflow := by
  have hmapping : fields.entries? = none → ¬ PatchEscapes ym fields overflow := by
    rintro hnone (⟨⟨hsome, -, -⟩, -⟩ | ⟨⟨hsome, -, -⟩, -, -⟩) <;>
      rw [hnone] at hsome <;> cases hsome
  unfold patchFrom
  split
  · exact iff_of_true (reports_error rfl) (hmapping rfl)
  · exact iff_of_true (reports_error rfl) (hmapping rfl)
  · split
    · next hentries => exact patchEntries_reports_iff hentries
    · next hnone => exact iff_of_true (reports_error rfl) (hmapping hnone)

/-- The values to which a difference is taken without a report: one that is taken for no year-month,
or options of which the increment is not read. -/
inductive DifferenceEscapes (free : Nat) (other : Value) (args : DifferenceArguments) : Prop
  | other (h : other.ItemEscapes .constrain) : DifferenceEscapes free other args
  | increment {b : YearMonth} (hother : other.toYearMonth .constrain = .ok b)
    (h : args.Escapes free) :
    DifferenceEscapes free other args

/-- **A difference is taken** with a report, unless to one of those values. -/
theorem differenceFrom_reports_iff {direction : Direction} {other : Value}
    {args : DifferenceArguments} :
    Reports free (ym.differenceFrom direction other args) ↔
      ¬ DifferenceEscapes free other args := by
  unfold differenceFrom
  have hdifference :
    ∀ b options, DifferenceOptions.read direction disallowedUnits .month .year args = .ok options →
      Reports free (difference direction ym b options) := by
    intro b options hoptions
    exact reports_difference direction ym b (DifferenceOptions.read_eq_ok hoptions).1
  rw [reports_bind_iff, Value.toYearMonth_reports_iff]
  constructor
  · rintro ⟨hother, hrest⟩ hescapes
    cases hescapes with
    | other h => exact hother h
    | increment hb h =>
      exact DifferenceOptions.read_reports_iff.1 (reports_bind_iff.1 (hrest _ hb)).1 h
  · intro h
    refine ⟨fun hother => h (.other hother), fun b hb => ?_⟩
    apply (DifferenceOptions.read_reports_iff.2 fun hargs => h (.increment hb hargs)).bind
    exact hdifference b

/-- **An operation reports** what it refuses, and so returns or fails with an error of type or of
range, exactly if its input is none of those from which it escapes: constructing a year-month,
making one from a value, replacing some of its fields, and taking a difference. -/
theorem operations_report_iff (free : Nat) (ym : YearMonth)
    (isoYear isoMonth calendar referenceDay : Value) (item fields other overflow : Value)
    (args : DifferenceArguments) :
    (Reports free (ofArguments isoYear isoMonth calendar referenceDay) ↔
      ¬ ConstructorEscapes isoYear isoMonth calendar referenceDay) ∧
    (Reports free (ofItem item overflow) ↔ ¬ ItemEscapes item overflow) ∧
    (Reports free (ym.patchFrom fields overflow) ↔ ¬ PatchEscapes ym fields overflow) ∧
    (Reports free (ym.differenceFrom .until other args) ↔ ¬ DifferenceEscapes free other args) :=
  ⟨ofArguments_reports_iff, ofItem_reports_iff, patchFrom_reports_iff, differenceFrom_reports_iff⟩

/-- The month of the first day that is counted. -/
def january1970 : YearMonth where
  anchor := ⟨1970, 1, 1⟩
  calendar := .iso8601

/-- **Each operation escapes**: the constructor from a numeral with the denominator zero and from a
year that has too many digits to be refused, two of them from a year that no word holds, and a
difference from an increment that no double holds. -/
theorem operations_escape :
    ofArguments (.text "1/0") (.number (.whole 1)) .null .null = .error .zeroDenominator ∧
    ofArguments (.number (.whole (10 ^ 4300))) (.number (.whole 1)) .null .null =
      .error (.yearMonthBeyondLimits (10 ^ 4300) 1) ∧
    ofItem (.mapping [("year", .number (.whole (2 ^ 64))), ("month", .number (.whole 1))]) .null =
      .error (.dateBeyondWord (2 ^ 64) 1 1) ∧
    january1970.patchFrom (.mapping [("year", .number (.whole (2 ^ 64)))]) .null =
      .error (.dateBeyondWord (2 ^ 64) 1 1) ∧
    january1970.differenceFrom .until (.yearMonth january1970)
      { roundingIncrement := .number (.whole (10 ^ 400)) } = .error .numberBeyondDouble ∧
    ∀ free, ¬ Error.Reported free .zeroDenominator ∧
      ¬ Error.Reported free (.yearMonthBeyondLimits (10 ^ 4300) 1) ∧
      ¬ Error.Reported free (.dateBeyondWord (2 ^ 64) 1 1) ∧
      ¬ Error.Reported free .numberBeyondDouble := by
  refine ⟨?_, ?_, ?_, ?_, ?_, fun free => ?_⟩
  iterate 5 decide +kernel
  have hlong : Shown.IsOverlong (10 ^ 4300) := by decide +kernel
  have hkind {e : Error} (h : e.kind? = none) : ¬ e.Reported free := by
    rw [← @reports_error_iff free Unit]
    exact not_reports_error h
  have hbeyond : ¬ Error.Reported free (.yearMonthBeyondLimits (10 ^ 4300) 1) := by
    rw [← @reports_error_iff free Unit, IsoDate.reports_monthBeyond_iff]
    rintro ⟨hyear, -⟩
    exact hyear hlong
  exact ⟨hkind rfl, hbeyond, hkind rfl, hkind rfl⟩

theorem reports_addFrom (ym : YearMonth) (d : Duration) (overflow : Value) :
    Reports free (ym.addFrom (.duration d) overflow) := by
  unfold addFrom
  apply (reports_ok d).bind
  rintro _ ⟨⟩
  apply overflow.reports_toOverflow.bind
  intro o _
  exact reports_add ym d o

theorem reports_subtractFrom (ym : YearMonth) (d : Duration) (overflow : Value) :
    Reports free (ym.subtractFrom (.duration d) overflow) := by
  unfold subtractFrom
  apply (reports_ok d).bind
  rintro _ ⟨⟩
  apply overflow.reports_toOverflow.bind
  intro o _
  exact reports_add ym (-d) o

/-- **Arithmetic never leaves the words in which days are counted.** A year-month to which a
duration is added or from which it is subtracted, by either treatment of overflow, and one from
which a difference is taken to another by options that are accepted, gives a result or fails with an
error of type or of range.

Whatever is counted on the way fits a word. The dates that are moved lie in the represented months,
and they are moved by nothing, to the next month, to the day before or by the duration, whichever
calendar counts them. The difference is moved by its exact years and months, to the two candidates
for rounding, and to the year that months may be carried into. The two ways between dates and day
counts are reported exactly for what fits a word: the years from 1970, the months from January, the
days from the first of the month, and the day count. -/
theorem arithmetic_reports (free : Nat) (ym other : YearMonth) (d : Duration) (overflow : Value)
    (direction : Direction) {args : DifferenceArguments} {options : DifferenceOptions}
    (hread : DifferenceOptions.read direction disallowedUnits .month .year args = .ok options) :
    Reports free (ym.addFrom (.duration d) overflow) ∧
    Reports free (ym.subtractFrom (.duration d) overflow) ∧
    Reports free (ym.differenceFrom direction (.yearMonth other) args) ∧
    (∀ (c : Calendar) (origin : IsoDate), origin.Valid →
      Iso.MonthInLimits origin.year origin.month →
      ∀ s ∈ [{}, { months := 1 }, { days := -1 }, d.spanOfDays, (-d).spanOfDays],
        c.MovesInWords origin s) ∧
    (ym.calendar = other.calendar → ym.start.InLimits → other.start.InLimits →
      ∃ span,
        (ym.calendar.difference ym.start other.start options.largest).map DateSpan.upToMonths =
          .ok span ∧
        ∀ s ∈ [span, span.roundedDown options.smallest options.increment,
          span.roundedUp options.smallest options.increment,
          { years := span.years + span.heading }], ym.calendar.MovesInWords ym.start s) ∧
    (∀ year month day, Reports free (Iso.toEpochDay year month day) ↔
      fitsWord (year - 1970) = true ∧ fitsWord (month - 1) = true ∧ fitsWord (day - 1) = true) ∧
    (∀ n, Reports free (IsoDate.ofEpochDay? n) ↔ fitsWord n = true) := by
  have ha := (DifferenceOptions.read_eq_ok hread).1
  refine ⟨reports_addFrom ym d overflow, reports_subtractFrom ym d overflow, ?_, ?_, ?_, ?_, ?_⟩
  · rw [differenceFrom_eq hread]
    exact reports_difference direction ym other ha
  · have hsmall : ∀ s ∈ [{}, { months := 1 }, { days := -1 }, d.spanOfDays, (-d).spanOfDays],
        s.Small := by
      simp only [List.forall_mem_cons]
      exact ⟨⟨by decide, by decide, by decide⟩, ⟨by decide, by decide, by decide⟩,
        ⟨by decide, by decide, by decide⟩, d.small_spanOfDays, (-d).small_spanOfDays, nofun⟩
    intro c origin hv hl s hs
    exact Calendar.movesInWords hv hl (hsmall s hs)
  · intro hc ho ht
    obtain ⟨exact, hexact⟩ :=
      Calendar.exists_difference ym.calendar ym.valid_start other.valid_start ho ht ha.largest
    exact ⟨_, by rw [hexact]; rfl, movesInWords_difference ha hc ho ht hexact rfl⟩
  · intro year month day
    rw [Iso.toEpochDay_reports_iff, Iso.inWords, Bool.and_eq_true, Bool.and_eq_true, and_assoc]
  · intro n
    exact IsoDate.ofEpochDay?_reports_iff

/-- The longest way back that a duration describes in each of its units. -/
def longestBack : Duration where
  years := -4294967295
  months := -4294967295
  weeks := -4294967295
  days := -104249991374

/-- The longest duration from a Hebrew leap month, with nothing cut off, and a difference that is
rounded to the most years. -/
theorem arithmetic_reports_adarI5784 :
    DifferenceOptions.read .since disallowedUnits .month .year
      { smallestUnit := .text "year", roundingIncrement := .number (.whole 1000000000) } =
        .ok ⟨.year, .year, .trunc, 1000000000⟩ ∧
    Reports 900 (adarI5784.addFrom (.duration longestBack) (.text "reject")) ∧
    Reports 900 (adarI5784.subtractFrom (.duration longestBack) (.text "reject")) ∧
    Reports 900 (adarI5784.differenceFrom .since (.yearMonth tishri5783)
      { smallestUnit := .text "year", roundingIncrement := .number (.whole 1000000000) }) ∧
    Calendar.hebrew.MovesInWords adarI5784.start longestBack.spanOfDays ∧
    Calendar.hebrew.MovesInWords adarI5784.start { years := -1000000000 } := by
  have hread : DifferenceOptions.read .since disallowedUnits .month .year
      { smallestUnit := .text "year", roundingIncrement := .number (.whole 1000000000) } =
        .ok ⟨.year, .year, .trunc, 1000000000⟩ := by decide +kernel
  have hl : adarI5784.start.InLimits := by decide +kernel
  have hexact :
    (Calendar.hebrew.difference adarI5784.start tishri5783.start .year).map DateSpan.upToMonths =
      .ok { years := -1, months := -5 } := by decide +kernel
  obtain ⟨hadd, hsubtract, hdifference, hmoves, hrounds, -⟩ :=
    arithmetic_reports 900 adarI5784 tishri5783 longestBack (.text "reject") .since hread
  obtain ⟨span, hspan, hcandidates⟩ := hrounds rfl hl (by decide +kernel)
  obtain rfl := Except.ok.inj (hexact.symm.trans hspan)
  refine ⟨hread, hadd, hsubtract, hdifference, ?_, ?_⟩
  · exact hmoves _ _ adarI5784.valid_start (IsoDate.monthInLimits_of_inLimits hl) _ (by simp)
  · exact hcandidates _ (by decide +kernel)

end Almanac.YearMonth
