import Almanac.Proofs.Canonical
import Almanac.Proofs.EntryPaths
import Almanac.Proofs.Grammar.Accepted
import Almanac.Proofs.Refusal
import Almanac.Proofs.Reported.Values

/-!
# Records and failures that are reported

A mapping is read field by field, in order, and the month that its fields name is looked for among
the days that a word can count. Rationals beyond a double and days beyond a word are refused without
a report, and so is what would have to be refused in words with a number of too many digits.

* `Record.FieldsEscape`: the first field that cannot be read is read without a report.
* `Calendar.YearUnwritten`, `Calendar.MonthUnwritten`: a refusal of the year or of the month that
  cannot be written.
* `Calendar.BeyondWord`, `Calendar.MonthEscapes`: a day beyond a word, and the month that a record
  names, resolved without a report.
* `Calendar.MonthEscapes.large`: only years of sixteen digits or more are that far.
* `Record.prepare_reports_iff`, `YearMonth.ofFields_reports_iff`: **what is read and resolved
  without a report**.
* `YearMonth.MappingEscapes`, `Value.ItemEscapes`, `Value.toYearMonth_reports_iff`: **a year-month
  from a value**; only from a mapping one can fail without a report.
-/

namespace Almanac

open Shown (IsOverlong)

variable {free : Nat}

/-- The values that a field is converted from without a report. -/
def Field.Unread (f : Field) (v : Value) : Prop :=
  match f with
  | .day | .month => v.PositiveEscapes
  | .year | .eraYear => v.BeyondDouble
  | .era | .monthCode => False

/-- A field of a mapping that is read without a report. -/
def Field.Escapes (source : List (String × Value)) (f : Field) : Prop :=
  f.Unread (Value.lookup source f.name)

/-- A field of a mapping is absent or converted. -/
def Field.IsRead (source : List (String × Value)) (f : Field) : Prop :=
  (Value.lookup source f.name).isNull = true ∨ ∃ v, f.convert (Value.lookup source f.name) = .ok v

theorem Field.convert_reports_iff {f : Field} {v : Value} :
    Reports free (f.convert v) ↔ ¬ f.Unread v := by
  cases f
  case day | month => simp only [convert, reports_map_iff, Value.positive_reports_iff, Unread]
  case year | eraYear => simp only [convert, reports_map_iff, Value.truncated_reports_iff, Unread]
  case era | monthCode =>
    rw [convert, reports_map_iff]
    exact iff_of_true (v.reports_string _) id

/-- A value that is not given is not read. -/
theorem Field.not_unread_of_isNull {f : Field} {v : Value} (h : v.isNull = true) :
    ¬ f.Unread v := by
  cases v with
  | null => cases f <;> simp [Unread, Value.BeyondDouble] <;> nofun
  | _ => cases h

namespace Record

variable {source : List (String × Value)} {r : Record Reading} {f : Field}

/-- The fields of a mapping are read in order, up to one that is read without a report. -/
inductive FieldsEscape (source : List (String × Value)) : List Field → Prop
  | here {f : Field} {rest : List Field} (h : f.Escapes source) : FieldsEscape source (f :: rest)
  | later {f : Field} {rest : List Field} (hread : f.IsRead source) (h : FieldsEscape source rest) :
    FieldsEscape source (f :: rest)

theorem readField_reports_iff :
    Reports free (readField source [] r f.name) ↔ ¬ f.Escapes source := by
  unfold readField
  dsimp only
  split
  · next hnull =>
    rw [if_neg List.not_mem_nil]
    exact iff_of_true (reports_ok r) (Field.not_unread_of_isNull hnull)
  · rw [Field.ofName?_name]
    simp only [reports_bind_iff, Field.convert_reports_iff, Field.Escapes]
    exact and_iff_left fun v _ => reports_ok _

theorem readField_returns_iff :
    (∃ r', readField source [] r f.name = .ok r') ↔ f.IsRead source := by
  unfold readField Field.IsRead
  dsimp only
  split
  · next hnull =>
    rw [if_neg List.not_mem_nil]
    exact iff_of_true ⟨r, rfl⟩ (.inl hnull)
  · next hnull =>
    rw [Field.ofName?_name, or_iff_right hnull]
    constructor
    · rintro ⟨r', hr'⟩
      obtain ⟨v, hv, -⟩ := bind_eq_ok hr'
      exact ⟨v, hv⟩
    · rintro ⟨v, hv⟩
      simp only [hv, bind, Except.bind]
      exact ⟨_, rfl⟩

/-- **The fields of a mapping** are read with a report, unless they escape. -/
theorem prepare_reports_iff {fields : List Field} :
    Reports free (prepare source (fields.map Field.name) []) ↔ ¬ FieldsEscape source fields := by
  have hfold : ∀ r : Record Reading,
    Reports free ((fields.map Field.name).foldlM (readField source []) r) ↔
      ¬ FieldsEscape source fields := by
    induction fields with
    | nil =>
      intro r
      exact iff_of_true (reports_ok r) (fun h => by cases h)
    | cons f rest ih =>
      intro r
      rw [List.map_cons, List.foldlM_cons, reports_bind_iff, readField_reports_iff]
      constructor
      · rintro ⟨hf, hrest⟩ h
        cases h with
        | here h => exact hf h
        | later hread h =>
          obtain ⟨r', hr'⟩ := (readField_returns_iff (r := r)).2 hread
          exact (ih r').1 (hrest r' hr') h
      · intro h
        refine ⟨fun hf => h (.here hf), ?_⟩
        intro r' hr'
        rw [ih r']
        intro hescapes
        exact h (.later (readField_returns_iff.1 ⟨r', hr'⟩) hescapes)
  exact hfold {}

theorem preparePartial_reports_iff {fields : List Field} :
    Reports free (preparePartial source (fields.map Field.name)) ↔
    ¬ FieldsEscape source fields := by
  unfold preparePartial
  rw [reports_bind_iff, prepare_reports_iff, and_iff_left_iff_imp]
  intro _ r _
  split
  · exact reports_error rfl
  · exact reports_ok r

end Record

namespace Calendar

variable {c : Calendar} {fields : Record Reading} {overflow : Overflow} {year month : Int}

/-- A date that is beyond a word: its day count is, or, in a calendar that follows the ISO calendar
and counts its days in words, its year, month or day. -/
def BeyondWord (c : Calendar) (d : YearMonthDay) : Prop :=
  if c.followsIso then Iso.inWords (d.year - c.yearOffset) d.month d.day = false
  else fitsWord (c.epochDay d) = false

theorem toIso_reports_iff {d : YearMonthDay} : Reports free (c.toIso d) ↔ ¬ c.BeyondWord d := by
  unfold BeyondWord
  by_cases hiso : c.followsIso = true
  · rw [if_pos hiso, Bool.not_eq_false, toIso, toEpochDay, if_pos hiso]
    by_cases hwords : Iso.inWords (d.year - c.yearOffset) d.month d.day = true
    · -- what is counted in words is a word
      have hword := Iso.fitsWord_dayWord (d.year - c.yearOffset) d.month d.day
      rw [Iso.toEpochDay, if_pos hwords]
      exact iff_of_true (IsoDate.ofEpochDay?_reports_iff.2 hword) hwords
    · rw [Iso.toEpochDay, if_neg hwords]
      exact iff_of_false (not_reports_error rfl) hwords
  · rw [if_neg hiso, Bool.not_eq_false, toIso, toEpochDay, if_neg hiso]
    exact IsoDate.ofEpochDay?_reports_iff

theorem isShort_of_toIso {d : YearMonthDay} {iso : IsoDate} (h : c.toIso d = .ok iso) :
    iso.IsShort := by
  obtain ⟨n, -, hiso⟩ := bind_eq_ok h
  exact IsoDate.isShort_of_ofEpochDay? hiso

theorem reports_yearFromEra (c : Calendar) (fields : Record Reading) :
    Reports free (c.yearFromEra fields) := by
  unfold yearFromEra
  split
  · exact reports_ok none
  · split
    · exact reports_ok none
    · rw [reports_map_iff]
      unfold yearOfEra
      split
      · exact reports_ok _
      · exact reports_error rfl
    · exact reports_error rfl

/-- A year that an era gives has been counted in the era. -/
theorem exists_eraYear {fromEra : Int} (h : c.yearFromEra fields = .ok (some fromEra)) :
    ∃ eraYear, fields.number? .eraYear = some eraYear := by
  unfold yearFromEra at h
  split at h
  · cases h
  · split at h
    · cases h
    · next hyear => exact ⟨_, hyear⟩
    · cases h

/-- The year and the era disagree, and one of the two counts has too many digits to say so. -/
def YearUnwritten (c : Calendar) (fields : Record Reading) : Prop :=
  ∃ year eraYear fromEra, fields.number? .year = some year ∧
    fields.number? .eraYear = some eraYear ∧
    c.yearFromEra fields = .ok (some fromEra) ∧ year ≠ fromEra ∧
    (IsOverlong year ∨ IsOverlong eraYear)

/-- **The year of a record** is resolved with a report, unless it cannot be written. -/
theorem resolveYear_reports_iff :
    Reports free (c.resolveYear fields) ↔ ¬ c.YearUnwritten fields := by
  unfold resolveYear
  rw [reports_bind_iff, and_iff_right (c.reports_yearFromEra fields)]
  constructor
  · rintro h ⟨year, eraYear, fromEra, hyear, heraYear, hera, hne, hlong⟩
    have hrefused := h _ hera
    simp only [hyear, if_neg hne] at hrefused
    have hwords := ((reports_error_iff_writable rfl).1 hrefused)
    simp [eraMismatch, Error.wording, heraYear] at hwords
    exact hlong.elim hwords.1 hwords.2
  · intro h fromEra hera
    split
    · exact reports_error rfl
    · exact reports_ok _
    · exact reports_ok _
    · next year fromEra hyear =>
      split
      · exact reports_ok _
      · next hne =>
        obtain ⟨eraYear, heraYear⟩ := exists_eraYear hera
        apply reports_error_of_writable rfl
        simp only [YearUnwritten, not_exists, not_and, not_or] at h
        have hshort := h year eraYear fromEra hyear heraYear hera hne
        simpa [eraMismatch, Error.wording, heraYear] using hshort

/-- **The month of a code** is found with a report, unless it is a leap month that a year has not,
and the year has too many digits to say so. -/
theorem monthOfCode_reports_iff {code : MonthCode} {written : String} :
    Reports free (c.monthOfCode year code written overflow) ↔
      ¬ (c.hasMonthCode code = true ∧ code.leap = true ∧ c.isHebrewLeap year = false ∧
        overflow = .reject ∧
        IsOverlong year) := by
  unfold monthOfCode monthOfCodeWhere
  split
  · next hnone => exact iff_of_true (reports_error rfl) (fun h => by simp [h.1] at hnone)
  · next hsome =>
    split
    · next hrefused =>
      simp only [Bool.and_eq_true, Bool.not_eq_true', decide_eq_true_eq] at hrefused hsome
      refine (reports_error_iff_writable rfl).trans ?_
      simp [Error.wording, hrefused, hsome]
    · next hfound =>
      refine iff_of_true (reports_ok _) ?_
      rintro ⟨-, hleap, hcommon, hreject, -⟩
      exact hfound (by simp [hleap, hcommon, hreject])

/-- A written code names a leap month that the year has not, and the year has too many digits to say
so. -/
def CodeUnwritten (c : Calendar) (year : Int) (written : String) (overflow : Overflow) : Prop :=
  ∃ code, MonthCode.ofText written = .ok code ∧ c.hasMonthCode code = true ∧ code.leap = true ∧
    c.isHebrewLeap year = false ∧ overflow = .reject ∧ IsOverlong year

theorem monthOfText_reports_iff {written : String} :
    Reports free (c.monthOfText year written overflow) ↔
      ¬ c.CodeUnwritten year written overflow := by
  have hcode : Reports free (MonthCode.ofText written) := by
    unfold MonthCode.ofText
    split
    · exact reports_ok _
    · exact reports_error rfl
  unfold monthOfText CodeUnwritten
  simp only [reports_bind_iff, hcode, monthOfCode_reports_iff, true_and, not_exists]
  exact forall_congr' fun code => not_and.symm

/-- **A month beyond its year** is refused with a report, unless it or the year has too many
digits. -/
theorem regulateMonth_reports_iff : Reports free (c.regulateMonth year month overflow) ↔
    ¬ (c.monthsInYear year < month ∧ overflow = .reject ∧
      (IsOverlong year ∨ IsOverlong month)) := by
  unfold regulateMonth
  split
  · next hbeyond =>
    cases overflow with
    | constrain => exact iff_of_true (reports_ok _) (by simp)
    | reject =>
      refine (reports_error_iff_writable rfl).trans ?_
      simp [Error.wording, hbeyond, and_comm]
  · next hwithin => exact iff_of_true (reports_ok _) (fun h => hwithin h.1)

/-- A month is refused, and the month or the year has too many digits to say so. -/
inductive MonthUnwritten (c : Calendar) (year : Int) (fields : Record Reading)
    (overflow : Overflow) : Prop
  | place {month : Int} (hmonth : fields.number? .month = some month)
    (hcode : fields.text? .monthCode = none) (hbeyond : c.monthsInYear year < month)
    (hreject : overflow = .reject) (hlong : IsOverlong year ∨ IsOverlong month) :
    MonthUnwritten c year fields overflow
  | code {written : String} (hcode : fields.text? .monthCode = some written)
    (h : c.CodeUnwritten year written overflow) : MonthUnwritten c year fields overflow
  | mismatch {month fromCode : Int} {written : String} (hmonth : fields.number? .month = some month)
    (hcode : fields.text? .monthCode = some written)
    (hfrom : c.monthOfText year written overflow = .ok fromCode) (hne : month ≠ fromCode)
    (hlong : IsOverlong month) : MonthUnwritten c year fields overflow

/-- **The month of a record** is resolved with a report, unless its refusal cannot be written. -/
theorem resolveMonth_reports_iff :
    Reports free (c.resolveMonth year fields overflow) ↔
    ¬ c.MonthUnwritten year fields overflow := by
  unfold resolveMonth
  cases hmonth : fields.number? .month with
  | none =>
    cases hcode : fields.text? .monthCode with
    | none =>
      refine iff_of_true (reports_error rfl) ?_
      intro h
      cases h <;> simp_all
    | some written =>
      refine monthOfText_reports_iff.trans (not_congr ⟨.code hcode, ?_⟩)
      intro h
      cases h <;> simp_all
  | some month =>
    cases hcode : fields.text? .monthCode with
    | none =>
      refine regulateMonth_reports_iff.trans (not_congr ⟨?_, ?_⟩)
      · rintro ⟨hbeyond, hreject, hlong⟩
        exact .place hmonth hcode hbeyond hreject hlong
      · intro h
        cases h <;> simp_all
    | some written =>
      dsimp only
      rw [reports_bind_iff, monthOfText_reports_iff]
      constructor
      · rintro ⟨hcodes, hfrom⟩ h
        cases h with
        | place _ hnone => simp_all
        | code hwritten h => simp_all
        | mismatch hgiven hwritten hfound hne hlong =>
          obtain rfl := Option.some.inj (hmonth.symm.trans hgiven)
          obtain rfl := Option.some.inj (hcode.symm.trans hwritten)
          have hrefused := hfrom _ hfound
          rw [if_neg hne] at hrefused
          have hwords := (reports_error_iff_writable rfl).1 hrefused
          simp [Error.wording] at hwords
          exact hwords hlong
      · intro h
        refine ⟨fun hcodes => h (.code hcode hcodes), fun fromCode hfrom => ?_⟩
        split
        · exact reports_ok _
        · next hne =>
          apply reports_error_of_writable rfl
          simpa [Error.wording] using fun hlong => h (.mismatch hmonth hcode hfrom hne hlong)

theorem isShort_of_monthOfFields {iso : IsoDate} (h : c.monthOfFields fields overflow = .ok iso) :
    iso.IsShort := by
  obtain ⟨year, -, hmonth⟩ := bind_eq_ok h
  obtain ⟨month, -, hiso⟩ := bind_eq_ok hmonth
  obtain ⟨reached, hreached, hlimits⟩ := bind_eq_ok hiso
  obtain ⟨rfl, -⟩ := IsoDate.checkMonthLimits_eq_ok hlimits
  exact isShort_of_toIso hreached

/-- The records of which the month is resolved without a report: the year or the month is refused
and that cannot be written, or the month begins on a day that is beyond a word. -/
inductive MonthEscapes (c : Calendar) (fields : Record Reading) (overflow : Overflow) : Prop
  | year (h : c.YearUnwritten fields) : MonthEscapes c fields overflow
  | month {year : Int} (hyear : c.resolveYear fields = .ok year)
    (h : c.MonthUnwritten year fields overflow) :
    MonthEscapes c fields overflow
  | beyond {year month : Int} (hyear : c.resolveYear fields = .ok year)
    (hmonth : c.resolveMonth year fields overflow = .ok month) (h : c.BeyondWord ⟨year, month, 1⟩) :
    MonthEscapes c fields overflow

/-- **The first day of the month of a record** is found with a report, unless it is one of those. -/
theorem monthOfFields_reports_iff :
    Reports free (c.monthOfFields fields overflow) ↔ ¬ c.MonthEscapes fields overflow := by
  unfold monthOfFields
  simp only [reports_bind_iff, resolveYear_reports_iff, resolveMonth_reports_iff, toIso_reports_iff]
  constructor
  · rintro ⟨hyear, hrest⟩ hescapes
    cases hescapes with
    | year h => exact hyear h
    | month hy h => exact (hrest _ hy).1 h
    | beyond hy hm h => exact ((hrest _ hy).2 _ hm).1 h
  · intro h
    exact ⟨fun hyear => h (.year hyear), fun year hy => ⟨fun hmonth => h (.month hy hmonth),
      fun month hm =>
        ⟨fun hbeyond => h (.beyond hy hm hbeyond),
          fun iso hiso => IsoDate.reports_checkMonthLimits (isShort_of_toIso hiso)⟩⟩⟩

/-- **A month beyond a word** lies in a year of sixteen digits or more. -/
theorem large_of_beyondWord (hm : c.HasMonth year month) (h : c.BeyondWord ⟨year, month, 1⟩) :
    1000000000000000 ≤ year.natAbs := by
  by_contra hsmall
  have hzero : (c.epochDay ⟨0, 1, 1⟩).natAbs ≤ 3000000 := by cases c <;> decide
  have hfirst : c.HasMonth 0 1 := ⟨le_rfl, (c.monthsInYear_bounds 0).1.trans' (by decide)⟩
  have hyears := c.monthIndex_year_sub_le 0 year
  have hdays := c.monthStart_sub_le (c.monthIndex 0 1) (c.monthIndex year month)
  have hlen := c.monthsInYear_bounds year
  have hmonths := monthIndex_eq c year month
  have h₁ : 1 ≤ month := hm.1
  have h₂ : month ≤ c.monthsInYear year := hm.2
  unfold BeyondWord at h
  split at h
  · have hoffset : c.yearOffset.natAbs ≤ 1911 := by cases c <;> decide
    have hwords : Iso.inWords (year - c.yearOffset) month 1 = true := by
      simp only [Iso.inWords, Bool.and_eq_true, fitsWord_iff]
      omega
    rw [hwords] at h
    cases h
  · rw [epochDay_eq_monthStart hfirst] at hzero
    rw [epochDay_eq_monthStart hm, ← Bool.not_eq_true, fitsWord_iff] at h
    omega

/-- **A record escapes** only by a year of sixteen digits or more, if its month counts from one and
no number in it has too many digits to be written. -/
theorem MonthEscapes.large (h : c.MonthEscapes fields overflow) (hn : fields.NamesMonth)
    (hshort : ∀ f n, fields.number? f = some n → ¬ IsOverlong n) :
    ∃ year, c.resolveYear fields = .ok year ∧ 1000000000000000 ≤ year.natAbs := by
  have hlarge : ∀ {year}, IsOverlong year → 1000000000000000 ≤ year.natAbs := by
    intro year hlong
    by_contra hsmall
    exact Shown.not_isOverlong (by omega) hlong
  cases h with
  | year h =>
    obtain ⟨year, eraYear, fromEra, hyear, heraYear, -, -, hlong⟩ := h
    exact absurd hlong (not_or.2 ⟨hshort _ _ hyear, hshort _ _ heraYear⟩)
  | month hyear h =>
    refine ⟨_, hyear, ?_⟩
    cases h with
    | place hmonth _ _ _ hlong => exact hlarge (hlong.resolve_right (hshort _ _ hmonth))
    | code _ h =>
      obtain ⟨code, -, -, -, -, -, hlong⟩ := h
      exact hlarge hlong
    | mismatch hmonth _ _ _ hlong => exact absurd hlong (hshort _ _ hmonth)
  | beyond hyear hmonth hbeyond =>
    exact ⟨_, hyear, large_of_beyondWord (hasMonth_of_resolveMonth hn hmonth) hbeyond⟩

end Calendar

namespace YearMonth

variable {c : Calendar} {fields : Record Reading} {overflow : Overflow}
  {entries : List (String × Value)}

/-- **A month with a given anchor** is made with a report exactly if no part of the anchor has too
many digits. -/
theorem of_reports_iff {anchor : IsoDate} {c : Calendar} :
    Reports free (of anchor c) ↔ anchor.IsShort := by
  unfold of
  split
  · next hv =>
    split
    · next hl =>
      have hyear := Iso.natAbs_lt_of_monthInLimits hl
      exact iff_of_true (reports_ok _) (hv.isShort (Shown.not_isOverlong (by omega)))
    · rw [IsoDate.reports_monthBeyond_iff]
      exact ⟨fun h => hv.isShort h.1, fun h => ⟨h.year, h.month⟩⟩
  · exact IsoDate.reports_invalid_iff

theorem reports_of {anchor : IsoDate} (h : anchor.IsShort) (c : Calendar) :
    Reports free (of anchor c) :=
  of_reports_iff.2 h

/-- **The month of a record** is made with a report, unless it begins beyond a word. -/
theorem ofFields_reports_iff :
    Reports free (ofFields c fields overflow) ↔ ¬ c.MonthEscapes fields overflow := by
  rw [ofFields, reports_bind_iff, Calendar.monthOfFields_reports_iff, and_iff_left_iff_imp]
  intro _ anchor hanchor
  exact reports_of (Calendar.isShort_of_monthOfFields hanchor) c

/-- The fields of a date of the represented months lead to its month, which begins within the
word. -/
theorem reports_ofFields_dateOf (c : Calendar) {iso : IsoDate} (hv : iso.Valid)
    (hl : Iso.MonthInLimits iso.year iso.month) {wanted : List Field} (hy : .year ∈ wanted)
    (hc : .monthCode ∈ wanted) (overflow : Overflow) :
    Reports free (ofFields c (c.fieldsOf (c.dateOf iso) (c.fieldsFor wanted)) overflow) := by
  have hd := Calendar.hasDate_dateOf (c := c) hv
  have hdescribes := Calendar.describes_fieldsOf hd.1 hy hc
  have hfirst : fitsWord (c.epochDay ⟨(c.dateOf iso).year, (c.dateOf iso).month, 1⟩) = true := by
    rw [← Calendar.isoOf_dateOf (c := c) hv] at hl
    exact Calendar.fitsWord_firstDay hd hl
  rw [ofFields_of_resolve hdescribes.toNamesYear.resolveYear
    (hdescribes.resolveMonth overflow) hdescribes.hasMonth hfirst]
  exact reports_of (Calendar.isShort_isoOf hfirst) c

/-- **A date** leads to its month with a report. -/
theorem reports_ofDate (d : Date) (overflow : Overflow) : Reports free (ofDate d overflow) := by
  rw [Date.ofDate_eq]
  exact reports_of (Calendar.isShort_isoOf d.month.fitsWord_first) d.calendar

/-- **A text** leads to the month that it writes with a report. -/
theorem reports_ofText (s : String) : Reports free (ofText s) := by
  have hparsed : Reports free (ParsedMonth.parse s) := by
    unfold ParsedMonth.parse
    split
    · exact reports_error rfl
    · next w _ =>
      cases w.check with
      | error fault => exact reports_error rfl
      | ok parsed => exact reports_ok parsed
  unfold ofText
  apply hparsed.bind
  intro parsed hparse
  have hshort : parsed.iso.IsShort := by
    obtain ⟨w, hspells, hadmitted, -, hiso⟩ := ParsedMonth.parse_eq_ok_iff.1 hparse
    generalize s.toList = chars at hspells
    cases hspells with
    | mk hyear =>
      have hlt := hyear.natAbs_lt
      rw [← hiso]
      exact hadmitted.valid.isShort (Shown.not_isOverlong (by dsimp only [WrittenDate.iso]; omega))
  apply (Value.reports_toCalendar _).bind
  intro c _
  split
  · exact IsoDate.reports_monthBeyond_iff.2 ⟨hshort.year, hshort.month⟩
  · apply (reports_of hshort c).bind
    intro written hwritten
    obtain ⟨rfl, -⟩ := eq_of_of hwritten
    exact reports_ofFields_dateOf _ written.valid written.inLimits (by decide)
      (by decide) .constrain

theorem reports_calendarOf (entries : List (String × Value)) :
    Reports free (calendarOf entries) := by
  unfold calendarOf
  split
  · exact reports_ok _
  · exact reports_ok _
  · exact reports_ok _
  · exact Value.reports_toCalendar _

/-- The mappings that are taken for a month without a report: a field is a rational beyond a double,
or the month begins beyond a word. -/
inductive MappingEscapes (entries : List (String × Value)) (overflow : Overflow) : Prop
  | field {c : Calendar} (hc : calendarOf entries = .ok c)
    (h : Record.FieldsEscape entries (fieldsOfMonth c)) :
    MappingEscapes entries overflow
  | month {c : Calendar} {fields : Record Reading} (hc : calendarOf entries = .ok c)
    (hfields : Record.prepare entries ((fieldsOfMonth c).map Field.name) [] = .ok fields)
    (h : c.MonthEscapes fields overflow) : MappingEscapes entries overflow

/-- **A mapping** leads to the month of its fields with a report, unless it is one of those. -/
theorem ofMapping_reports_iff :
    Reports free (ofMapping entries overflow) ↔ ¬ MappingEscapes entries overflow := by
  unfold ofMapping
  simp only [reports_bind_iff, reports_calendarOf, Record.prepare_reports_iff, ofFields_reports_iff,
    true_and]
  constructor
  · intro h hescapes
    cases hescapes with
    | field hc hfield => exact (h _ hc).1 hfield
    | month hc hfields hmonth => exact (h _ hc).2 _ hfields hmonth
  · intro h c hc
    exact ⟨fun hfield => h (.field hc hfield),
      fun fields hfields hmonth => h (.month hc hfields hmonth)⟩

end YearMonth

/-- The values that are taken for a year-month without a report, all of them mappings. -/
def Value.ItemEscapes (v : Value) (overflow : Overflow) : Prop :=
  ∃ entries, v.entries? = some entries ∧ YearMonth.MappingEscapes entries overflow

/-- **A value** leads to a year-month with a report, unless it is a mapping that does not. -/
theorem Value.toYearMonth_reports_iff {v : Value} {overflow : Overflow} :
    Reports free (v.toYearMonth overflow) ↔ ¬ v.ItemEscapes overflow := by
  unfold toYearMonth ItemEscapes
  split
  · next ym => exact iff_of_true (reports_ok ym) (by simp [entries?])
  · next d => exact iff_of_true (YearMonth.reports_ofDate d overflow) (by simp [entries?])
  · next s => exact iff_of_true (YearMonth.reports_ofText s) (by simp [entries?])
  · split
    · next entries h =>
        simp only [h, Option.some.injEq, exists_eq_left', YearMonth.ofMapping_reports_iff]
    · next h => exact iff_of_true (reports_error rfl) (by simp [h])

end Almanac
