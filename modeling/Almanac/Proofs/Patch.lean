import Almanac.Proofs.YearMonth
import Almanac.YearMonth.Change

/-!
# Year-months with another year

A patch by a year replaces the year and its era. It keeps both the place and the code of the month,
and the two have to agree in the new year.

* `Calendar.place_eq_iff`: when the code of a month has the same place in another year.
* `YearMonth.get?_patchedBy`: the fields of a year-month that is patched by a year.
* `YearMonth.patch_year`: **a patch by a year** gives the month of the same code where it has the
  same place, and is refused where it has not.
-/

namespace Almanac

namespace Calendar

/-- A month of a leap year and a month of a common year have one code only before the leap month,
where their places are the same, or behind it, where they are not. -/
theorem place_of_common {month month' : Int}
    (h : codeOfPlace true month = codeOfPlace false month') :
    month < 6 ∧ month' = month ∨ 6 < month ∧ month' = month - 1 := by
  have hcommon : codeOfPlace false month' = ⟨month', false⟩ := rfl
  rw [hcommon] at h
  rcases codeOfPlace_cases true month with ⟨hm, he⟩ | ⟨-, -, he⟩ | ⟨-, hm, he⟩ <;>
    rw [he, MonthCode.mk.injEq] at h
  · exact .inl ⟨hm.resolve_left (by decide), h.1.symm⟩
  · exact absurd h.2 (by decide)
  · exact .inr ⟨hm, h.1.symm⟩

/-- **A code has the same place** in two years of one kind, and in all years if it comes before the
leap month. -/
theorem place_eq_iff {leap leap' : Bool} {month month' : Int}
    (h : codeOfPlace leap month = codeOfPlace leap' month') :
    month = month' ↔ leap = leap' ∨ month' < 6 := by
  by_cases hl : leap = leap'
  · subst hl
    have hplace := congrArg (placeOfCode leap) h
    rw [placeOfCode_codeOfPlace, placeOfCode_codeOfPlace] at hplace
    simp only [hplace, true_or]
  · rw [or_iff_right hl]
    cases leap with
    | false =>
      obtain rfl : leap' = true := by simpa using Ne.symm hl
      have := place_of_common h.symm
      omega
    | true =>
      obtain rfl : leap' = false := by simpa using Ne.symm hl
      have := place_of_common h
      omega

end Calendar

namespace YearMonth

variable {ym : YearMonth} {year month : Int}

/-- The record of a single year. -/
def yearRecord (year : Int) : Record Reading := .ofList [(.year, .number year)]

/-- The fields of a month, those of a year put in their place. -/
def patchedBy (ym : YearMonth) (year : Int) : Record Reading :=
  (ym.fields [.month, .monthCode, .year]).merge ym.calendar.hasEras (yearRecord year)

theorem get?_yearRecord (year : Int) (f : Field) :
    (yearRecord year).get? f = if f = .year then some (.number year) else none := by
  cases f <;> rfl

/-- **What a read finds** when the year of a year-month is replaced: the year, no era, and all else
as it was. -/
theorem get?_patchedBy (ym : YearMonth) (year : Int) (f : Field) :
    (ym.patchedBy year).get? f =
      if f = .year then some (.number year)
      else if f = .era ∨ f = .eraYear then none
      else (ym.fields [.month, .monthCode, .year]).get? f := by
  have hall : ((yearRecord year).fields.all fun g => f ∉ Record.shadowed ym.calendar.hasEras g) =
      decide (f ∉ Record.shadowed ym.calendar.hasEras .year) := by
    rw [show (yearRecord year).fields = [.year] from rfl, List.all_cons, List.all_nil,
      Bool.and_true]
  rw [patchedBy, Record.get?_merge, get?_yearRecord, hall]
  by_cases he : ym.calendar.hasEras
  · rw [he]
    cases f <;> simp [Record.shadowed]
  · have hnone : ym.calendar.eraOf ym.reading.year = none := by
      rw [← Option.not_isSome_iff_eq_none, Calendar.eraOf_isSome_iff]
      exact he
    rw [Bool.not_eq_true] at he
    rw [he]
    cases f <;>
      simp [Record.shadowed, fields, Calendar.get?_fieldsOf, Calendar.fieldOf?, hnone]

theorem preparePartial_year (c : Calendar) (year : Int) :
    Record.preparePartial [("year", .number (.whole year))] ((fieldsOfMonth c).map Field.name) =
      .ok (yearRecord year) := by
  cases c <;> rfl

theorem patchFrom_year (ym : YearMonth) (year : Int) {v : Value} {overflow : Overflow}
    (hv : v.toOverflow = .ok overflow) :
    ym.patchFrom (.mapping [("year", .number (.whole year))]) v =
      ofFields ym.calendar (ym.patchedBy year) overflow := by
  have hkeys : (temporalKeys.find? fun k =>
      !(Value.lookup [("year", .number (.whole year))] k).isNull) = none := rfl
  have hentries : (Value.mapping [("year", .number (.whole year))]).entries? =
      some [("year", .number (.whole year))] := rfl
  simp only [patchFrom, hentries, patchEntries, hkeys, hv, preparePartial_year, bind, Except.bind]
  rfl

theorem namesYear_patchedBy (ym : YearMonth) (year : Int) :
    ym.calendar.NamesYear (ym.patchedBy year) year where
  year_eq := by
    rw [Record.number?, get?_patchedBy]
    rfl
  era_eq := by
    refine .inl ⟨?_, ?_⟩
    · rw [Record.text?, get?_patchedBy]
      rfl
    · rw [Record.number?, get?_patchedBy]
      rfl

theorem month_patchedBy (ym : YearMonth) (year : Int) :
    (ym.patchedBy year).number? .month = some ym.reading.month := by
  rw [Record.number?, get?_patchedBy, fields, Calendar.get?_fieldsOf,
    if_pos (Calendar.mem_fieldsFor.2 (.inl (by decide)))]
  rfl

theorem code_patchedBy (ym : YearMonth) (year : Int) :
    (ym.patchedBy year).text? .monthCode =
      some (ym.calendar.monthCode ym.reading.year ym.reading.month).text := by
  rw [Record.text?, get?_patchedBy, fields, Calendar.get?_fieldsOf,
    if_pos (Calendar.mem_fieldsFor.2 (.inl (by decide)))]
  rfl

theorem ofFields_patchedBy_of_ne (hm : ym.calendar.HasMonth year month)
    (hcode : ym.calendar.monthCode year month =
      ym.calendar.monthCode ym.reading.year ym.reading.month)
    (hne : ym.reading.month ≠ month) (overflow : Overflow) :
    ofFields ym.calendar (ym.patchedBy year) overflow =
      .error (.monthMismatch (.number ym.reading.month)
        (Text.quote (ym.calendar.monthCode year month).text)) := by
  have htext := Calendar.monthOfText_monthCode hm overflow
  have hresolve : ym.calendar.resolveMonth year (ym.patchedBy year) overflow =
      .error (.monthMismatch (.number ym.reading.month)
        (Text.quote (ym.calendar.monthCode year month).text)) := by
    rw [Calendar.resolveMonth, month_patchedBy, code_patchedBy, ← hcode]
    simp only [htext, bind, Except.bind, if_neg hne]
    rfl
  rw [ofFields, Calendar.monthOfFields, (namesYear_patchedBy ym year).resolveYear]
  simp only [bind, Except.bind, hresolve]

/-- **A patch by a year.** Let the other year have a month of the code of a year-month, its first
day within the range. If the month has the same place there, which it has unless a leap month comes
or goes before it, the patch gives that month; otherwise it is refused, as the place that the
year-month had is kept. -/
theorem patch_year (ym : YearMonth) (year month : Int) (hm : ym.calendar.HasMonth year month)
    (hcode : ym.calendar.monthCode year month =
      ym.calendar.monthCode ym.reading.year ym.reading.month)
    (hl : Iso.MonthInLimits (ym.calendar.isoOf ⟨year, month, 1⟩).year
      (ym.calendar.isoOf ⟨year, month, 1⟩).month)
    {v : Value} {overflow : Overflow} (hv : v.toOverflow = .ok overflow) :
    (ym.calendar.isHebrewLeap year = ym.calendar.isHebrewLeap ym.reading.year ∨
        ym.reading.month < 6 →
      ∃ other, ym.patchFrom (.mapping [("year", .number (.whole year))]) v = .ok other ∧
        other.calendar = ym.calendar ∧ other.reading = ⟨year, month, 1⟩) ∧
    (¬ (ym.calendar.isHebrewLeap year = ym.calendar.isHebrewLeap ym.reading.year ∨
        ym.reading.month < 6) →
      ym.patchFrom (.mapping [("year", .number (.whole year))]) v =
        .error (.monthMismatch (.number ym.reading.month)
          (Text.quote (ym.calendar.monthCode ym.reading.year ym.reading.month).text))) := by
  -- what is said of the kinds of the years comes down to the places of the month
  rw [patchFrom_year ym year hv, ← Calendar.place_eq_iff hcode, ← hcode]
  constructor
  · intro hplace
    have hdesc : ym.calendar.Describes (ym.patchedBy year) year month :=
      { namesYear_patchedBy ym year with
        hasMonth := hm
        code_eq := by rw [code_patchedBy, hcode]
        month_eq := .inr (by rw [month_patchedBy, hplace]) }
    refine ⟨_, ofFields_eq hdesc hl overflow, rfl, ?_⟩
    exact Calendar.dateOf_isoOf (Calendar.hasDate_first hm)
  · intro hplace
    exact ofFields_patchedBy_of_ne hm hcode (Ne.symm hplace) overflow

/-- The first month of spring in a common year of the Hebrew calendar. -/
def nisan5783 : YearMonth where
  anchor := ⟨2023, 3, 23⟩
  calendar := .hebrew

/-- A spring month of a common year goes to another common year, but not to a leap year. -/
theorem patch_year_nisan5783 :
    (∃ other, nisan5783.patchFrom (.mapping [("year", .number (.whole 5785))]) .null = .ok other ∧
      other.calendar = .hebrew ∧ other.reading = ⟨5785, 7, 1⟩) ∧
    nisan5783.patchFrom (.mapping [("year", .number (.whole 5784))]) .null =
      .error (.monthMismatch (.number 7) (Text.quote (MonthCode.text ⟨7, false⟩))) := by
  have hnull : Value.null.toOverflow = .ok .constrain := rfl
  refine ⟨(patch_year nisan5783 5785 7 (by decide) (by decide) (by decide) hnull).1 (by decide), ?_⟩
  exact (patch_year nisan5783 5784 8 (by decide) (by decide) (by decide) hnull).2 (by decide)

/-- A month that the other year has, and that a patch by that year does not find. -/
theorem patch_year_refused :
    Calendar.hebrew.HasMonth 5784 8 ∧
    Calendar.hebrew.monthCode 5784 8 =
      Calendar.hebrew.monthCode nisan5783.reading.year nisan5783.reading.month ∧
    Iso.MonthInLimits (Calendar.hebrew.isoOf ⟨5784, 8, 1⟩).year
      (Calendar.hebrew.isoOf ⟨5784, 8, 1⟩).month ∧
    ∀ v overflow, v.toOverflow = .ok overflow →
      nisan5783.patchFrom (.mapping [("year", .number (.whole 5784))]) v =
        .error (.monthMismatch (.number 7) (Text.quote (MonthCode.text ⟨7, false⟩))) := by
  refine ⟨by decide, by decide, by decide, ?_⟩
  intro v overflow hv
  rw [patchFrom_year nisan5783 5784 hv]
  exact ofFields_patchedBy_of_ne (show nisan5783.calendar.HasMonth 5784 8 by decide) (by decide)
    (by decide) overflow

end YearMonth

end Almanac
