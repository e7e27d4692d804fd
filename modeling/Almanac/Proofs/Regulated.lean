import Almanac.Proofs.Resolved

/-!
# Dates that are regulated or refused

A record is resolved in one of two ways. A month beyond its year, a leap month that its year has not
and a day beyond its month are each replaced by the nearest that there is, or each refused. The two
ways differ in nothing else: what is not refused is what nothing has been replaced in.

* `Calendar.Regulates`: a date has the year of a record, and its month and its day as far as there
  are such.
* `Calendar.Keeps`: a date has the month, the month code and the day of a record as they are.
* `Calendar.regulateDay_reject_iff`: a day is refused where it would be cut off, and nowhere else.
* `Calendar.month_of_resolveMonth`, `Calendar.dateOfFields_eq_ok_iff`: the month that is resolved,
  and the steps from a record to a date.
* `Calendar.fields_regulated`: **a record that is regulated or refused**, as a whole.
* `Calendar.month_zero_not_regulated`: a code of number zero leads to another year.
-/

namespace Almanac.Calendar

variable {c : Calendar} {fields : Record Reading} {year month day given : Int} {written : String}
  {overflow : Overflow} {iso : IsoDate}

/-- **The date that a record is regulated to**: its year is the one that is resolved, that of the
record and of its era, its month the month of the code, or of that place or else the last one, and
its day that day or else the last one of the month. -/
structure Regulates (c : Calendar) (fields : Record Reading) (d : YearMonthDay) : Prop where
  resolved : c.resolveYear fields = .ok d.year
  year : ∀ n, fields.number? .year = some n → d.year = n
  era : c.hasEras = true → fields.text? .era ≠ none ∨ fields.number? .eraYear ≠ none →
    ∃ era eraYear, fields.text? .era = some era ∧ fields.number? .eraYear = some eraYear ∧
      c.yearOfEra era eraYear = .ok d.year
  code : ∀ written, fields.text? .monthCode = some written →
    ∃ code, MonthCode.ofText written = .ok code ∧ c.monthCode d.year d.month = c.codeIn code d.year
  month : ∀ n, fields.number? .month = some n → d.month = min n (c.monthsInYear d.year)
  month_or_code : fields.number? .month ≠ none ∨ fields.text? .monthCode ≠ none
  day : ∃ n, fields.number? .day = some n ∧ d.day = min n (c.daysInMonth d.year d.month)

/-- The date has the month, the month code and the day of a record, as far as the record has
them. -/
structure Keeps (c : Calendar) (fields : Record Reading) (d : YearMonthDay) : Prop where
  code : ∀ written, fields.text? .monthCode = some written →
    ∀ code, MonthCode.ofText written = .ok code → c.monthCode d.year d.month = code
  month : ∀ n, fields.number? .month = some n → d.month = n
  day : ∀ n, fields.number? .day = some n → d.day = n

/-- A day that is regulated, by whichever treatment of overflow, is the day or the last one. -/
theorem min_of_regulateDay (h : c.regulateDay year month given overflow = .ok day) :
    day = min given (c.daysInMonth year month) := by
  unfold regulateDay at h
  split at h
  · next hlt =>
    cases overflow with
    | reject => cases h
    | constrain => rw [min_eq_right (by omega), Except.ok.inj h]
  · next hle => rw [min_eq_left (by omega), Except.ok.inj h]

/-- **A day is refused** where it would be cut off, and nowhere else. -/
theorem regulateDay_reject_iff :
    c.regulateDay year month given .reject = .ok day ↔
      c.regulateDay year month given .constrain = .ok day ∧ day = given := by
  unfold regulateDay
  split
  · simp only [reduceCtorEq, Except.ok.injEq, false_iff, not_and]
    omega
  · simp only [Except.ok.injEq]
    omega

/-- **A month that is regulated** is the month of the code of a record, and its place as far as
there is such. -/
theorem month_of_resolveMonth (h : c.resolveMonth year fields .constrain = .ok month)
    (hm : c.HasMonth year month) :
    (∀ written, fields.text? .monthCode = some written →
      ∃ code, MonthCode.ofText written = .ok code ∧ c.monthCode year month = c.codeIn code year) ∧
    (∀ n, fields.number? .month = some n → month = min n (c.monthsInYear year)) ∧
    (fields.number? .month ≠ none ∨ fields.text? .monthCode ≠ none) := by
  refine ⟨?_, ?_, ?_⟩
  · intro written hwritten
    obtain ⟨code, hcode, hknown, -, rfl⟩ :=
      monthOfText_eq_ok_iff.1 (monthOfText_of_resolveMonth h hwritten)
    exact ⟨code, hcode, monthCode_placeOfCode hknown year⟩
  · intro n hn
    unfold resolveMonth at h
    rw [hn] at h
    cases hcode : fields.text? .monthCode with
    | none =>
      rw [hcode] at h
      exact (Except.ok.inj ((regulateMonth_constrain c year n).symm.trans h)).symm
    | some written =>
      -- a place that is given with a code is the place of the month, which exists
      rw [hcode] at h
      obtain ⟨m, -, h⟩ := bind_eq_ok h
      split at h
      · obtain rfl := Except.ok.inj h
        exact (min_eq_left hm.2).symm
      · cases h
  · by_contra hnone
    simp only [ne_eq, not_or, not_not] at hnone
    unfold resolveMonth at h
    rw [hnone.1, hnone.2] at h
    cases h

/-- **The steps from a record to a date.** -/
theorem dateOfFields_eq_ok_iff :
    c.dateOfFields fields overflow = .ok iso ↔
    ∃ year month given day, c.resolveYear fields = .ok year ∧
      c.resolveMonth year fields overflow = .ok month ∧ fields.number? .day = some given ∧
      c.regulateDay year month given overflow = .ok day ∧ c.toIso ⟨year, month, day⟩ = .ok iso ∧
      iso.InLimits := by
  simp only [dateOfFields, bind_eq_ok_iff]
  constructor
  · rintro ⟨year, hyear, month, hmonth, h⟩
    cases hgiven : fields.number? .day with
    | none =>
      rw [hgiven] at h
      cases h
    | some given =>
      rw [hgiven] at h
      obtain ⟨day, hday, h⟩ := bind_eq_ok h
      obtain ⟨reached, hreached, h⟩ := bind_eq_ok h
      obtain ⟨rfl, hl⟩ := IsoDate.checkLimits_eq_ok h
      exact ⟨year, month, given, day, hyear, hmonth, rfl, hday, hreached, hl⟩
  · rintro ⟨year, month, given, day, hyear, hmonth, hgiven, hday, hiso, hl⟩
    refine ⟨year, hyear, month, hmonth, ?_⟩
    rw [hgiven]
    simp only [hday, hiso, bind, Except.bind]
    exact if_pos hl

section

variable (hmonth : ∀ n, fields.number? .month = some n → 1 ≤ n)
  (hday : ∀ n, fields.number? .day = some n → 1 ≤ n) (hcounts : c.CountsDate fields)
  (hzero : ∀ written, fields.text? .monthCode = some written →
    ∀ code, MonthCode.ofText written = .ok code → code.number ≠ 0)

include hmonth hday hcounts hzero

/-- The date that is reached in these steps is a date of the calendar, and reads as they say. -/
theorem dateOf_of_steps (hyear : c.resolveYear fields = .ok year)
    (hresolved : c.resolveMonth year fields overflow = .ok month)
    (hgiven : fields.number? .day = some given)
    (hregulated : c.regulateDay year month given overflow = .ok day)
    (hiso : c.toIso ⟨year, month, day⟩ = .ok iso) : c.HasMonth year month ∧
    c.dateOf iso = ⟨year, month, day⟩ := by
  have hm : c.HasMonth year month := by
    refine (hasMonth_or_zero_of_resolveMonth hmonth hresolved).resolve_right ?_
    rintro ⟨-, written, code, hwritten, hcode, hnumber⟩
    exact hzero written hwritten code hcode hnumber
  have hd := hasDate_of_regulateDay hm (hday given hgiven) hregulated
  have hw : c.Countable ⟨year, month, day⟩ := by
    have hw := hcounts year month given hyear (resolveMonth_constrain hresolved) hgiven
    rwa [← min_of_regulateDay hregulated] at hw
  rw [eq_isoOf hd hw hiso, dateOf_isoOf hd]
  exact ⟨hm, rfl⟩

/-- **A record is regulated or refused.** Let a record have a month and a day from one on, as far as
it has them, and no month code of number zero, and let the days to the date that it comes to fit a
word, where they are counted in one. If it is regulated to a date, that has the year which is
resolved, the month of the code, Adar for a leap month that a Hebrew year has not, or the given
month or else the last one, and the given day or else the last one of the month. It gives a date
with nothing replaced exactly if it is regulated to one that has its month, its month code and its
day, and then it gives the same date. -/
theorem fields_regulated :
    (∀ iso, c.dateOfFields fields .constrain = .ok iso → c.Regulates fields (c.dateOf iso)) ∧
      ∀ iso, c.dateOfFields fields .reject = .ok iso ↔
        c.dateOfFields fields .constrain = .ok iso ∧ c.Keeps fields (c.dateOf iso) := by
  constructor
  · intro iso h
    obtain ⟨year, month, given, day, hyear, hresolved, hgiven, hregulated, hiso, -⟩ :=
      dateOfFields_eq_ok_iff.1 h
    obtain ⟨hm, hdate⟩ :=
      dateOf_of_steps hmonth hday hcounts hzero hyear hresolved hgiven hregulated hiso
    obtain ⟨hcode, hplace, hone⟩ := month_of_resolveMonth hresolved hm
    rw [regulateDay_constrain] at hregulated
    rw [hdate]
    exact ⟨hyear, fun n hn => eq_of_resolveYear hyear hn, yearOfEra_of_resolveYear hyear, hcode,
      hplace, hone, given, hgiven, (Except.ok.inj hregulated).symm⟩
  · intro iso
    constructor
    · intro h
      obtain ⟨year, month, given, day, hyear, hresolved, hgiven, hregulated, hiso, hl⟩ :=
        dateOfFields_eq_ok_iff.1 h
      obtain ⟨hm, hdate⟩ :=
        dateOf_of_steps hmonth hday hcounts hzero hyear hresolved hgiven hregulated hiso
      obtain ⟨hconstrain, hcode, hplace⟩ := resolveMonth_reject_iff.1 hresolved
      obtain ⟨hcut, hkept⟩ := regulateDay_reject_iff.1 hregulated
      rw [hdate]
      refine ⟨dateOfFields_eq_ok_iff.2 ⟨year, month, given, day, hyear, hconstrain, hgiven, hcut,
        hiso, hl⟩, hcode, hplace, ?_⟩
      intro n hn
      obtain rfl := Option.some.inj (hgiven.symm.trans hn)
      exact hkept
    · rintro ⟨h, hkeeps⟩
      obtain ⟨year, month, given, day, hyear, hresolved, hgiven, hregulated, hiso, hl⟩ :=
        dateOfFields_eq_ok_iff.1 h
      rw [(dateOf_of_steps hmonth hday hcounts hzero hyear hresolved hgiven hregulated hiso).2]
        at hkeeps
      exact dateOfFields_eq_ok_iff.2 ⟨year, month, given, day, hyear,
        resolveMonth_reject_iff.2 ⟨hresolved, hkeeps.code, hkeeps.month⟩, hgiven,
        regulateDay_reject_iff.2 ⟨hregulated, hkeeps.day given hgiven⟩, hiso, hl⟩

end

/-- The last day of the leap month of a Hebrew year, by its era and its month code, in a year that
has no such month. -/
def lastOfAdarI5783 : Record Reading where
  entries :=
    [(.era, .text "am"), (.eraYear, .number 5783), (.monthCode, .text "M05L"), (.day, .number 30)]

/-- The leap month is replaced by Adar and its last day by the one before, or both are refused. -/
theorem fields_regulated_lastOfAdarI5783 :
    hebrew.dateOfFields lastOfAdarI5783 .constrain = .ok ⟨2023, 3, 22⟩ ∧
      hebrew.Regulates lastOfAdarI5783 ⟨5783, 6, 29⟩ ∧
      hebrew.dateOfFields lastOfAdarI5783 .reject ≠ .ok ⟨2023, 3, 22⟩ := by
  have hregulated : hebrew.dateOfFields lastOfAdarI5783 .constrain = .ok ⟨2023, 3, 22⟩ := by
    decide +kernel
  have hday : ∀ n, lastOfAdarI5783.number? .day = some n → 1 ≤ n := by
    intro n hn
    obtain rfl : 30 = n := Option.some.inj hn
    decide
  have hcode : ∀ written, lastOfAdarI5783.text? .monthCode = some written →
      ∀ code, MonthCode.ofText written = .ok code → code.number ≠ 0 := by
    intro written hwritten code hcode
    obtain rfl : "M05L" = written := Option.some.inj hwritten
    obtain rfl : ⟨5, true⟩ = code := Except.ok.inj hcode
    decide
  obtain ⟨hconstrain, hreject⟩ := fields_regulated (c := .hebrew) (by rintro n ⟨⟩) hday
    (countsDate_of_not_followsIso (by decide)) hcode
  refine ⟨hregulated, hconstrain _ hregulated, ?_⟩
  rw [ne_eq, hreject]
  rintro ⟨-, hkeeps⟩
  exact absurd (hkeeps.day 30 rfl) (by decide)

/-- The first day of a month of number zero, in digits that are not ASCII. -/
def firstOfMonthZero1740 : Record Reading where
  entries := [(.year, .number 1740), (.monthCode, .text "M\u0660\u0660"), (.day, .number 1)]

/-- A code of number zero, in digits that are not ASCII, leads to the last month but one of the year
before, where nothing may be replaced as well. -/
theorem month_zero_not_regulated :
    coptic.dateOfFields firstOfMonthZero1740 .constrain = .ok ⟨2023, 8, 13⟩ ∧
      coptic.dateOfFields firstOfMonthZero1740 .reject = .ok ⟨2023, 8, 13⟩ ∧
      coptic.resolveYear firstOfMonthZero1740 = .ok 1740 ∧
      coptic.dateOf ⟨2023, 8, 13⟩ = ⟨1739, 12, 7⟩ ∧
      ¬ coptic.Regulates firstOfMonthZero1740 (coptic.dateOf ⟨2023, 8, 13⟩) := by
  refine ⟨by decide +kernel, by decide +kernel, rfl, by decide, ?_⟩
  intro h
  exact absurd (h.year 1740 rfl) (by decide)

/-- The days to a date of a far year, reduced to a word, lead to a date of another year. -/
example :
    iso8601.dateOfFields
      (.ofList [(.year, .number (1970 + 2 ^ 62)), (.month, .number 1), (.day, .number 1)])
        .constrain = .ok ⟨1970, 1, 1⟩ := by
  decide +kernel

end Almanac.Calendar
