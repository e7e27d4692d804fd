import Almanac.Proofs.Canonical

/-!
# What a patch replaces

A patch is read field by field and laid over the fields of a month. A field that it gives hides the
fields that say the same: the month and its code hide each other, and so do the year and the two
fields of its era. What the patch gives is then found in the month that is made, and what it does
not give is found as it was.

* `YearMonth.YearReplaced`, `YearMonth.MonthReplaced`: a year, or the place and the code of a month,
  are those that a patch gives.
* `YearMonth.yearReplaced_of_resolve`, `YearMonth.monthReplaced_of_resolve`: so are those that are
  resolved.
* `YearMonth.patch_replaces`: **a month that has been patched** has the year and the month that the
  patch gives.
* `YearMonth.month_zero_not_replaced`: a code of number zero leads to another year.
-/

namespace Almanac

/-- A code of number zero that is read is not the one that is written for it. -/
theorem MonthCode.text_ne_of_zero {written : String} {code : MonthCode}
    (hcode : ofText written = .ok code) (hzero : code.number = 0) : code.text ≠ written := by
  rintro rfl
  obtain ⟨number, leap⟩ := code
  obtain rfl : number = 0 := hzero
  cases leap <;> exact absurd hcode (by decide +kernel)

namespace YearMonth

variable {ym r : YearMonth} {p : Record Reading} {entries : List (String × Value)}
  {year month : Int} {f g : Field} {written : String} {code : MonthCode}

theorem get?_patchedWith_of_kept (hf : f ∈ fieldsOfMonth ym.calendar)
    (h : ∀ g, f ∈ Record.shadowed ym.calendar.hasEras g → p.get? g = none) :
    (ym.patchedWith p).get? f = ym.calendar.fieldOf? ym.reading f := by
  rw [patchedWith, Record.get?_merge_of_kept h, fields, Calendar.get?_fieldsOf]
  exact if_pos hf

theorem mem_fieldsOfMonth {c : Calendar} (h : f = .month ∨ f = .monthCode ∨ f = .year) :
    f ∈ fieldsOfMonth c :=
  Calendar.mem_fieldsFor.2 (.inl (by simpa using h))

theorem mem_fieldsOfMonth_of_hasEras {c : Calendar} (heras : c.hasEras = true)
    (h : f = .era ∨ f = .eraYear) :
    f ∈ fieldsOfMonth c :=
  Calendar.mem_fieldsFor.2 (.inr ⟨⟨heras, by decide⟩, h⟩)

/-- A year is the one that a patch gives: the year itself, the year of the era, or the year that was
there before. A calendar without eras does not look at the fields of an era. -/
structure YearReplaced (ym : YearMonth) (entries : List (String × Value)) (year : Int) : Prop where
  of_year : (Value.lookup entries "year").isNull = false →
    (Value.lookup entries "year").truncated "year" = .ok year
  of_era : ym.calendar.hasEras = true →
    (Value.lookup entries "era").isNull = false ∨ (Value.lookup entries "era_year").isNull = false →
    ∃ era eraYear, Value.lookup entries "era" = .text era ∧
      (Value.lookup entries "era_year").truncated "era_year" = .ok eraYear ∧
      ym.calendar.yearOfEra era eraYear = .ok year
  kept : (Value.lookup entries "year").isNull = true →
    (ym.calendar.hasEras = true →
      (Value.lookup entries "era").isNull = true ∧
        (Value.lookup entries "era_year").isNull = true) →
    year = ym.reading.year

/-- The place and the code of a month are those that a patch gives, the code as the calendar writes
it, and the code is the one that was there before if the patch gives neither. -/
structure MonthReplaced (ym : YearMonth) (entries : List (String × Value)) (month : Int)
    (code : String) : Prop where
  of_month : (Value.lookup entries "month").isNull = false →
    (Value.lookup entries "month").positive "month" = .ok month
  of_code : ∀ s given, Value.lookup entries "month_code" = .text s →
    MonthCode.ofText s = .ok given →
    given.text = s → code = s
  kept : (Value.lookup entries "month").isNull = true →
    (Value.lookup entries "month_code").isNull = true →
    code = ym.monthCode

section

variable (hread : p.Reads entries (fieldsOfMonth ym.calendar))
include hread

/-- **A field that the patch gives** is found as the patch gives it. -/
theorem get?_patchedWith_of_given (hf : f ∈ fieldsOfMonth ym.calendar)
    (hgiven : (Value.lookup entries f.name).isNull = false) :
    ∃ v, f.convert (Value.lookup entries f.name) = .ok v ∧ (ym.patchedWith p).get? f = some v := by
  obtain ⟨v, hv, hget⟩ := hread.present f hf hgiven
  refine ⟨v, hv, ?_⟩
  rw [patchedWith, Record.get?_merge_of_shadowed (Record.mem_shadowed_self _ f), hget]
  rw [hget]
  exact Option.some_ne_none v

/-- Both fields of the era are found as the patch has them, if it gives either. -/
theorem get?_patchedWith_era (heras : ym.calendar.hasEras = true)
    (hgiven : (Value.lookup entries "era").isNull = false ∨
      (Value.lookup entries "era_year").isNull = false)
    (hf : f = .era ∨ f = .eraYear) : (ym.patchedWith p).get? f = p.get? f := by
  have hshadowed : ∀ g : Field, g = .era ∨ g = .eraYear →
      f ∈ Record.shadowed ym.calendar.hasEras g := by
    rintro g (rfl | rfl) <;> rcases hf with rfl | rfl <;> rw [heras] <;> decide
  have hpresent : ∀ g : Field, g = .era ∨ g = .eraYear →
    (Value.lookup entries g.name).isNull = false →
      (ym.patchedWith p).get? f = p.get? f := by
    intro g hg hgiven
    obtain ⟨v, -, hget⟩ := hread.present g (mem_fieldsOfMonth_of_hasEras heras hg) hgiven
    exact Record.get?_merge_of_shadowed (hshadowed g hg) (by rw [hget]; exact Option.some_ne_none v)
  rcases hgiven with hgiven | hgiven
  · exact hpresent .era (.inl rfl) hgiven
  · exact hpresent .eraYear (.inr rfl) hgiven

/-- **The year that is resolved** is the one that the patch gives. -/
theorem yearReplaced_of_resolve (h : ym.calendar.resolveYear (ym.patchedWith p) = .ok year) :
    ym.YearReplaced entries year where
  of_year hgiven := by
    obtain ⟨v, hv, hfound⟩ :=
      get?_patchedWith_of_given hread (mem_fieldsOfMonth (.inr (.inr rfl))) hgiven
    obtain ⟨n, hn, rfl⟩ := map_eq_ok hv
    obtain rfl := Calendar.eq_of_resolveYear h (Record.number?_eq_some_iff.2 hfound)
    exact hn
  of_era heras hgiven := by
    have hsome : (ym.patchedWith p).text? .era ≠ none ∨
        (ym.patchedWith p).number? .eraYear ≠ none := by
      rcases hgiven with hgiven | hgiven
      · obtain ⟨v, hv, hfound⟩ :=
          get?_patchedWith_of_given hread (mem_fieldsOfMonth_of_hasEras heras (.inl rfl)) hgiven
        obtain ⟨s, -, rfl⟩ := map_eq_ok hv
        exact .inl (by rw [Record.text?_eq_some_iff.2 hfound]; exact Option.some_ne_none s)
      · obtain ⟨v, hv, hfound⟩ :=
          get?_patchedWith_of_given hread (mem_fieldsOfMonth_of_hasEras heras (.inr rfl)) hgiven
        obtain ⟨n, -, rfl⟩ := map_eq_ok hv
        exact .inr (by rw [Record.number?_eq_some_iff.2 hfound]; exact Option.some_ne_none n)
    obtain ⟨era, eraYear, htext, hnumber, hyear⟩ := Calendar.yearOfEra_of_resolveYear h heras hsome
    rw [Record.text?_eq_some_iff, get?_patchedWith_era hread heras hgiven (.inl rfl)] at htext
    rw [Record.number?_eq_some_iff, get?_patchedWith_era hread heras hgiven (.inr rfl)] at hnumber
    obtain ⟨s, hs, heq⟩ := map_eq_ok (hread.holdsEntries _ _ htext)
    obtain ⟨n, hn, heq'⟩ := map_eq_ok (hread.holdsEntries _ _ hnumber)
    obtain rfl := Reading.text.inj heq
    obtain rfl := Reading.number.inj heq'
    exact ⟨s, n, Value.eq_text_of_string hs, hn, hyear⟩
  kept hnull heras := by
    have hkept : ∀ g, Field.year ∈ Record.shadowed ym.calendar.hasEras g → p.get? g = none := by
      intro g hg
      refine hread.absent g fun hmem => ?_
      cases g with
      | year => exact hnull
      | era =>
        refine (heras ?_).1
        by_contra hnone
        rw [Bool.not_eq_true] at hnone
        rw [hnone] at hg
        simp [Record.shadowed] at hg
      | eraYear =>
        refine (heras ?_).2
        by_contra hnone
        rw [Bool.not_eq_true] at hnone
        rw [hnone] at hg
        simp [Record.shadowed] at hg
      | day | month | monthCode => simp [Record.shadowed] at hg
    have hfound := get?_patchedWith_of_kept (mem_fieldsOfMonth (.inr (.inr rfl))) hkept
    exact Calendar.eq_of_resolveYear h (Record.number?_eq_some_iff.2 hfound)

/-- The code is the one that was there before if the patch gives neither the month nor its code. -/
theorem text?_patchedWith_of_kept (hmonth : (Value.lookup entries "month").isNull = true)
    (hcode : (Value.lookup entries "month_code").isNull = true) :
    (ym.patchedWith p).text? .monthCode = some ym.monthCode := by
  have hkept : ∀ g, Field.monthCode ∈ Record.shadowed ym.calendar.hasEras g → p.get? g = none := by
    intro g hg
    refine hread.absent g fun _ => ?_
    cases g with
    | month => exact hmonth
    | monthCode => exact hcode
    | day => simp [Record.shadowed] at hg
    | year | era | eraYear =>
      cases heras : ym.calendar.hasEras <;> simp [Record.shadowed, heras] at hg
  exact Record.text?_eq_some_iff.2
    (get?_patchedWith_of_kept (mem_fieldsOfMonth (.inr (.inl rfl))) hkept)

/-- The code is the one that the patch gives, if it gives one. -/
theorem text?_patchedWith_of_given (hcode : (Value.lookup entries "month_code").isNull = false) :
    ∃ s, Value.lookup entries "month_code" = .text s ∧
      (ym.patchedWith p).text? .monthCode = some s := by
  obtain ⟨v, hv, hfound⟩ :=
    get?_patchedWith_of_given hread (mem_fieldsOfMonth (.inr (.inl rfl))) hcode
  obtain ⟨s, hs, rfl⟩ := map_eq_ok hv
  exact ⟨s, Value.eq_text_of_string hs, Record.text?_eq_some_iff.2 hfound⟩

/-- The place of the month is the one that the patch gives, if it gives one. -/
theorem number?_patchedWith_of_given (hmonth : (Value.lookup entries "month").isNull = false) :
    ∃ n, (Value.lookup entries "month").positive "month" = .ok n ∧
      (ym.patchedWith p).number? .month = some n := by
  obtain ⟨v, hv, hfound⟩ := get?_patchedWith_of_given hread (mem_fieldsOfMonth (.inl rfl)) hmonth
  obtain ⟨n, hn, rfl⟩ := map_eq_ok hv
  exact ⟨n, hn, Record.number?_eq_some_iff.2 hfound⟩

/-- **The month that is resolved** is the one that the patch gives, by its place and by its code. -/
theorem monthReplaced_of_resolve
    (h : ym.calendar.resolveMonth year (ym.patchedWith p) .reject = .ok month) :
    ym.MonthReplaced entries month (ym.calendar.monthCode year month).text where
  of_month hmonth := by
    obtain ⟨n, hn, hnumber⟩ := number?_patchedWith_of_given hread hmonth
    rw [hn, (Calendar.resolveMonth_reject_iff.1 h).2.2 n hnumber]
  of_code s given hs hgiven htext := by
    obtain ⟨t, ht, hfound⟩ := text?_patchedWith_of_given hread (by rw [hs]; rfl)
    obtain rfl := Value.text.inj (hs.symm.trans ht)
    rw [(Calendar.resolveMonth_reject_iff.1 h).2.1 s hfound given hgiven, htext]
  kept hmonth hcode := by
    have hfound := text?_patchedWith_of_kept hread hmonth hcode
    have hown := Calendar.ofText_monthCode ym.hasDate_reading.1
    rw [(Calendar.resolveMonth_reject_iff.1 h).2.1 _ hfound _ hown]
    rfl

/-- The month before the first is resolved only where the patch names it, and names no month by its
place. -/
theorem namesMonthZero_of_resolve
    (h : ym.calendar.resolveMonth year (ym.patchedWith p) .reject = .ok 0)
    (hwritten : (ym.patchedWith p).text? .monthCode = some written)
    (hcode : MonthCode.ofText written = .ok code) (hzero : code.number = 0) :
    (Value.lookup entries "month").isNull = true ∧
    Value.lookup entries "month_code" = .text written := by
  have hmonth : (Value.lookup entries "month").isNull = true := by
    by_contra hgiven
    obtain ⟨n, hn, hnumber⟩ := number?_patchedWith_of_given hread (Bool.eq_false_iff.2 hgiven)
    have hpos := Value.one_le_of_positive hn
    rw [← (Calendar.resolveMonth_reject_iff.1 h).2.2 n hnumber] at hpos
    exact absurd hpos (by decide)
  refine ⟨hmonth, ?_⟩
  by_cases hnull : (Value.lookup entries "month_code").isNull = true
  · -- the code that was there before is that of a month
    have hkept := text?_patchedWith_of_kept hread hmonth hnull
    rw [hwritten] at hkept
    obtain rfl := Option.some.inj hkept
    have hown := Calendar.ofText_monthCode ym.hasDate_reading.1
    have hpos := (Calendar.monthCode_number_bounds ym.hasDate_reading.1).1
    obtain rfl := Except.ok.inj (hcode.symm.trans hown)
    omega
  · obtain ⟨s, hs, hfound⟩ := text?_patchedWith_of_given hread (Bool.eq_false_iff.2 hnull)
    rw [hs, Option.some.inj (hfound.symm.trans hwritten)]

end

/-- **The place of the month** that is resolved counts from one, unless the patch names the month
before the first. -/
theorem hasMonth_or_zero_of_resolve (hread : p.Reads entries (fieldsOfMonth ym.calendar))
    (h : ym.calendar.resolveMonth year (ym.patchedWith p) .reject = .ok month) :
    ym.calendar.HasMonth year month ∨
      month = 0 ∧ (Value.lookup entries "month").isNull = true ∧ ∃ written code,
        Value.lookup entries "month_code" = .text written ∧ MonthCode.ofText written = .ok code ∧
          code.number = 0 := by
  have hpos : ∀ n, (ym.patchedWith p).number? .month = some n → 1 ≤ n := by
    intro n hn
    by_cases hnull : (Value.lookup entries "month").isNull = true
    · -- a place that the patch does not give is the one that was there before, if there is one
      rw [Record.number?_eq_some_iff, patchedWith, Record.get?_merge, Option.or_eq_some_iff,
        hread.absent .month fun _ => hnull] at hn
      simp only [reduceCtorEq, and_false, or_false, Option.ite_none_right_eq_some] at hn
      obtain ⟨-, hn⟩ := hn
      rw [fields, Calendar.get?_fieldsOf,
        if_pos (Calendar.mem_fieldsFor.2 (.inl (by decide)))] at hn
      obtain rfl := Reading.number.inj (Option.some.inj hn)
      exact ym.hasDate_reading.1.1
    · obtain ⟨m, hm, hfound⟩ := number?_patchedWith_of_given hread (Bool.eq_false_iff.2 hnull)
      rw [← Option.some.inj (hfound.symm.trans hn)]
      exact Value.one_le_of_positive hm
  refine (Calendar.hasMonth_or_zero_of_resolveMonth hpos h).imp_right ?_
  rintro ⟨rfl, written, code, hwritten, hcode, hzero⟩
  obtain ⟨hmonth, hlookup⟩ := namesMonthZero_of_resolve hread h hwritten hcode hzero
  exact ⟨rfl, hmonth, written, code, hlookup, hcode, hzero⟩

/-- **A year-month that is made with nothing cut off** is made as well if a month may be cut off. -/
theorem ofFields_constrain {c : Calendar} {record : Record Reading}
    (h : ofFields c record .reject = .ok r) :
    ofFields c record .constrain = .ok r := by
  obtain ⟨year, month, hyear, hmonth, -, -⟩ := exists_of_ofFields h
  rw [ofFields, Calendar.monthOfFields, hyear] at h ⊢
  simp only [bind, Except.bind] at h ⊢
  rw [hmonth] at h
  rw [(Calendar.resolveMonth_reject_iff.1 hmonth).1]
  exact h

/-- The month before the first begins with the year in the Hebrew calendar, which counts no days
before it. -/
theorem reading_of_hebrew_zero (hc : r.calendar = .hebrew)
    (h : r.anchor = Calendar.hebrew.isoOf ⟨year, 0, 1⟩) :
    r.reading = ⟨year, 1, 1⟩ := by
  have hm : Calendar.hebrew.HasMonth year 1 :=
    ⟨le_rfl, le_trans (by decide) (Calendar.monthsInYear_bounds .hebrew year).1⟩
  rw [reading, hc, h]
  exact Calendar.dateOf_isoOf (Calendar.hasDate_first hm)

/-- **A month that has been patched with nothing cut off.** It is the same if a month may be cut
off, and of the same calendar. It has the month that the patch gives, if the days to the month can
be counted, and the year that the patch gives as well, unless the patch names the month before the
first by a code of number zero; the Hebrew calendar begins the year with that. -/
theorem patch_replaces {fields reject constrain : Value} (hreject : reject.toOverflow = .ok .reject)
    (hconstrain : constrain.toOverflow = .ok .constrain) (h : ym.patchFrom fields reject = .ok r) :
    ym.patchFrom fields constrain = .ok r ∧ r.calendar = ym.calendar ∧
      ∃ entries, fields.entries? = some entries ∧
        (ym.CountsPatch entries →
          ((Value.namesMonthZero entries = true → ym.calendar = .hebrew) →
            ym.YearReplaced entries r.reading.year) ∧
          ym.MonthReplaced entries r.reading.month r.monthCode) := by
  obtain ⟨entries, p, hentries, hp, -, hpatch⟩ := exists_of_patchFrom h
  have hread := Record.reads_preparePartial hp
  rw [hpatch _ _ hreject] at h
  obtain ⟨year, month, hyear, hmonth, hcalendar, hanchor⟩ := exists_of_ofFields h
  have hyears := yearReplaced_of_resolve hread hyear
  have hmonths := monthReplaced_of_resolve hread hmonth
  refine ⟨(hpatch _ _ hconstrain).trans (ofFields_constrain h), hcalendar, entries, hentries,
    fun hw => ?_⟩
  have hcount := hw p hp year month hyear (Calendar.resolveMonth_constrain hmonth)
  rcases hasMonth_or_zero_of_resolve hread hmonth with hm | ⟨rfl, hnull, written, code, hwritten,
    hcode, hzero⟩
  · have hd := Calendar.hasDate_first hm
    have hreading : r.reading = ⟨year, month, 1⟩ := by
      rw [reading, hcalendar, Calendar.eq_isoOf hd hcount hanchor, Calendar.dateOf_isoOf hd]
    rw [monthCode, hreading, hcalendar]
    exact ⟨fun _ => hyears, hmonths⟩
  · constructor
    · intro hhebrew
      have hc := hhebrew (by simp [Value.namesMonthZero, hwritten, hcode, hzero])
      rw [hc] at hanchor
      rw [reading_of_hebrew_zero (hcalendar.trans hc)
        (Calendar.eq_isoOf_of_not_followsIso (by decide) hanchor)]
      exact hyears
    · -- the patch gives no month by its place, and a code that no calendar writes
      refine ⟨fun hgiven => ?_, fun s given hs hgiven htext => ?_, fun _ hgiven => ?_⟩
      · rw [hnull] at hgiven
        cases hgiven
      · obtain rfl := Value.text.inj (hwritten.symm.trans hs)
        obtain rfl := Except.ok.inj (hcode.symm.trans hgiven)
        exact absurd htext (MonthCode.text_ne_of_zero hcode hzero)
      · rw [hwritten] at hgiven
        cases hgiven

/-- The leap month of another leap year, by the year of its era and its code. -/
theorem patch_replaces_adarI5784 :
    ∃ r, midAdarI5784.patchFrom (.mapping [("era", .text "am"), ("era_year", .number (.whole 5782)),
          ("month_code", .text "M05L")]) (.text "reject") = .ok r ∧
      midAdarI5784.patchFrom (.mapping [("era", .text "am"), ("era_year", .number (.whole 5782)),
          ("month_code", .text "M05L")]) .null = .ok r ∧
      r.calendar = .hebrew ∧ r.reading.year = 5782 ∧ r.monthCode = "M05L" := by
  obtain ⟨r, hr⟩ := exists_of_isOk (show (midAdarI5784.patchFrom (.mapping [("era", .text "am"),
    ("era_year", .number (.whole 5782)), ("month_code", .text "M05L")]) (.text "reject")).isOk =
      true by
      decide +kernel)
  obtain ⟨hconstrain, hcalendar, entries, hentries, hreplaced⟩ :=
    patch_replaces (show (Value.text "reject").toOverflow = .ok .reject by decide)
      (show Value.null.toOverflow = .ok .constrain from rfl) hr
  obtain rfl := Option.some.inj hentries
  obtain ⟨hyear, hmonth⟩ := hreplaced fun _ _ => Calendar.countsMonth_of_not_followsIso (by decide)
  obtain ⟨era, eraYear, hera, heraYear, hgives⟩ := (hyear fun _ => rfl).of_era rfl (.inl rfl)
  obtain rfl := Value.text.inj hera
  obtain rfl := Except.ok.inj heraYear
  exact ⟨r, hr, hconstrain, hcalendar, (Except.ok.inj hgives).symm, hmonth.of_code _ ⟨5, true⟩ rfl
    (by decide) (by decide +kernel)⟩

/-- The last month but one of a Coptic year. -/
def mesori1740 : YearMonth where
  anchor := ⟨2024, 8, 7⟩
  calendar := .coptic

/-- A code of number zero, in digits that are not ASCII, leads to the year before the one that is
given with it. -/
theorem month_zero_not_replaced :
    ∃ r, mesori1740.patchFrom (.mapping [("year", .number (.whole 1740)),
        ("month_code", .text "M\u0660\u0660")]) (.text "reject") = .ok r ∧
      r.calendar = .coptic ∧ r.reading.year = 1739 := by
  refine ⟨⟨⟨2023, 8, 13⟩, .coptic, by decide, by decide⟩, ?_, rfl, by decide⟩
  decide +kernel

/-- The days to a month of a far year, reduced to a word, lead to a month of another year. -/
example :
    (patchFrom ⟨⟨2024, 6, 1⟩, .iso8601, by decide, by decide⟩
      (.mapping [("year", .number (.whole (1970 + 2 ^ 62)))])
      (.text "reject")).toOption.map reading = some ⟨1970, 6, 1⟩ := by
  decide +kernel

end YearMonth

end Almanac
