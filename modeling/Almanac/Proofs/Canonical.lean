import Almanac.Proofs.Difference
import Almanac.Proofs.Prepared
import Almanac.Proofs.Resolved
import Almanac.YearMonth.Change

/-!
# Year-months held by their first days

Every operation that makes a year-month resolves a record of fields to the first day of a month. The
month exists as long as the record does not name it by a code of number zero: such a code is refused
when it is written in ASCII digits, and read as the month before the first when it is not.

* `Record.NamesMonth`: the place of a month and its code count from one.
* `Calendar.hasMonth_of_resolveMonth`: the month that such a record gives exists.
* `YearMonth.isCanonical_of_toYearMonth`, `YearMonth.isCanonical_of_perform`: one operation.
* `YearMonth.Made`: the year-months that chains of operations lead to; `YearMonth.made_canonical`:
  **each is held by its first day**, so that its year and its month code determine it.
-/

namespace Almanac

/-- Whether the entries of a mapping name a month by a code of number zero. -/
def Value.namesMonthZero (entries : List (String × Value)) : Bool :=
  match lookup entries "month_code" with
  | .text s =>
    match MonthCode.ofText s with
    | .ok code => code.number = 0
    | .error _ => false
  | _ => false

namespace Record

variable {entries : List (String × Value)} {r r' : Record Reading}

/-- The place of a month and its code, as far as a record has them, count from one. -/
structure NamesMonth (r : Record Reading) : Prop where
  one_le_month : ∀ n, r.number? .month = some n → 1 ≤ n
  one_le_code : ∀ s code, r.text? .monthCode = some s → MonthCode.ofText s = .ok code →
    1 ≤ code.number

theorem HoldsEntries.namesMonth (h : r.HoldsEntries entries)
    (hz : Value.namesMonthZero entries = false) : r.NamesMonth where
  one_le_month n hn := by
    obtain ⟨m, hm, hmn⟩ := map_eq_ok (h .month _ (number?_eq_some_iff.1 hn))
    obtain rfl := Reading.number.inj hmn
    exact Value.one_le_of_positive hm
  one_le_code s code hs hcode := by
    obtain ⟨t, ht, hts⟩ := map_eq_ok (h .monthCode _ (text?_eq_some_iff.1 hs))
    obtain rfl := Reading.text.inj hts
    have hentry : Value.lookup entries "month_code" = .text t := Value.eq_text_of_string ht
    have hne : code.number ≠ 0 := by
      simpa [Value.namesMonthZero, hentry, hcode] using hz
    have := MonthCode.number_nonneg hcode
    omega

/-- Each record names the month, or neither does. -/
theorem NamesMonth.merge {hasEras : Bool} {base patch : Record Reading} (hb : base.NamesMonth)
    (hp : patch.NamesMonth) : (merge hasEras base patch).NamesMonth := by
  constructor
  · intro n hn
    rcases eq_or_of_get?_merge (number?_eq_some_iff.1 hn) with h | h
    · exact hb.one_le_month n (number?_eq_some_iff.2 h)
    · exact hp.one_le_month n (number?_eq_some_iff.2 h)
  · intro s code hs hcode
    rcases eq_or_of_get?_merge (text?_eq_some_iff.1 hs) with h | h
    · exact hb.one_le_code s code (text?_eq_some_iff.2 h) hcode
    · exact hp.one_le_code s code (text?_eq_some_iff.2 h) hcode

end Record

namespace Calendar

variable {c : Calendar} {fields : Record Reading} {year month : Int} {overflow : Overflow}

theorem Describes.namesMonth (h : c.Describes fields year month) : fields.NamesMonth where
  one_le_month n hn := by
    rcases h.month_eq with hm | hm
    · rw [hm] at hn
      cases hn
    · rw [hm] at hn
      obtain rfl := Option.some.inj hn
      exact h.hasMonth.1
  one_le_code s code hs hcode := by
    rw [h.code_eq] at hs
    obtain rfl := Option.some.inj hs
    rw [ofText_monthCode h.hasMonth] at hcode
    obtain rfl := Except.ok.inj hcode
    exact (monthCode_number_bounds h.hasMonth).1

/-- **The month that a record gives exists**, if its place and its code count from one. -/
theorem hasMonth_of_resolveMonth (hn : fields.NamesMonth)
    (h : c.resolveMonth year fields overflow = .ok month) : c.HasMonth year month := by
  rcases hasMonth_or_zero_of_resolveMonth hn.one_le_month h with hm | ⟨-, written, code, hwritten,
    hcode, hzero⟩
  · exact hm
  · have hpos := hn.one_le_code written code hwritten hcode
    omega

end Calendar

/-- Whether a value is a mapping that names a month by a code of number zero. -/
def Value.isMonthZero (v : Value) : Bool := v.entries?.any namesMonthZero

/-- The calendar that a value asks for when a year-month is made from it: that of a date, that which
a mapping names, that which a text names. -/
def Value.askedCalendar? : Value → Option Calendar
  | .yearMonth _ => none
  | .date d => some d.calendar
  | .text s => (do
      let parsed ← ParsedMonth.parse s
      (Value.text (parsed.calendar.getD "iso8601")).toCalendar).toOption
  | v => v.entries?.bind fun entries => (YearMonth.calendarOf entries).toOption

/-- An operation that leads from one year-month to another, with its arguments. -/
inductive Operation
  | patch (fields overflow : Value)
  | add (duration overflow : Value)
  | subtract (duration overflow : Value)

/-- Whether an operation names a month by a code of number zero. -/
def Operation.isMonthZero : Operation → Bool
  | .patch fields _ => fields.isMonthZero
  | _ => false

namespace YearMonth

/-- The fields of a month with those of a record laid over them. -/
def patchedWith (ym : YearMonth) (p : Record Reading) : Record Reading :=
  (ym.fields [.month, .monthCode, .year]).merge ym.calendar.hasEras p

/-- The days to the month that a mapping names can be counted in a word, where they are. -/
def CountsEntries (entries : List (String × Value)) : Prop :=
  ∀ c fields, calendarOf entries = .ok c →
    Record.prepare entries ((fieldsOfMonth c).map Field.name) [] = .ok fields → c.CountsMonth fields

/-- The days to a month with the fields that a mapping replaces can be counted in a word, where they
are. -/
def CountsPatch (ym : YearMonth) (entries : List (String × Value)) : Prop :=
  ∀ p, Record.preparePartial entries ((fieldsOfMonth ym.calendar).map Field.name) = .ok p →
    ym.calendar.CountsMonth (ym.patchedWith p)

end YearMonth

/-- The days to the month that a value names, if it is a mapping, can be counted. -/
def Value.CountsMonth (v : Value) : Prop :=
  ∀ entries, v.entries? = some entries → YearMonth.CountsEntries entries

/-- The days to the month that an operation leads to, if it is named, can be counted. -/
def Operation.CountsMonth (op : Operation) (receiver : YearMonth) : Prop :=
  match op with
  | .patch fields _ => ∀ entries, fields.entries? = some entries → receiver.CountsPatch entries
  | _ => True

namespace YearMonth

variable {c : Calendar} {fields : Record Reading} {overflow : Overflow} {a b ym r : YearMonth}

/-- The year-month that an operation leads to. -/
def perform (ym : YearMonth) : Operation → Except Error YearMonth
  | .patch fields overflow => ym.patchFrom fields overflow
  | .add d overflow => ym.addFrom d overflow
  | .subtract d overflow => ym.subtractFrom d overflow

/-- What a record has been resolved to, when a year-month has been made from it. -/
theorem exists_of_ofFields (h : ofFields c fields overflow = .ok r) :
    ∃ year month, c.resolveYear fields = .ok year ∧
      c.resolveMonth year fields overflow = .ok month ∧
      r.calendar = c ∧ c.toIso ⟨year, month, 1⟩ = .ok r.anchor := by
  obtain ⟨first, hfirst, hof⟩ := bind_eq_ok h
  obtain ⟨year, hyear, hfirst⟩ := bind_eq_ok hfirst
  obtain ⟨month, hmonth, hfirst⟩ := bind_eq_ok hfirst
  obtain ⟨iso, hiso, hfirst⟩ := bind_eq_ok hfirst
  obtain ⟨rfl, hl⟩ := IsoDate.checkMonthLimits_eq_ok hfirst
  obtain ⟨rfl, rfl⟩ := eq_of_of hof
  exact ⟨year, month, hyear, hmonth, rfl, hiso⟩

/-- **A record gives the first day of a month**, if its place and its code count from one and the
days to the month can be counted. -/
theorem isCanonical_of_ofFields (hn : fields.NamesMonth) (hw : c.CountsMonth fields)
    (h : ofFields c fields overflow = .ok r) : r.calendar = c ∧ r.IsCanonical := by
  obtain ⟨year, month, hyear, hmonth, rfl, hanchor⟩ := exists_of_ofFields h
  have hd := Calendar.hasDate_first (Calendar.hasMonth_of_resolveMonth hn hmonth)
  have hcount := hw year month hyear (Calendar.resolveMonth_constrain hmonth)
  refine ⟨rfl, ?_⟩
  rw [IsCanonical, reading, Calendar.eq_isoOf hd hcount hanchor, Calendar.dateOf_isoOf hd]

/-- A year-month that is made from the fields of a date. -/
theorem isCanonical_of_fieldsOf {iso : IsoDate} (hv : iso.Valid)
    (hl : Iso.MonthInLimits iso.year iso.month) {wanted : List Field} (hy : .year ∈ wanted)
    (hc : .monthCode ∈ wanted)
    (h : ofFields c (c.fieldsOf (c.dateOf iso) (c.fieldsFor wanted)) overflow = .ok r) :
    r.calendar = c ∧ r.IsCanonical := by
  obtain ⟨hcalendar, hread⟩ := reading_of_fieldsOf hv hl hy hc h
  exact ⟨hcalendar, congrArg YearMonthDay.day hread⟩

theorem isCanonical_of_ofMapping {entries : List (String × Value)}
    (hz : Value.namesMonthZero entries = false) (hw : CountsEntries entries)
    (h : ofMapping entries overflow = .ok r) :
    calendarOf entries = .ok r.calendar ∧ r.IsCanonical := by
  obtain ⟨c, hc, h⟩ := bind_eq_ok h
  obtain ⟨fields, hfields, h⟩ := bind_eq_ok h
  obtain ⟨rfl, hr⟩ := isCanonical_of_ofFields
    ((Record.reads_prepare hfields).holdsEntries.namesMonth hz) (hw c fields hc hfields) h
  exact ⟨hc, hr⟩

theorem isCanonical_of_ofText {s : String} (h : ofText s = .ok r) :
    (Value.text s).askedCalendar? = some r.calendar ∧ r.IsCanonical := by
  obtain ⟨parsed, hparsed, h⟩ := bind_eq_ok h
  obtain ⟨c, hc, h⟩ := bind_eq_ok h
  split at h
  · cases h
  · obtain ⟨written, hwritten, h⟩ := bind_eq_ok h
    obtain ⟨rfl, -⟩ := eq_of_of hwritten
    obtain ⟨hcalendar, hr⟩ :=
      isCanonical_of_fieldsOf written.valid written.inLimits (by decide) (by decide) h
    refine ⟨?_, hr⟩
    rw [hcalendar]
    simp only [Value.askedCalendar?, hparsed, bind, Except.bind, hc]
    rfl

/-- **A year-month that is made from a date, a mapping or a text** is held by its first day, in the
calendar that is asked for. -/
theorem isCanonical_of_toYearMonth {v : Value} (hv : ∀ ym, v ≠ .yearMonth ym)
    (hz : v.isMonthZero = false) (hw : v.CountsMonth) (h : v.toYearMonth overflow = .ok r) :
    v.askedCalendar? = some r.calendar ∧ r.IsCanonical := by
  have hentries : ∀ entries, v.entries? = some entries → Value.namesMonthZero entries = false := by
    intro entries he
    simpa [Value.isMonthZero, he] using hz
  unfold Value.toYearMonth at h
  split at h
  · next ym => exact absurd rfl (hv ym)
  · next d =>
    obtain ⟨hc, hr⟩ := isCanonical_of_fieldsOf d.valid
      (IsoDate.monthInLimits_of_inLimits d.inLimits) (by decide) (by decide) h
    exact ⟨by rw [hc]; rfl, hr⟩
  · exact isCanonical_of_ofText h
  · next v' hym hdate htext =>
    split at h
    · next entries he =>
      obtain ⟨hc, hr⟩ := isCanonical_of_ofMapping (hentries entries he) (hw entries he) h
      refine ⟨?_, hr⟩
      have hasked : v.askedCalendar? =
          v.entries?.bind fun entries => (calendarOf entries).toOption := by
        unfold Value.askedCalendar?
        split
        · next ym => exact absurd rfl (hym ym)
        · next d => exact absurd rfl (hdate d)
        · next s => exact absurd rfl (htext s)
        · rfl
      rw [hasked, he, Option.bind_some, hc]
      rfl
    · cases h

theorem isCanonical_of_add {d : Duration} (h : ym.add d overflow = .ok r) :
    r.calendar = ym.calendar ∧ r.IsCanonical := by
  obtain ⟨origin, -, -, -, h⟩ := exists_origin h
  obtain ⟨reached, hreached, h⟩ := bind_eq_ok h
  exact isCanonical_of_fieldsOf (Calendar.valid_of_add hreached)
    (IsoDate.monthInLimits_of_inLimits (Calendar.inLimits_of_add hreached)) (by decide)
      (by decide) h

/-- The record that a patch is read to, and the year-month that is made from it. -/
theorem exists_of_patchFrom {fields v : Value} (h : ym.patchFrom fields v = .ok r) :
    ∃ entries p, fields.entries? = some entries ∧
      Record.preparePartial entries ((fieldsOfMonth ym.calendar).map Field.name) = .ok p ∧
      (∃ overflow, v.toOverflow = .ok overflow) ∧ ∀ o overflow, o.toOverflow = .ok overflow →
        ym.patchFrom fields o = ofFields ym.calendar (ym.patchedWith p) overflow := by
  have hpatch : ∃ entries, fields.entries? = some entries ∧
      ∀ o, ym.patchFrom fields o = ym.patchEntries entries o := by
    unfold patchFrom at h
    split at h
    · cases h
    · cases h
    · next hym hdate =>
      split at h
      · next entries hentries =>
        refine ⟨entries, hentries, fun o => ?_⟩
        unfold patchFrom
        split
        · next a => exact absurd rfl (hym a)
        · next d => exact absurd rfl (hdate d)
        · rw [hentries]
      · cases h
  obtain ⟨entries, hentries, hall⟩ := hpatch
  rw [hall, patchEntries] at h
  split at h
  · cases h
  · next hkeys =>
    obtain ⟨overflow, hv, h⟩ := bind_eq_ok h
    obtain ⟨p, hp, -⟩ := bind_eq_ok h
    refine ⟨entries, p, hentries, hp, ⟨overflow, hv⟩, fun o overflow ho => ?_⟩
    rw [hall, patchEntries, hkeys]
    simp only [ho, hp, bind, Except.bind]
    rfl

theorem isCanonical_of_patchFrom {fields o : Value} (hz : fields.isMonthZero = false)
    (hw : ∀ entries, fields.entries? = some entries → ym.CountsPatch entries)
    (h : ym.patchFrom fields o = .ok r) : r.calendar = ym.calendar ∧ r.IsCanonical := by
  obtain ⟨entries, p, he, hp, ⟨overflow, ho⟩, hpatch⟩ := exists_of_patchFrom h
  have hread := Record.reads_preparePartial hp
  have hz : Value.namesMonthZero entries = false := by
    simpa [Value.isMonthZero, he] using hz
  have hbase : (ym.fields [.month, .monthCode, .year]).NamesMonth :=
    (ym.describes_fields _ (by decide) (by decide)).namesMonth
  rw [hpatch o overflow ho] at h
  exact isCanonical_of_ofFields (hbase.merge (hread.holdsEntries.namesMonth hz))
    (hw entries he p hp) h

/-- **A year-month that an operation leads to**, from whichever anchor, is held by its first day in
the calendar of the one that it began with. -/
theorem isCanonical_of_perform {op : Operation} (hz : op.isMonthZero = false)
    (hw : op.CountsMonth ym) (h : ym.perform op = .ok r) :
    r.calendar = ym.calendar ∧ r.IsCanonical := by
  cases op with
  | patch fields overflow => exact isCanonical_of_patchFrom hz hw h
  | add d overflow =>
    obtain ⟨duration, -, h⟩ := bind_eq_ok h
    obtain ⟨o, -, h⟩ := bind_eq_ok h
    exact isCanonical_of_add h
  | subtract d overflow =>
    obtain ⟨duration, -, h⟩ := bind_eq_ok h
    obtain ⟨o, -, h⟩ := bind_eq_ok h
    exact isCanonical_of_add h

/-- The year-months that are made from dates, mappings and texts and by chains of operations, each
in the calendar that is due: the one that is asked for at first or that of the first receiver, which
may have any anchor. No step names a month by a code of number zero, nor one to which the days
cannot be counted in a word where they are. -/
inductive Made : Calendar → YearMonth → Prop
  | converted {c : Calendar} {v overflow : Value} {ym : YearMonth} (hv : v.askedCalendar? = some c)
      (hz : v.isMonthZero = false) (hw : v.CountsMonth) (h : ofItem v overflow = .ok ym) : Made c ym
  | performed {receiver ym : YearMonth} {op : Operation} (hz : op.isMonthZero = false)
      (hw : op.CountsMonth receiver) (h : receiver.perform op = .ok ym) : Made receiver.calendar ym
  | next {c : Calendar} {receiver ym : YearMonth} {op : Operation} (hr : Made c receiver)
      (hz : op.isMonthZero = false) (hw : op.CountsMonth receiver)
      (h : receiver.perform op = .ok ym) : Made c ym

theorem Made.isCanonical (h : Made c ym) : ym.calendar = c ∧ ym.IsCanonical := by
  induction h with
  | @converted c v overflow ym hv hz hw h =>
    obtain ⟨o, -, h⟩ := bind_eq_ok h
    have hne : ∀ ym, v ≠ .yearMonth ym := by
      rintro ym rfl
      cases hv
    obtain ⟨hc, hr⟩ := isCanonical_of_toYearMonth hne hz hw h
    exact ⟨Option.some.inj (hc.symm.trans hv), hr⟩
  | performed hz hw h => exact isCanonical_of_perform hz hw h
  | next _ hz hw h ih =>
    obtain ⟨hc, hr⟩ := isCanonical_of_perform hz hw h
    exact ⟨hc.trans ih.1, hr⟩

/-- The text of the month code. -/
def monthCode (ym : YearMonth) : String :=
  (ym.calendar.monthCode ym.reading.year ym.reading.month).text

/-- A month is determined by its year and its month code. -/
theorem reading_month_eq (hc : a.calendar = b.calendar) (hyear : a.reading.year = b.reading.year)
    (hcode : a.monthCode = b.monthCode) : a.reading.month = b.reading.month := by
  have hread := Calendar.ofText_monthCode a.hasDate_reading.1
  have hread' := Calendar.ofText_monthCode b.hasDate_reading.1
  change MonthCode.ofText a.monthCode = _ at hread
  change MonthCode.ofText b.monthCode = _ at hread'
  rw [hcode, hread', Except.ok.injEq, Calendar.monthCode, Calendar.monthCode, hc, hyear] at hread
  have hplace := congrArg (Calendar.placeOfCode (b.calendar.isHebrewLeap b.reading.year)) hread
  rw [Calendar.placeOfCode_codeOfPlace, Calendar.placeOfCode_codeOfPlace] at hplace
  exact hplace.symm

/-- A year-month that is held by its first day is determined by its month. -/
theorem eq_of_month (hc : a.calendar = b.calendar) (ha : a.IsCanonical) (hb : b.IsCanonical)
    (hyear : a.reading.year = b.reading.year) (hmonth : a.reading.month = b.reading.month) :
    a = b := by
  have hreading : a.reading = b.reading := by
    change YearMonthDay.mk a.reading.year a.reading.month a.reading.day = b.reading
    rw [hyear, hmonth, ha.trans hb.symm]
  refine ext ?_ hc
  rw [← a.isoOf_reading, ← b.isoOf_reading, hreading, hc]

theorem same_iff_of_isCanonical (hc : a.calendar = b.calendar) (ha : a.IsCanonical)
    (hb : b.IsCanonical) :
    a.same b = true ↔ a.reading.year = b.reading.year ∧ a.monthCode = b.monthCode := by
  rw [same, decide_eq_true_iff]
  constructor
  · rintro rfl
    exact ⟨rfl, rfl⟩
  · rintro ⟨hyear, hcode⟩
    exact eq_of_month hc ha hb hyear (reading_month_eq hc hyear hcode)

/-- **A year-month that the operations lead to** is held by a date of the represented months, the
first day of a month of the calendar that is due; and two of one calendar are the same if and only
if they have the same year and the same month code. -/
theorem made_canonical (ha : Made c a) (hb : Made c b) :
    (a.calendar = c ∧ a.anchor.Valid ∧ Iso.MonthInLimits a.anchor.year a.anchor.month ∧
      a.reading.day = 1) ∧
    (a.same b = true ↔ a.reading.year = b.reading.year ∧ a.monthCode = b.monthCode) := by
  obtain ⟨hca, ha⟩ := ha.isCanonical
  obtain ⟨hcb, hb⟩ := hb.isCanonical
  exact ⟨⟨hca, a.valid, a.inLimits, ha⟩, same_iff_of_isCanonical (hca.trans hcb.symm) ha hb⟩

/-- The leap month of a Hebrew year, held by its eleventh day. -/
def midAdarI5784 : YearMonth where
  anchor := ⟨2024, 2, 20⟩
  calendar := .hebrew

/-- A year on and twelve months back from a leap month, and the same month by its code. -/
theorem made_canonical_adar5784 :
    ∃ s a b, midAdarI5784.perform (.add (.text "P1Y") .null) = .ok s ∧
      s.perform (.subtract (.mapping [("months", .number (.whole 12))]) .null) = .ok a ∧
      ofItem (.mapping [("calendar", .text "hebrew"), ("year", .number (.whole 5784)),
        ("month_code", .text "M06")]) .null = .ok b ∧
      a.reading.day = 1 ∧
      (a.same b = true ↔ a.reading.year = b.reading.year ∧ a.monthCode = b.monthCode) := by
  have hchain : (midAdarI5784.perform (.add (.text "P1Y") .null) >>= fun s =>
      s.perform (.subtract (.mapping [("months", .number (.whole 12))]) .null)).isOk = true := by
    decide +kernel
  have hitem : (ofItem (.mapping [("calendar", .text "hebrew"), ("year", .number (.whole 5784)),
        ("month_code", .text "M06")]) .null).isOk = true := by decide +kernel
  obtain ⟨a, hchain⟩ := exists_of_isOk hchain
  obtain ⟨s, hs, ha⟩ := bind_eq_ok hchain
  obtain ⟨b, hb⟩ := exists_of_isOk hitem
  have hcounts : (Value.mapping [("calendar", .text "hebrew"), ("year", .number (.whole 5784)),
      ("month_code", .text "M06")]).CountsMonth := by
    rintro _ ⟨⟩ c fields hc -
    obtain rfl : Calendar.hebrew = c := Except.ok.inj hc
    exact Calendar.countsMonth_of_not_followsIso (by decide)
  have hmade : Made .hebrew a := by
    refine .next (.performed rfl ?_ hs) rfl ?_ ha
    · exact trivial
    · exact trivial
  have hmade := made_canonical hmade (.converted (by decide) (by decide) hcounts hb)
  exact ⟨s, a, b, hs, ha, hb, hmade.1.2.2.2, hmade.2⟩

/-- A code of number zero, in digits that are not ASCII, leads to the seventh day of a month, which
is not the same year-month as that of its year and its month code. -/
theorem month_zero_not_canonical :
    ∃ a b, ofItem (.mapping [("calendar", .text "coptic"), ("year", .number (.whole 1740)),
        ("month_code", .text "M\u0660\u0660")]) .null = .ok a ∧
      ofItem (.mapping [("calendar", .text "coptic"), ("year", .number (.whole 1739)),
        ("month_code", .text "M12")]) .null = .ok b ∧
      a.reading = ⟨1739, 12, 7⟩ ∧ b.reading = ⟨1739, 12, 1⟩ ∧ a.monthCode = b.monthCode ∧
      a.same b = false := by
  refine ⟨⟨⟨2023, 8, 13⟩, .coptic, by decide, by decide⟩,
    ⟨⟨2023, 8, 7⟩, .coptic, by decide, by decide⟩, ?_, ?_, by decide, by decide, ?_, rfl⟩
  · decide +kernel
  · decide +kernel
  · decide +kernel

/-- The days to a month of a far year, reduced to a word, lead to the ninth day of another one. -/
example : (ofItem (.mapping [("year", .number (.whole 50505469855534682)),
    ("month", .number (.whole 1))]) .null).toOption.map anchor = some ⟨1572, 11, 9⟩ := by
  decide +kernel

end YearMonth

end Almanac
