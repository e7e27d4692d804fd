import Almanac.Proofs.Canonical
import Almanac.Proofs.Rounding.Directed
import Almanac.Proofs.WholeMonths
import Mathlib.Data.List.Basic

/-!
# The day that a year-month is held by

Two year-months that are held by days of one month are told apart by no operation that makes a
year-month or a date from them: each begins with fields of the month, and none of these is the day.
A difference looks at the held days themselves, but only to answer at once for two year-months that
are held alike, and the answer is the one that the first days would give.

* `YearMonth.SameMonth`: two year-months are held by days of one month;
  `YearMonth.SameMonth.fields_eq`: they have the same fields.
* `YearMonth.SameMonth.patchFrom_eq`, `YearMonth.SameMonth.onDayFrom_eq`,
  `YearMonth.SameMonth.add_eq`: the same results, and the same refusals.
* `YearMonth.eq_zero_of_start`: two year-months of one month are no time apart, however the
  difference is rounded.
* `YearMonth.SameMonth.differenceFrom_unique`: the same durations.
* `YearMonth.held_day_never_shows`: **no operation shows the day** that a year-month is held by.
-/

namespace Almanac.YearMonth

variable {a a' b : YearMonth} {direction : Direction} {options : DifferenceOptions}
  {d d' : Duration}

/-- Two year-months of one calendar are held by days of one month. -/
structure SameMonth (a a' : YearMonth) : Prop where
  calendar_eq : a.calendar = a'.calendar
  year_eq : a.reading.year = a'.reading.year
  month_eq : a.reading.month = a'.reading.month

namespace SameMonth

theorem symm (h : a.SameMonth a') : a'.SameMonth a :=
  ⟨h.calendar_eq.symm, h.year_eq.symm, h.month_eq.symm⟩

theorem start_eq (h : a.SameMonth a') : a.start = a'.start := by
  rw [start, start, h.calendar_eq, h.year_eq, h.month_eq]

theorem fieldOf?_eq (h : a.SameMonth a') {f : Field} (hf : f ≠ .day) :
    a.calendar.fieldOf? a.reading f = a'.calendar.fieldOf? a'.reading f := by
  rw [h.calendar_eq]
  cases f with
  | day => exact absurd rfl hf
  | era | eraYear | year => simp only [Calendar.fieldOf?, h.year_eq]
  | month => simp only [Calendar.fieldOf?, h.month_eq]
  | monthCode => simp only [Calendar.fieldOf?, h.year_eq, h.month_eq]

theorem monthCode_eq (h : a.SameMonth a') : a.monthCode = a'.monthCode := by
  rw [monthCode, monthCode, h.calendar_eq, h.year_eq, h.month_eq]

/-- **The fields of a month** do not depend on the day that it is held by, if the day is not among
them. -/
theorem fields_eq (h : a.SameMonth a') {wanted : List Field} (hw : .day ∉ wanted) :
    a.fields wanted = a'.fields wanted := by
  have hvalues : ∀ f ∈ Field.sort (a.calendar.fieldsFor wanted),
      ((a.calendar.fieldOf? a.reading f).map fun v => (f, v)) =
        (a'.calendar.fieldOf? a'.reading f).map fun v => (f, v) := by
    intro f hf
    rw [h.fieldOf?_eq]
    rintro rfl
    rcases Calendar.mem_fieldsFor.1 (Field.mem_sort.1 hf) with hday | ⟨-, hera | hera⟩
    · exact hw hday
    · cases hera
    · cases hera
  rw [fields, fields, Calendar.fieldsOf, Calendar.fieldsOf, List.filterMap_congr hvalues,
    h.calendar_eq]

/-- The same month with the same fields replaced. -/
theorem patch_eq (h : a.SameMonth a') (fields : Record Reading) (overflow : Overflow) :
    a.patch fields overflow = a'.patch fields overflow := by
  rw [patch, patch, h.fields_eq (by decide), h.calendar_eq]

theorem patchFrom_eq (h : a.SameMonth a') (fields overflow : Value) :
    a.patchFrom fields overflow = a'.patchFrom fields overflow := by
  have hentries :
      ∀ entries, a.patchEntries entries overflow = a'.patchEntries entries overflow := by
    intro entries
    simp only [patchEntries, h.calendar_eq, h.patch_eq]
  simp only [patchFrom, hentries]

/-- The same day of the month. -/
theorem onDay_eq (h : a.SameMonth a') (day : Int) (overflow : Overflow) :
    a.onDay day overflow = a'.onDay day overflow := by
  rw [onDay, onDay, h.fields_eq (by decide), h.calendar_eq]

theorem onDayFrom_eq (h : a.SameMonth a') (fields overflow : Value) :
    a.onDayFrom fields overflow = a'.onDayFrom fields overflow := by
  simp only [onDayFrom, h.onDay_eq]

theorem firstDay_eq (h : a.SameMonth a') : a.firstDay = a'.firstDay := by
  rw [firstDay, firstDay, h.fields_eq (by decide), h.calendar_eq]

theorem lastDayFrom_eq (h : a.SameMonth a') (first : IsoDate) :
    a.lastDayFrom first = a'.lastDayFrom first := by
  rw [lastDayFrom, lastDayFrom, h.fields_eq (by decide), h.calendar_eq]

/-- **The same month is reached**: a duration is added to the first day of the month, or to its last
one. -/
theorem add_eq (h : a.SameMonth a') (d : Duration) (overflow : Overflow) :
    a.add d overflow = a'.add d overflow := by
  simp only [add, h.firstDay_eq, h.lastDayFrom_eq, h.calendar_eq]

theorem addFrom_eq (h : a.SameMonth a') (d overflow : Value) :
    a.addFrom d overflow = a'.addFrom d overflow := by
  simp only [addFrom, h.add_eq]

theorem subtractFrom_eq (h : a.SameMonth a') (d overflow : Value) :
    a.subtractFrom d overflow = a'.subtractFrom d overflow := by
  simp only [subtractFrom, subtract, h.add_eq]

/-- Year-months that are not held like the other one are measured from the first days of the
months. -/
theorem difference_eq_of_ne (h : a.SameMonth a') (hne : a.anchor ≠ b.anchor)
    (hne' : a'.anchor ≠ b.anchor) :
    difference direction a b options = difference direction a' b options := by
  simp only [difference, if_neg hne, if_neg hne', h.firstDay_eq, h.calendar_eq]

end SameMonth

/-- **Two year-months of one month are no time apart**, held alike or not: what is measured between
their first days has no length, and nothing is rounded to nothing. -/
theorem eq_zero_of_start (ha : options.Accepted) (hstart : a.start = b.start)
    (h : difference direction a b options = .ok d) : d = .zero := by
  have hc : a.calendar = b.calendar := by
    by_contra hc
    rw [difference, if_pos hc] at h
    cases h
  by_cases hanchor : a.anchor = b.anchor
  · rw [difference, if_neg (not_not.2 hc), if_pos hanchor] at h
    exact (Except.ok.inj h).symm
  · obtain ⟨ho, ht⟩ := inLimits_of_difference hc hanchor h
    obtain ⟨-, exact, span, hexact, hparts, -, hspan⟩ := difference_eq_ok ha ho ht h
    rw [hstart, Calendar.difference_self, Except.ok.injEq] at hexact
    subst hexact
    have hzero : span = {} := by
      rcases hspan with ⟨-, hspan, -⟩ | ⟨lower, upper, reached, hrounded⟩
      · exact hspan
      · exact hrounded.eq_zero
    rw [hzero] at hparts
    exact Duration.eq_zero_of_toward hparts

namespace SameMonth

/-- The same duration, if there is one on either side. The sides part where only one of the
year-months is held like the other one: that one is no time apart from it, and the one that is
measured is not either. -/
theorem difference_unique (h : a.SameMonth a') (ha : options.Accepted)
    (hd : difference direction a b options = .ok d)
    (hd' : difference direction a' b options = .ok d') :
    d = d' := by
  have hheld : ∀ {x : YearMonth} {e : Duration}, difference direction x b options = .ok e →
    x.anchor = b.anchor →
      x.start = b.start := by
    intro x e hx hanchor
    by_cases hc : x.calendar = b.calendar
    · exact YearMonth.start_eq hc hanchor
    · rw [difference, if_pos hc] at hx
      cases hx
  by_cases hstart : a.start = b.start
  · rw [eq_zero_of_start ha hstart hd, eq_zero_of_start ha (h.start_eq ▸ hstart) hd']
  · have hne : a.anchor ≠ b.anchor := fun hanchor => hstart (hheld hd hanchor)
    have hne' : a'.anchor ≠ b.anchor := fun hanchor => hstart (h.start_eq.trans (hheld hd' hanchor))
    rw [h.difference_eq_of_ne hne hne', hd', Except.ok.injEq] at hd
    exact hd.symm

theorem differenceFrom_unique (h : a.SameMonth a') {other : Value} {args : DifferenceArguments}
    (hd : a.differenceFrom direction other args = .ok d)
    (hd' : a'.differenceFrom direction other args = .ok d') :
    d = d' := by
  obtain ⟨b, hb, hd⟩ := bind_eq_ok hd
  obtain ⟨b', hb', hd'⟩ := bind_eq_ok hd'
  obtain rfl := Except.ok.inj (hb.symm.trans hb')
  obtain ⟨options, hoptions, hd⟩ := bind_eq_ok hd
  obtain ⟨options', hoptions', hd'⟩ := bind_eq_ok hd'
  obtain rfl := Except.ok.inj (hoptions.symm.trans hoptions')
  exact h.difference_unique (DifferenceOptions.read_eq_ok hoptions).1 hd hd'

end SameMonth

/-- **No operation shows the day that a year-month is held by.** Two year-months that are held by
days of one month lead to the same year-months and dates, or are refused for the same reason, by
whatever is added, subtracted or replaced and on whichever day they are set; and they are equally
far from any other, where both are measured. -/
theorem held_day_never_shows (h : a.SameMonth a') :
    (∀ d overflow, a.addFrom d overflow = a'.addFrom d overflow) ∧
    (∀ d overflow, a.subtractFrom d overflow = a'.subtractFrom d overflow) ∧
    (∀ fields overflow, a.patchFrom fields overflow = a'.patchFrom fields overflow) ∧
    (∀ fields overflow, a.onDayFrom fields overflow = a'.onDayFrom fields overflow) ∧
    ∀ direction other args d d', a.differenceFrom direction other args = .ok d →
      a'.differenceFrom direction other args = .ok d' → d = d' :=
  ⟨h.addFrom_eq, h.subtractFrom_eq, h.patchFrom_eq, h.onDayFrom_eq,
    fun _ _ _ _ _ hd hd' => h.differenceFrom_unique hd hd'⟩

/-- A leap month, held by its first day and by its eleventh: a day in it, the month a year before
it, and its distance from itself, which is measured for one of the two and rounded away from
zero. -/
theorem held_day_never_shows_adarI5784 :
    midAdarI5784.SameMonth adarI5784 ∧ midAdarI5784.anchor ≠ adarI5784.anchor ∧
    (∃ date, midAdarI5784.onDayFrom (.mapping [("day", .number (.whole 30))]) (.text "reject") =
      .ok date ∧
      adarI5784.onDayFrom (.mapping [("day", .number (.whole 30))]) (.text "reject") = .ok date) ∧
    (∃ r, midAdarI5784.subtractFrom (.text "P1Y") .null = .ok r ∧
      adarI5784.subtractFrom (.text "P1Y") .null = .ok r) ∧
    ∃ d, midAdarI5784.differenceFrom .since (.yearMonth adarI5784)
        { smallestUnit := .text "year", roundingMode := .text "expand" } = .ok d ∧
      adarI5784.differenceFrom .since (.yearMonth adarI5784)
        { smallestUnit := .text "year", roundingMode := .text "expand" } = .ok d := by
  have hsame : midAdarI5784.SameMonth adarI5784 := ⟨by decide, by decide, by decide⟩
  obtain ⟨-, hsubtract, -, hday, hdifference⟩ := held_day_never_shows hsame
  obtain ⟨date, hdate⟩ := exists_of_isOk (show (midAdarI5784.onDayFrom
    (.mapping [("day", .number (.whole 30))]) (.text "reject")).isOk = true by decide +kernel)
  obtain ⟨r, hr⟩ :=
    exists_of_isOk (show (midAdarI5784.subtractFrom (.text "P1Y") .null).isOk = true by
    decide +kernel)
  obtain ⟨d, hd⟩ := exists_of_isOk (show (midAdarI5784.differenceFrom .since (.yearMonth adarI5784)
    { smallestUnit := .text "year", roundingMode := .text "expand" }).isOk = true by decide +kernel)
  obtain ⟨d', hd'⟩ := exists_of_isOk (show (adarI5784.differenceFrom .since (.yearMonth adarI5784)
    { smallestUnit := .text "year", roundingMode := .text "expand" }).isOk = true by decide +kernel)
  obtain rfl := hdifference _ _ _ _ _ hd hd'
  exact ⟨hsame, by decide, ⟨date, hdate, hday _ _ ▸ hdate⟩, ⟨r, hr, hsubtract _ _ ▸ hr⟩, d, hd, hd'⟩

end Almanac.YearMonth
