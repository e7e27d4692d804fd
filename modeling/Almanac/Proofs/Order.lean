import Almanac.Proofs.Stations
import Almanac.YearMonth.Difference

/-!
# The order of the months

Year-months are compared by their anchors. Months that are held by their first days come in the
order of their running numbers, which is that of their years and of the months within a year, and
the days of a month come before those of every later month.

* `YearMonth.HasDay`: the days of a month; `YearMonth.count_bounds`: between which day counts they
  lie.
* `YearMonth.index_le_of_compare`: a month that is not later by its anchor is not later by its
  number.
* `YearMonth.compare_eq_sign`: **the comparison by running numbers**, of months that are held by
  their first days.
* `YearMonth.compareMonths`: the comparison by years, then by months, which
  `YearMonth.compare_orders_months` says is the same.
-/

namespace Almanac

/-- Numbers on the same side of zero have one sign. -/
theorem sign_eq_of_iff {x y : Int} (hneg : x < 0 ↔ y < 0) (hpos : 0 < x ↔ 0 < y) :
    x.sign = y.sign := by
  rcases lt_trichotomy x 0 with h | rfl | h
  · rw [Int.sign_eq_neg_one_of_neg h, Int.sign_eq_neg_one_of_neg (hneg.1 h)]
  · rw [show y = 0 by omega]
  · rw [Int.sign_eq_one_of_pos h, Int.sign_eq_one_of_pos (hpos.1 h)]

namespace IsoDate

variable {d e : IsoDate}

/-- The number is not positive if and only if the first date is not later. -/
theorem compare_nonpos_iff : d.compare e ≤ 0 ↔ d ≤ e := by
  change d.compare e ≤ 0 ↔ ¬ e < d
  by_cases h : d < e
  · simp [compare, h, lt_asymm h]
  · by_cases h' : e < d <;> simp [compare, h, h']

end IsoDate

namespace YearMonth

variable {a b ym : YearMonth} {d e : IsoDate}

/-- A day of the month. -/
structure HasDay (ym : YearMonth) (d : IsoDate) : Prop where
  valid : d.Valid
  year_eq : (ym.calendar.dateOf d).year = ym.reading.year
  month_eq : (ym.calendar.dateOf d).month = ym.reading.month

/-- A month has its anchor. -/
theorem hasDay_anchor (ym : YearMonth) : ym.HasDay ym.anchor := ⟨ym.valid, rfl, rfl⟩

/-- **The days of a month** lie between its beginning and that of the next one. -/
theorem count_bounds (h : ym.HasDay d) :
    ym.calendar.monthStart ym.index ≤ d.count ∧
    d.count < ym.calendar.monthStart (ym.index + 1) := by
  have hb := Calendar.epochDay_bounds (Calendar.hasDate_dateOf (c := ym.calendar) h.valid)
  rwa [Calendar.epochDay_dateOf h.valid, h.year_eq, h.month_eq] at hb

/-- The day count of a first day. -/
theorem count_anchor (h : ym.IsCanonical) : ym.anchor.count = ym.calendar.monthStart ym.index := by
  rw [anchor_eq_start h, start_eq_ofEpochDay, IsoDate.count_ofEpochDay]

/-- A day of an earlier month comes before every day of a later one. -/
theorem lt_of_index_lt (hc : a.calendar = b.calendar) (h : a.index < b.index) (hd : a.HasDay d)
    (he : b.HasDay e) : d < e := by
  have hstart : a.calendar.monthStart (a.index + 1) ≤ a.calendar.monthStart b.index :=
    Calendar.monthStart_le_iff.2 h
  have hbd := (count_bounds hd).2
  have hbe := (count_bounds he).1
  rw [hc] at hstart hbd
  rw [← IsoDate.count_lt_iff hd.valid he.valid]
  omega

/-- **A month that is not later by its anchor**, whichever day of it that is, is not later by its
number. -/
theorem index_le_of_compare (hc : a.calendar = b.calendar) (h : a.compare b ≤ 0) :
    a.index ≤ b.index := by
  have hle : ¬ b.anchor < a.anchor := IsoDate.compare_nonpos_iff.1 h
  by_contra hlt
  apply hle
  exact lt_of_index_lt hc.symm (not_le.1 hlt) b.hasDay_anchor a.hasDay_anchor

/-- The running numbers have the order of the months of one calendar. -/
theorem index_lt_iff (hc : a.calendar = b.calendar) :
    a.index < b.index ↔ a.reading.year < b.reading.year ∨
      a.reading.year = b.reading.year ∧ a.reading.month < b.reading.month := by
  unfold index
  rw [hc]
  exact Calendar.monthIndex_lt_iff (hc ▸ a.hasDate_reading.1) b.hasDate_reading.1

/-- **Months that are held by their first days are compared by their running numbers.** -/
theorem compare_eq_sign (hc : a.calendar = b.calendar) (ha : a.IsCanonical) (hb : b.IsCanonical) :
    a.compare b = (a.index - b.index).sign := by
  have hle := Calendar.monthStart_le_iff (c := b.calendar) (i := a.index) (j := b.index)
  have hge := Calendar.monthStart_le_iff (c := b.calendar) (i := b.index) (j := a.index)
  rw [compare, IsoDate.compare_eq_sign a.valid b.valid, count_anchor ha, count_anchor hb, hc]
  apply sign_eq_of_iff
  · omega
  · omega

/-- The order of the months by their years and, within a year, by their places in it, as a number:
-1, 0 or 1. -/
def compareMonths (a b : YearMonth) : Int :=
  if a.reading.year = b.reading.year then (a.reading.month - b.reading.month).sign
  else (a.reading.year - b.reading.year).sign

/-- The order by years and months is that by running numbers. -/
theorem compareMonths_eq_sign (hc : a.calendar = b.calendar) :
    a.compareMonths b = (a.index - b.index).sign := by
  have hlt := index_lt_iff hc
  have hgt := index_lt_iff hc.symm
  unfold compareMonths
  -- within a year the months decide, and otherwise the years
  split
  · apply sign_eq_of_iff
    · omega
    · omega
  · apply sign_eq_of_iff
    · omega
    · omega

theorem compareFrom_eq (a b : YearMonth) :
    compareFrom (.yearMonth a) (.yearMonth b) = .ok (a.compare b) := rfl

theorem sameFrom_eq_true_iff : a.sameFrom (.yearMonth b) = .ok true ↔ a = b := by
  change Except.ok (a.same b) = Except.ok true ↔ a = b
  rw [Except.ok.injEq, same, decide_eq_true_iff]

/-- **Months are ordered as their calendar orders them.** Of two months of one calendar that are
held by their first days, the comparison is that of the years and, within a year, of the months; it
is zero for a month and itself alone; and every day of an earlier month comes before every day of a
later one. -/
theorem compare_orders_months (hc : a.calendar = b.calendar) (ha : a.IsCanonical)
    (hb : b.IsCanonical) :
    compareFrom (.yearMonth a) (.yearMonth b) = .ok (a.compareMonths b) ∧
      (compareFrom (.yearMonth a) (.yearMonth b) = .ok 0 ↔ a.sameFrom (.yearMonth b) = .ok true) ∧
      (compareFrom (.yearMonth a) (.yearMonth b) = .ok (-1) →
        ∀ d e, a.HasDay d → b.HasDay e → d < e) := by
  rw [compareFrom_eq, compare_eq_sign hc ha hb]
  refine ⟨?_, ?_, ?_⟩
  · rw [compareMonths_eq_sign hc]
  · rw [sameFrom_eq_true_iff, Except.ok.injEq, Int.sign_eq_zero_iff_zero]
    -- months of one running number are one month, and so is its first day
    constructor
    · intro h
      exact eq_of_index hc ha hb (by omega)
    · rintro rfl
      exact sub_self _
  · intro h d e hd he
    have hneg : a.index - b.index < 0 := Int.sign_eq_neg_one_iff_neg.1 (Except.ok.inj h)
    exact lt_of_index_lt hc (by omega) hd he

/-- The short thirteenth month of the Coptic year zero. -/
def nasie0 : YearMonth where
  anchor := ⟨284, 8, 24⟩
  calendar := .coptic

/-- The first month of the Coptic year one. -/
def thout1 : YearMonth where
  anchor := ⟨284, 8, 29⟩
  calendar := .coptic

/-- The last month of a year comes before the first one of the next year, also at the year zero, and
so do its five days. -/
theorem compare_orders_months_nasie0 :
    nasie0.IsCanonical ∧ thout1.IsCanonical ∧
      compareFrom (.yearMonth nasie0) (.yearMonth thout1) = .ok (-1) ∧
      nasie0.compareMonths thout1 = -1 ∧
      nasie0.sameFrom (.yearMonth thout1) ≠ .ok true ∧
      nasie0.HasDay ⟨284, 8, 28⟩ ∧ ∀ e, thout1.HasDay e → (⟨284, 8, 28⟩ : IsoDate) < e := by
  have ha : nasie0.IsCanonical := by decide
  have hb : thout1.IsCanonical := by decide
  obtain ⟨horder, hzero, hdays⟩ := compare_orders_months (a := nasie0) (b := thout1) rfl ha hb
  have hmonths : nasie0.compareMonths thout1 = -1 := by decide
  rw [hmonths] at horder
  have hlast : nasie0.HasDay ⟨284, 8, 28⟩ := ⟨by decide, by decide, by decide⟩
  refine ⟨ha, hb, horder, hmonths, ?_, hlast, ?_⟩
  · intro hsame
    rw [← hzero, horder] at hsame
    cases hsame
  · intro e he
    exact hdays horder _ e hlast he

end YearMonth

end Almanac
