import Almanac.Proofs.Measurable

/-!
# The ends of the range in the ISO calendar

Of the first and the last represented month only a part of the days is represented: -271821-04
begins before the range, and 275760-09 ends after it. A month between them is moved to every other
month of the range, and measured against it. The two at the ends are months, but the days that they
would be moved through and measured from are not represented: the first one is moved nowhere and
measured against no other month, and the last one is not moved back.

* `IsoDate.InFirstMonth`, `IsoDate.InLastMonth`: dates of the two months.
* `Calendar.ofEpochDay_monthStart`, `IsoDate.inLimits_month_iff`: the days of a month, and which are
  represented.
* `YearMonth.perform_in_range`: **a month moved to another month of the range**.
* `YearMonth.difference_in_range`: **a month measured against another one**.
-/

namespace Almanac

/-- A date of the first represented month, which begins before the range. -/
def IsoDate.InFirstMonth (d : IsoDate) : Prop := d.year = Iso.minYear ∧ d.month = 4

instance (d : IsoDate) : Decidable d.InFirstMonth := by
  unfold IsoDate.InFirstMonth; infer_instance

/-- A date of the last represented month, which ends after the range. -/
def IsoDate.InLastMonth (d : IsoDate) : Prop := d.year = Iso.maxYear ∧ d.month = 9

instance (d : IsoDate) : Decidable d.InLastMonth := by
  unfold IsoDate.InLastMonth; infer_instance

/-- A day of the month of a running number. -/
theorem Calendar.ofEpochDay_monthStart {i day : Int} (h₁ : 1 ≤ day)
    (h₂ : day ≤ iso8601.monthLength i) :
    IsoDate.ofEpochDay (iso8601.monthStart i + (day - 1)) = ⟨i / 12, i % 12 + 1, day⟩ := by
  have hmonth : iso8601.monthOfIndex i = (i / 12, i % 12 + 1) := rfl
  have hdate : iso8601.HasDate ⟨i / 12, i % 12 + 1, day⟩ := by
    have hm := (iso8601.monthOfIndex_spec i).1
    rw [hmonth] at hm
    exact ⟨hm, h₁, h₂⟩
  have hv : IsoDate.Valid ⟨i / 12, i % 12 + 1, day⟩ := IsoDate.valid_iff_hasDate.2 hdate
  rw [← IsoDate.ofEpochDay_count hv, IsoDate.count_eq_epochDay, epochDay_eq, monthStart, hmonth]

/-- The represented days of the month of a running number: all of them but at the two ends. -/
theorem IsoDate.inLimits_month_iff {i day : Int} :
    InLimits ⟨i / 12, i % 12 + 1, day⟩ ↔
      (-3261849 < i ∨ i = -3261849 ∧ 19 ≤ day) ∧ (i < 3309128 ∨ i = 3309128 ∧ day ≤ 13) := by
  change ¬ _ < first ∧ ¬ last < _ ↔ _
  simp only [lt_iff, first, last, Iso.minYear, Iso.maxYear]
  omega

namespace YearMonth

variable {ym target a b : YearMonth} {n : Int}

/-- The running number of a month of the ISO calendar. -/
theorem index_of_iso (hc : ym.calendar = .iso8601) :
    ym.index = 12 * ym.anchor.year + ym.anchor.month - 1 := by
  have hreading : ym.reading = ⟨ym.anchor.year, ym.anchor.month, ym.anchor.day⟩ := by
    rw [reading, hc]
    exact congrArg (YearMonthDay.mk · _ _) (Int.add_zero _)
  rw [index, hreading, hc, Calendar.monthIndex_of_followsIso rfl]

/-- The represented months. -/
theorem index_bounds_of_iso (hc : ym.calendar = .iso8601) :
    -3261849 ≤ ym.index ∧ ym.index ≤ 3309128 := by
  have hm := ym.valid
  obtain ⟨hy₁, hy₂, hm₁, hm₂⟩ := ym.inLimits
  obtain ⟨h₁, h₂, -, -⟩ := hm
  simp only [Iso.minYear, Iso.maxYear] at hy₁ hy₂ hm₁ hm₂
  rw [index_of_iso hc]
  omega

theorem inFirstMonth_iff (hc : ym.calendar = .iso8601) :
    ym.anchor.InFirstMonth ↔ ym.index = -3261849 := by
  obtain ⟨h₁, h₂, -, -⟩ := ym.valid
  rw [IsoDate.InFirstMonth, Iso.minYear, index_of_iso hc]
  omega

theorem inLastMonth_iff (hc : ym.calendar = .iso8601) :
    ym.anchor.InLastMonth ↔ ym.index = 3309128 := by
  obtain ⟨h₁, h₂, -, -⟩ := ym.valid
  rw [IsoDate.InLastMonth, Iso.maxYear, index_of_iso hc]
  omega

theorem start_of_iso (hc : ym.calendar = .iso8601) :
    ym.start = ⟨ym.index / 12, ym.index % 12 + 1, 1⟩ := by
  have hstart :=
    Calendar.ofEpochDay_monthStart le_rfl (Calendar.iso8601.one_le_monthLength ym.index)
  rwa [sub_self, Int.add_zero, ← hc, ← start_eq_ofEpochDay] at hstart

theorem nextStart_of_iso (hc : ym.calendar = .iso8601) :
    ym.nextStart = ⟨(ym.index + 1) / 12, (ym.index + 1) % 12 + 1, 1⟩ := by
  have hstart :=
    Calendar.ofEpochDay_monthStart le_rfl (Calendar.iso8601.one_le_monthLength (ym.index + 1))
  rwa [sub_self, Int.add_zero, ← hc] at hstart

/-- **The first day of a month** is represented, but for the first month. -/
theorem inLimits_start_iff (hc : ym.calendar = .iso8601) :
    ym.start.InLimits ↔ ¬ ym.anchor.InFirstMonth := by
  have hbounds := index_bounds_of_iso hc
  rw [start_of_iso hc, IsoDate.inLimits_month_iff, inFirstMonth_iff hc]
  omega

/-- **The first day of the next month** is represented, but for the last month. -/
theorem inLimits_nextStart_iff (hc : ym.calendar = .iso8601) :
    ym.nextStart.InLimits ↔ ¬ ym.anchor.InLastMonth := by
  have hbounds := index_bounds_of_iso hc
  rw [nextStart_of_iso hc, IsoDate.inLimits_month_iff, inLastMonth_iff hc]
  omega

/-- The first day of the first month, which is not represented. -/
theorem start_of_inFirstMonth (hc : ym.calendar = .iso8601) (h : ym.anchor.InFirstMonth) :
    ym.start = ⟨Iso.minYear, 4, 1⟩ := by
  rw [start_of_iso hc, (inFirstMonth_iff hc).1 h]
  rfl

/-- The first day after the last month, which is not represented. -/
theorem nextStart_of_inLastMonth (hc : ym.calendar = .iso8601) (h : ym.anchor.InLastMonth) :
    ym.nextStart = ⟨Iso.maxYear, 10, 1⟩ := by
  rw [nextStart_of_iso hc, (inLastMonth_iff hc).1 h]
  rfl

theorem monthLength_iso_bounds (i : Int) : 28 ≤ Calendar.iso8601.monthLength i := by
  change 28 ≤ Iso.daysInMonth _ _
  exact Iso.le_daysInMonth _ _

/-- A month is held by the first day of its running number. -/
theorem of_target (hct : target.calendar = .iso8601) (ht : target.IsCanonical) :
    of (.ofEpochDay (Calendar.iso8601.monthStart target.index)) .iso8601 = .ok target := by
  rw [← hct, ← start_eq_ofEpochDay, ← anchor_eq_start ht, of_anchor]

/-- **Forwards** every month of the range is reached. -/
theorem add_forwards_in_range {d : Duration} (hc : ym.calendar = .iso8601)
    (hct : target.calendar = .iso8601) (ht : target.IsCanonical)
    (hn : d.monthsIn? ym.calendar = some n) (hindex : target.index = ym.index + n)
    (hl : ¬ ym.anchor.InFirstMonth) (hsign : 0 ≤ n) :
    ym.add d .constrain = .ok target := by
  have hbounds := index_bounds_of_iso hct
  have hbefore := index_bounds_of_iso hc
  have hreached : (IsoDate.ofEpochDay (Calendar.iso8601.monthStart target.index)).InLimits := by
    rw [← hct, ← start_eq_ofEpochDay, inLimits_start_iff hct, inFirstMonth_iff hct, hindex]
    rw [inFirstMonth_iff hc] at hl
    omega
  rw [add_forwards hn hsign ((inLimits_start_iff hc).2 hl), ← hindex, hc, IsoDate.checkLimits,
    if_pos hreached]
  exact of_target hct ht

/-- **Backwards** every month of the range is reached, but from the last one. -/
theorem add_backwards_in_range {d : Duration} (hc : ym.calendar = .iso8601)
    (hct : target.calendar = .iso8601) (ht : target.IsCanonical)
    (hn : d.monthsIn? ym.calendar = some n) (hindex : target.index = ym.index + n)
    (hl : ¬ ym.anchor.InFirstMonth) (hnext : ¬ ym.anchor.InLastMonth) (hsign : n < 0) :
    ym.add d .constrain = .ok target := by
  have hbounds := index_bounds_of_iso hct
  have hbefore := index_bounds_of_iso hc
  have hshort := monthLength_iso_bounds ym.index
  have hshort' := monthLength_iso_bounds target.index
  -- the day that is reached is late enough in its month, even in the first month of the range
  have hreached : (IsoDate.ofEpochDay (Calendar.iso8601.monthStart target.index +
      (min (Calendar.iso8601.monthLength ym.index)
        (Calendar.iso8601.monthLength target.index) - 1))).InLimits := by
    rw [Calendar.ofEpochDay_monthStart (by omega) (min_le_right _ _), IsoDate.inLimits_month_iff]
    omega
  have hday : ym.calendar.regulateDay (ym.calendar.monthOfIndex (ym.index + n)).1
      (ym.calendar.monthOfIndex (ym.index + n)).2 (ym.calendar.monthLength ym.index) .constrain =
        .ok (min (ym.calendar.monthLength ym.index) (ym.calendar.monthLength (ym.index + n))) :=
    Calendar.regulateDay_constrain _ _ _ _
  rw [add_backwards hn hsign ((inLimits_start_iff hc).2 hl)
    ((inLimits_nextStart_iff hc).2 hnext) hday, ← hindex, hc, IsoDate.checkLimits, if_pos hreached]
  exact of_target hct ht

/-- **A month moved to another month of the range.** In the ISO calendar a duration of years and
months that leads from a month to a represented one is added or subtracted, days beyond a month cut
off. But the first represented month is moved nowhere, not even by no months at all, and the last
one is not moved back, since the days that they would be moved through, the first day of the one and
the day after the other, are not represented. -/
theorem perform_in_range {op : Operation} (hc : ym.calendar = .iso8601)
    (hct : target.calendar = .iso8601) (ht : target.IsCanonical) (hop : Moves .iso8601 op n)
    (hindex : target.index = ym.index + n) :
    ym.perform op =
      if ym.anchor.InFirstMonth then .error (.dateBeyondLimits Iso.minYear 4 1)
      else if ym.anchor.InLastMonth ∧ n < 0 then .error (.dateBeyondLimits Iso.maxYear 10 1)
      else .ok target := by
  obtain ⟨d, hn, hadd, -⟩ := exists_add_of_moves (hc.symm ▸ hop)
  rw [hadd]
  split
  · next hfirst =>
    have hbeyond : ¬ ym.start.InLimits := fun hl => (inLimits_start_iff hc).1 hl hfirst
    rw [add_eq_of_start hbeyond, start_of_inFirstMonth hc hfirst]
  · next hfirst =>
    split
    · next hlast =>
      have hbeyond : ¬ ym.nextStart.InLimits := fun hl => (inLimits_nextStart_iff hc).1 hl hlast.1
      rw [add_eq_of_next ((inLimits_start_iff hc).2 hfirst) hbeyond
        ((Duration.sign_lt_zero_iff hn).2 hlast.2), nextStart_of_inLastMonth hc hlast.1]
    · next hlast =>
      by_cases hsign : 0 ≤ n
      · exact add_forwards_in_range hc hct ht hn hindex hfirst hsign
      · have hnext : ¬ ym.anchor.InLastMonth := fun h => hlast ⟨h, not_le.1 hsign⟩
        exact add_backwards_in_range hc hct ht hn hindex hfirst hnext (not_le.1 hsign)

/-- The last month of the range. -/
def september275760 : YearMonth where
  anchor := ⟨275760, 9, 1⟩
  calendar := .iso8601

/-- The month before. -/
def august275760 : YearMonth where
  anchor := ⟨275760, 8, 1⟩
  calendar := .iso8601

/-- The first month of the range. -/
def aprilMinus271821 : YearMonth where
  anchor := ⟨-271821, 4, 1⟩
  calendar := .iso8601

/-- The month after. -/
def mayMinus271821 : YearMonth where
  anchor := ⟨-271821, 5, 1⟩
  calendar := .iso8601

/-- To the end of the range, and back to its beginning. -/
theorem perform_to_the_ends :
    august275760.perform (.add (.text "P1M") .null) = .ok september275760 ∧
      august275760.perform (.subtract (.text "P547581Y4M") .null) = .ok aprilMinus271821 := by
  have hmonth : (Value.text "P1M").toDuration = .ok { months := 1 } := by decide +kernel
  have hyears : (Value.text "P547581Y4M").toDuration = .ok { years := 547581, months := 4 } := by
    decide +kernel
  constructor
  · exact perform_in_range rfl rfl rfl (.add hmonth rfl rfl) rfl
  · exact perform_in_range rfl rfl rfl (.subtract hyears rfl rfl) rfl

/-- At both ends of the range an operation is refused though the month that it leads to is
represented: a month back from the last one, and a month on from the first one. -/
theorem perform_from_the_ends_refused :
    (Moves .iso8601 (.subtract (.text "P1M") .null) (-1) ∧
      august275760.index = september275760.index + -1 ∧
      september275760.perform (.subtract (.text "P1M") .null) =
        .error (.dateBeyondLimits 275760 10 1)) ∧
    (Moves .iso8601 (.add (.text "P1M") .null) 1 ∧
      mayMinus271821.index = aprilMinus271821.index + 1 ∧
      aprilMinus271821.perform (.add (.text "P1M") .null) =
        .error (.dateBeyondLimits (-271821) 4 1)) := by
  have hmonth : (Value.text "P1M").toDuration = .ok { months := 1 } := by decide +kernel
  refine ⟨⟨.subtract hmonth rfl rfl, rfl, ?_⟩, .add hmonth rfl rfl, rfl, ?_⟩
  · decide +kernel
  · decide +kernel

/-- The options of a difference that are read where none is given. -/
def defaultOptions : DifferenceOptions where
  smallest := .month
  largest := .year
  mode := .trunc
  increment := 1

theorem accepted_defaultOptions : defaultOptions.Accepted :=
  ⟨⟨.inl rfl, .inr rfl, fun h => absurd h (by decide), le_rfl⟩, by decide⟩

theorem differenceFrom_default (a b : YearMonth) (direction : Direction) :
    a.differenceFrom direction (.yearMonth b) {} = difference direction a b defaultOptions := by
  have hread : DifferenceOptions.read direction disallowedUnits .month .year {} =
      .ok defaultOptions := by
    cases direction <;> rfl
  unfold differenceFrom
  rw [hread]
  rfl

/-- **A month measured against another one.** In the ISO calendar the difference of two months, by
the default options and taken either way, is a duration, unless one of them is the first represented
month and they are not anchored alike; then it is refused for the first day of that month, which is
not represented. -/
theorem difference_in_range (ha : a.calendar = .iso8601) (hb : b.calendar = .iso8601)
    (direction : Direction) :
    (a.anchor = b.anchor ∨ ¬ a.anchor.InFirstMonth ∧ ¬ b.anchor.InFirstMonth →
      ∃ d, a.differenceFrom direction (.yearMonth b) {} = .ok d) ∧
    (a.anchor ≠ b.anchor → a.anchor.InFirstMonth ∨ b.anchor.InFirstMonth →
      a.differenceFrom direction (.yearMonth b) {} =
        .error (.dateBeyondLimits Iso.minYear 4 1)) := by
  have hc : a.calendar = b.calendar := ha.trans hb.symm
  rw [differenceFrom_default]
  constructor
  · intro h
    apply exists_difference accepted_defaultOptions rfl rfl hc
    exact h.imp_right fun h => ⟨(inLimits_start_iff ha).2 h.1, (inLimits_start_iff hb).2 h.2⟩
  · intro hne h
    have hbeyond : ¬ (a.start.InLimits ∧ b.start.InLimits) := by
      rw [inLimits_start_iff ha, inLimits_start_iff hb]
      exact fun hboth => h.elim hboth.1 hboth.2
    rw [difference_eq_error hc hne hbeyond]
    split
    · next hl =>
      have hb' : b.anchor.InFirstMonth := h.resolve_left ((inLimits_start_iff ha).1 hl)
      rw [start_of_inFirstMonth hb hb']
    · next hl =>
      have ha' : a.anchor.InFirstMonth := by
        by_contra hfirst
        exact hl ((inLimits_start_iff ha).2 hfirst)
      rw [start_of_inFirstMonth ha ha']

/-- The first month that is represented from its first day against the last one, either way, and
against the month before it. -/
theorem difference_across_the_range :
    (∃ d, mayMinus271821.differenceFrom .until (.yearMonth september275760) {} = .ok d) ∧
      (∃ d, mayMinus271821.differenceFrom .since (.yearMonth september275760) {} = .ok d) ∧
      mayMinus271821.differenceFrom .until (.yearMonth aprilMinus271821) {} =
        .error (.dateBeyondLimits (-271821) 4 1) :=
  ⟨(difference_in_range rfl rfl .until).1 (.inr ⟨by decide, by decide⟩),
    (difference_in_range rfl rfl .since).1 (.inr ⟨by decide, by decide⟩),
    (difference_in_range rfl rfl .until).2 (by decide) (.inr (by decide))⟩

/-- The first represented month is not measured against the month after it, either way. -/
theorem difference_from_first_refused :
    aprilMinus271821.differenceFrom .until (.yearMonth mayMinus271821) {} =
        .error (.dateBeyondLimits (-271821) 4 1) ∧
      aprilMinus271821.differenceFrom .since (.yearMonth mayMinus271821) {} =
        .error (.dateBeyondLimits (-271821) 4 1) := by
  constructor
  · decide +kernel
  · decide +kernel

end YearMonth

end Almanac
