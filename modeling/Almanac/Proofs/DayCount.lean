import Almanac.Proofs.Iso.DayWord
import Almanac.Proofs.MonthStart

/-!
# Dates and day counts

Every day count has one date in every calendar, every date of a calendar one day count, and the two
run in the same order.

* `dateOfEpochDay_spec`: the date of a day count exists and has that count.
* `epochDay_lt_iff`: day counts have the order of the dates, so that `dateOfEpochDay_epochDay` is
  the way back.
* `ofEpochDay_eq`, `toEpochDay_eq`: counts within a word are never refused.
* `day_counts_match_dates`: **dates and day counts correspond**.
-/

namespace Almanac

theorem YearMonthDay.lt_iff {a b : YearMonthDay} :
    a < b ↔ a.year < b.year ∨
      a.year = b.year ∧ (a.month < b.month ∨ a.month = b.month ∧ a.day < b.day) :=
  Iff.rfl

namespace Calendar

variable {c : Calendar}

theorem dateOfEpochDay_of_followsIso (h : c.followsIso) (n : Int) :
    c.dateOfEpochDay n = c.shiftYear (IsoDate.ofEpochDay n) := by
  cases c <;> first | rfl | cases h

theorem epochDay_of_followsIso (h : c.followsIso) (d : YearMonthDay) :
    c.epochDay d = Iso.epochDay (d.year - c.yearOffset) d.month d.day := by
  cases c <;> first | rfl | cases h

theorem monthsInYear_of_followsIso (h : c.followsIso) (year : Int) : c.monthsInYear year = 12 := by
  cases c <;> first | exact absurd h (by decide) | rfl

theorem daysInMonth_of_followsIso (h : c.followsIso) (year month : Int) :
    c.daysInMonth year month = Iso.daysInMonth (year - c.yearOffset) month := by
  cases c <;> first | exact absurd h (by decide) | rfl

/-- **The date of a day count** exists and has that count. -/
theorem dateOfEpochDay_spec (c : Calendar) (n : Int) :
    c.HasDate (c.dateOfEpochDay n) ∧ c.epochDay (c.dateOfEpochDay n) = n := by
  by_cases hiso : c.followsIso
  · obtain ⟨hv, hn⟩ := IsoDate.ofEpochDay_spec n
    rw [dateOfEpochDay_of_followsIso hiso, epochDay_of_followsIso hiso]
    refine ⟨(hasDate_shiftYear_iff hiso).2 hv, ?_⟩
    simpa only [shiftYear, Int.add_sub_cancel] using hn
  · cases c
    case coptic =>
      obtain ⟨hm, hd, hn⟩ := Coptic.dateOfDay_spec Coptic.copticEpoch (n + unixEpoch)
      exact ⟨⟨hm, hd⟩, by simp only [epochDay, dateOfEpochDay, hn]; omega⟩
    case ethiopic =>
      obtain ⟨hm, hd, hn⟩ := Coptic.dateOfDay_spec Coptic.ethiopicEpoch (n + unixEpoch)
      exact ⟨⟨hm, hd⟩, by simp only [epochDay, dateOfEpochDay, hn]; omega⟩
    case hebrew =>
      obtain ⟨hm, hd, hn⟩ := Hebrew.dateOfDay_spec (n + unixEpoch)
      exact ⟨⟨hm, hd⟩, by simp only [epochDay, dateOfEpochDay, hn]; omega⟩
    case islamicCivil =>
      obtain ⟨hm, hd, hn⟩ := Islamic.dateOfDay_spec Islamic.civilEpoch (n + unixEpoch)
      exact ⟨⟨hm, hd⟩, by simp only [epochDay, dateOfEpochDay, hn]; omega⟩
    case islamicTabular =>
      obtain ⟨hm, hd, hn⟩ := Islamic.dateOfDay_spec Islamic.astronomicalEpoch (n + unixEpoch)
      exact ⟨⟨hm, hd⟩, by simp only [epochDay, dateOfEpochDay, hn]; omega⟩
    all_goals exact absurd rfl hiso

/-- A date lies between the beginning of its month and that of the next one. -/
theorem epochDay_bounds {d : YearMonthDay} (h : c.HasDate d) :
    c.monthStart (c.monthIndex d.year d.month) ≤ c.epochDay d ∧
      c.epochDay d < c.monthStart (c.monthIndex d.year d.month + 1) := by
  obtain ⟨hm, hd₁, hd₂⟩ := h
  rw [monthStart_succ, monthLength_monthIndex hm, epochDay_eq_monthStart hm d.day]
  omega

/-- **Day counts have the order of the dates.** -/
theorem epochDay_lt_iff {d e : YearMonthDay} (hd : c.HasDate d) (he : c.HasDate e) :
    c.epochDay d < c.epochDay e ↔ d < e := by
  have hbd := epochDay_bounds hd
  have hbe := epochDay_bounds he
  have hde := monthIndex_lt_iff hd.1 he.1
  rw [YearMonthDay.lt_iff]
  -- a day of an earlier month comes before the first day of the next month
  rcases lt_trichotomy (c.monthIndex d.year d.month) (c.monthIndex e.year e.month) with h | h | h
  · have := (monthStart_le_iff (c := c)).2
      (show c.monthIndex d.year d.month + 1 ≤ c.monthIndex e.year e.month by omega)
    omega
  · obtain ⟨hy, hm⟩ := monthIndex_inj hd.1 he.1 h
    have hd' : c.epochDay d = _ := epochDay_eq_monthStart hd.1 d.day
    have he' : c.epochDay e = _ := epochDay_eq_monthStart he.1 e.day
    rw [h] at hd'
    omega
  · have := (monthStart_le_iff (c := c)).2
      (show c.monthIndex e.year e.month + 1 ≤ c.monthIndex d.year d.month by omega)
    have hed := monthIndex_lt_iff he.1 hd.1
    omega

theorem epochDay_inj {d e : YearMonthDay} (hd : c.HasDate d) (he : c.HasDate e)
    (h : c.epochDay d = c.epochDay e) : d = e := by
  have h₁ := epochDay_lt_iff hd he
  have h₂ := epochDay_lt_iff he hd
  rw [YearMonthDay.lt_iff] at h₁ h₂
  obtain ⟨y, m, k⟩ := d
  obtain ⟨y', m', k'⟩ := e
  simp only [YearMonthDay.mk.injEq] at h₁ h₂ ⊢
  omega

/-- **The way back from a day count** to the date that it was counted for. -/
theorem dateOfEpochDay_epochDay {d : YearMonthDay} (h : c.HasDate d) :
    c.dateOfEpochDay (c.epochDay d) = d := by
  obtain ⟨hd, hn⟩ := c.dateOfEpochDay_spec (c.epochDay d)
  exact epochDay_inj hd h hn

theorem dateOfEpochDay_lt_iff (c : Calendar) (m n : Int) :
    c.dateOfEpochDay m < c.dateOfEpochDay n ↔ m < n := by
  obtain ⟨hd, hm⟩ := c.dateOfEpochDay_spec m
  obtain ⟨he, hn⟩ := c.dateOfEpochDay_spec n
  rw [← epochDay_lt_iff hd he, hm, hn]

theorem ofEpochDay_eq {n : Int} (h : c.followsIso → fitsWord n) :
    c.ofEpochDay n = .ok (c.dateOfEpochDay n) := by
  unfold ofEpochDay
  split
  · next hiso =>
    rw [IsoDate.ofEpochDay?, if_pos (h hiso), dateOfEpochDay_of_followsIso hiso]
    rfl
  · rfl

theorem toEpochDay_eq {d : YearMonthDay} (hd : c.HasDate d)
    (h : c.followsIso → fitsWord (c.epochDay d)) : c.toEpochDay d = .ok (c.epochDay d) := by
  unfold toEpochDay
  split
  · next hiso =>
    have hshift : c.shiftYear ⟨d.year - c.yearOffset, d.month, d.day⟩ = d := by
      simp only [shiftYear, Int.sub_add_cancel]
    have hv := (hasDate_shiftYear_iff hiso).1 (hshift.symm ▸ hd)
    rw [epochDay_of_followsIso hiso] at h ⊢
    exact Iso.toEpochDay_eq hv (h hiso)
  · rfl

/-- The only date that a day count is given. -/
theorem eq_dateOfEpochDay {n : Int} {d : YearMonthDay} (h : c.ofEpochDay n = .ok d) :
    d = c.dateOfEpochDay n := by
  by_cases hw : c.followsIso → fitsWord n
  · rw [ofEpochDay_eq hw] at h
    exact (Except.ok.inj h).symm
  · obtain ⟨hiso, hbeyond⟩ := Classical.not_imp.1 hw
    rw [ofEpochDay, if_pos hiso, IsoDate.ofEpochDay?, if_neg hbeyond] at h
    cases h

/-- **Dates and day counts correspond.** A day count has a date of the calendar, which leads back to
it; a date of the calendar has a day count, which leads back to it; and days come one after another
exactly as their dates do. In the calendars that follow the ISO calendar this is said of the day
counts that fit a word. -/
theorem day_counts_match_dates (c : Calendar) :
    (∀ n, (c.followsIso → fitsWord n) →
      ∃ d, c.ofEpochDay n = .ok d ∧ c.HasDate d ∧ c.toEpochDay d = .ok n) ∧
    (∀ d, c.HasDate d → (c.followsIso → fitsWord (c.epochDay d)) →
      ∃ n, c.toEpochDay d = .ok n ∧ c.ofEpochDay n = .ok d) ∧
    (∀ m n d e, c.ofEpochDay m = .ok d → c.ofEpochDay n = .ok e → (m < n ↔ d < e)) := by
  refine ⟨?_, ?_, ?_⟩
  · intro n hw
    obtain ⟨hd, hn⟩ := c.dateOfEpochDay_spec n
    refine ⟨c.dateOfEpochDay n, ofEpochDay_eq hw, hd, ?_⟩
    rw [toEpochDay_eq hd (by rw [hn]; exact hw), hn]
  · intro d hd hw
    refine ⟨c.epochDay d, toEpochDay_eq hd hw, ?_⟩
    rw [ofEpochDay_eq hw, dateOfEpochDay_epochDay hd]
  · intro m n d e hm hn
    rw [eq_dateOfEpochDay hm, eq_dateOfEpochDay hn, dateOfEpochDay_lt_iff]

/-- The last day of a Hebrew year of 385 days, and a leap day before the first year. -/
theorem day_counts_match_leap_days :
    (∃ n, hebrew.toEpochDay ⟨5776, 13, 29⟩ = .ok n ∧ hebrew.ofEpochDay n = .ok ⟨5776, 13, 29⟩) ∧
      ∃ n, gregory.toEpochDay ⟨-400, 2, 29⟩ = .ok n ∧ gregory.ofEpochDay n = .ok ⟨-400, 2, 29⟩ :=
  ⟨(day_counts_match_dates .hebrew).2.1 _ (by decide) (fun h => absurd h (by decide)),
    (day_counts_match_dates .gregory).2.1 _ (by decide) (fun _ => by decide)⟩

end Calendar

end Almanac
