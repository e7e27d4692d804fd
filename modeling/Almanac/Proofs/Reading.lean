import Almanac.Calendar.Arithmetic
import Almanac.Proofs.DayCount

/-!
# ISO dates read in a calendar

Every ISO date is read as a date of each calendar, and every date of a calendar is an ISO date.

* `bind_eq_ok`, `map_eq_ok`: what a step returned, when the whole has returned.
* `Calendar.isoOf`: the ISO date of a date.
* `Calendar.isoOf_dateOf`, `Calendar.dateOf_isoOf`: reading and this one undo each other.
* `IsoDate.fitsWord_count`: the represented range is far inside a word, so that `Calendar.read_eq`
  and `Calendar.toIso_eq` refuse nothing there.
* `Calendar.Countable`: the days to a date can be counted in a word;
  `Calendar.countable_of_digits`: **in a year of up to sixteen digits** they can.
-/

namespace Almanac

section

variable {α β : Type} {x : Except Error α}

/-- What a sequence of two steps returns, its first step returned before. -/
theorem bind_eq_ok_iff {f : α → Except Error β} {r : β} :
    (x >>= f) = .ok r ↔ ∃ a, x = .ok a ∧ f a = .ok r := by
  constructor
  · intro h
    cases x with
    | error e => cases h
    | ok a => exact ⟨a, rfl, h⟩
  · rintro ⟨a, rfl, h⟩
    exact h

theorem bind_eq_ok {f : α → Except Error β} {r : β} (h : (x >>= f) = .ok r) :
    ∃ a, x = .ok a ∧ f a = .ok r := bind_eq_ok_iff.1 h

/-- What a sequence of two steps fails with, its first step did or its second one. -/
theorem bind_eq_error {f : α → Except Error β} {e : Error} (h : (x >>= f) = .error e) :
    x = .error e ∨ ∃ a, x = .ok a ∧ f a = .error e := by
  cases x with
  | error e' =>
    obtain rfl := Except.error.inj h
    exact .inl rfl
  | ok a => exact .inr ⟨a, rfl, h⟩

theorem map_eq_ok {f : α → β} {r : β} (h : x.map f = .ok r) : ∃ a, x = .ok a ∧ f a = r := by
  cases x with
  | error e => cases h
  | ok a => exact ⟨a, rfl, Except.ok.inj h⟩

theorem exists_of_isOk (h : x.isOk = true) : ∃ a, x = .ok a := by
  cases x with
  | error e => cases h
  | ok a => exact ⟨a, rfl⟩

end

namespace IsoDate

/-- The day count of a date from 1970-01-01. -/
def count (d : IsoDate) : Int := Iso.epochDay d.year d.month d.day

theorem count_ofEpochDay (n : Int) : (ofEpochDay n).count = n := (ofEpochDay_spec n).2

theorem count_add_days (d : IsoDate) (n : Int) :
    count { d with day := d.day + n } = d.count + n := by
  unfold count Iso.epochDay
  ring

/-- The days from the first of a month to a day, which may lie outside the month. -/
theorem count_eq_first (d : IsoDate) : d.count = count { d with day := 1 } + (d.day - 1) := by
  have h := count_add_days { d with day := 1 } (d.day - 1)
  simp only [add_sub_cancel] at h
  exact h

theorem valid_iff_hasDate {d : IsoDate} :
    d.Valid ↔ Calendar.iso8601.HasDate ⟨d.year, d.month, d.day⟩ := by
  rw [← Calendar.hasDate_shiftYear_iff (c := .iso8601) rfl, Calendar.shiftYear]
  simp only [Calendar.yearOffset, Int.add_zero]

theorem count_eq_epochDay (d : IsoDate) :
    d.count = Calendar.iso8601.epochDay ⟨d.year, d.month, d.day⟩ := by
  rw [Calendar.epochDay_of_followsIso rfl, count]
  simp only [Calendar.yearOffset, Int.sub_zero]

/-- **ISO dates come in the order of their day counts.** -/
theorem count_lt_iff {d e : IsoDate} (hd : d.Valid) (he : e.Valid) : d.count < e.count ↔ d < e := by
  rw [count_eq_epochDay, count_eq_epochDay,
    Calendar.epochDay_lt_iff (valid_iff_hasDate.1 hd) (valid_iff_hasDate.1 he)]
  rfl

theorem count_le_iff {d e : IsoDate} (hd : d.Valid) (he : e.Valid) : d.count ≤ e.count ↔ d ≤ e := by
  rw [← not_lt, count_lt_iff he hd]
  rfl

/-- The order of two dates by their day counts. -/
theorem compare_eq_sign {d e : IsoDate} (hd : d.Valid) (he : e.Valid) :
    d.compare e = (d.count - e.count).sign := by
  unfold compare
  simp only [← count_lt_iff hd he, ← count_lt_iff he hd]
  split
  · rw [Int.sign_eq_neg_one_of_neg (by omega)]
  · split
    · rw [Int.sign_eq_one_of_pos (by omega)]
    · rw [show d.count - e.count = 0 by omega, Int.sign_zero]

theorem ofEpochDay_count {d : IsoDate} (h : d.Valid) : ofEpochDay d.count = d := by
  obtain ⟨hv, hn⟩ := ofEpochDay_spec d.count
  have hn : (ofEpochDay d.count).count = d.count := hn
  refine eq_of_not_lt ?_ ?_
  · rw [← count_lt_iff hv h]; omega
  · rw [← count_lt_iff h hv]; omega

theorem monthInLimits_of_inLimits {d : IsoDate} (h : d.InLimits) :
    Iso.MonthInLimits d.year d.month := by
  obtain ⟨h₁, h₂⟩ := h
  have h₁ : ¬ d < first := h₁
  have h₂ : ¬ last < d := h₂
  rw [lt_iff] at h₁ h₂
  simp only [first, last] at h₁ h₂
  unfold Iso.MonthInLimits
  omega

/-- The days of the months that are represented. -/
theorem count_bounds {d : IsoDate} (hv : d.Valid) (hl : Iso.MonthInLimits d.year d.month) :
    -100000019 ≤ d.count ∧ d.count ≤ 100000017 := by
  obtain ⟨hy₁, hy₂, hm₁, hm₂⟩ := hl
  have hlen : d.day ≤ 31 := le_trans hv.2.2.2 (Iso.daysInMonth_le _ _)
  have hday := hv.2.2.1
  have hlow : ¬ d < ⟨Iso.minYear, 4, 1⟩ := by
    rw [lt_iff]; simp only; omega
  have hhigh : ¬ ⟨Iso.maxYear, 9, 30⟩ < d := by
    rw [lt_iff]; simp only
    rintro (h | ⟨h, h' | ⟨h', h''⟩⟩)
    · omega
    · omega
    · have hv' := hv.2.2.2
      rw [← h, ← h'] at hv'
      have : Iso.daysInMonth Iso.maxYear 9 = 30 := by decide
      omega
  rw [← count_lt_iff hv (by decide)] at hlow
  rw [← count_lt_iff (by decide) hv] at hhigh
  have h₁ : (⟨Iso.minYear, 4, 1⟩ : IsoDate).count = -100000019 := by decide
  have h₂ : (⟨Iso.maxYear, 9, 30⟩ : IsoDate).count = 100000017 := by decide
  omega

/-- The days of as many years as a date has can be counted in a word. -/
def YearFits (d : IsoDate) : Prop := fitsWord (366 * d.year) = true

instance (d : IsoDate) : Decidable d.YearFits := by
  unfold YearFits; infer_instance

/-- So can the days to the date itself. -/
theorem YearFits.fitsWord_count {d : IsoDate} (hv : d.Valid) (h : d.YearFits) :
    fitsWord d.count = true := by
  have hfirst := Iso.epochDay_first_bounds h ⟨hv.1, hv.2.1⟩
  have hlen := Iso.daysInMonth_le d.year d.month
  obtain ⟨-, -, hd₁, hd₂⟩ := hv
  rw [count_eq_first, count, fitsWord_iff]
  dsimp only
  omega

/-- The represented range is far inside a word. -/
theorem yearFits_of_monthInLimits {d : IsoDate} (hl : Iso.MonthInLimits d.year d.month) :
    d.YearFits := by
  obtain ⟨h₁, h₂, -, -⟩ := hl
  simp only [Iso.minYear, Iso.maxYear] at h₁ h₂
  rw [YearFits, fitsWord_iff]
  omega

theorem yearFits_of_inLimits {d : IsoDate} (hl : d.InLimits) : d.YearFits :=
  yearFits_of_monthInLimits (monthInLimits_of_inLimits hl)

/-- The represented range is far inside a word. -/
theorem fitsWord_count {d : IsoDate} (hv : d.Valid) (hl : Iso.MonthInLimits d.year d.month) :
    fitsWord d.count = true := by
  have := count_bounds hv hl
  rw [fitsWord_iff]
  omega

theorem fitsWord_of_date {d : IsoDate} (hv : d.Valid) (hl : d.InLimits) : fitsWord d.count = true :=
  fitsWord_count hv (monthInLimits_of_inLimits hl)

theorem toEpochDay_eq {d : IsoDate} (hv : d.Valid) (hl : Iso.MonthInLimits d.year d.month) :
    d.toEpochDay = .ok d.count := by
  rw [toEpochDay, Iso.toEpochDay_eq hv (fitsWord_count hv hl), count]

theorem eq_count_of_toEpochDay {d : IsoDate} {n : Int} (hv : d.Valid) (hw : fitsWord d.count = true)
    (h : d.toEpochDay = .ok n) : n = d.count := by
  rw [toEpochDay, Iso.toEpochDay_eq hv hw] at h
  exact (Except.ok.inj h).symm

theorem ofEpochDay?_eq_ok {n : Int} {d : IsoDate} (h : ofEpochDay? n = .ok d) :
    d = ofEpochDay n := by
  unfold ofEpochDay? at h
  split at h
  · exact (Except.ok.inj h).symm
  · cases h

/-- The day count of a represented date is small. -/
theorem bounds_of_inLimits {n : Int} (hl : (ofEpochDay n).InLimits) :
    -100000019 ≤ n ∧ n ≤ 100000017 := by
  have hb := count_bounds (ofEpochDay_spec n).1 (monthInLimits_of_inLimits hl)
  rwa [count_ofEpochDay] at hb

theorem fitsWord_of_inLimits {n : Int} (hl : (ofEpochDay n).InLimits) : fitsWord n = true := by
  have hb := bounds_of_inLimits hl
  rw [fitsWord_iff]
  omega

/-- A date whose day may lie outside its month is counted on from the first of the month. -/
theorem balance_near {d : IsoDate} (hm : 1 ≤ d.month ∧ d.month ≤ 12)
    (hfirst : Iso.NearWord (count { d with day := 1 })) (hday : fitsWord (d.day - 1) = true)
    (hne : d.day - 1 ≠ noTime) : d.balance = .ok (ofEpochDay (toWord d.count)) := by
  rw [balance, toEpochDay, Iso.toEpochDay_near hm hfirst hday hne]
  exact if_pos (fitsWord_toWord _)

/-- It is the date of its count, if its days can be counted in a word. -/
theorem balance_eq {d : IsoDate} (hm : 1 ≤ d.month ∧ d.month ≤ 12)
    (hfirst : Iso.NearWord (count { d with day := 1 })) (hday : fitsWord (d.day - 1) = true)
    (hne : d.day - 1 ≠ noTime) (hcount : fitsWord d.count = true) :
    d.balance = .ok (ofEpochDay d.count) := by
  rw [balance_near hm hfirst hday hne, toWord_of_fitsWord hcount]

/-- A month has its first day near a word, if the days of its year can be counted in one. -/
theorem nearWord_first {d : IsoDate} (hm : 1 ≤ d.month ∧ d.month ≤ 12)
    (hyear : d.YearFits) : Iso.NearWord (count { d with day := 1 }) := by
  have hfirst := Iso.epochDay_first_bounds hyear hm
  unfold Iso.NearWord count
  dsimp only
  omega

/-- No day is counted on from the first of a month over a whole range of words into the represented
range, if the days of the year can be counted in a word. -/
theorem fitsWord_of_balance {d : IsoDate} (hm : 1 ≤ d.month ∧ d.month ≤ 12)
    (hyear : d.YearFits) (hday : fitsWord (d.day - 1) = true)
    (hl : (ofEpochDay (toWord d.count)).InLimits) : fitsWord d.count = true := by
  have hb := bounds_of_inLimits hl
  have hfirst := Iso.epochDay_first_bounds hyear hm
  rw [count_eq_first, count, toWord] at hb
  rw [fitsWord_iff] at hday ⊢
  rw [count_eq_first, count]
  dsimp only at hb ⊢
  omega

/-- A date that exists is not carried out of its month. -/
theorem balance_of_valid {d : IsoDate} (hv : d.Valid) (hw : fitsWord d.count = true) :
    d.balance = .ok d := by
  rw [balance, toEpochDay, Iso.toEpochDay_eq hv hw]
  exact (if_pos hw).trans (congrArg _ (ofEpochDay_count hv))

/-- **A date that is balanced to a represented one** is the date of its count, if the days of its
year can be counted in a word. -/
theorem eq_of_balance {d e : IsoDate} (hm : 1 ≤ d.month ∧ d.month ≤ 12)
    (hyear : d.YearFits) (h : d.balance = .ok e) (hl : e.InLimits) :
    e = ofEpochDay d.count := by
  have hday : fitsWord (d.day - 1) = true := by
    obtain ⟨n, hn, -⟩ := bind_eq_ok h
    unfold toEpochDay Iso.toEpochDay at hn
    split at hn
    · next hwords =>
      simp only [Iso.inWords, Bool.and_eq_true] at hwords
      exact hwords.2
    · cases hn
  by_cases hne : d.day - 1 = noTime
  · -- the word for no time leads far out of the range
    exfalso
    obtain ⟨n, hn, he⟩ := bind_eq_ok h
    obtain rfl : n = noTime := by
      unfold toEpochDay Iso.toEpochDay at hn
      split at hn
      · rw [← Except.ok.inj hn, Iso.dayWord, countOn, if_pos (.inr hne)]
      · cases hn
    rw [ofEpochDay?_eq_ok he] at hl
    have hb := bounds_of_inLimits hl
    simp only [noTime] at hb
    omega
  · rw [balance_near hm (nearWord_first hm hyear) hday hne] at h
    obtain rfl := Except.ok.inj h
    rw [toWord_of_fitsWord (fitsWord_of_balance hm hyear hday hl)]

/-- The day of a date that is balanced to a represented one, if the days of its year can be counted
in a word. -/
theorem day_of_inLimits {d : IsoDate} (hm : 1 ≤ d.month ∧ d.month ≤ 12)
    (hyear : d.YearFits) (hl : (ofEpochDay d.count).InLimits) :
    fitsWord (d.day - 1) = true ∧ d.day - 1 ≠ noTime := by
  have hb := bounds_of_inLimits hl
  have hfirst := Iso.epochDay_first_bounds hyear hm
  rw [count_eq_first, count] at hb
  rw [fitsWord_iff]
  unfold noTime
  dsimp only at hb
  omega

end IsoDate

namespace Calendar

variable {c : Calendar}

/-- The ISO date of a date. -/
def isoOf (c : Calendar) (d : YearMonthDay) : IsoDate := .ofEpochDay (c.epochDay d)

theorem valid_isoOf (c : Calendar) (d : YearMonthDay) : (c.isoOf d).Valid :=
  (IsoDate.ofEpochDay_spec _).1

theorem count_isoOf (c : Calendar) (d : YearMonthDay) : (c.isoOf d).count = c.epochDay d :=
  IsoDate.count_ofEpochDay _

theorem dateOf_eq {iso : IsoDate} (h : iso.Valid) :
    c.dateOf iso = c.dateOfEpochDay iso.count := by
  unfold dateOf
  split
  · next hiso => rw [dateOfEpochDay_of_followsIso hiso, IsoDate.ofEpochDay_count h]
  · rfl

theorem hasDate_dateOf {iso : IsoDate} (h : iso.Valid) : c.HasDate (c.dateOf iso) := by
  rw [dateOf_eq h]
  exact (c.dateOfEpochDay_spec _).1

theorem epochDay_dateOf {iso : IsoDate} (h : iso.Valid) :
    c.epochDay (c.dateOf iso) = iso.count := by
  rw [dateOf_eq h]
  exact (c.dateOfEpochDay_spec _).2

/-- The readings of two dates come in the order of the dates. -/
theorem dateOf_lt_iff {d e : IsoDate} (hd : d.Valid) (he : e.Valid) :
    c.dateOf d < c.dateOf e ↔ d < e := by
  rw [← epochDay_lt_iff (hasDate_dateOf hd) (hasDate_dateOf he), epochDay_dateOf hd,
    epochDay_dateOf he, IsoDate.count_lt_iff hd he]

/-- **An ISO date is the ISO date of its reading.** -/
theorem isoOf_dateOf {iso : IsoDate} (h : iso.Valid) : c.isoOf (c.dateOf iso) = iso := by
  rw [isoOf, epochDay_dateOf h, IsoDate.ofEpochDay_count h]

/-- **A date is the reading of its ISO date.** -/
theorem dateOf_isoOf {d : YearMonthDay} (h : c.HasDate d) : c.dateOf (c.isoOf d) = d := by
  rw [dateOf_eq (valid_isoOf c d), count_isoOf, dateOfEpochDay_epochDay h]

/-- A date is read as it is, if the days to it can be counted in a word. -/
theorem read_of_fitsWord {iso : IsoDate} (hv : iso.Valid) (hw : fitsWord iso.count = true) :
    c.read iso = .ok (c.dateOf iso) := by
  unfold read dateOf
  split
  · rfl
  · rw [IsoDate.toEpochDay, Iso.toEpochDay_eq hv hw]
    rfl

theorem read_eq {iso : IsoDate} (hv : iso.Valid) (hl : Iso.MonthInLimits iso.year iso.month) :
    c.read iso = .ok (c.dateOf iso) :=
  read_of_fitsWord hv (IsoDate.fitsWord_count hv hl)

theorem toIso_eq {d : YearMonthDay} (hd : c.HasDate d) (hw : fitsWord (c.epochDay d) = true) :
    c.toIso d = .ok (c.isoOf d) := by
  rw [toIso, toEpochDay_eq hd fun _ => hw]
  simp only [bind, Except.bind, IsoDate.ofEpochDay?, if_pos hw, isoOf]

/-- A date of a calendar that follows the ISO calendar has the day count of its ISO date. -/
theorem count_of_followsIso (h : c.followsIso) (year month day : Int) :
    IsoDate.count ⟨year - c.yearOffset, month, day⟩ = c.epochDay ⟨year, month, day⟩ := by
  rw [epochDay_of_followsIso h, IsoDate.count]

theorem eq_dateOf {iso : IsoDate} {d : YearMonthDay} (hv : iso.Valid)
    (hw : fitsWord iso.count = true) (h : c.read iso = .ok d) : d = c.dateOf iso := by
  rw [read_of_fitsWord hv hw] at h
  exact (Except.ok.inj h).symm

/-- The days to a date can be counted: they fit a word, where they are counted in words. -/
def Countable (c : Calendar) (d : YearMonthDay) : Prop :=
  c.followsIso → fitsWord (c.epochDay d) = true

instance (c : Calendar) (d : YearMonthDay) : Decidable (c.Countable d) := by
  unfold Countable; infer_instance

theorem eq_epochDay {d : YearMonthDay} {n : Int} (hd : c.HasDate d) (hw : c.Countable d)
    (h : c.toEpochDay d = .ok n) : n = c.epochDay d := by
  rw [toEpochDay_eq hd hw] at h
  exact (Except.ok.inj h).symm

/-- A calendar that does not follow the ISO calendar counts its days beyond a word as well. -/
theorem eq_isoOf_of_not_followsIso {d : YearMonthDay} {iso : IsoDate} (hiso : ¬ c.followsIso = true)
    (h : c.toIso d = .ok iso) : iso = c.isoOf d := by
  obtain ⟨n, hn, h⟩ := bind_eq_ok h
  rw [toEpochDay, if_neg hiso] at hn
  rw [IsoDate.ofEpochDay?_eq_ok h, ← Except.ok.inj hn, isoOf]

/-- The only ISO date that a date is given, if the days to it can be counted. -/
theorem eq_isoOf {d : YearMonthDay} {iso : IsoDate} (hd : c.HasDate d) (hw : c.Countable d)
    (h : c.toIso d = .ok iso) : iso = c.isoOf d := by
  obtain ⟨n, hn, h⟩ := bind_eq_ok h
  rw [IsoDate.ofEpochDay?_eq_ok h, eq_epochDay hd hw hn, isoOf]

/-- **The days to a date can be counted** if those of as many years as it has can. -/
theorem countable_of_year {d : YearMonthDay} (hd : c.HasDate d)
    (hyear : c.followsIso → fitsWord (366 * (d.year - c.yearOffset)) = true) : c.Countable d := by
  intro hiso
  obtain ⟨hm, h₁, h₂⟩ := hd
  have hlast := hm.2
  rw [monthsInYear_of_followsIso hiso] at hlast
  have hfirst := Iso.epochDay_first_bounds (hyear hiso) ⟨hm.1, hlast⟩
  have hlen := Iso.daysInMonth_le (d.year - c.yearOffset) d.month
  rw [daysInMonth_of_followsIso hiso] at h₂
  rw [epochDay_of_followsIso hiso, Iso.epochDay_of_month ⟨hm.1, hlast⟩, fitsWord_iff]
  rw [Iso.epochDay_of_month ⟨hm.1, hlast⟩] at hfirst
  omega

/-- **A year of up to sixteen digits** is near enough. -/
theorem countable_of_digits {d : YearMonthDay} (hd : c.HasDate d)
    (hyear : d.year.natAbs ≤ 9999999999999999) : c.Countable d := by
  refine countable_of_year hd fun hiso => ?_
  have hoffset : -1911 ≤ c.yearOffset ∧ c.yearOffset ≤ 543 := by
    cases c <;> decide
  rw [fitsWord_iff]
  omega

end Calendar

end Almanac
