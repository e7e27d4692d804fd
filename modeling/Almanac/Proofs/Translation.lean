import Almanac.Proofs.Canonical

/-!
# Months moved by months

The months of a calendar are the integers by their running numbers, and a duration of months moves
them by as many. Years are as good as months where every year has the same number of them. It makes
no difference that a duration forwards begins on the first day of a month and one backwards on the
last.

* `Duration.monthsIn?`: the months that a duration of years and months comes to in a calendar.
* `Moves`: an operation adds or subtracts a number of months.
* `YearMonth.index_of_perform`: such an operation moves the running number by that many.
* `YearMonth.moves_act`: **the integers act on the months that are held by their first days**.
-/

namespace Almanac

/-- The months that a duration of years and months alone comes to: of years only where each has the
same number of months. -/
def Duration.monthsIn? (d : Duration) (c : Calendar) : Option Int :=
  if d.toDurationParts = { years := d.years, months := d.months } then
    match c.monthsPerYear? with
    | some n => some (d.years * n + d.months)
    | none => if d.years = 0 then some d.months else none
  else none

/-- An operation adds or subtracts a duration that comes to a number of months, days beyond a month
cut off. -/
inductive Moves (c : Calendar) : Operation → Int → Prop
  | add {v o : Value} {d : Duration} {n : Int} (hd : v.toDuration = .ok d)
      (ho : o.toOverflow = .ok .constrain) (hn : d.monthsIn? c = some n) : Moves c (.add v o) n
  | subtract {v o : Value} {d : Duration} {n : Int} (hd : v.toDuration = .ok d)
      (ho : o.toOverflow = .ok .constrain) (hn : d.monthsIn? c = some n) :
      Moves c (.subtract v o) (-n)

namespace Calendar

variable {c : Calendar} {year month : Int}

/-- The years of every calendar but the Hebrew one have the same number of months. -/
theorem exists_monthsPerYear (h : c ≠ hebrew) : ∃ n, c.monthsPerYear? = some n := by
  cases c <;> first | exact ⟨_, rfl⟩ | exact absurd rfl h

theorem monthsPerYear_pos {n : Int} (h : c.monthsPerYear? = some n) : 0 < n := by
  cases c <;> cases h <;> decide

/-- **Years are months** where each has the same number of them. -/
theorem monthAfter_of_monthsPerYear {n : Int} (hn : c.monthsPerYear? = some n)
    (h : c.HasMonth year month) (years months : Int) :
    c.monthAfter year month years months = c.monthIndex year month + (years * n + months) := by
  have hne : c ≠ hebrew := by
    rintro rfl
    cases hn
  rw [monthAfter,
    monthOfCodeIn_monthCode h (by rw [isHebrewLeap_eq_false hne, isHebrewLeap_eq_false hne])]
  simp only [monthIndex, hn]
  ring

end Calendar

namespace Duration

variable {d : Duration} {c : Calendar} {n : Int}

theorem spanOfDays_of_monthsIn? (h : d.monthsIn? c = some n) :
    d.spanOfDays = { years := d.years, months := d.months } := by
  unfold monthsIn? at h
  split at h
  · next hparts =>
    have hweeks : d.weeks = 0 := congrArg DurationParts.weeks hparts
    have hdays : d.days = 0 := congrArg DurationParts.days hparts
    have htime : d.timeNanoseconds = 0 := congrArg DurationParts.timeNanoseconds hparts
    rw [spanOfDays, dateSpan, hweeks, hdays, htime]
    rfl
  · cases h

/-- **The month that a duration of years and months leads to** is as many months away. -/
theorem monthAfter_of_monthsIn? {year month : Int} (hm : c.HasMonth year month)
    (h : d.monthsIn? c = some n) :
    c.monthAfter year month d.spanOfDays.years d.spanOfDays.months =
      c.monthIndex year month + n := by
  rw [spanOfDays_of_monthsIn? h]
  unfold monthsIn? at h
  split at h
  · cases hk : c.monthsPerYear? with
    | some k =>
      rw [hk] at h
      obtain rfl := Option.some.inj h
      exact Calendar.monthAfter_of_monthsPerYear hk hm _ _
    | none =>
      rw [hk] at h
      simp only at h
      split at h
      · next hzero =>
        obtain rfl := Option.some.inj h
        rw [hzero]
        exact Calendar.monthAfter_zero hm _
      · cases h
  · cases h

theorem monthsIn?_neg (h : d.monthsIn? c = some n) : (-d).monthsIn? c = some (-n) := by
  unfold monthsIn? at h ⊢
  split at h
  · next hparts =>
    have hneg : (-d).toDurationParts = { years := -d.years, months := -d.months } := by
      change d.toDurationParts.neg = _
      rw [hparts]
      rfl
    have hyears : (-d).years = -d.years := congrArg DurationParts.years hneg
    have hmonths : (-d).months = -d.months := congrArg DurationParts.months hneg
    rw [if_pos (by rw [hneg]), hyears, hmonths]
    cases hk : c.monthsPerYear? with
    | some k =>
      rw [hk] at h
      obtain rfl := Option.some.inj h
      simp only [Option.some.injEq]
      ring
    | none =>
      rw [hk] at h
      simp only at h ⊢
      split at h
      · next hzero =>
        obtain rfl := Option.some.inj h
        rw [if_pos (by omega)]
      · cases h
  · cases h

end Duration

namespace YearMonth

variable {ym r s t : YearMonth} {n : Int}

/-- The running number of the month. -/
def index (ym : YearMonth) : Int := ym.calendar.monthIndex ym.reading.year ym.reading.month

/-- A month that is held by its first day is determined by its running number. -/
theorem eq_of_index {a b : YearMonth} (hc : a.calendar = b.calendar) (ha : a.IsCanonical)
    (hb : b.IsCanonical) (h : a.index = b.index) : a = b := by
  unfold index at h
  rw [hc] at h
  obtain ⟨hyear, hmonth⟩ :=
    Calendar.monthIndex_inj (hc ▸ a.hasDate_reading.1) b.hasDate_reading.1 h
  exact eq_of_month hc ha hb hyear hmonth

theorem index_of_add {d : Duration} (hn : d.monthsIn? ym.calendar = some n)
    (h : ym.add d .constrain = .ok r) : r.index = ym.index + n := by
  have hdays : d.spanOfDays.dayCount = 0 := by
    rw [Duration.spanOfDays_of_monthsIn? hn]
    rfl
  obtain ⟨hcalendar, year, month, hanchor, hm, hindex⟩ := monthIndex_add hdays h
  have hread : r.reading = ⟨year, month, 1⟩ := by
    rw [reading, hcalendar, hanchor]
    exact Calendar.dateOf_isoOf (Calendar.hasDate_first hm)
  rw [index, hread, hcalendar, hindex, Duration.monthAfter_of_monthsIn? ym.hasDate_reading.1 hn,
    index]

/-- **An operation that moves by months** moves the running number by as many. -/
theorem index_of_perform {op : Operation} (hm : Moves ym.calendar op n)
    (h : ym.perform op = .ok r) :
    r.calendar = ym.calendar ∧ r.IsCanonical ∧ r.index = ym.index + n := by
  cases hm with
  | @add v o d n hd ho hn =>
    obtain ⟨hc, hr⟩ := isCanonical_of_perform (by rfl) (by trivial) h
    refine ⟨hc, hr, ?_⟩
    simp only [perform, addFrom, hd, ho, bind, Except.bind] at h
    exact index_of_add hn h
  | @subtract v o d n hd ho hn =>
    obtain ⟨hc, hr⟩ := isCanonical_of_perform (by rfl) (by trivial) h
    refine ⟨hc, hr, ?_⟩
    simp only [perform, subtractFrom, hd, ho, bind, Except.bind] at h
    exact index_of_add (Duration.monthsIn?_neg hn) h

/-- Two operations lead to the month that is as far away as both together. -/
theorem index_of_perform_perform {f g : Operation} {a b : Int} (hf : Moves ym.calendar f a)
    (hg : Moves ym.calendar g b) (hs : ym.perform f = .ok s) (ht : s.perform g = .ok t) :
    t.calendar = ym.calendar ∧ t.IsCanonical ∧ t.index = ym.index + (a + b) := by
  obtain ⟨hcs, -, his⟩ := index_of_perform hf hs
  obtain ⟨hct, htc, hit⟩ := index_of_perform (hcs.symm ▸ hg) ht
  exact ⟨hct.trans hcs, htc, by omega⟩

/-- **The integers act on the months that are held by their first days**, a duration of months, in a
calendar whose years have the same number of months also of years and months, being added or
subtracted: a number leads to the first day of the month that is as many months away. One number
after another is the sum of them, and zero changes nothing, so that what is added is undone when it
is subtracted and the other way round. -/
theorem moves_act (hym : ym.IsCanonical) :
    (∀ f n r, Moves ym.calendar f n → ym.perform f = .ok r →
      r.calendar = ym.calendar ∧ r.IsCanonical ∧ r.index = ym.index + n) ∧
    (∀ f g h a b s t r, Moves ym.calendar f a → Moves ym.calendar g b →
      Moves ym.calendar h (a + b) → ym.perform f = .ok s → s.perform g = .ok t →
      ym.perform h = .ok r → t = r) ∧
    (∀ f r, Moves ym.calendar f 0 → ym.perform f = .ok r → r = ym) ∧
    (∀ v o o' n s t, Moves ym.calendar (.add v o) n → Moves ym.calendar (.subtract v o') (-n) →
      ym.perform (.add v o) = .ok s → s.perform (.subtract v o') = .ok t → t = ym) ∧
    (∀ v o o' n s t, Moves ym.calendar (.subtract v o) n → Moves ym.calendar (.add v o') (-n) →
      ym.perform (.subtract v o) = .ok s → s.perform (.add v o') = .ok t → t = ym) := by
  have hundo : ∀ {f g : Operation} {n : Int} {s t : YearMonth}, Moves ym.calendar f n →
      Moves ym.calendar g (-n) → ym.perform f = .ok s → s.perform g = .ok t → t = ym := by
    intro f g n s t hf hg hs ht
    obtain ⟨hc, htc, hi⟩ := index_of_perform_perform hf hg hs ht
    exact eq_of_index hc htc hym (by omega)
  refine ⟨?_, ?_, ?_, ?_, ?_⟩
  · intro f n r hf hr
    exact index_of_perform hf hr
  · intro f g h a b s t r hf hg hh hs ht hr
    obtain ⟨hct, htc, hit⟩ := index_of_perform_perform hf hg hs ht
    obtain ⟨hcr, hrc, hir⟩ := index_of_perform hh hr
    exact eq_of_index (hct.trans hcr.symm) htc hrc (by omega)
  · intro f r hf hr
    obtain ⟨hc, hrc, hi⟩ := index_of_perform hf hr
    exact eq_of_index hc hrc hym (by omega)
  · intro v o o' n s t hf hg hs ht
    exact hundo hf hg hs ht
  · intro v o o' n s t hf hg hs ht
    exact hundo hf hg hs ht

/-- The twelfth month of a Coptic leap year. -/
def mesori1739 : YearMonth where
  anchor := ⟨2023, 8, 7⟩
  calendar := .coptic

/-- Back by a year and two months, on by two years, and on by eleven months at once, where a year
has thirteen. -/
theorem moves_act_mesori1739 :
    mesori1739.IsCanonical ∧ ∃ s t r, mesori1739.perform (.subtract (.text "P1Y2M") .null) = .ok s ∧
      s.perform (.add (.text "P2Y") .null) = .ok t ∧
      mesori1739.perform (.add (.mapping [("months", .number (.whole 11))]) .null) = .ok r ∧ t = r ∧
      r.index = mesori1739.index + 11 := by
  have hback : (Value.text "P1Y2M").toDuration = .ok { years := 1, months := 2 } := by
    decide +kernel
  have hon : (Value.text "P2Y").toDuration = .ok { years := 2 } := by decide +kernel
  have honce : (Value.mapping [("months", .number (.whole 11))]).toDuration =
      .ok { months := 11 } := by decide +kernel
  have hsteps : (mesori1739.perform (.subtract (.text "P1Y2M") .null) >>= fun s =>
      s.perform (.add (.text "P2Y") .null)).isOk = true := by decide +kernel
  have hstep : (mesori1739.perform
      (.add (.mapping [("months", .number (.whole 11))]) .null)).isOk = true := by decide +kernel
  have hym : mesori1739.IsCanonical := by decide
  obtain ⟨t, hst⟩ := exists_of_isOk hsteps
  obtain ⟨s, hs, ht⟩ := bind_eq_ok hst
  obtain ⟨r, hr⟩ := exists_of_isOk hstep
  obtain ⟨hmoved, hsum, -⟩ := moves_act hym
  exact ⟨hym, s, t, r, hs, ht, hr, hsum _ _ _ (-15) 26 s t r (.subtract hback rfl rfl)
    (.add hon rfl rfl) (.add honce rfl rfl) hs ht hr, (hmoved _ 11 r (.add honce rfl rfl) hr).2.2⟩

end YearMonth

end Almanac
