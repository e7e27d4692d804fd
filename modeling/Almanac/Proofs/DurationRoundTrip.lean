import Almanac.Proofs.DurationText

/-!
# Durations through their texts

The text of a duration shows its seconds with everything that the parts of a second come to, so that
the parts come back carried: none of them fills the next larger one. Nothing else is changed by a
text and its reading, and a duration whose parts are carried is not changed at all.

* `DurationParts.sign_neg_iff`: the counts of a negative duration.
* `DurationParts.secondNanoseconds`: the length of the seconds and smaller units.
* `DurationParts.Carried`, `DurationParts.CarriesTo`: parts of a second that fill no larger one, and
  the same counts with such parts; `DurationParts.Carried.eq_of_nonneg`: such parts are found from
  their length.
* `Duration.carried`: the counts that the text of a duration shows; `Duration.carriesTo_carried`,
  `Duration.uniform_carried`, `Duration.inLimits_carried`: they are those of a duration.
* `Duration.parse_text_eq`: a text is read as the counts that it shows.
* `Duration.text_round_trip`: **a duration through its text**.
-/

namespace Almanac

namespace DurationParts

variable {p : DurationParts}

/-- **The sign of counts** that do not differ in sign. -/
theorem sign_neg_iff (h : p.Uniform) : p.sign < 0 ↔ ∃ x ∈ p.toList, x < 0 := by
  unfold sign
  cases hfirst : p.toList.find? (· ≠ 0) with
  | none =>
    -- no count is negative, as all are zero
    have hzero : ∀ x ∈ p.toList, x = 0 := by simpa using List.find?_eq_none.1 hfirst
    constructor
    · intro hneg
      exact absurd hneg (by decide)
    · rintro ⟨x, hx, hneg⟩
      rw [hzero x hx] at hneg
      exact absurd hneg (by decide)
  | some first =>
    -- a count that is not zero has the sign of all of them
    have hmem := List.mem_of_find?_eq_some hfirst
    have hne : first ≠ 0 := by simpa using List.find?_some hfirst
    rw [Option.getD_some, Int.sign_neg_iff]
    constructor
    · intro hneg
      exact ⟨first, hmem, hneg⟩
    · rintro ⟨x, hx, hneg⟩
      rcases h with hall | hall
      · exact absurd hneg (not_lt.2 (hall x hx))
      · exact lt_of_le_of_ne (hall first hmem) hne

/-- The length of the seconds and smaller units, in nanoseconds. -/
def secondNanoseconds (p : DurationParts) : Int :=
  p.seconds * 1000000000 + p.milliseconds * 1000000 + p.microseconds * 1000 + p.nanoseconds

/-- The sign of counts by the counts down to the minutes and the length of the smaller units. -/
theorem sign_neg_iff_of_length (h : p.Uniform) :
    p.sign < 0 ↔ p.years < 0 ∨ p.months < 0 ∨ p.weeks < 0 ∨ p.days < 0 ∨ p.hours < 0 ∨
    p.minutes < 0 ∨
      p.secondNanoseconds < 0 := by
  rw [sign_neg_iff h]
  simp only [Uniform, toList, List.forall_mem_cons, List.exists_mem_cons_iff, List.not_mem_nil,
    false_imp_iff, implies_true, and_true, false_and, exists_false, or_false,
    secondNanoseconds] at h ⊢
  omega

theorem secondNanoseconds_neg (p : DurationParts) :
    p.neg.secondNanoseconds = -p.secondNanoseconds := by
  simp only [secondNanoseconds, neg, ofCounts, count]
  omega

theorem secondNanoseconds_nonneg (h : ∀ x ∈ p.toList, 0 ≤ x) : 0 ≤ p.secondNanoseconds := by
  simp only [toList, List.forall_mem_cons] at h
  simp only [secondNanoseconds]
  omega

theorem secondNanoseconds_nonpos (h : ∀ x ∈ p.toList, x ≤ 0) : p.secondNanoseconds ≤ 0 := by
  simp only [toList, List.forall_mem_cons] at h
  simp only [secondNanoseconds]
  omega

theorem toList_neg_nonneg (h : ∀ x ∈ p.toList, x ≤ 0) : ∀ x ∈ p.neg.toList, 0 ≤ x := by
  simp only [toList, neg, ofCounts, count, List.forall_mem_cons, List.not_mem_nil, false_imp_iff,
    implies_true, and_true] at h ⊢
  omega

/-- No part of a second fills the next larger unit. -/
structure Carried (p : DurationParts) : Prop where
  milliseconds_lt : p.milliseconds.natAbs < 1000
  microseconds_lt : p.microseconds.natAbs < 1000
  nanoseconds_lt : p.nanoseconds.natAbs < 1000

theorem Carried.neg (h : p.Carried) : p.neg.Carried := by
  obtain ⟨hmilli, hmicro, hnano⟩ := h
  constructor <;> simp only [DurationParts.neg, ofCounts, count, Int.natAbs_neg] <;> assumption

/-- Carried counts of one sign are found from the length of the seconds and smaller units. -/
theorem Carried.eq_of_nonneg {q : DurationParts} (hp : p.Carried) (hq : q.Carried)
    (hall : ∀ x ∈ p.toList, 0 ≤ x) (hall' : ∀ x ∈ q.toList, 0 ≤ x)
    (h : p.secondNanoseconds = q.secondNanoseconds) :
    p.seconds = q.seconds ∧ p.milliseconds = q.milliseconds ∧ p.microseconds = q.microseconds ∧
      p.nanoseconds = q.nanoseconds := by
  obtain ⟨hmilli, hmicro, hnano⟩ := hp
  obtain ⟨hmilli', hmicro', hnano'⟩ := hq
  simp only [toList, List.forall_mem_cons] at hall hall'
  simp only [secondNanoseconds] at h
  -- from the largest unit down, each count is the quotient of what is left
  have hseconds : p.seconds = q.seconds := by omega
  have hmilliseconds : p.milliseconds = q.milliseconds := by omega
  have hmicroseconds : p.microseconds = q.microseconds := by omega
  exact ⟨hseconds, hmilliseconds, hmicroseconds, by omega⟩

theorem Carried.eq_of_nonpos {q : DurationParts} (hp : p.Carried) (hq : q.Carried)
    (hall : ∀ x ∈ p.toList, x ≤ 0) (hall' : ∀ x ∈ q.toList, x ≤ 0)
    (h : p.secondNanoseconds = q.secondNanoseconds) :
    p.seconds = q.seconds ∧ p.milliseconds = q.milliseconds ∧ p.microseconds = q.microseconds ∧
      p.nanoseconds = q.nanoseconds := by
  have hlength : p.neg.secondNanoseconds = q.neg.secondNanoseconds := by
    rw [secondNanoseconds_neg, secondNanoseconds_neg, h]
  have hneg := hp.neg.eq_of_nonneg hq.neg (toList_neg_nonneg hall) (toList_neg_nonneg hall') hlength
  simpa only [DurationParts.neg, ofCounts, count, neg_inj] using hneg

/-- The same counts down to the minutes, and the same length of the seconds and smaller units,
carried. -/
structure CarriesTo (p q : DurationParts) : Prop extends q.Carried where
  years_eq : q.years = p.years
  months_eq : q.months = p.months
  weeks_eq : q.weeks = p.weeks
  days_eq : q.days = p.days
  hours_eq : q.hours = p.hours
  minutes_eq : q.minutes = p.minutes
  seconds_eq : q.secondNanoseconds = p.secondNanoseconds

theorem CarriesTo.totalNanoseconds_eq {q : DurationParts} (h : p.CarriesTo q) :
    q.totalNanoseconds = p.totalNanoseconds := by
  have hseconds := h.seconds_eq
  simp only [secondNanoseconds] at hseconds
  simp only [totalNanoseconds, timeNanoseconds, h.days_eq, h.hours_eq, h.minutes_eq]
  omega

theorem CarriesTo.sign_neg_iff {q : DurationParts} (h : p.CarriesTo q) (hp : p.Uniform)
    (hq : q.Uniform) :
    q.sign < 0 ↔ p.sign < 0 := by
  rw [sign_neg_iff_of_length hq, sign_neg_iff_of_length hp, h.years_eq, h.months_eq, h.weeks_eq,
    h.days_eq, h.hours_eq, h.minutes_eq, h.seconds_eq]

theorem CarriesTo.inLimits {q : DurationParts} (h : p.CarriesTo q) (hp : p.InLimits) :
    q.InLimits := by
  unfold InLimits at hp ⊢
  rw [h.years_eq, h.months_eq, h.weeks_eq, h.totalNanoseconds_eq]
  exact hp

end DurationParts

namespace Duration

variable {d e : Duration}

/-- The counts that the text of a duration shows. -/
def carried (d : Duration) : DurationParts := if d.sign < 0 then d.magnitudes.neg else d.magnitudes

/-- All counts of a duration have its sign, or are zero. -/
theorem toList_of_sign (d : Duration) :
    d.sign < 0 ∧ (∀ x ∈ d.toList, x ≤ 0) ∨ ¬ d.sign < 0 ∧ ∀ x ∈ d.toList, 0 ≤ x := by
  have hiff := DurationParts.sign_neg_iff d.uniform
  by_cases hneg : d.sign < 0
  · refine .inl ⟨hneg, ?_⟩
    obtain ⟨x, hx, hlt⟩ := hiff.1 hneg
    rcases d.uniform with hall | hall
    · exact absurd hlt (not_lt.2 (hall x hx))
    · exact hall
  · refine .inr ⟨hneg, fun x hx => ?_⟩
    exact not_lt.1 fun hlt => hneg (hiff.2 ⟨x, hx, hlt⟩)

theorem uniform_carried (d : Duration) : d.carried.Uniform := by
  have hmagnitudes : ∀ x ∈ d.magnitudes.toList, 0 ≤ x := by
    simp only [DurationParts.toList, magnitudes, List.forall_mem_cons, List.not_mem_nil,
      false_imp_iff, implies_true, and_true]
    omega
  unfold carried
  split
  · exact DurationParts.Uniform.neg (.inl hmagnitudes)
  · exact .inl hmagnitudes

/-- The parts of a second that are shown make up the fraction that is shown. -/
theorem magnitudes_subsecond (d : Duration) :
    d.magnitudes.milliseconds * 1000000 + d.magnitudes.microseconds * 1000
      + d.magnitudes.nanoseconds = d.secondFraction := by
  have hmilli : d.magnitudes.milliseconds = d.secondFraction / 1000000 := rfl
  have hmicro : d.magnitudes.microseconds = d.secondFraction % 1000000 / 1000 := rfl
  have hnano : d.magnitudes.nanoseconds = d.secondFraction % 1000 := rfl
  rw [hmilli, hmicro, hnano]
  omega

theorem carried_magnitudes (d : Duration) : d.magnitudes.Carried := by
  have hmilli : d.magnitudes.milliseconds = d.secondFraction / 1000000 := rfl
  have hmicro : d.magnitudes.microseconds = d.secondFraction % 1000000 / 1000 := rfl
  have hnano : d.magnitudes.nanoseconds = d.secondFraction % 1000 := rfl
  have hbound := d.secondFraction_lt
  refine ⟨?_, ?_, ?_⟩
  · rw [hmilli]
    omega
  · rw [hmicro]
    omega
  · rw [hnano]
    omega

/-- The seconds that a duration shows, with their fraction, are the length of its seconds and
smaller units. -/
theorem natAbs_secondNanoseconds (d : Duration) :
    d.secondNanoseconds.natAbs = d.wholeSeconds * 1000000000 + d.secondFraction := by
  have hwhole : d.wholeSeconds = d.seconds.natAbs + d.subsecond / 1000000000 := rfl
  have hfraction : d.secondFraction = d.subsecond % 1000000000 := rfl
  have hsubsecond : d.subsecond =
      d.milliseconds.natAbs * 1000000 + d.microseconds.natAbs * 1000 + d.nanoseconds.natAbs := rfl
  -- the counts have one sign, so that their lengths add up
  have hlength : d.secondNanoseconds.natAbs = d.seconds.natAbs * 1000000000 + d.subsecond := by
    rw [hsubsecond, DurationParts.secondNanoseconds]
    rcases d.toList_of_sign with ⟨-, hall⟩ | ⟨-, hall⟩ <;>
      simp only [DurationParts.toList, List.forall_mem_cons] at hall <;> omega
  have hcarry := Nat.div_add_mod d.subsecond 1000000000
  rw [hlength, hwhole, hfraction]
  omega

theorem secondNanoseconds_magnitudes (d : Duration) :
    d.magnitudes.secondNanoseconds = d.secondNanoseconds.natAbs := by
  have hsecond : d.magnitudes.seconds = d.wholeSeconds := rfl
  have hsubsecond := d.magnitudes_subsecond
  rw [natAbs_secondNanoseconds, DurationParts.secondNanoseconds, hsecond]
  omega

/-- **The counts that are shown** are those of the duration, carried. -/
theorem carriesTo_carried (d : Duration) : d.CarriesTo d.carried := by
  have hlength := d.secondNanoseconds_magnitudes
  have hcarried := d.carried_magnitudes
  rcases d.toList_of_sign with ⟨hsign, hall⟩ | ⟨hsign, hall⟩
  · have hneg := DurationParts.secondNanoseconds_neg d.magnitudes
    have hseconds : d.secondNanoseconds ≤ 0 := DurationParts.secondNanoseconds_nonpos hall
    simp only [DurationParts.toList, List.forall_mem_cons] at hall
    rw [carried, if_pos hsign]
    constructor
    case toCarried => exact hcarried.neg
    case seconds_eq => omega
    all_goals
      simp only [DurationParts.neg, DurationParts.ofCounts, DurationParts.count, magnitudes]
      omega
  · have hseconds : 0 ≤ d.secondNanoseconds := DurationParts.secondNanoseconds_nonneg hall
    simp only [DurationParts.toList, List.forall_mem_cons] at hall
    rw [carried, if_neg hsign]
    constructor
    case toCarried => exact hcarried
    case seconds_eq => omega
    all_goals
      simp only [magnitudes]
      omega

theorem inLimits_carried (d : Duration) : d.carried.InLimits :=
  d.carriesTo_carried.inLimits d.inLimits

/-- **A text is read as the counts that it shows.** -/
theorem parse_text_eq (d : Duration) :
    parse d.text = .ok ⟨d.carried, d.uniform_carried, d.inLimits_carried⟩ := by
  obtain ⟨seconds, h⟩ := d.exists_writesSeconds
  have hparts : (Components.written d seconds).parts = d.carried := by
    rw [Components.parts, Components.magnitudes_written h, carried, Components.written]
    simp only [decide_eq_true_eq]
  have hspells : Components.Spells d.text.toList (Components.written d seconds) := by
    rw [text, String.toList_ofList]
    exact Components.spells_chars h
  exact parse_eq_ok_iff.2 ⟨_, hspells, Components.fault?_written h, hparts.symm⟩

/-- **Carried counts are shown alike.** -/
theorem text_eq_of_carriesTo (h : d.CarriesTo e.toDurationParts) : e.text = d.text := by
  have hsign := h.sign_neg_iff d.uniform e.uniform
  have hlength := d.natAbs_secondNanoseconds
  have hlength' := e.natAbs_secondNanoseconds
  have hbound := d.secondFraction_lt
  have hbound' := e.secondFraction_lt
  rw [h.seconds_eq] at hlength'
  -- quotient and remainder of one length
  have hwhole : e.wholeSeconds = d.wholeSeconds := by omega
  have hfraction : e.secondFraction = d.secondFraction := by omega
  have hdate : e.dateChars = d.dateChars := by
    simp only [dateChars, h.years_eq, h.months_eq, h.weeks_eq, h.days_eq]
  have hhour : e.hourChars = d.hourChars := by simp only [hourChars, h.hours_eq, h.minutes_eq]
  have hsecond : e.secondChars = d.secondChars := by
    rw [secondChars_eq, secondChars_eq, hwhole, hfraction, hdate, hhour]
  simp only [text, chars, hsign, hdate, hhour, hsecond]

/-- Carried counts that come to the same are the same. -/
theorem eq_of_carriesTo (h : d.CarriesTo e.toDurationParts) (hd : d.Carried) : e = d := by
  have hsame : e.seconds = d.seconds ∧ e.milliseconds = d.milliseconds ∧
    e.microseconds = d.microseconds ∧
      e.nanoseconds = d.nanoseconds := by
    have hsign := h.sign_neg_iff d.uniform e.uniform
    rcases d.toList_of_sign with ⟨hneg, hall⟩ | ⟨hpos, hall⟩ <;>
      rcases e.toList_of_sign with ⟨hneg', hall'⟩ | ⟨hpos', hall'⟩
    · exact h.toCarried.eq_of_nonpos hd hall' hall h.seconds_eq
    · exact absurd (hsign.2 hneg) hpos'
    · exact absurd (hsign.1 hneg') hpos
    · exact h.toCarried.eq_of_nonneg hd hall' hall h.seconds_eq
  obtain ⟨hseconds, hmilliseconds, hmicroseconds, hnanoseconds⟩ := hsame
  apply ext_parts
  rw [DurationParts.mk.injEq]
  exact ⟨h.years_eq, h.months_eq, h.weeks_eq, h.days_eq, h.hours_eq, h.minutes_eq, hseconds,
    hmilliseconds, hmicroseconds, hnanoseconds⟩

/-- **A duration through its text.** The text of a duration is read as a duration with the same
years, months, weeks, days, hours and minutes, and with the same length of seconds and smaller
units, the parts of a second carried; it has the same text, and it is the duration itself exactly if
the parts of a second were carried before. -/
theorem text_round_trip (d : Duration) :
    ∃ p, parse d.text = .ok p ∧ d.CarriesTo p.toDurationParts ∧ p.text = d.text ∧
      (p = d ↔ d.Carried) := by
  refine ⟨_, d.parse_text_eq, d.carriesTo_carried, text_eq_of_carriesTo d.carriesTo_carried, ?_⟩
  constructor
  · intro h
    have hcarried := d.carriesTo_carried.toCarried
    have hparts : d.carried = d.toDurationParts := congrArg Duration.toDurationParts h
    rwa [hparts] at hcarried
  · exact eq_of_carriesTo d.carriesTo_carried

/-- Parts of a second that come to more than a second. -/
example : parse (text { seconds := -59, milliseconds := -1500 }) =
    .ok { seconds := -60, milliseconds := -500 } := by decide +kernel

end Duration

end Almanac
