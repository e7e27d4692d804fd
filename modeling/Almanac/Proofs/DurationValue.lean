import Almanac.Proofs.DurationRoundTrip
import Mathlib.Algebra.Field.Rat
import Mathlib.Data.Nat.Cast.Field
import Mathlib.Tactic.Ring

/-!
# What the text of a duration comes to

The years, months, weeks and days of a duration are the numbers that its text writes, and its time
comes to what the text writes of it, to the nanosecond. A fraction has at most nine digits, and
hours, minutes and seconds are whole numbers of `10 ^ 9` nanoseconds, so that nothing is lost where
a fraction is cut off. It is less than one of its unit, and what it fills of the smaller units is
less than one of the next larger unit.

* `Component.value`: the number that a component writes; `Component.value_mul`: it is a whole number
  of nanoseconds.
* `Components.timeNanoseconds_magnitudes`: nothing is lost where fractions are spread.
* `Components.Says`: what the counts of a duration have to be.
* `Duration.parse_exact`: **a duration says what its text writes**.
-/

namespace Almanac

open Text (number)

namespace Component

variable {c : Option Component} {component : Component} {unit : TimeUnit}

/-- A fraction of at most nine decimal digits. -/
structure IsDecimal (component : Component) : Prop where
  digit_lt : ∀ d ∈ component.fraction, d < 10
  length_le : component.fraction.length ≤ 9

theorem isDecimal_of_writes {fractional : Bool} {designator : Char} {front : List Char}
    (h : WritesComponent fractional designator front c) : ∀ component ∈ c, component.IsDecimal := by
  rintro component ⟨⟩
  cases h with
  | some hcount hne hf hfractional hlength hc =>
    refine ⟨?_, hlength⟩
    cases hf with
    | none => exact nofun
    | some hmark hdigits hne => exact Text.values_lt hdigits

/-- The number that a component writes: its count and its decimal fraction. What is left out writes
zero. -/
def value : Option Component → Rat
  | some component =>
    component.count + (number component.fraction : Rat) / 10 ^ component.fraction.length
  | none => 0

/-- **A fraction is a whole number of nanoseconds**, of a unit that has a whole number of
`10 ^ 9`. -/
theorem value_mul (unit : TimeUnit) {n : Nat} (h : ∀ component ∈ c, component.IsDecimal)
    (hunit : unit.nanoseconds.toNat = n) (hn : 10 ^ 9 ∣ n) :
    value c * n = ((countOf c * n + fractionNanoseconds c unit : Nat) : Rat) := by
  cases c with
  | none => simp [value, countOf, fractionNanoseconds]
  | some component =>
    -- the power of ten of at most nine digits divides the nanoseconds of the unit
    have hdvd : 10 ^ component.fraction.length ∣ number component.fraction * n :=
      ((Nat.pow_dvd_pow 10 (h component rfl).length_le).trans hn).mul_left _
    have hfraction : ((fractionNanoseconds (some component) unit : Nat) : Rat) =
        number component.fraction * n / 10 ^ component.fraction.length := by
      have hcast := Nat.cast_div_charZero (K := Rat) hdvd
      rw [Nat.cast_mul, Nat.cast_pow, Nat.cast_ofNat] at hcast
      rw [← hcast, ← hunit]
      rfl
    rw [Nat.cast_add, hfraction, Nat.cast_mul, countOf_some, value]
    ring

/-- A fraction is less than one of its unit. -/
theorem fractionNanoseconds_lt (h : ∀ component ∈ c, component.IsDecimal)
    (hunit : 0 < unit.nanoseconds.toNat) :
    fractionNanoseconds c unit < unit.nanoseconds.toNat := by
  cases c with
  | none => exact hunit
  | some component =>
    have hlt := Text.number_lt (h component rfl).digit_lt
    refine Nat.div_lt_of_lt_mul ?_
    exact Nat.mul_lt_mul_of_pos_right hlt hunit

theorem countOf_none : countOf none = 0 := rfl

theorem fractionNanoseconds_none (unit : TimeUnit) : fractionNanoseconds none unit = 0 := rfl

theorem fractionNanoseconds_of_not_hasFraction (h : hasFraction c = false) (unit : TimeUnit) :
    fractionNanoseconds c unit = 0 := by
  cases c with
  | none => rfl
  | some component =>
    have hnone : component.fraction = [] := by simpa [hasFraction] using h
    simp only [fractionNanoseconds, hnone, number, List.foldl_nil, Nat.zero_mul, Nat.zero_div]

end Component

namespace Components

open Component (countOf fractionNanoseconds hasFraction value)

variable {w : Components}

/-- The sign that a text begins with. -/
def sign (w : Components) : Int := if w.negative then -1 else 1

/-- A fraction is written on the last time component only. -/
structure LastFraction (w : Components) : Prop where
  hours_last : hasFraction w.hours = true → w.minutes = none ∧ w.seconds = none
  minutes_last : hasFraction w.minutes = true → w.seconds = none

theorem lastFraction_of_fault? (h : w.fault? = none) : w.LastFraction := by
  unfold fault? at h
  split at h
  · cases h
  split at h
  · cases h
  split at h
  · cases h
  split at h
  · cases h
  next hhours hminutes =>
    simp only [Bool.and_eq_true, Bool.or_eq_true, Option.isSome_iff_ne_none, not_and, not_or,
      not_not] at hhours hminutes
    exact ⟨hhours, hminutes⟩

/-- The time components have decimal fractions. -/
structure IsDecimal (w : Components) : Prop where
  hours : ∀ c ∈ w.hours, c.IsDecimal
  minutes : ∀ c ∈ w.minutes, c.IsDecimal
  seconds : ∀ c ∈ w.seconds, c.IsDecimal

theorem Spells.isDecimal {s : List Char} (h : Spells s w) : w.IsDecimal := by
  obtain ⟨hsign, hp, hy, hm, hw, hd, ht⟩ := h
  cases ht with
  | none => exact ⟨nofun, nofun, nofun⟩
  | some hc hh hm hs =>
    exact ⟨Component.isDecimal_of_writes hh, Component.isDecimal_of_writes hm,
      Component.isDecimal_of_writes hs⟩

/-- **Nothing is lost** where the fractions are spread over the smaller units. -/
theorem timeNanoseconds_magnitudes (w : Components) :
    w.magnitudes.timeNanoseconds =
      ((countOf w.hours * 3600000000000 + fractionNanoseconds w.hours .hour +
        (countOf w.minutes * 60000000000 + fractionNanoseconds w.minutes .minute) +
          (countOf w.seconds * 1000000000 + fractionNanoseconds w.seconds .second) : Nat) :
            Int) := by
  simp only [magnitudes, DurationParts.timeNanoseconds]
  -- a quotient and its remainder make up what was divided, wherever the fractions are carried to
  generalize fractionNanoseconds w.hours .hour = hour
  generalize fractionNanoseconds w.minutes .minute = minute
  generalize fractionNanoseconds w.seconds .second = second
  cases hasFraction w.hours <;> cases hasFraction w.minutes
  all_goals
    simp only [Bool.or_true, Bool.or_false, Bool.false_eq_true, if_true, if_false]
    omega

/-- The parts of a second do not fill the next larger unit. -/
theorem carried_magnitudes (hd : w.IsDecimal) : w.magnitudes.Carried := by
  have hsecond : fractionNanoseconds w.seconds .second < 1000000000 :=
    Component.fractionNanoseconds_lt hd.seconds (by decide)
  constructor <;> simp only [magnitudes]
  · cases hhours : hasFraction w.hours
    · cases hminutes : hasFraction w.minutes
      · rw [Component.fractionNanoseconds_of_not_hasFraction hhours,
          Component.fractionNanoseconds_of_not_hasFraction hminutes]
        simp only [Bool.or_false, Bool.false_eq_true, if_false]
        omega
      · simp only [Bool.false_or, Bool.false_eq_true, if_false, if_true]
        omega
    · simp only [Bool.true_or, if_true]
      omega
  · omega
  · omega

/-- What a fraction of an hour fills of the minutes and seconds. -/
theorem spilled_of_hours (hd : w.IsDecimal) (hl : w.LastFraction) (h : hasFraction w.hours = true) :
    w.magnitudes.minutes.natAbs < 60 ∧ w.magnitudes.seconds.natAbs < 60 := by
  obtain ⟨hminutes, hseconds⟩ := hl.hours_last h
  have hhour : fractionNanoseconds w.hours .hour < 3600000000000 :=
    Component.fractionNanoseconds_lt hd.hours (by decide)
  simp only [magnitudes, h, hminutes, hseconds, Bool.true_or, if_true]
  simp only [Component.countOf_none, Component.fractionNanoseconds_none]
  omega

/-- What a fraction of a minute fills of the seconds. -/
theorem spilled_of_minutes (hd : w.IsDecimal) (hl : w.LastFraction)
    (h : hasFraction w.minutes = true) :
    w.magnitudes.seconds.natAbs < 60 := by
  have hseconds := hl.minutes_last h
  have hhours : hasFraction w.hours = false := by
    cases hfraction : hasFraction w.hours
    · rfl
    · rw [(hl.hours_last hfraction).1] at h
      cases h
  have hminute : fractionNanoseconds w.minutes .minute < 60000000000 :=
    Component.fractionNanoseconds_lt hd.minutes (by decide)
  simp only [magnitudes, h, hhours, hseconds,
    Component.fractionNanoseconds_of_not_hasFraction hhours, Bool.false_or, Bool.false_eq_true,
    if_true, if_false]
  simp only [Component.countOf_none, Component.fractionNanoseconds_none]
  omega

theorem count_parts (w : Components) (u : TimeUnit) :
    w.parts.count u = w.sign * w.magnitudes.count u := by
  unfold parts sign
  split
  · rw [DurationParts.count_neg, neg_one_mul]
  · rw [one_mul]

theorem timeNanoseconds_parts (w : Components) :
    w.parts.timeNanoseconds = w.sign * w.magnitudes.timeNanoseconds := by
  unfold parts sign
  split
  · rw [DurationParts.timeNanoseconds_neg, neg_one_mul]
  · rw [one_mul]

theorem natAbs_count_parts (w : Components) (u : TimeUnit) :
    (w.parts.count u).natAbs = (w.magnitudes.count u).natAbs := by
  rw [count_parts, Int.natAbs_mul]
  unfold sign
  split <;> simp

/-- **What a duration says** if it has the counts `p` and these components are written: its years,
months, weeks and days are the numbers that are written, with the sign; its time comes to the hours,
minutes and seconds that are written, with their fraction; only the last of them has one, and what
that fills of the smaller units fills none of the next larger one. -/
structure Says (w : Components) (p : DurationParts) : Prop extends w.LastFraction, p.Carried where
  years_eq : p.years = w.sign * countOf w.years
  months_eq : p.months = w.sign * countOf w.months
  weeks_eq : p.weeks = w.sign * countOf w.weeks
  days_eq : p.days = w.sign * countOf w.days
  time_eq : (p.timeNanoseconds : Rat) =
    w.sign * (value w.hours * 3600 + value w.minutes * 60 + value w.seconds) * 10 ^ 9
  hours_eq : p.hours = w.sign * countOf w.hours
  minutes_eq : hasFraction w.hours = false → p.minutes = w.sign * countOf w.minutes
  seconds_eq : hasFraction w.hours = false → hasFraction w.minutes = false →
    p.seconds = w.sign * countOf w.seconds
  minutes_lt : hasFraction w.hours = true → p.minutes.natAbs < 60
  seconds_lt : hasFraction w.hours = true ∨ hasFraction w.minutes = true → p.seconds.natAbs < 60

theorem says_parts (hd : w.IsDecimal) (hl : w.LastFraction) : w.Says w.parts := by
  have hcarried := carried_magnitudes hd
  constructor
  case toLastFraction => exact hl
  case toCarried =>
    have hmilli := natAbs_count_parts w .millisecond
    have hmicro := natAbs_count_parts w .microsecond
    have hnano := natAbs_count_parts w .nanosecond
    exact ⟨hmilli.trans_lt hcarried.milliseconds_lt, hmicro.trans_lt hcarried.microseconds_lt,
      hnano.trans_lt hcarried.nanoseconds_lt⟩
  case years_eq => exact count_parts w .year
  case months_eq => exact count_parts w .month
  case weeks_eq => exact count_parts w .week
  case days_eq => exact count_parts w .day
  case hours_eq => exact count_parts w .hour
  case minutes_eq =>
    intro hhours
    refine (count_parts w .minute).trans ?_
    simp only [DurationParts.count, magnitudes, hhours, Bool.false_eq_true, if_false,
      Int.natCast_zero, Int.add_zero]
  case seconds_eq =>
    intro hhours hminutes
    refine (count_parts w .second).trans ?_
    simp only [DurationParts.count, magnitudes, hhours, hminutes, Bool.or_self, Bool.false_eq_true,
      if_false, Int.natCast_zero, Int.add_zero]
  case minutes_lt =>
    intro hhours
    exact (natAbs_count_parts w .minute).trans_lt (spilled_of_hours hd hl hhours).1
  case seconds_lt =>
    intro h
    refine (natAbs_count_parts w .second).trans_lt ?_
    rcases h with hhours | hminutes
    · exact (spilled_of_hours hd hl hhours).2
    · exact spilled_of_minutes hd hl hminutes
  case time_eq =>
    -- each number that is written is a whole number of nanoseconds, and the sum is spread without
    -- loss
    have hhours := Component.value_mul .hour (n := 3600000000000) hd.hours rfl (by decide)
    have hminutes := Component.value_mul .minute (n := 60000000000) hd.minutes rfl (by decide)
    have hseconds := Component.value_mul .second (n := 1000000000) hd.seconds rfl (by decide)
    rw [timeNanoseconds_parts, timeNanoseconds_magnitudes, Int.cast_mul, Int.cast_natCast,
      Nat.cast_add, Nat.cast_add, ← hhours, ← hminutes, ← hseconds]
    push_cast
    ring

end Components

namespace Duration

variable {s : String} {d : Duration}

/-- **A duration says what its text writes**, and to the nanosecond: whatever the components that an
accepted text spells, the counts of the duration are those that the components say. -/
theorem parse_exact (h : parse s = .ok d) :
    (∃ w, Components.Spells s.toList w) ∧
      ∀ w, Components.Spells s.toList w → w.Says d.toDurationParts := by
  obtain ⟨w, hw, hfault, hparts⟩ := parse_eq_ok_iff.1 h
  refine ⟨⟨w, hw⟩, fun w' hw' => ?_⟩
  obtain rfl := hw.unique hw'
  rw [hparts]
  exact Components.says_parts hw.isDecimal (Components.lastFraction_of_fault? hfault)

/-- The ninth place of a fraction of an hour is 3600 nanoseconds. -/
theorem parse_exact_ninth_place :
    parse "-p1DT2,000000001H" =
      .ok { days := -1, hours := -2, microseconds := -3, nanoseconds := -600 } ∧
      (∃ w, Components.Spells "-p1DT2,000000001H".toList w) ∧
      ∀ w, Components.Spells "-p1DT2,000000001H".toList w →
        w.Says { days := -1, hours := -2, microseconds := -3, nanoseconds := -600 } := by
  have h :
      parse "-p1DT2,000000001H" =
      .ok { days := -1, hours := -2, microseconds := -3, nanoseconds := -600 } := by
    decide +kernel
  exact ⟨h, parse_exact h⟩

end Duration

end Almanac
