import Almanac.Duration.DateSpan
import Almanac.Error

/-!
# Durations

Ten counts of units that share one sign and stay below fixed limits.

* `DurationParts`: the ten counts, whatever they are.
* `DurationParts.Uniform`, `DurationParts.InLimits`: the two conditions on them.
* `Duration`: the counts that satisfy both; `Duration.ofParts` refuses the others.
* `Duration.neg`, `Duration.abs`: the duration reversed, and without its sign.
-/

namespace Almanac

/-- The nanoseconds in a unit of fixed length: the day and the units below it. -/
def TimeUnit.nanoseconds : TimeUnit → Int
  | .day => 86400000000000
  | .hour => 3600000000000
  | .minute => 60000000000
  | .second => 1000000000
  | .millisecond => 1000000
  | .microsecond => 1000
  | .nanosecond => 1
  | _ => 0

/-- The counts of a duration. -/
structure DurationParts where
  years : Int := 0
  months : Int := 0
  weeks : Int := 0
  days : Int := 0
  hours : Int := 0
  minutes : Int := 0
  seconds : Int := 0
  milliseconds : Int := 0
  microseconds : Int := 0
  nanoseconds : Int := 0
deriving DecidableEq, Repr

namespace DurationParts

/-- The counts, largest unit first. -/
def toList (p : DurationParts) : List Int :=
  [p.years, p.months, p.weeks, p.days, p.hours, p.minutes, p.seconds, p.milliseconds,
    p.microseconds, p.nanoseconds]

/-- The count of a unit. -/
def count (p : DurationParts) : TimeUnit → Int
  | .year => p.years
  | .month => p.months
  | .week => p.weeks
  | .day => p.days
  | .hour => p.hours
  | .minute => p.minutes
  | .second => p.seconds
  | .millisecond => p.milliseconds
  | .microsecond => p.microseconds
  | .nanosecond => p.nanoseconds

/-- The parts whose counts a function of the unit gives. -/
def ofCounts (count : TimeUnit → Int) : DurationParts where
  years := count .year
  months := count .month
  weeks := count .week
  days := count .day
  hours := count .hour
  minutes := count .minute
  seconds := count .second
  milliseconds := count .millisecond
  microseconds := count .microsecond
  nanoseconds := count .nanosecond

/-- The sign of the first count that is not zero. -/
def sign (p : DurationParts) : Int := ((p.toList.find? (· ≠ 0)).getD 0).sign

/-- The counts with their signs reversed. -/
def neg (p : DurationParts) : DurationParts := .ofCounts fun u => -p.count u

/-- The length of the hours and smaller units, in nanoseconds. -/
def timeNanoseconds (p : DurationParts) : Int :=
  p.hours * 3600000000000 + p.minutes * 60000000000 + p.seconds * 1000000000 +
    p.milliseconds * 1000000 + p.microseconds * 1000 + p.nanoseconds

/-- The length of the days and smaller units, in nanoseconds, with days of 24 hours. -/
def totalNanoseconds (p : DurationParts) : Int :=
  p.days * 86400000000000 + p.timeNanoseconds

/-- The counts do not differ in sign. -/
def Uniform (p : DurationParts) : Prop := (∀ x ∈ p.toList, 0 ≤ x) ∨ ∀ x ∈ p.toList, x ≤ 0

instance (p : DurationParts) : Decidable p.Uniform := by
  unfold Uniform; infer_instance

/-- The bound on years, months and weeks: `2 ^ 32`. -/
def maxCount : Nat := 4294967296

/-- The bound on days and time: `2 ^ 53` seconds in nanoseconds. -/
def maxNanoseconds : Nat := 9007199254740992 * 1000000000

/-- The counts stay below the bounds. -/
def InLimits (p : DurationParts) : Prop :=
  p.years.natAbs < maxCount ∧ p.months.natAbs < maxCount ∧ p.weeks.natAbs < maxCount ∧
    p.totalNanoseconds.natAbs < maxNanoseconds

instance (p : DurationParts) : Decidable p.InLimits := by
  unfold InLimits; infer_instance

theorem count_neg (p : DurationParts) (u : TimeUnit) : p.neg.count u = -p.count u := by
  cases u <;> rfl

theorem timeNanoseconds_neg (p : DurationParts) : p.neg.timeNanoseconds = -p.timeNanoseconds := by
  simp only [timeNanoseconds, neg, ofCounts, count]
  omega

theorem totalNanoseconds_neg (p : DurationParts) :
    p.neg.totalNanoseconds = -p.totalNanoseconds := by
  have hdays : p.neg.days = -p.days := rfl
  simp only [totalNanoseconds, timeNanoseconds_neg, hdays]
  omega

theorem Uniform.neg {p : DurationParts} (h : p.Uniform) : p.neg.Uniform := by
  simp only [Uniform, toList, DurationParts.neg, ofCounts, count, List.forall_mem_cons,
    List.not_mem_nil, false_imp_iff, implies_true, and_true] at h ⊢
  omega

theorem InLimits.neg {p : DurationParts} (h : p.InLimits) : p.neg.InLimits := by
  simp only [InLimits, totalNanoseconds_neg, Int.natAbs_neg] at h ⊢
  simpa only [DurationParts.neg, ofCounts, count, Int.natAbs_neg] using h

/-- What is wrong with counts that are no duration: first the signs, then the limits in order. -/
def fault (p : DurationParts) : Error :=
  if ¬ p.Uniform then .mixedSigns
  else if maxCount ≤ p.years.natAbs then .durationPartBeyond "years" p.years
  else if maxCount ≤ p.months.natAbs then .durationPartBeyond "months" p.months
  else if maxCount ≤ p.weeks.natAbs then .durationPartBeyond "weeks" p.weeks
  else .durationTimeBeyond

end DurationParts

/-- A duration: counts of one sign, below the limits. -/
structure Duration extends DurationParts where
  uniform : toDurationParts.Uniform := by decide
  inLimits : toDurationParts.InLimits := by decide
deriving DecidableEq, Repr

namespace Duration

theorem ext_parts {d e : Duration} (h : d.toDurationParts = e.toDurationParts) : d = e := by
  obtain ⟨p, hu, hl⟩ := d
  obtain ⟨q, hu', hl'⟩ := e
  obtain rfl : p = q := h
  rfl

/-- The duration of the given counts. -/
def ofParts (p : DurationParts) : Except Error Duration :=
  if h : p.Uniform ∧ p.InLimits then .ok { toDurationParts := p, uniform := h.1, inLimits := h.2 }
  else .error p.fault

/-- What is made of counts has these counts. -/
theorem ofParts_eq_ok_iff {p : DurationParts} {d : Duration} :
    ofParts p = .ok d ↔ d.toDurationParts = p := by
  unfold ofParts
  constructor
  · intro h
    split at h
    · cases h
      rfl
    · cases h
  · rintro rfl
    exact dif_pos ⟨d.uniform, d.inLimits⟩

/-- The duration of no length. -/
def zero : Duration := {}

/-- The duration in the opposite direction. -/
def neg (d : Duration) : Duration where
  toDurationParts := d.toDurationParts.neg
  uniform := d.uniform.neg
  inLimits := d.inLimits.neg

instance : Neg Duration := ⟨neg⟩

/-- The duration without its sign. -/
def abs (d : Duration) : Duration := if d.sign < 0 then -d else d

/-- Whether all counts are zero. -/
def isBlank (d : Duration) : Bool := d.sign == 0

/-- The years, months, weeks and days. -/
def dateSpan (d : Duration) : DateSpan := ⟨d.years, d.months, d.weeks, d.days⟩

end Duration

end Almanac
