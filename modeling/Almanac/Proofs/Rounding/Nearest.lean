import Almanac.Proofs.Rounding.Difference

/-!
# Differences rounded to the nearest multiple

Of the two dates that enclose the target a mode of halves leads to the nearer one, measured in days,
and a year that is carried into is nearer yet. Where the target is midway the mode itself decides,
once more as seen in the duration that is returned.

* `Direction.returned`: a count as it stands in the duration that is returned.
* `MagnitudeMode.RaisesHalf`: the rule of a mode of halves at the middle.
* `Rounded.nearest`: what is rounded to the nearest multiple leads no further from the target than
  either of the two dates.
* `YearMonth.rounded_to_nearest`: **a mode of halves leads to the nearest date**.
-/

namespace Almanac

/-- The number of days between two dates, whichever is the earlier one. -/
def IsoDate.distance (d e : IsoDate) : Nat := (d.count - e.count).natAbs

/-- A count that leads from the receiver to the other value, as it is returned. -/
def Direction.returned (direction : Direction) (n : Int) : Int :=
  match direction with
  | .until => n
  | .since => -n

/-- The modes that round to the nearest multiple. -/
def RoundingMode.halves : List RoundingMode :=
  [.halfExpand, .halfTrunc, .halfCeil, .halfFloor, .halfEven]

namespace MagnitudeMode

variable {mode : MagnitudeMode} {below above : Rat} {even : Prop}

/-- A mode of halves does not take the neighbour that is further away. -/
theorem le_of_takesUpper (h₀ : mode ≠ zero) (h₁ : mode ≠ infinity) :
    (mode.TakesUpper below above even → above ≤ below) ∧
      (¬ mode.TakesUpper below above even → below ≤ above) := by
  cases mode
  case zero => exact absurd rfl h₀
  case infinity => exact absurd rfl h₁
  case halfZero => exact ⟨le_of_lt, not_lt.1⟩
  case halfInfinity => exact ⟨id, fun h => (not_le.1 h).le⟩
  case halfEven =>
    refine ⟨fun h => h.elim le_of_lt fun h => h.1.le, fun h => ?_⟩
    exact not_lt.1 (not_or.1 h).1

/-- Whether a mode of halves takes the neighbour above the multiple `k` where both are as far
away. -/
def RaisesHalf (mode : MagnitudeMode) (k : Int) : Prop :=
  mode = halfInfinity ∨ mode = halfEven ∧ ¬ Even k

theorem takesUpper_self_iff (h₀ : mode ≠ zero) (h₁ : mode ≠ infinity) {k : Int} :
    mode.TakesUpper below below (Even k) ↔ mode.RaisesHalf k := by
  unfold RaisesHalf
  cases mode
  case zero => exact absurd rfl h₀
  case infinity => exact absurd rfl h₁
  all_goals simp [TakesUpper]

end MagnitudeMode

theorem RoundingMode.forMagnitude_ne {mode : RoundingMode} (h : mode ∈ halves) (negative : Bool) :
    mode.forMagnitude negative ≠ .zero ∧ mode.forMagnitude negative ≠ .infinity := by
  revert negative
  revert mode
  decide

namespace Rounded

variable {c : Calendar} {origin target lower upper reached : IsoDate} {options : DifferenceOptions}
  {span r : DateSpan}

/-- **Neither of the two dates is nearer** to the target than the date that is reached. -/
theorem nearest (h : Rounded c origin target options span lower upper r reached)
    (hm : options.mode ∈ RoundingMode.halves) :
    reached.distance target ≤ lower.distance target ∧
    reached.distance target ≤ upper.distance target := by
  obtain ⟨h₀, h₁⟩ := RoundingMode.forMagnitude_ne hm (span.heading < 0)
  have hlow := h.encloses.lower_le
  have hhigh := h.encloses.lt_upper
  have hs := span.heading_cases
  unfold IsoDate.distance
  by_cases htakes : span.TakesUpper options lower target upper
  · obtain ⟨-, hpast, hbefore⟩ := h.takes_upper htakes
    have hle : span.heading * (upper.count - target.count) ≤
        span.heading * (target.count - lower.count) := by
      exact_mod_cast (MagnitudeMode.le_of_takesUpper h₀ h₁).1 htakes
    generalize span.heading = s at *
    rcases hs with rfl | rfl <;> omega
  · obtain ⟨-, rfl⟩ := h.takes_lower htakes
    have hle : span.heading * (target.count - reached.count) ≤
        span.heading * (upper.count - target.count) := by
      exact_mod_cast (MagnitudeMode.le_of_takesUpper h₀ h₁).2 htakes
    generalize span.heading = s at *
    rcases hs with rfl | rfl <;> omega

/-- One of the two multiples is taken; at the middle, the upper one if the rule of the mode says
so. -/
theorem exists_takes_midway (h : Rounded c origin target options span lower upper r reached)
    (hm : options.mode ∈ RoundingMode.halves) {k : Int}
    (hk : k = span.multiple options.smallest options.increment) :
    ∃ j, span.Takes options j r ∧ (j = k ∨ j = k + span.heading) ∧
      (target.count - lower.count = upper.count - target.count →
        (j = k + span.heading ∧ (options.mode.forMagnitude (span.heading < 0)).RaisesHalf k) ∨
        (j = k ∧ ¬ (options.mode.forMagnitude (span.heading < 0)).RaisesHalf k)) := by
  obtain ⟨h₀, h₁⟩ := RoundingMode.forMagnitude_ne hm (span.heading < 0)
  subst hk
  have hhalf : target.count - lower.count = upper.count - target.count →
      (span.TakesUpper options lower target upper ↔
        (options.mode.forMagnitude (span.heading < 0)).RaisesHalf
          (span.multiple options.smallest options.increment)) := by
    intro hmiddle
    rw [DateSpan.TakesUpper, RoundingMode.TakesUpper, hmiddle,
      MagnitudeMode.takesUpper_self_iff h₀ h₁]
  by_cases htakes : span.TakesUpper options lower target upper
  · exact ⟨_,
      (h.takes_upper htakes).1, .inr rfl, fun hmiddle => .inl ⟨rfl, (hhalf hmiddle).1 htakes⟩⟩
  · refine ⟨_, (h.takes_lower htakes).1, .inl rfl, fun hmiddle => .inr ⟨rfl, ?_⟩⟩
    exact fun hraises => htakes ((hhalf hmiddle).2 hraises)

end Rounded

/-- **The rule of a mode of halves**, as it is seen in the duration that is returned. -/
theorem RoundingMode.rule_of_raisesHalf {mode : RoundingMode} {direction : Direction} {s k j : Int}
    (hs : s = 1 ∨ s = -1) (hk : 0 ≤ s * k)
    (h : (j = k + s ∧
        ((if direction = .since then mode.negate else mode).forMagnitude (s < 0)).RaisesHalf k) ∨
      (j = k ∧
        ¬ ((if direction = .since then mode.negate else mode).forMagnitude (s < 0)).RaisesHalf k))
    {i : Int} (hi : i = k ∨ i = k + s) :
    (mode = .halfExpand → i.natAbs ≤ j.natAbs) ∧ (mode = .halfTrunc → j.natAbs ≤ i.natAbs) ∧
      (mode = .halfCeil → direction.returned i ≤ direction.returned j) ∧
      (mode = .halfFloor → direction.returned j ≤ direction.returned i) ∧
      (mode = .halfEven → Even j) := by
  unfold MagnitudeMode.RaisesHalf at h
  rw [Int.even_iff] at *
  -- in each direction of the span and of the difference the mode says which neighbour is raised
  refine ⟨?_, ?_, ?_, ?_, ?_⟩ <;> rintro rfl <;> cases direction <;> rcases hs with rfl | rfl <;>
    simp [negate, forMagnitude, Direction.returned] at h ⊢ <;> omega

theorem RoundingMode.negate_mem_halves {mode : RoundingMode} (h : mode ∈ halves) :
    mode.negate ∈ halves := by
  revert mode
  decide

namespace YearMonth

variable {a b : YearMonth} {direction : Direction} {options : DifferenceOptions} {r : Duration}

/-- **A mode of halves leads to the nearest date.** Of two months whose first days are represented
and whose anchors differ, a difference `r` that is rounded by such a mode leads from the one first
day to a date no further from the other first day than the dates of the lower and of the upper
multiple of the increment, which enclose it. Of the two multiples it takes `j`, though months may be
carried into a year; and if the other first day is midway between the two dates, `j` is the multiple
away from zero, toward zero, above in the duration that is returned, below in it, or the even
one. -/
theorem rounded_to_nearest {args : DifferenceArguments} {mode : RoundingMode}
    (hanchor : a.anchor ≠ b.anchor) (ho : a.start.InLimits) (ht : b.start.InLimits)
    (hoptions : DifferenceOptions.read direction disallowedUnits .month .year args = .ok options)
    (hround : ¬ (options.smallest = .month ∧ options.increment = 1))
    (hmode : args.roundingMode.toRoundingMode = .ok mode) (hhalf : mode ∈ RoundingMode.halves)
    (h : a.differenceFrom direction (.yearMonth b) args = .ok r) :
    ∃ exact k lower upper p j,
      (a.calendar.difference a.start b.start options.largest).map DateSpan.upToMonths = .ok exact ∧
      k = exact.multiple options.smallest options.increment ∧
      Encloses a.calendar a.start b.start options exact lower upper ∧
      a.calendar.add a.start (r.toward direction).dateSpan .constrain = .ok p ∧
      p.distance b.start ≤ lower.distance b.start ∧ p.distance b.start ≤ upper.distance b.start ∧
      exact.Takes options j (r.toward direction).dateSpan ∧ (j = k ∨ j = k + exact.heading) ∧
      (b.start.count - lower.count = upper.count - b.start.count →
        ∀ i, i = k ∨ i = k + exact.heading →
          (mode = .halfExpand → i.natAbs ≤ j.natAbs) ∧ (mode = .halfTrunc → j.natAbs ≤ i.natAbs) ∧
          (mode = .halfCeil → direction.returned i ≤ direction.returned j) ∧
          (mode = .halfFloor → direction.returned j ≤ direction.returned i) ∧
          (mode = .halfEven → Even j)) := by
  obtain ⟨ha, hrounds⟩ := DifferenceOptions.accepted_of_read hoptions hmode
  have hhalf' : options.mode ∈ RoundingMode.halves := by
    rw [hrounds]
    split
    · exact RoundingMode.negate_mem_halves hhalf
    · exact hhalf
  obtain ⟨hc, exact, span, hexact, hparts, hmonths, hcases⟩ :=
    difference_eq_ok ha ho ht (difference_of_differenceFrom hoptions h)
  obtain ⟨lower, upper, p, hrounded⟩ := hcases.resolve_left fun h => h.1.elim hanchor hround
  obtain ⟨j, htakes, hj, hmiddle⟩ := hrounded.exists_takes_midway hhalf' rfl
  obtain ⟨hlower, hupper⟩ := hrounded.nearest hhalf'
  rw [Duration.dateSpan_of_parts hmonths hparts]
  refine ⟨exact.upToMonths, _, lower, upper, p, j, by rw [hexact]; rfl, rfl, hrounded.encloses,
    hrounded.add_eq, hlower, hupper, htakes, hj, ?_⟩
  intro hmidway i hi
  have hrule := hmiddle hmidway
  rw [hrounds] at hrule
  exact RoundingMode.rule_of_raisesHalf exact.upToMonths.heading_cases
    hrounded.measured.approaches.multiple_bounds.1 hrule hi

def july2024 : YearMonth where
  anchor := ⟨2024, 7, 1⟩
  calendar := .iso8601

def august2023 : YearMonth where
  anchor := ⟨2023, 8, 1⟩
  calendar := .iso8601

/-- Eleven months back, midway between ten and twelve: taken backwards the ceiling is twelve, which
are carried into a year. -/
theorem rounded_to_nearest_july2024 :
    july2024.anchor ≠ august2023.anchor ∧ july2024.start.InLimits ∧ august2023.start.InLimits ∧
      ∃ r p, july2024.differenceFrom .since (.yearMonth august2023)
          { roundingIncrement := .number (.whole 2), roundingMode := .text "halfCeil" } = .ok r ∧
        july2024.calendar.add july2024.start (r.toward .since).dateSpan .constrain = .ok p ∧
        p.distance august2023.start ≤ IsoDate.distance ⟨2023, 9, 1⟩ august2023.start ∧
        DateSpan.Takes { months := -11 } ⟨.month, .year, .halfFloor, 2⟩ (-6)
          (r.toward .since).dateSpan ∧
        r.count .year = 1 ∧ r.count .month = 0 := by
  have hanchor : july2024.anchor ≠ august2023.anchor := by decide
  have ho : july2024.start.InLimits := by decide +kernel
  have ht : august2023.start.InLimits := by decide +kernel
  have hoptions : DifferenceOptions.read .since disallowedUnits .month .year
      { roundingIncrement := .number (.whole 2), roundingMode := .text "halfCeil" } =
        .ok ⟨.month, .year, .halfFloor, 2⟩ := by decide +kernel
  have hreturns : (july2024.differenceFrom .since (.yearMonth august2023)
      { roundingIncrement := .number (.whole 2), roundingMode := .text "halfCeil" }).map
        (fun r => (r.count .year, r.count .month)) = .ok (1, 0) := by decide +kernel
  have hdifference : (july2024.calendar.difference july2024.start august2023.start .year).map
      DateSpan.upToMonths = .ok { months := -11 } := by decide +kernel
  have hten : july2024.calendar.add july2024.start { months := -10 } .constrain =
      .ok ⟨2023, 9, 1⟩ := by decide +kernel
  have htwelve : july2024.calendar.add july2024.start { months := -12 } .constrain =
      .ok ⟨2023, 7, 1⟩ := by decide +kernel
  obtain ⟨r, hr, hcount⟩ := map_eq_ok hreturns
  obtain ⟨hyears, hmonths⟩ := Prod.mk.inj hcount
  obtain ⟨exact, k, lower, upper, p, j, hexact, hk, hencloses, hp, hnear, -, htakes, hj, hmiddle⟩ :=
    rounded_to_nearest hanchor ho ht hoptions (by decide) rfl (by decide) hr
  obtain rfl : { months := -11 } = exact := Except.ok.inj (hdifference.symm.trans hexact)
  obtain rfl : k = -5 := hk
  obtain rfl : ⟨2023, 9, 1⟩ = lower := Except.ok.inj (hten.symm.trans hencloses.lower_eq)
  obtain rfl : ⟨2023, 7, 1⟩ = upper := Except.ok.inj (htwelve.symm.trans hencloses.upper_eq)
  have hceil := (hmiddle (by decide +kernel) (-6) (.inr rfl)).2.2.1 rfl
  obtain rfl : j = -6 := by
    refine hj.resolve_left ?_
    rintro rfl
    exact absurd hceil (by decide)
  exact ⟨hanchor, ho, ht, r, p, hr, hp, hnear, htakes, hyears, hmonths⟩

end YearMonth

end Almanac
