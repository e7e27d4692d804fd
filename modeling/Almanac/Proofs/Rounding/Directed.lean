import Almanac.Proofs.Rounding.Difference

/-!
# Differences rounded in one direction

A rounded difference, added to the first day from which it was measured, leads to the side of the
target that the mode names. The mode speaks of the duration that is returned: taken backwards, a
difference is rounded in the opposite direction and turned round.

* `IsoDate.Between`: a date between two others, in either order.
* `Rounded.le_target`, `Rounded.target_le`: the side of the target that a magnitude mode leads to.
* `Rounded.eq_zero_or_sign_eq`, `Rounded.dvd_count`: the sign of what is rounded, and its smallest
  unit.
* `YearMonth.LeadsToSide`: both for a difference of year-months.
* `YearMonth.rounded_to_side`: **a mode leads to its side of the target**.
-/

namespace Almanac

namespace IsoDate

/-- The date is one of two dates or between them, whichever is the earlier one. -/
def Between (d e f : IsoDate) : Prop := e ≤ d ∧ d ≤ f ∨ f ≤ d ∧ d ≤ e

theorem between_of_sign {d e f : IsoDate} {sign : Int} (hs : sign = 1 ∨ sign = -1) (hd : d.Valid)
    (he : e.Valid) (hf : f.Valid) (h₁ : sign * e.count ≤ sign * d.count)
    (h₂ : sign * d.count ≤ sign * f.count) : d.Between e f := by
  rcases hs with rfl | rfl
  · exact .inl ⟨(count_le_iff he hd).1 (by omega), (count_le_iff hd hf).1 (by omega)⟩
  · exact .inr ⟨(count_le_iff hf hd).1 (by omega), (count_le_iff hd he).1 (by omega)⟩

end IsoDate

/-- The upper neighbour is taken only where the lower one is not the destination itself. -/
theorem RoundingMode.TakesUpper.lower_lt {mode : RoundingMode} {sign lower destination upper : Int}
    {even : Prop} (h : mode.TakesUpper sign lower destination upper even)
    (hupper : sign * destination < sign * upper) : sign * lower < sign * destination := by
  have habove : (0 : Rat) < (sign * (upper - destination) : Int) := by
    rw [Int.mul_sub]
    exact_mod_cast Int.sub_pos.2 hupper
  have hbelow : (0 : Rat) < (sign * (destination - lower) : Int) := by
    unfold TakesUpper at h
    generalize ((sign * (upper - destination) : Int) : Rat) = above at h habove
    generalize ((sign * (destination - lower) : Int) : Rat) = below at h ⊢
    generalize mode.forMagnitude (decide (sign < 0)) = magnitude at h
    cases magnitude <;> simp only [MagnitudeMode.TakesUpper] at h <;> grind
  rw [Int.mul_sub] at hbelow
  exact Int.sub_pos.1 (by exact_mod_cast hbelow)

/-- The lower multiple of the increment is taken as it is. -/
theorem DateSpan.Takes.eq_roundedDown {span r : DateSpan} {options : DifferenceOptions}
    (h : span.Takes options (span.multiple options.smallest options.increment) r) :
    r = span.roundedDown options.smallest options.increment := by
  generalize hj : span.multiple options.smallest options.increment = j at h
  cases h with
  | cut => rw [roundedDown, hj]
  | carried hl hs =>
    rw [hs] at hj
    have hheading := span.heading_cases
    omega

/-- A span that is the lower multiple itself leads to the target, and no mode takes the upper
one. -/
theorem Measured.not_takesUpper {c : Calendar} {origin target lower upper : IsoDate}
    {options : DifferenceOptions} {span : DateSpan} (h : Measured c origin target options span)
    (henc : Encloses c origin target options span lower upper)
    (hexact : span.roundedDown options.smallest options.increment = span) :
    ¬ span.TakesUpper options lower target upper := by
  intro htakes
  obtain ⟨-, hlower⟩ :=
    h.count_of_add h.approaches.small_lower
    (DateSpan.dayCount_cut h.accepted.smallest _ _) henc.lower_eq
  have hlt := RoundingMode.TakesUpper.lower_lt htakes henc.lt_upper
  rw [hlower, hexact, Calendar.indexAfter, h.fillsNoYear.leads, ← h.count_target] at hlt
  exact lt_irrefl _ hlt

namespace Rounded

variable {c : Calendar} {origin target lower upper reached : IsoDate} {options : DifferenceOptions}
  {span r : DateSpan}

theorem origin_le (h : Rounded c origin target options span lower upper r reached) :
    span.heading * origin.count ≤ span.heading * reached.count := by
  by_cases htakes : span.TakesUpper options lower target upper
  · exact le_trans h.measured.origin_le_target (h.takes_upper htakes).2.1.le
  · rw [(h.takes_lower htakes).2]
    exact h.encloses.origin_le

/-- Magnitudes that are cut off lead no further than the target. -/
theorem le_target (h : Rounded c origin target options span lower upper r reached)
    (hm : options.mode.forMagnitude (span.heading < 0) = .zero) :
    span.heading * reached.count ≤ span.heading * target.count := by
  have htakes : ¬ span.TakesUpper options lower target upper := by
    rw [DateSpan.TakesUpper, RoundingMode.TakesUpper, hm]
    exact not_false
  rw [(h.takes_lower htakes).2]
  exact h.encloses.lower_le

/-- Magnitudes that are raised lead to the target or past it. -/
theorem target_le (h : Rounded c origin target options span lower upper r reached)
    (hm : options.mode.forMagnitude (span.heading < 0) = .infinity) :
    span.heading * target.count ≤ span.heading * reached.count := by
  by_cases htakes : span.TakesUpper options lower target upper
  · exact (h.takes_upper htakes).2.1.le
  · rw [(h.takes_lower htakes).2]
    rw [DateSpan.TakesUpper, RoundingMode.TakesUpper, hm, MagnitudeMode.TakesUpper,
      not_lt] at htakes
    have hbelow : span.heading * (target.count - lower.count) ≤ 0 := by exact_mod_cast htakes
    rw [Int.mul_sub] at hbelow
    omega

/-- **The smallest unit is a multiple of the increment.** -/
theorem dvd_count (h : Rounded c origin target options span lower upper r reached) :
    options.increment ∣ r.count options.smallest := by
  obtain ⟨j, -, htakes⟩ := h.exists_takes
  cases htakes with
  | cut =>
    have hcut : (span.cut options.smallest (j * options.increment)).count options.smallest =
        j * options.increment := by
      rcases h.measured.accepted.smallest with hu | hu <;> rw [hu] <;> rfl
    rw [hcut]
    exact Int.dvd_mul_left _ _
  | carried hl hu =>
    rw [hu]
    exact Int.dvd_zero _

/-- What a span is rounded to is in its direction. -/
theorem nonneg (h : Rounded c origin target options span lower upper r reached) :
    0 ≤ span.heading * r.years ∧ 0 ≤ span.heading * r.months := by
  have hone : span.heading * span.heading = 1 := by
    rcases span.heading_cases with hs | hs <;> rw [hs] <;> rfl
  have hmultiple := h.measured.approaches.multiple_bounds.1
  have hinc := h.measured.accepted.one_le_increment
  have hyears := h.measured.fillsNoYear.years_nonneg
  obtain ⟨j, hj, htakes⟩ := h.exists_takes
  have hj₀ : 0 ≤ span.heading * j := by
    rcases hj with rfl | rfl
    · exact hmultiple
    · rw [Int.mul_add, hone]
      omega
  cases htakes with
  | cut =>
    have hcount : 0 ≤ span.heading * (j * options.increment) := by
      rw [← Int.mul_assoc]
      exact Int.mul_nonneg hj₀ (by omega)
    rcases h.measured.accepted.smallest with hu | hu <;> rw [hu]
    · exact ⟨hcount, by rw [DateSpan.cut, Int.mul_zero]⟩
    · exact ⟨hyears, hcount⟩
  | carried =>
    refine ⟨?_, by rw [Int.mul_zero]⟩
    rw [Int.mul_add, hone]
    omega

/-- **What a span is rounded to** has its sign, or is zero. -/
theorem eq_zero_or_sign_eq (h : Rounded c origin target options span lower upper r reached) :
    r = {} ∨ r.sign = span.heading := by
  by_cases hzero : r.years = 0 ∧ r.months = 0
  · left
    rw [← h.upToMonths_eq, DateSpan.upToMonths, hzero.1, hzero.2]
  · exact .inr (DateSpan.sign_eq span.heading_cases h.nonneg.1 h.nonneg.2 (by omega))

/-- **A span that is the lower multiple itself** stays as it is. -/
theorem eq_self (h : Rounded c origin target options span lower upper r reached)
    (hexact : span.roundedDown options.smallest options.increment = span) : r = span := by
  have hnot := h.measured.not_takesUpper h.encloses hexact
  rw [(h.takes_lower hnot).1.eq_roundedDown, hexact]

/-- A span of no length stays as it is. -/
theorem eq_zero (h : Rounded c origin target options {} lower upper r reached) : r = {} := by
  refine h.eq_self ?_
  rcases h.measured.accepted.smallest with hu | hu <;> rw [hu] <;>
    simp [DateSpan.roundedDown, DateSpan.multiple, DateSpan.count, DateSpan.cut]

end Rounded

namespace YearMonth

variable {a b : YearMonth} {direction : Direction} {options : DifferenceOptions} {r : Duration}

/-- A difference, exact or rounded, leads to a date in the direction `s` of the target, which is on
the side of the target to which magnitudes are rounded. -/
structure LeadsToSide (a b : YearMonth) (direction : Direction) (options : DifferenceOptions)
    (r : Duration) (exact : DateSpan) (p : IsoDate) (s : Int) : Prop where
  difference_eq : a.calendar.difference a.start b.start options.largest = .ok exact
  add_eq : a.calendar.add a.start (r.toward direction).dateSpan .constrain = .ok p
  valid : p.Valid
  sign_eq : r = .zero ∨ (r.toward direction).sign = exact.sign
  dvd_count : options.increment ∣ r.count options.smallest
  direction_cases : s = 1 ∨ s = -1
  origin_le_target : s * a.start.count ≤ s * b.start.count
  origin_le : s * a.start.count ≤ s * p.count
  le_target : options.mode.forMagnitude (s < 0) = .zero → s * p.count ≤ s * b.start.count
  target_le : options.mode.forMagnitude (s < 0) = .infinity → s * b.start.count ≤ s * p.count

/-- The sign of what an exact difference is rounded to. -/
theorem eq_zero_or_sign_of_rounded (ha : options.Accepted) (hc : a.calendar = b.calendar)
    (ho : a.start.InLimits) (ht : b.start.InLimits) {exact span : DateSpan}
    {lower upper reached : IsoDate}
    (hexact : a.calendar.difference a.start b.start options.largest = .ok exact)
    (h : Rounded a.calendar a.start b.start options exact.upToMonths lower upper span reached) :
    span = {} ∨ span.sign = exact.sign := by
  obtain ⟨-, hsign, hsign'⟩ := measured_difference ha hc ho ht hexact
  by_cases hsame : b.start.compare a.start = 0
  · have hstart := IsoDate.compare_eq_zero_iff.1 hsame
    rw [hstart, Calendar.difference_self, Except.ok.injEq] at hexact
    subst hexact
    exact .inl h.eq_zero
  · refine h.eq_zero_or_sign_eq.imp_right fun hspan => ?_
    rw [hspan, DateSpan.heading, hsign, hsign']
    rcases (IsoDate.compare_cases b.start a.start).resolve_left hsame with h | h <;> rw [h] <;> rfl

theorem leadsToSide_of_difference (ha : options.Accepted) (ho : a.start.InLimits)
    (ht : b.start.InLimits) (h : difference direction a b options = .ok r) :
    ∃ exact p s, LeadsToSide a b direction options r exact p s := by
  obtain ⟨hc, exact, span, hexact, hparts, hmonths, hcases⟩ := difference_eq_ok ha ho ht h
  obtain ⟨hmeasured, hsign, hsign'⟩ := measured_difference ha hc ho ht hexact
  have hs := exact.upToMonths.heading_cases
  have hspan := Duration.dateSpan_of_parts hmonths hparts
  have hrsign := Duration.sign_of_parts hmonths hparts
  have hcount := r.count_toward direction options.smallest
  rw [Duration.count_of_parts ha.smallest hparts] at hcount
  have hzero : span = {} → r = .zero := by
    rintro rfl
    exact Duration.eq_zero_of_toward hparts
  rcases hcases with ⟨hunrounded, rfl, hadd⟩ | ⟨lower, upper, reached, hrounded⟩
  · have horder := hmeasured.origin_le_target
    refine ⟨exact, b.start, exact.upToMonths.heading, hexact, hspan ▸ hadd, b.valid_start,
      .inr (hrsign.trans (hsign.trans hsign'.symm)), ?_, hs, horder, horder, fun _ => le_rfl,
      fun _ => le_rfl⟩
    rcases hunrounded with hanchor | ⟨-, hone⟩
    · have hnone : r.count options.smallest = 0 := by
        rw [start_eq hc hanchor, Calendar.difference_self, Except.ok.injEq] at hexact
        rw [hzero (by rw [← hexact]; rfl)]
        cases options.smallest <;> rfl
      rw [hnone]
      exact Int.dvd_zero _
    · rw [hone]
      exact one_dvd _
  · refine ⟨exact, reached, exact.upToMonths.heading, hexact, hspan ▸ hrounded.add_eq,
      hrounded.valid, ?_, ?_, hs, hmeasured.origin_le_target, hrounded.origin_le,
      hrounded.le_target, hrounded.target_le⟩
    · exact (eq_zero_or_sign_of_rounded ha hc ho ht hexact hrounded).imp hzero hrsign.trans
    · have hdvd := hrounded.dvd_count
      rcases hcount with h | h <;> rw [h] at hdvd
      · exact hdvd
      · exact Int.dvd_neg.1 hdvd

namespace LeadsToSide

variable {exact : DateSpan} {p : IsoDate} {s : Int}

theorem between_of_trunc (h : LeadsToSide a b direction options r exact p s)
    (hm : options.mode = .trunc) : p.Between a.start b.start :=
  IsoDate.between_of_sign h.direction_cases h.valid a.valid_start b.valid_start h.origin_le
    (h.le_target (by rw [hm]; rfl))

theorem between_of_expand (h : LeadsToSide a b direction options r exact p s)
    (hm : options.mode = .expand) : b.start.Between a.start p :=
  IsoDate.between_of_sign h.direction_cases b.valid_start a.valid_start h.valid h.origin_le_target
    (h.target_le (by rw [hm]; rfl))

/-- Seen from the receiver, the floor does not lie after the target. -/
theorem le_of_floor (h : LeadsToSide a b direction options r exact p s)
    (hm : options.mode = .floor) : p ≤ b.start := by
  have hdown := h.le_target
  have hup := h.target_le
  rw [hm] at hdown hup
  rw [← IsoDate.count_le_iff h.valid b.valid_start]
  rcases h.direction_cases with rfl | rfl
  · have := hdown rfl
    omega
  · have := hup rfl
    omega

/-- Seen from the receiver, the ceiling does not lie before the target. -/
theorem ge_of_ceil (h : LeadsToSide a b direction options r exact p s)
    (hm : options.mode = .ceil) : b.start ≤ p := by
  have hdown := h.le_target
  have hup := h.target_le
  rw [hm] at hdown hup
  rw [← IsoDate.count_le_iff b.valid_start h.valid]
  rcases h.direction_cases with rfl | rfl
  · have := hup rfl
    omega
  · have := hdown rfl
    omega

end LeadsToSide

/-- **A mode leads to its side of the target.** Of two months whose first days are represented, a
difference `r`, exact or rounded, leads from the one first day to a date `p`, towards the other
first day; it is a multiple of the increment in its smallest unit; and `p` does not lie beyond the
target if the magnitude is cut off, not short of it if the magnitude is raised, and otherwise on the
side on which the duration that is returned is no greater, or no less, than the exact one. -/
theorem rounded_to_side {args : DifferenceArguments} {mode : RoundingMode} (ho : a.start.InLimits)
    (ht : b.start.InLimits)
    (hoptions : DifferenceOptions.read direction disallowedUnits .month .year args = .ok options)
    (hmode : args.roundingMode.toRoundingMode = .ok mode)
    (h : a.differenceFrom direction (.yearMonth b) args = .ok r) :
    ∃ exact p, a.calendar.difference a.start b.start options.largest = .ok exact ∧
      a.calendar.add a.start (r.toward direction).dateSpan .constrain = .ok p ∧
      (r = .zero ∨ (r.toward direction).sign = exact.sign) ∧
      options.increment ∣ r.count options.smallest ∧
      (mode = .trunc → p.Between a.start b.start) ∧ (mode = .expand → b.start.Between a.start p) ∧
      (direction = .until → (mode = .floor → p ≤ b.start) ∧ (mode = .ceil → b.start ≤ p)) ∧
      (direction = .since → (mode = .floor → b.start ≤ p) ∧ (mode = .ceil → p ≤ b.start)) := by
  obtain ⟨ha, hrounds⟩ := DifferenceOptions.accepted_of_read hoptions hmode
  obtain ⟨exact, p, s, hside⟩ :=
    leadsToSide_of_difference ha ho ht (difference_of_differenceFrom hoptions h)
  have hsame : mode.negate = mode → options.mode = mode := by
    intro hm
    rw [hrounds, hm, ite_self]
  refine ⟨exact, p, hside.difference_eq, hside.add_eq, hside.sign_eq, hside.dvd_count, ?_, ?_, ?_,
    ?_⟩
  · rintro rfl
    exact hside.between_of_trunc (hsame rfl)
  · rintro rfl
    exact hside.between_of_expand (hsame rfl)
  · rintro rfl
    refine ⟨?_, ?_⟩
    · rintro rfl
      exact hside.le_of_floor hrounds
    · rintro rfl
      exact hside.ge_of_ceil hrounds
  · -- backwards the mode is negated
    rintro rfl
    refine ⟨?_, ?_⟩
    · rintro rfl
      exact hside.ge_of_ceil hrounds
    · rintro rfl
      exact hside.le_of_floor hrounds

/-- Back from a leap month, where twelve months fall short of a year. -/
theorem rounded_to_side_adarI5784 :
    adarI5784.start.InLimits ∧ tishri5783.start.InLimits ∧
      ∃ r p, adarI5784.differenceFrom .until (.yearMonth tishri5783)
          { roundingIncrement := .number (.whole 12), roundingMode := .text "floor" } = .ok r ∧
        adarI5784.calendar.add adarI5784.start (r.toward .until).dateSpan .constrain = .ok p ∧
        r.count .year = -1 ∧ r.count .month = -12 ∧ p ≤ tishri5783.start := by
  have ho : adarI5784.start.InLimits := by decide +kernel
  have ht : tishri5783.start.InLimits := by decide +kernel
  have hoptions : DifferenceOptions.read .until disallowedUnits .month .year
      { roundingIncrement := .number (.whole 12), roundingMode := .text "floor" } =
        .ok ⟨.month, .year, .floor, 12⟩ := by decide +kernel
  have hreturns : (adarI5784.differenceFrom .until (.yearMonth tishri5783)
      { roundingIncrement := .number (.whole 12), roundingMode := .text "floor" }).map
        (fun r => (r.count .year, r.count .month)) = .ok (-1, -12) := by decide +kernel
  obtain ⟨r, hr, hcount⟩ := map_eq_ok hreturns
  obtain ⟨hyears, hmonths⟩ := Prod.mk.inj hcount
  obtain ⟨-, p, -, hp, -, -, -, -, huntil, -⟩ := rounded_to_side ho ht hoptions rfl hr
  exact ⟨ho, ht, r, p, hr, hp, hyears, hmonths, (huntil rfl).1 rfl⟩

end YearMonth

end Almanac
