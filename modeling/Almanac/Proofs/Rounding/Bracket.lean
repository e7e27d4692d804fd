import Almanac.Proofs.Rounding.Measured

/-!
# The dates that enclose a rounded span

A span between the first days of two months is rounded to one of two counts of its smallest unit,
which are multiples of the increment. The dates that they lead to are first days, too, and they
enclose the target. A span that is rounded up may fill another year, which begins between the target
and the upper date.

* `Measured.encloses`: the dates of the two multiples enclose the target.
* `Nudge.of_eq`, `roundRelative_eq`: rounding by options that are accepted.
* `Measured.of_eq_ok`, `Measured.carry_eq_ok`: a span rounded in one unit, and a year that is
  filled.
* `Rounded`: a span is rounded to another, which leads to one of the two dates or to the year that
  is filled.
* `Measured.roundRelative_eq_ok`: **what a span is rounded to**.
-/

namespace Almanac

namespace DateSpan

/-- The upper of two dates that enclose a target is taken by the mode. -/
def TakesUpper (span : DateSpan) (options : DifferenceOptions) (lower target upper : IsoDate) :
    Prop :=
  options.mode.TakesUpper span.heading lower.count target.count upper.count
    (Even (span.multiple options.smallest options.increment))

/-- By taking a number of increments of its smallest unit a span becomes one with that count of the
unit. If months are rounded up and years are counted, it may become the year that they fill. -/
inductive Takes (span : DateSpan) (options : DifferenceOptions) : Int → DateSpan → Prop
  | cut (j : Int) : Takes span options j (span.cut options.smallest (j * options.increment))
  | carried (hl : options.largest = .year) (hs : options.smallest = .month) :
    Takes span options (span.multiple .month options.increment + span.heading)
      { years := span.years + span.heading }

end DateSpan

/-- Two dates are those that the lower and the upper multiple of the increment lead to. Seen in the
direction of the span, the lower one is not before the origin, and the target is not before the
lower one and before the upper one. -/
structure Encloses (c : Calendar) (origin target : IsoDate) (options : DifferenceOptions)
    (span : DateSpan) (lower upper : IsoDate) : Prop where
  lower_eq : c.add origin (span.roundedDown options.smallest options.increment) .constrain =
    .ok lower
  upper_eq : c.add origin (span.roundedUp options.smallest options.increment) .constrain = .ok upper
  lower_valid : lower.Valid
  upper_valid : upper.Valid
  origin_le : span.heading * origin.count ≤ span.heading * lower.count
  lower_le : span.heading * lower.count ≤ span.heading * target.count
  lt_upper : span.heading * target.count < span.heading * upper.count

/-- A span is rounded to another, which leads from the origin to a date: it takes the lower multiple
of the increment, or the upper one if the mode does. A year that is filled then begins between the
target and the upper date. -/
structure Rounded (c : Calendar) (origin target : IsoDate) (options : DifferenceOptions)
    (span : DateSpan) (lower upper : IsoDate) (r : DateSpan) (reached : IsoDate) : Prop where
  measured : Measured c origin target options span
  encloses : Encloses c origin target options span lower upper
  add_eq : c.add origin r .constrain = .ok reached
  valid : reached.Valid
  takes_lower : ¬ span.TakesUpper options lower target upper →
    span.Takes options (span.multiple options.smallest options.increment) r ∧ reached = lower
  takes_upper : span.TakesUpper options lower target upper →
    span.Takes options (span.multiple options.smallest options.increment + span.heading) r ∧
      span.heading * target.count < span.heading * reached.count ∧
      span.heading * reached.count ≤ span.heading * upper.count

variable {c : Calendar} {origin target lower upper reached : IsoDate} {options : DifferenceOptions}
  {span r : DateSpan}

namespace Measured

/-- **The dates of the two multiples enclose the target.** -/
theorem encloses (h : Measured c origin target options span)
    (hlower : c.add origin (span.roundedDown options.smallest options.increment) .constrain =
      .ok lower)
    (hupper : c.add origin (span.roundedUp options.smallest options.increment) .constrain =
      .ok upper) :
    Encloses c origin target options span lower upper := by
  have hs := span.heading_cases
  have hdown := h.approaches.small_lower
  have hup := h.approaches.small_upper h.accepted.increment_le
  obtain ⟨hlv, hlc⟩ := h.count_of_add hdown (DateSpan.dayCount_cut h.accepted.smallest _ _) hlower
  obtain ⟨huv, huc⟩ := h.count_of_add hup (DateSpan.dayCount_cut h.accepted.smallest _ _) hupper
  obtain ⟨-, hbelow, habove⟩ := h.approaches.multiple_bounds
  obtain ⟨hin, hout⟩ := h.index_bounds
  have hnext : span.heading * (span.count options.smallest + span.heading) ≤ span.heading *
      ((span.multiple options.smallest options.increment + span.heading) * options.increment) := by
    rcases hs with hs | hs <;> rw [hs] at habove ⊢ <;> omega
  refine ⟨hlower, hupper, hlv, huv, ?_, ?_, ?_⟩
  · rw [hlc, h.count_origin, sign_mul_le_iff c.strictMono_monthStart hs]
    exact h.indexOf_le_indexAfter h.approaches.mul_increment_nonneg
  · rw [hlc, h.count_target, sign_mul_le_iff c.strictMono_monthStart hs]
    exact le_trans ((sign_mul_le_iff h.strictMono_indexAfter hs).2 hbelow) hin
  · rw [huc, h.count_target, ← not_le, sign_mul_le_iff c.strictMono_monthStart hs, not_le]
    exact lt_of_lt_of_le hout ((sign_mul_le_iff h.strictMono_indexAfter hs).2 hnext)

end Measured

namespace Nudge

theorem candidate_eq {unit : TimeUnit} (hu : unit = .year ∨ unit = .month) (span : DateSpan)
    (n : Int) :
    candidate span unit n = .ok ⟨n, span.cut unit n⟩ := by
  rcases hu with rfl | rfl <;> rfl

theorem lower_eq {unit : TimeUnit} {increment : Int} (hu : unit = .year ∨ unit = .month)
    (hinc : 1 ≤ increment) (span : DateSpan) :
    Nudge.lower span unit increment =
      .ok ⟨span.multiple unit increment * increment, span.roundedDown unit increment⟩ := by
  rcases hu with rfl | rfl <;> simp only [Nudge.lower, truncateTo_eq hinc] <;> rfl

/-- The candidates in one unit are the two multiples of the increment. -/
theorem of_eq (ha : options.Sound) (destination : Int) :
    Nudge.of span.heading span destination origin c options.increment options.smallest
      options.mode = (do
      let start ← c.reach origin (span.roundedDown options.smallest options.increment)
      let finish ← c.reach origin (span.roundedUp options.smallest options.increment)
      pick span.heading options.increment destination options.smallest options.mode
        ⟨span.multiple options.smallest options.increment * options.increment,
          span.roundedDown options.smallest options.increment⟩
        ⟨(span.multiple options.smallest options.increment + span.heading) * options.increment,
          span.roundedUp options.smallest options.increment⟩ start finish) := by
  have hnext : span.multiple options.smallest options.increment * options.increment +
      options.increment * span.heading =
        (span.multiple options.smallest options.increment + span.heading) * options.increment := by
    ring
  unfold Nudge.of
  rw [lower_eq ha.smallest ha.one_le_increment]
  simp only [bind, Except.bind]
  rw [candidate_eq ha.smallest, hnext]
  rfl

end Nudge

namespace Measured

/-- **A span rounded in one unit** leads to one of the two dates that enclose the target. -/
theorem of_eq_ok (h : Measured c origin target options span) {nudge : Nudge}
    (hn : Nudge.of span.heading span (target.count * TimeUnit.nanoseconds .day) origin c
      options.increment options.smallest options.mode = .ok nudge) :
    ∃ lower upper, Encloses c origin target options span lower upper ∧
      ((span.TakesUpper options lower target upper ∧
        nudge = ⟨span.roundedUp options.smallest options.increment,
          upper.count * TimeUnit.nanoseconds .day, true⟩) ∨
      (¬ span.TakesUpper options lower target upper ∧
        nudge = ⟨span.roundedDown options.smallest options.increment,
          lower.count * TimeUnit.nanoseconds .day, false⟩)) := by
  have hinc := h.accepted.one_le_increment
  rw [Nudge.of_eq h.accepted.toSound] at hn
  obtain ⟨start, hstart, hn⟩ := bind_eq_ok hn
  obtain ⟨finish, hfinish, hn⟩ := bind_eq_ok hn
  obtain ⟨lower, hlower, rfl⟩ := Calendar.add_of_reach hstart
  obtain ⟨upper, hupper, rfl⟩ := Calendar.add_of_reach hfinish
  have henc := h.encloses hlower hupper
  refine ⟨lower, upper, henc, ?_⟩
  -- days and instants are compared alike
  have hday : 0 < TimeUnit.nanoseconds .day := by decide
  have hscaled : ∀ x y : Int, span.heading * (x * TimeUnit.nanoseconds .day) ≤
      span.heading * (y * TimeUnit.nanoseconds .day) ↔ span.heading * x ≤ span.heading * y := by
    intro x y
    rw [← Int.mul_assoc, ← Int.mul_assoc, Int.mul_le_mul_right hday]
  have heven : 2 * options.increment ∣
      span.multiple options.smallest options.increment * options.increment ↔
        Even (span.multiple options.smallest options.increment) := by
    rw [Int.mul_dvd_mul_iff_right (by omega), even_iff_two_dvd]
  have hpick := Nudge.pick_eq_ok span.heading_cases hinc h.approaches.mul_increment_nonneg (by ring)
    ((hscaled _ _).2 henc.lower_le)
    (not_le.1 fun hle => absurd henc.lt_upper ((hscaled _ _).1 hle).not_gt) hn
  rwa [RoundingMode.takesUpper_mul_iff hday, heven] at hpick

/-- A span that is carried into years stays as it is, or another year is full at the date that it
led to or before. -/
theorem carry_eq_ok (h : Measured c origin target options span) {s : DateSpan}
    (hyears : s.years = span.years)
    (hr : carry span.heading (reached.count * TimeUnit.nanoseconds .day) origin c s [.year] =
      .ok r) :
    r = s ∨ r = { years := s.years + span.heading } ∧ ∃ full, c.add origin r .constrain = .ok full ∧
      full.Valid ∧ full.count = c.monthStart (c.indexAfter origin r) ∧
      span.heading * full.count ≤ span.heading * reached.count := by
  obtain ⟨instant, hinstant, hr⟩ := bind_eq_ok hr
  obtain ⟨full, hfull, rfl⟩ := Calendar.add_of_reach hinstant
  rw [← Int.sub_mul] at hr
  split at hr
  · exact .inl (Except.ok.inj hr).symm
  · next hsign =>
    obtain rfl := Except.ok.inj hr
    have hsmall : (s.grow span.heading .year).Small := by
      rw [DateSpan.grow, hyears]
      exact h.approaches.small_year
    obtain ⟨hvalid, hcount⟩ := h.count_of_add hsmall rfl hfull
    refine .inr ⟨rfl, full, hfull, hvalid, hcount, ?_⟩
    have hday : (TimeUnit.nanoseconds .day).sign = 1 := by decide
    rw [Int.sign_mul, hday, Int.mul_one] at hsign
    by_contra hshort
    rcases span.heading_cases with hs | hs <;> rw [hs] at hsign hshort
    · exact hsign (Int.sign_eq_neg_one_of_neg (by omega))
    · exact hsign (Int.sign_eq_one_of_pos (by omega))

end Measured

/-- Rounding by accepted options: in one unit, and then months that are rounded up are carried into
years, if years are counted. -/
theorem roundRelative_eq (ha : options.Sound) (destination : Int) :
    roundRelative span destination origin c false options.largest options.increment options.smallest
      options.mode = (do
        let nudge ← Nudge.of span.heading span destination origin c options.increment
          options.smallest options.mode
        if nudge.expanded ∧ options.largest = .year ∧ options.smallest = .month then
          carry span.heading nudge.instant origin c nudge.span [.year]
        else return nudge.span) := by
  have hcalendar : ¬ (!options.smallest.isCalendarUnit) = true := by
    rcases ha.smallest with hu | hu <;> rw [hu] <;> decide
  rw [roundRelative, if_neg Bool.false_ne_true, if_neg hcalendar]
  refine congrArg (Except.bind _) (funext fun nudge => ?_)
  cases nudge.expanded
  · simp
  · rcases ha.largest with hl | hl <;> rcases ha.smallest with hu | hu <;> rw [hl, hu] <;> simp <;>
      rfl

/-- **What a span is rounded to**, if it is not refused. -/
theorem Measured.roundRelative_eq_ok (h : Measured c origin target options span)
    (hr : roundRelative span
      (target.count * TimeUnit.nanoseconds .day) origin c false options.largest options.increment
        options.smallest options.mode = .ok r) :
    ∃ lower upper reached, Rounded c origin target options span lower upper r reached := by
  rw [roundRelative_eq h.accepted.toSound] at hr
  obtain ⟨nudge, hnudge, hr⟩ := bind_eq_ok hr
  obtain ⟨lower, upper, henc, ⟨htakes, rfl⟩ | ⟨htakes, rfl⟩⟩ := h.of_eq_ok hnudge
  · have hstays : r = span.roundedUp options.smallest options.increment →
        Rounded c origin target options span lower upper r upper := by
      rintro rfl
      exact ⟨h, henc, henc.upper_eq, henc.upper_valid, fun hnot => absurd htakes hnot,
        fun _ => ⟨.cut _, henc.lt_upper, le_rfl⟩⟩
    split at hr
    · next hfills =>
      obtain ⟨-, hl, hu⟩ := hfills
      have hyears : (span.roundedUp options.smallest options.increment).years = span.years := by
        rw [hu]
        rfl
      rcases h.carry_eq_ok hyears hr with hr | ⟨rfl, full, hfull, hvalid, hcount, hbefore⟩
      · exact ⟨lower, upper, upper, hstays hr⟩
      · rw [hyears] at hfull hcount ⊢
        refine ⟨lower, upper, full, h, henc, hfull, hvalid, fun hnot => absurd htakes hnot,
          fun _ => ⟨?_, ?_, hbefore⟩⟩
        · rw [hu]
          exact .carried hl hu
        · -- the months of the span do not come to another year
          rw [hcount, h.count_target, ← not_le,
            sign_mul_le_iff c.strictMono_monthStart span.heading_cases, not_le]
          exact h.fillsNoYear.fillsNoYear hl
    · exact ⟨lower, upper, upper, hstays (Except.ok.inj hr).symm⟩
  · obtain rfl := Except.ok.inj hr
    exact ⟨lower, upper, lower, h, henc, henc.lower_eq, henc.lower_valid, fun _ => ⟨.cut _, rfl⟩,
      fun hup => absurd hup htakes⟩

end Almanac
