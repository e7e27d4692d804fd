import Almanac.Proofs.Difference
import Almanac.Proofs.Rounding.Bracket

/-!
# The rounded difference of two months

A difference of year-months is measured between the first days of the months, rounded, and turned
round if it is taken backwards. The options that are accepted measure in years or months and round
to a multiple of one of them.

* `Duration.toward`: a duration as seen from the receiver.
* `DifferenceOptions.read_eq_ok`: the options that are accepted, their increment and the mode in
  which they round.
* `YearMonth.measured_difference`: the exact difference of two months.
* `YearMonth.difference_eq_ok`: **the duration between two months** is exact or a rounded one.
-/

namespace Almanac

/-- A duration as it leads from the receiver to the other value, whichever way the difference is
taken. -/
def Duration.toward (d : Duration) : Direction → Duration
  | .until => d
  | .since => -d

namespace Duration

variable {d : Duration} {direction : Direction}

theorem toward_toward (d : Duration) (direction : Direction) :
    (d.toward direction).toward direction = d := by
  cases direction
  case «until» => rfl
  case since =>
    refine ext_parts ?_
    change d.toDurationParts.neg.neg = d.toDurationParts
    cases d.toDurationParts
    simp [DurationParts.neg, DurationParts.ofCounts, DurationParts.count]

theorem count_toward (d : Duration) (direction : Direction) (unit : TimeUnit) :
    (d.toward direction).toDurationParts.count unit = d.toDurationParts.count unit ∨
      (d.toward direction).toDurationParts.count unit = -d.toDurationParts.count unit := by
  cases direction
  case «until» => exact .inl rfl
  case since => exact .inr (by cases unit <;> rfl)

theorem dateSpan_of_parts {span : DateSpan} (hspan : span.upToMonths = span)
    (h : d.toDurationParts = { years := span.years, months := span.months }) :
    d.dateSpan = span := by
  rw [← hspan, dateSpan, h]
  rfl

theorem sign_of_parts {span : DateSpan} (hspan : span.upToMonths = span)
    (h : d.toDurationParts = { years := span.years, months := span.months }) :
    d.sign = span.sign := by
  rw [← hspan, h]
  by_cases hy : span.years = 0 <;> by_cases hm : span.months = 0 <;>
    simp [DurationParts.sign, DurationParts.toList, DateSpan.sign, DateSpan.upToMonths, hy, hm]

theorem count_of_parts {span : DateSpan} {unit : TimeUnit} (hu : unit = .year ∨ unit = .month)
    (h : d.toDurationParts = { years := span.years, months := span.months }) :
    d.count unit = span.count unit := by
  rw [h]
  rcases hu with rfl | rfl <;> rfl

theorem eq_zero_of_toward (h : (d.toward direction).toDurationParts = {}) : d = .zero := by
  rw [← toward_toward d direction, show d.toward direction = .zero from ext_parts h]
  cases direction <;> rfl

end Duration

/-- The increments that are accepted. -/
theorem Value.bounds_of_toIncrement {v : Value} {n : Int} (h : v.toIncrement = .ok n) :
    1 ≤ n ∧ n ≤ maxIncrement := by
  have hbounded : ∀ (m : Int) (e : Error),
      (if 1 ≤ m ∧ m ≤ maxIncrement then Except.ok m else .error e) = .ok n → 1 ≤ n ∧
      n ≤ maxIncrement := by
    intro m e hm
    split at hm
    · next hle =>
      obtain rfl := Except.ok.inj hm
      exact hle
    · cases hm
  unfold toIncrement at h
  dsimp only at h
  split at h
  · obtain rfl := Except.ok.inj h
    decide
  · obtain ⟨q, -, h⟩ := bind_eq_ok h
    exact hbounded _ _ h
  · obtain ⟨q, -, h⟩ := bind_eq_ok h
    exact hbounded _ _ h
  · split at h
    · exact hbounded _ _ h
    · cases h
  · cases h

namespace DifferenceOptions

variable {direction : Direction} {args : DifferenceArguments} {options : DifferenceOptions}

theorem of_allowed {name : String} {u : TimeUnit} {done : Unit}
    (h : discard (allowed YearMonth.disallowedUnits name u) = .ok done) : u = .year ∨
    u = .month := by
  cases u
  case year => exact .inl rfl
  case month => exact .inr rfl
  all_goals cases h

/-- The options are complete with a smallest unit that is allowed and not larger than the largest
one. -/
theorem accepted_of_smallest {largest smallest : TimeUnit} {mode : RoundingMode} {increment : Int}
    {e : Error}
    (hlargest : smallest = .year ∨ smallest = .month → largest = .year ∨ largest = .month)
    (hinc : 1 ≤ increment ∧ increment ≤ Value.maxIncrement)
    (h : (do
      discard (allowed YearMonth.disallowedUnits "smallest_unit" smallest)
      if largest.larger smallest = largest then
        return (⟨smallest, largest, mode, increment⟩ : DifferenceOptions)
      else throw e) = Except.ok options) :
    options.Accepted ∧ options.increment = increment ∧ options.mode = mode := by
  obtain ⟨_, hallowed, h⟩ := bind_eq_ok h
  have hsmallest := of_allowed hallowed
  split at h
  · next hle =>
    obtain rfl := Except.ok.inj h
    refine ⟨⟨⟨hlargest hsmallest, hsmallest, ?_, hinc.1⟩, hinc.2⟩, rfl, rfl⟩
    rintro rfl
    rcases hlargest hsmallest with rfl | rfl
    · rfl
    · cases hle
  · cases h

/-- **The options that are accepted** for year-months. -/
theorem read_eq_ok (h : read direction YearMonth.disallowedUnits .month .year args = .ok options) :
    options.Accepted ∧ ∃ mode, args.roundingMode.toRoundingMode = .ok mode ∧
        options.mode = if direction = .since then mode.negate else mode := by
  obtain ⟨given, -, h⟩ := bind_eq_ok h
  dsimp only at h
  generalize given.getD .auto = choice at h
  cases choice with
  | auto =>
    obtain ⟨increment, hincrement, h⟩ := bind_eq_ok h
    obtain ⟨mode, hmode, h⟩ := bind_eq_ok h
    obtain ⟨asked, -, h⟩ := bind_eq_ok h
    split at h
    · cases h
    · obtain ⟨haccepted, -, hrounds⟩ :=
        accepted_of_smallest (fun _ => .inl rfl) (Value.bounds_of_toIncrement hincrement) h
      exact ⟨haccepted, mode, hmode, hrounds⟩
  | unit u =>
    obtain ⟨_, hallowed, h⟩ := bind_eq_ok h
    obtain ⟨increment, hincrement, h⟩ := bind_eq_ok h
    obtain ⟨mode, hmode, h⟩ := bind_eq_ok h
    obtain ⟨asked, -, h⟩ := bind_eq_ok h
    split at h
    · cases h
    · obtain ⟨haccepted, -, hrounds⟩ := accepted_of_smallest (fun _ => of_allowed hallowed)
        (Value.bounds_of_toIncrement hincrement) h
      exact ⟨haccepted, mode, hmode, hrounds⟩

/-- The options are accepted, and a difference taken backwards rounds in the negated mode. -/
theorem accepted_of_read {mode : RoundingMode}
    (h : read direction YearMonth.disallowedUnits .month .year args = .ok options)
    (hmode : args.roundingMode.toRoundingMode = .ok mode) :
    options.Accepted ∧ options.mode = if direction = .since then mode.negate else mode := by
  obtain ⟨ha, given, hgiven, hrounds⟩ := read_eq_ok h
  rw [hmode, Except.ok.injEq] at hgiven
  subst hgiven
  exact ⟨ha, hrounds⟩

end DifferenceOptions

theorem DateSpan.Takes.upToMonths_eq {span r : DateSpan} {options : DifferenceOptions} {j : Int}
    (ha : options.Accepted) (h : span.Takes options j r) : r.upToMonths = r := by
  cases h with
  | cut =>
    unfold DateSpan.cut
    rcases ha.smallest with hs | hs <;> rw [hs] <;> rfl
  | carried => rfl

namespace Rounded

variable {c : Calendar} {origin target lower upper reached : IsoDate} {options : DifferenceOptions}
  {span r : DateSpan}

/-- One of the two multiples is taken. -/
theorem exists_takes (h : Rounded c origin target options span lower upper r reached) :
    ∃ j, (j = span.multiple options.smallest options.increment ∨
      j = span.multiple options.smallest options.increment + span.heading) ∧
      span.Takes options j r := by
  by_cases htakes : span.TakesUpper options lower target upper
  · exact ⟨_, .inr rfl, (h.takes_upper htakes).1⟩
  · exact ⟨_, .inl rfl, (h.takes_lower htakes).1⟩

theorem upToMonths_eq (h : Rounded c origin target options span lower upper r reached) :
    r.upToMonths = r := by
  obtain ⟨j, -, htakes⟩ := h.exists_takes
  exact htakes.upToMonths_eq h.measured.accepted

end Rounded

namespace YearMonth

variable {a b : YearMonth} {direction : Direction} {options : DifferenceOptions} {r : Duration}

/-- **The exact difference** of two months. -/
theorem measured_difference (ha : options.Accepted) (hc : a.calendar = b.calendar)
    (ho : a.start.InLimits) (ht : b.start.InLimits) {exact : DateSpan}
    (h : a.calendar.difference a.start b.start options.largest = .ok exact) :
    Measured a.calendar a.start b.start options exact.upToMonths ∧
      exact.upToMonths.sign = b.start.compare a.start ∧ exact.sign = b.start.compare a.start := by
  have horigin := a.dateOf_start
  have htarget := hc ▸ b.dateOf_start
  obtain ⟨-, hsigns⟩ := Calendar.fillsNoYear_difference a.valid_start b.valid_start
    (IsoDate.yearFits_of_inLimits ho) (IsoDate.yearFits_of_inLimits ht) horigin htarget ha.largest h
  refine ⟨.of_difference ha a.valid_start b.valid_start ho ht ?_ ?_ h, hsigns⟩
  · rw [horigin]
  · rw [htarget]

/-- The span between the first days of two months is the exact one, where it is not rounded, or what
that is rounded to. -/
theorem spanBetween_eq_ok (ha : options.Accepted) (hc : a.calendar = b.calendar)
    (ho : a.start.InLimits) (ht : b.start.InLimits) {span : DateSpan}
    (h : spanBetween a.calendar a.start b.start options = .ok span) :
    ∃ exact, a.calendar.difference a.start b.start options.largest = .ok exact ∧
      span.upToMonths = span ∧
      ((options.smallest = .month ∧ options.increment = 1) ∧ span = exact.upToMonths ∧
        a.calendar.add a.start span .constrain = .ok b.start ∨
      ∃ lower upper reached,
        Rounded a.calendar a.start b.start options exact.upToMonths lower upper span reached) := by
  obtain ⟨exact, hexact, h⟩ := bind_eq_ok h
  refine ⟨exact, hexact, ?_⟩
  split at h
  · next hunrounded =>
    obtain rfl : exact.upToMonths = span := Except.ok.inj h
    exact ⟨rfl, .inl ⟨hunrounded, rfl, (measured_difference ha hc ho ht hexact).1.add_eq rfl⟩⟩
  · obtain ⟨destination, hdestination, h⟩ := bind_eq_ok h
    rw [IsoDate.epochNanoseconds_eq b.valid_start (IsoDate.fitsWord_of_date b.valid_start ht),
      Except.ok.injEq] at hdestination
    subst hdestination
    obtain ⟨lower, upper, reached, hrounded⟩ :=
      (measured_difference ha hc ho ht hexact).1.roundRelative_eq_ok h
    exact ⟨hrounded.upToMonths_eq, .inr ⟨lower, upper, reached, hrounded⟩⟩

/-- **The duration between two months** comes to the exact years and months, where they are not
rounded, or to what these are rounded to. -/
theorem difference_eq_ok (ha : options.Accepted) (ho : a.start.InLimits) (ht : b.start.InLimits)
    (h : difference direction a b options = .ok r) :
    a.calendar = b.calendar ∧ ∃ exact span,
      a.calendar.difference a.start b.start options.largest = .ok exact ∧
      (r.toward direction).toDurationParts = { years := span.years, months := span.months } ∧
      span.upToMonths = span ∧
      ((a.anchor = b.anchor ∨ options.smallest = .month ∧ options.increment = 1) ∧
        span = exact.upToMonths ∧ a.calendar.add a.start span .constrain = .ok b.start ∨
      ∃ lower upper reached,
        Rounded a.calendar a.start b.start options exact.upToMonths lower upper span reached) := by
  unfold difference at h
  split at h
  · cases h
  · next hc =>
    have hc : a.calendar = b.calendar := not_not.1 hc
    refine ⟨hc, ?_⟩
    split at h
    · next hanchor =>
      obtain rfl := Except.ok.inj h
      have hnone : a.calendar.difference a.start b.start options.largest = .ok {} := by
        rw [← start_eq hc hanchor, Calendar.difference_self]
      refine ⟨{}, {}, hnone, ?_, rfl, .inl ⟨.inl hanchor, rfl, ?_⟩⟩
      · cases direction <;> rfl
      · exact (measured_difference ha hc ho ht hnone).1.add_eq rfl
    · obtain ⟨first, hfirst, h⟩ := bind_eq_ok h
      obtain ⟨second, hsecond, h⟩ := bind_eq_ok h
      obtain ⟨span, hspan, h⟩ := bind_eq_ok h
      obtain ⟨d, hparts, hreturn⟩ := bind_eq_ok h
      obtain rfl : first = a.start := (eq_of_firstDay hfirst).1
      obtain rfl : second = b.start := (eq_of_firstDay hsecond).1
      obtain rfl : d.toward direction = r := by
        rw [← Except.ok.inj hreturn]
        cases direction <;> rfl
      obtain ⟨exact, hexact, hmonths, hcases⟩ := spanBetween_eq_ok ha hc ho ht hspan
      rw [Duration.toward_toward]
      refine ⟨exact, span, hexact, Duration.ofParts_eq_ok_iff.1 hparts, hmonths, ?_⟩
      exact hcases.imp_left fun h => ⟨.inr h.1, h.2⟩

/-- The difference to a year-month, its options read. -/
theorem differenceFrom_eq {args : DifferenceArguments}
    (hoptions : DifferenceOptions.read direction disallowedUnits .month .year args = .ok options) :
    a.differenceFrom direction (.yearMonth b) args = difference direction a b options := by
  unfold differenceFrom
  rw [hoptions]
  rfl

theorem difference_of_differenceFrom {args : DifferenceArguments}
    (hoptions : DifferenceOptions.read direction disallowedUnits .month .year args = .ok options)
    (h : a.differenceFrom direction (.yearMonth b) args = .ok r) :
    difference direction a b options = .ok r := (differenceFrom_eq hoptions).symm.trans h

end YearMonth

end Almanac
