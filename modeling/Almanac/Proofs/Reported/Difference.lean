import Almanac.Proofs.Measurable
import Almanac.Proofs.Reported.Addition
import Almanac.Proofs.Rounding.Candidates

/-!
# Differences and failures that are reported

A span is rounded unless the addition of a candidate is refused, and the candidates are small, since
the increment is bounded. A difference of two months therefore reports whatever it is refused for,
and only an increment that cannot be read is not reported.

* `Measured.reports_roundRelative`: a span that is rounded.
* `YearMonth.reports_difference`: **the difference of two months** is reported.
* `DifferenceArguments.Escapes`, `DifferenceOptions.read_reports_iff`: the options that are read
  without a report.
-/

namespace Almanac

open Shown (IsOverlong)

variable {free : Nat}

/-- Counts that are no duration are refused with a report, if none of them has too many digits. -/
theorem Duration.reports_ofParts {p : DurationParts} (hyears : ¬ IsOverlong p.years)
    (hmonths : ¬ IsOverlong p.months) (hweeks : ¬ IsOverlong p.weeks) :
    Reports free (ofParts p) := by
  unfold ofParts
  split
  · exact reports_ok _
  · unfold DurationParts.fault
    split
    · exact reports_error rfl
    · split
      · exact reports_error_of_writable rfl (by simp [Error.wording, hyears])
      · split
        · exact reports_error_of_writable rfl (by simp [Error.wording, hmonths])
        · split
          · exact reports_error_of_writable rfl (by simp [Error.wording, hweeks])
          · exact reports_error rfl

/-- A span that takes a number of increments is small, if that number of them is, and the next
year. -/
theorem DateSpan.Takes.small {span r : DateSpan} {options : DifferenceOptions} {j : Int}
    (h : span.Takes options j r) (hcut : (span.cut options.smallest (j * options.increment)).Small)
    (hyear : ({ years := span.years + span.heading } : DateSpan).Small) : r.Small := by
  cases h with
  | cut => exact hcut
  | carried => exact hyear

variable {c : Calendar} {origin target lower upper reached : IsoDate} {options : DifferenceOptions}
  {span r : DateSpan}

/-- **A rounded span is small.** -/
theorem Rounded.small (h : Rounded c origin target options span lower upper r reached) :
    r.Small := by
  have happroaches := h.measured.approaches
  by_cases htakes : span.TakesUpper options lower target upper
  · exact (h.takes_upper htakes).1.small (happroaches.small_upper h.measured.accepted.increment_le)
      happroaches.small_year
  · exact (h.takes_lower htakes).1.small happroaches.small_lower happroaches.small_year

/-- **A span is rounded** with a report: what is refused is a candidate that leads out of the
represented range. -/
theorem Measured.reports_roundRelative (h : Measured c origin target options span) :
    Reports free
      (roundRelative span (target.count * TimeUnit.nanoseconds .day) origin c false options.largest
      options.increment options.smallest options.mode) := by
  intro e he
  have happroaches := h.approaches
  have hinc := h.accepted.increment_le
  obtain ⟨s, hs, hout⟩ := happroaches.roundRelative_eq_error (happroaches.withinWord_upper hinc) he
  have hsmall : s.Small := by
    rcases hs with rfl | rfl | ⟨-, rfl⟩
    · exact happroaches.small_lower
    · exact happroaches.small_upper hinc
    · exact happroaches.small_year
  exact Calendar.reports_add h.origin_valid h.origin_inLimits hsmall .constrain e hout.add_eq

namespace YearMonth

variable {a b : YearMonth} {options : DifferenceOptions}

/-- The exact difference of the first days of two months is small. -/
theorem small_difference (ha : options.Accepted) (hc : a.calendar = b.calendar)
    (ho : a.start.InLimits) (ht : b.start.InLimits) {exact : DateSpan}
    (h : a.calendar.difference a.start b.start options.largest = .ok exact) :
    exact.upToMonths.Small := by
  -- the years and months do not depend on the unit to which they are rounded
  have hmonths : ({ options with smallest := .month } : DifferenceOptions).Accepted :=
    ⟨⟨ha.largest, .inr rfl, nofun, ha.one_le_increment⟩, ha.increment_le⟩
  obtain ⟨hyears, hcount⟩ := (measured_difference hmonths hc ho ht h).1.approaches.natAbs_le
  exact ⟨hyears.trans (by decide), hcount.trans (by decide), Nat.zero_le _⟩

/-- **The difference of two months** counts within words: the exact one, the two candidates to which
it may be rounded, and the year into which months may be carried. -/
theorem movesInWords_difference (ha : options.Accepted) (hc : a.calendar = b.calendar)
    (ho : a.start.InLimits) (ht : b.start.InLimits) {exact span : DateSpan}
    (h : a.calendar.difference a.start b.start options.largest = .ok exact)
    (hspan : span = exact.upToMonths) :
    ∀ s ∈ [span, span.roundedDown options.smallest options.increment,
        span.roundedUp options.smallest options.increment, { years := span.years + span.heading }],
      a.calendar.MovesInWords a.start s := by
  subst hspan
  have happroaches := (measured_difference ha hc ho ht h).1.approaches
  have hsmall :
    ∀ s ∈ [exact.upToMonths, exact.upToMonths.roundedDown options.smallest options.increment,
      exact.upToMonths.roundedUp options.smallest options.increment,
      { years := exact.upToMonths.years + exact.upToMonths.heading }], s.Small := by
    simp only [List.forall_mem_cons]
    exact ⟨small_difference ha hc ho ht h, happroaches.small_lower,
      happroaches.small_upper ha.increment_le, happroaches.small_year, nofun⟩
  intro s hs
  exact Calendar.movesInWords a.valid_start (IsoDate.monthInLimits_of_inLimits ho) (hsmall s hs)

/-- The span between the first days of two months, rounded where that is asked for, is given or
refused with a report, and small if it is given. -/
theorem reports_spanBetween (ha : options.Accepted) (hc : a.calendar = b.calendar)
    (ho : a.start.InLimits) (ht : b.start.InLimits) :
    Reports free (spanBetween a.calendar a.start b.start options) ∧
      ∀ span, spanBetween a.calendar a.start b.start options = .ok span → span.Small := by
  obtain ⟨exact, hexact⟩ :=
    Calendar.exists_difference a.calendar a.valid_start b.valid_start ho ht ha.largest
  have hmeasured := (measured_difference ha hc ho ht hexact).1
  unfold spanBetween
  rw [hexact, IsoDate.epochNanoseconds_eq b.valid_start (IsoDate.fitsWord_of_date b.valid_start ht)]
  simp only [bind, Except.bind]
  split
  · refine ⟨reports_ok _, ?_⟩
    rintro _ ⟨⟩
    exact small_difference ha hc ho ht hexact
  · refine ⟨hmeasured.reports_roundRelative, fun span hspan => ?_⟩
    obtain ⟨lower, upper, reached, hrounded⟩ := hmeasured.roundRelative_eq_ok hspan
    exact hrounded.small

/-- **The difference of two months** by options that are accepted is given or refused with a
report. -/
theorem reports_difference (direction : Direction) (a b : YearMonth) (ha : options.Accepted) :
    Reports free (difference direction a b options) := by
  unfold difference
  split
  · exact reports_error rfl
  · next hc =>
    have hc : a.calendar = b.calendar := not_not.1 hc
    split
    · exact reports_ok _
    · rw [firstDay_eq, firstDay_eq]
      apply (IsoDate.reports_checkLimits a.isShort_start).bind
      intro first hfirst
      apply (IsoDate.reports_checkLimits b.isShort_start).bind
      intro second hsecond
      obtain ⟨rfl, ho⟩ := IsoDate.checkLimits_eq_ok hfirst
      obtain ⟨rfl, ht⟩ := IsoDate.checkLimits_eq_ok hsecond
      obtain ⟨hreports, hsmall⟩ := reports_spanBetween ha hc ho ht
      apply hreports.bind
      intro span hspan
      obtain ⟨hyears, hmonths, -⟩ := hsmall span hspan
      apply (Duration.reports_ofParts (Shown.not_isOverlong (hyears.trans (by decide)))
        (Shown.not_isOverlong (hmonths.trans (by decide)))
          (Shown.not_isOverlong (Nat.zero_le _))).bind
      intro d _
      exact reports_ok _

end YearMonth

/-- The increment of a difference of months is read without a report, the largest unit being read
before it and allowed. -/
def DifferenceArguments.Escapes (free : Nat) (args : DifferenceArguments) : Prop :=
  (∃ given, args.largestUnit.toDateUnit "largest_unit" = .ok given ∧
    ∀ u, given = some (.unit u) → u ∉ YearMonth.disallowedUnits) ∧
  args.roundingIncrement.IncrementEscapes free

namespace DifferenceOptions

theorem reports_allowed (disallowed : List TimeUnit) (name : String) (u : TimeUnit) :
    Reports free (allowed disallowed name u) := by
  unfold allowed
  split
  · exact reports_error rfl
  · exact reports_ok _

/-- What is left of the options once the increment is read. -/
theorem reports_rest_iff {α : Type} {args : DifferenceArguments}
    {rest : Int → RoundingMode → Option UnitOption → Except Error α}
    (hrest : ∀ increment mode smallest?, Reports free (rest increment mode smallest?)) :
    Reports free (do
      let increment ← args.roundingIncrement.toIncrement
      let mode ← args.roundingMode.toRoundingMode
      rest increment mode (← args.smallestUnit.toDateUnit "smallest_unit")) ↔
      ¬ args.roundingIncrement.IncrementEscapes free := by
  rw [reports_bind_iff, Value.toIncrement_reports_iff, and_iff_left_iff_imp]
  intro _ increment _
  apply (Value.reports_toRoundingMode _).bind
  intro mode _
  apply (Value.reports_toDateUnit _ _).bind
  intro smallest? _
  exact hrest increment mode smallest?

/-- The last step: the smallest unit is checked, alone and against the largest. -/
theorem reports_complete (smallest largest : TimeUnit) (mode : RoundingMode) (increment : Int) :
    Reports free (do
      discard (allowed YearMonth.disallowedUnits "smallest_unit" smallest)
      if largest.larger smallest = largest then
        return (⟨smallest, largest, mode, increment⟩ : DifferenceOptions)
      else throw (.smallestAboveLargest smallest largest)) := by
  apply (reports_map_iff.2 (reports_allowed _ _ _)).bind
  intro _ _
  split
  · exact reports_ok _
  · exact reports_error rfl

/-- **The options of a difference** of months are read with a report, unless the increment is
not. -/
theorem read_reports_iff {direction : Direction} {args : DifferenceArguments} :
    Reports free (read direction YearMonth.disallowedUnits .month .year args) ↔
    ¬ args.Escapes free := by
  unfold read DifferenceArguments.Escapes
  rw [reports_bind_iff]
  simp only [Value.reports_toDateUnit, true_and, not_and, forall_exists_index, and_imp]
  refine forall_congr' fun given => forall_congr' fun hgiven => ?_
  generalize hchoice : given.getD .auto = choice
  cases choice with
  | auto =>
    have hallowed : ∀ u, given = some (.unit u) → u ∉ YearMonth.disallowedUnits := by
      rintro u rfl
      cases hchoice
    refine (reports_rest_iff ?_).trans (imp_iff_right hallowed).symm
    intro increment mode smallest?
    split
    · exact reports_error rfl
    · exact reports_complete _ _ _ _
  | unit u =>
    obtain rfl : given = some (.unit u) := by
      cases given with
      | none => cases hchoice
      | some choice => exact congrArg some hchoice
    simp only [Option.some.injEq, UnitOption.unit.injEq, forall_eq']
    by_cases hu : u ∈ YearMonth.disallowedUnits
    · have hrefused : allowed YearMonth.disallowedUnits "largest_unit" u =
          .error (.unitNotAllowed "largest_unit" u) := if_pos hu
      rw [hrefused]
      exact iff_of_true (reports_error rfl) (fun hnot => absurd hu hnot)
    · have hallowed : allowed YearMonth.disallowedUnits "largest_unit" u = .ok u := if_neg hu
      rw [hallowed]
      refine (reports_rest_iff ?_).trans (imp_iff_right hu).symm
      intro increment mode smallest?
      split
      · exact reports_error rfl
      · exact reports_complete _ _ _ _

end DifferenceOptions

end Almanac
