import Almanac.Proofs.Rounding.Candidates
import Almanac.Proofs.WholeMonths

/-!
# Exact multiples stay as they are

A difference of first days has years and months alone. If its smallest unit is a multiple of the
increment, it is the lower of its two candidates, and its destination is the date that this one
leads to: there is nothing to round, in whichever mode. So a difference in single months is not
rounded at all, and rounding it would change nothing. What rounding adds is a refusal: the upper
candidate is looked at, too, and has to be represented. An increment may be so large that the days
to it cannot be counted in a word; then it may come to the destination itself, which is refused as
well.

* `DateSpan.IsMultiple`: a multiple of the increment in one unit, and nothing below.
* `DateSpan.IsMultiple.roundRelative_eq`: **an exact multiple, rounded**; `RoundsToItself`: it is
  left alone; `Calendar.eq_of_roundRelative`: **nothing else is returned** for it.
* `YearMonth.differenceRounded`: the duration between two months, rounded even where single months
  are asked for.
* `YearMonth.exact_multiples_stay`: **exact multiples stay**, and a difference that is not rounded
  is the rounded one.
-/

namespace Almanac

/-- The count of a unit is a multiple of the increment, and there are no months below years. -/
def DateSpan.IsMultiple (span : DateSpan) (unit : TimeUnit) (increment : Int) : Prop :=
  increment ∣ span.count unit ∧ (unit = .year → span.months = 0)

variable {c : Calendar} {origin target : IsoDate} {options : DifferenceOptions} {span : DateSpan}

namespace DateSpan.IsMultiple

theorem multiple_mul {unit : TimeUnit} {increment : Int} (h : span.IsMultiple unit increment) :
    span.multiple unit increment * increment = span.count unit :=
  Int.tdiv_mul_cancel h.1

/-- An exact multiple is its own lower candidate. -/
theorem roundedDown_eq {unit : TimeUnit} {increment : Int} (h : span.IsMultiple unit increment)
    (hu : unit = .year ∨ unit = .month) (hmonths : span.upToMonths = span) :
    span.roundedDown unit increment = span := by
  rw [roundedDown, h.multiple_mul]
  rcases hu with rfl | rfl
  · rw [← hmonths, upToMonths, h.2 rfl]
    rfl
  · exact hmonths

/-- **An exact multiple, rounded** to the destination that it leads to. It is returned, unless its
upper candidate is refused or leads to the destination as well. -/
theorem roundRelative_eq (h : span.IsMultiple options.smallest options.increment)
    (ha : options.Sound) (hmonths : span.upToMonths = span) {destination : Int}
    (hreach : c.reach origin span = .ok destination) :
    roundRelative span destination origin c false options.largest options.increment options.smallest
      options.mode =
        (c.reach origin (span.roundedUp options.smallest options.increment)).bind fun finish =>
        if destination = finish then .error .zeroDenominator else .ok span := by
  have hnext :
    (span.multiple options.smallest options.increment + span.heading) * options.increment =
      span.multiple options.smallest
        options.increment * options.increment + options.increment * span.heading := by
    ring
  rw [Almanac.roundRelative_eq ha, Nudge.of_eq ha, h.roundedDown_eq ha.smallest hmonths, hreach]
  simp only [bind, Except.bind]
  cases c.reach origin (span.roundedUp options.smallest options.increment) with
  | error e => rfl
  | ok finish =>
    dsimp only
    rw [Nudge.pick_self span.heading_cases ha.one_le_increment (Int.dvd_mul_left _ _) hnext]
    by_cases hsame : destination = finish
    · rw [if_pos hsame, if_pos hsame]
    · rw [if_neg hsame, if_neg hsame]
      simp only [Bool.false_eq_true, false_and, if_false]
      rfl

end DateSpan.IsMultiple

namespace Calendar

/-- A difference that has neither weeks nor days is one up to months. -/
theorem upToMonths_difference {year month year' month' : Int} {largest : TimeUnit}
    (hv : origin.Valid) (hv' : target.Valid) (horigin : c.read origin = .ok ⟨year, month, 1⟩)
    (htarget : c.read target = .ok ⟨year', month', 1⟩) (hl : largest = .year ∨ largest = .month)
    (h : c.difference origin target largest = .ok span) :
    span.upToMonths = span := by
  obtain ⟨-, hweeks, hdays⟩ := difference_firstDays hv hv' horigin htarget hl h
  cases span
  simp only at hweeks hdays
  rw [hweeks, hdays]
  rfl

/-- Years that are a multiple alone are counted where the largest unit is the month only if there
are none. -/
theorem difference_year_of_isMultiple {increment : Int} (hv : origin.Valid) (hv' : target.Valid)
    (hy : origin.YearFits) (hy' : target.YearFits) (hmonths : span.upToMonths = span)
    (hmultiple : span.IsMultiple .year increment)
    (h : c.difference origin target .month = .ok span) :
    c.difference origin target .year = .ok span := by
  obtain rfl : {} = span := by
    rw [← hmonths, DateSpan.upToMonths, hmultiple.2 rfl,
      years_eq_zero_of_difference hv hv' hy hy' h]
  by_cases hzero : target.compare origin = 0
  · rw [IsoDate.compare_eq_zero_iff.1 hzero, difference_self]
  · exact absurd rfl ((measures_difference hv hv' hy hy' hzero (.inr rfl) h).ne_zero hv hv' hzero)

end Calendar

/-- Rounding to years is the same whether years or months are the largest unit. -/
theorem roundRelative_year {destination increment : Int} {largest : TimeUnit} {mode : RoundingMode}
    (hl : largest = .year ∨ largest = .month) :
    roundRelative span destination origin c false largest increment .year mode =
      roundRelative span destination origin c false .year increment .year mode := by
  rcases hl with rfl | rfl
  · rfl
  · rfl

/-- A span is left alone by rounding: nothing else is returned, and between represented dates it is
returned or refused with its upper candidate. One whose days cannot be counted in a word may also
come to the destination. -/
structure RoundsToItself (c : Calendar) (origin target : IsoDate) (options : DifferenceOptions)
    (span : DateSpan) (destination : Int) : Prop where
  eq_of_ok :
    ∀ r,
    roundRelative span destination origin c false options.largest options.increment options.smallest
      options.mode = .ok r → r = span
  ok_or_refused : origin.InLimits → target.InLimits →
    roundRelative span destination origin c false options.largest options.increment options.smallest
      options.mode =
        .ok span ∨
      (∃ e, c.add origin (span.roundedUp options.smallest options.increment) .constrain = .error e ∧
        roundRelative span destination origin c false options.largest options.increment
          options.smallest options.mode = .error e) ∨
      ¬ c.WithinWord origin (span.roundedUp options.smallest options.increment) ∧
        c.add origin (span.roundedUp options.smallest options.increment) .constrain = .ok target ∧
        roundRelative span destination origin c false options.largest options.increment
          options.smallest options.mode = .error .zeroDenominator

namespace Calendar

section

variable {destination year month year' month' : Int} (hv : origin.Valid) (hv' : target.Valid)
  (horigin : c.read origin = .ok ⟨year, month, 1⟩)
  (htarget : c.read target = .ok ⟨year', month', 1⟩) (hmonths : span.upToMonths = span)
  (hdestination : target.epochNanoseconds = .ok destination)
include hv hv' horigin htarget hmonths hdestination

/-- **Nothing but an exact multiple is returned** for it, since it leads to its destination. -/
theorem eq_of_roundRelative (ha : options.Sound)
    (hleads : c.monthAfter year month span.years span.months = c.monthIndex year' month')
    (hmultiple : span.IsMultiple options.smallest options.increment) {r : DateSpan}
    (hr : roundRelative span destination origin c false options.largest options.increment
      options.smallest options.mode = .ok r) :
    r = span := by
  have hdays : span.dayCount = 0 := by rw [← hmonths]; rfl
  -- what is returned has looked at the lower candidate, which is the span itself
  have hreach : c.reach origin span = .ok destination := by
    have hrounded := hr
    rw [roundRelative_eq ha] at hrounded
    obtain ⟨nudge, hnudge, -⟩ := bind_eq_ok hrounded
    rw [Nudge.of_eq ha, hmultiple.roundedDown_eq ha.smallest hmonths] at hnudge
    obtain ⟨start, hstart, -⟩ := bind_eq_ok hnudge
    obtain ⟨reached, hadd, -⟩ := bind_eq_ok hstart
    have hsame := add_firstDays hv hv' horigin htarget hleads hdays hadd
    rw [reach, hadd, ← hdestination, IsoDate.epochNanoseconds, ← hsame]
    rfl
  rw [hmultiple.roundRelative_eq ha hmonths hreach] at hr
  obtain ⟨finish, -, hr⟩ := bind_eq_ok hr
  split at hr
  · cases hr
  · exact (Except.ok.inj hr).symm

/-- Between represented dates an exact multiple is returned, unless its upper candidate is refused
or cannot be counted. -/
theorem ok_or_refused_of_difference (ha : options.Sound) (hl : origin.InLimits)
    (hl' : target.InLimits) (hspan : c.difference origin target options.largest = .ok span)
    (hmultiple : span.IsMultiple options.smallest options.increment) :
    roundRelative span destination origin c false options.largest options.increment options.smallest
      options.mode =
        .ok span ∨
      (∃ e, c.add origin (span.roundedUp options.smallest options.increment) .constrain = .error e ∧
        roundRelative span destination origin c false options.largest options.increment
          options.smallest options.mode = .error e) ∨
      ¬ c.WithinWord origin (span.roundedUp options.smallest options.increment) ∧
        c.add origin (span.roundedUp options.smallest options.increment) .constrain = .ok target ∧
        roundRelative span destination origin c false options.largest options.increment
          options.smallest options.mode = .error .zeroDenominator := by
  have hexact := hmultiple.roundedDown_eq ha.smallest hmonths
  have hdays : span.dayCount = 0 := by rw [← hmonths]; rfl
  obtain ⟨hleads, -⟩ := difference_firstDays hv hv' horigin htarget ha.largest hspan
  rw [read_eq hv (IsoDate.monthInLimits_of_inLimits hl), Except.ok.injEq] at horigin
  rw [read_eq hv' (IsoDate.monthInLimits_of_inLimits hl'), Except.ok.injEq] at htarget
  have hadd : c.add origin span .constrain = .ok target :=
    add_first hv hv' (by rw [horigin]) (by rw [htarget]) hdays
      (by rw [indexAfter, indexOf, horigin, htarget, hleads]) hl hl'
  have hreach : c.reach origin span = .ok destination := by
    rw [reach, hadd]
    exact hdestination
  rw [hmultiple.roundRelative_eq ha hmonths hreach]
  cases hfinish : c.reach origin (span.roundedUp options.smallest options.increment) with
  | error e => exact .inr (.inl ⟨e, add_of_reach_eq_error hfinish, rfl⟩)
  | ok finish =>
    simp only [Except.bind]
    split
    · next hsame =>
      obtain ⟨upper, hupper, rfl⟩ := add_of_reach hfinish
      have hcounts : upper.count = target.count := by
        rw [IsoDate.epochNanoseconds_eq hv' (IsoDate.fitsWord_of_date hv' hl')] at hdestination
        rw [← Except.ok.inj hdestination] at hsame
        simp only [TimeUnit.nanoseconds] at hsame
        omega
      refine .inr (.inr ⟨fun hw => ?_, ?_, rfl⟩)
      · -- an upper candidate that can be counted is another date
        have happroaches := approaches_difference ha hv hv' hl hl' hspan
        exact (happroaches.between hw (by rw [hexact]; exact hadd) hupper).2.2 hcounts.symm
      · rw [hupper, ← IsoDate.ofEpochDay_count (valid_of_add hupper), hcounts,
          IsoDate.ofEpochDay_count hv']
    · exact .inl rfl

end

/-- **An exact multiple is left alone by rounding.** -/
theorem roundsToItself {destination year month year' month' : Int}
    (hlargest : options.largest = .year ∨ options.largest = .month)
    (hsmallest : options.smallest = .year ∨ options.smallest = .month)
    (hinc : 1 ≤ options.increment) (hv : origin.Valid) (hv' : target.Valid)
    (horigin : c.read origin = .ok ⟨year, month, 1⟩)
    (htarget : c.read target = .ok ⟨year', month', 1⟩)
    (hspan : c.difference origin target options.largest = .ok span)
    (hdestination : target.epochNanoseconds = .ok destination)
    (hmultiple : span.IsMultiple options.smallest options.increment) :
    RoundsToItself c origin target options span destination := by
  obtain ⟨hleads, -⟩ := difference_firstDays hv hv' horigin htarget hlargest hspan
  have hmonths := upToMonths_difference hv hv' horigin htarget hlargest hspan
  by_cases hle : options.smallest = .year → options.largest = .year
  · have ha : options.Sound := ⟨hlargest, hsmallest, hle, hinc⟩
    constructor
    · intro r hr
      exact eq_of_roundRelative hv hv' horigin htarget hmonths hdestination ha hleads hmultiple hr
    · intro hl hl'
      exact ok_or_refused_of_difference hv hv' horigin htarget hmonths hdestination ha hl hl' hspan
        hmultiple
  · -- a difference in months that is a multiple of years has no length, and none in years either
    obtain ⟨hyear, hne⟩ := Classical.not_imp.1 hle
    have hmonth := hlargest.resolve_left hne
    rw [hmonth] at hspan
    rw [hyear] at hmultiple
    have ha : DifferenceOptions.Sound ⟨.year, .year, options.mode, options.increment⟩ :=
      ⟨.inl rfl, .inl rfl, fun _ => rfl, hinc⟩
    constructor <;> rw [hyear, roundRelative_year hlargest]
    · intro r hr
      exact eq_of_roundRelative hv hv' horigin htarget hmonths hdestination ha hleads hmultiple hr
    · intro hl hl'
      have hyears := difference_year_of_isMultiple hv hv' (IsoDate.yearFits_of_inLimits hl)
        (IsoDate.yearFits_of_inLimits hl') hmonths hmultiple hspan
      exact ok_or_refused_of_difference hv hv' horigin htarget hmonths hdestination ha hl hl'
        hyears hmultiple

end Calendar

namespace YearMonth

variable {a b : YearMonth}

/-- The years and months from the first day of one month to the first day of another, rounded
whatever the options. -/
def spanRounded (c : Calendar) (one two : IsoDate) (options : DifferenceOptions) :
    Except Error DateSpan := do
  let exact ← c.difference one two options.largest
  let destination ← two.epochNanoseconds
  roundRelative exact.upToMonths destination one c false options.largest options.increment
    options.smallest options.mode

/-- The duration from one month to another, rounded whatever the options. -/
def differenceRounded (direction : Direction) (one two : YearMonth) (options : DifferenceOptions) :
    Except Error Duration :=
  if one.calendar ≠ two.calendar then .error (.calendarsDiffer one.calendar two.calendar)
  else if one.anchor = two.anchor then .ok .zero
  else do
    let first ← one.firstDay
    let second ← two.firstDay
    let span ← spanRounded one.calendar first second options
    let duration ← Duration.ofParts { years := span.years, months := span.months }
    return if direction = .since then -duration else duration

/-- **What is not rounded is what rounding gives**, or the rounding is refused with the upper
candidate. -/
theorem spanRounded_cases (hl : options.largest = .year ∨ options.largest = .month)
    (hc : a.calendar = b.calendar) (ho : a.start.InLimits) (ht : b.start.InLimits) :
    spanRounded a.calendar a.start b.start options =
      spanBetween a.calendar a.start b.start options ∨
      ∃ exact e, a.calendar.difference a.start b.start options.largest = .ok exact ∧
        a.calendar.add a.start (exact.roundedUp options.smallest options.increment) .constrain =
          .error e ∧
        spanRounded a.calendar a.start b.start options = .error e := by
  obtain ⟨exact, hexact⟩ :=
    Calendar.exists_difference a.calendar a.valid_start b.valid_start ho ht hl
  have hdestination :=
    IsoDate.epochNanoseconds_eq b.valid_start (IsoDate.fitsWord_of_date b.valid_start ht)
  unfold spanRounded spanBetween
  rw [hexact, hdestination]
  simp only [bind, Except.bind]
  split
  · next hunrounded =>
    obtain ⟨hmonth, hone⟩ := hunrounded
    have horigin := Calendar.read_eq (c := a.calendar) a.valid_start
      (IsoDate.monthInLimits_of_inLimits ho)
    have htarget := Calendar.read_eq (c := a.calendar) b.valid_start
      (IsoDate.monthInLimits_of_inLimits ht)
    rw [a.dateOf_start] at horigin
    rw [hc, b.dateOf_start, ← hc] at htarget
    have hmonths :=
      Calendar.upToMonths_difference a.valid_start b.valid_start horigin htarget hl hexact
    -- single months are a multiple of one
    have hmultiple : exact.IsMultiple options.smallest options.increment := by
      rw [hmonth, hone]
      exact ⟨one_dvd _, fun hyear => absurd hyear (by decide)⟩
    have hself := Calendar.roundsToItself hl (.inr hmonth) hone.ge a.valid_start b.valid_start
      horigin htarget hexact hdestination hmultiple
    rw [hmonths]
    rcases hself.ok_or_refused ho ht with hok | ⟨e, hupper, herror⟩ | ⟨hbeyond, -, -⟩
    · exact .inl (hok.trans (congrArg Except.ok hmonths.symm))
    · exact .inr ⟨exact, e, rfl, hupper, herror⟩
    · -- the days to one month more can be counted
      have ha : options.Sound :=
        ⟨hl, .inr hmonth, fun hyear => absurd (hmonth.symm.trans hyear) (by decide), hone.ge⟩
      have happroaches := Calendar.approaches_difference ha a.valid_start b.valid_start ho ht hexact
      exact absurd (happroaches.withinWord_upper (by rw [hone]; decide)) hbeyond
  · exact .inl rfl

/-- **Exact multiples stay as they are.** The difference of two first days, in years or in months,
of which the smallest unit is a multiple of the increment already, is left alone by rounding in
every mode and either direction: it is returned, or the rounding is refused because the upper
candidate is, or because the days to that one cannot be counted and it comes to the destination. So
the duration between two months, which is not rounded where single months are asked for, is the one
that rounding gives, unless the upper candidate is refused. -/
theorem exact_multiples_stay (options : DifferenceOptions)
    (hlargest : options.largest = .year ∨ options.largest = .month)
    (hsmallest : options.smallest = .year ∨ options.smallest = .month)
    (hinc : 1 ≤ options.increment) :
    (∀ (c : Calendar) (origin target : IsoDate) (year month year' month' : Int)
      (exact : DateSpan) (destination : Int),
      origin.Valid → target.Valid →
      c.read origin = .ok ⟨year, month, 1⟩ → c.read target = .ok ⟨year', month', 1⟩ →
      c.difference origin target options.largest = .ok exact →
      target.epochNanoseconds = .ok destination →
      exact.IsMultiple options.smallest options.increment →
        RoundsToItself c origin target options exact destination) ∧
    ∀ (direction : Direction) (a b : YearMonth),
      differenceRounded direction a b options = difference direction a b options ∨
        ∃ exact e, a.calendar.difference a.start b.start options.largest = .ok exact ∧
          a.calendar.add a.start (exact.roundedUp options.smallest options.increment) .constrain =
            .error e ∧
          differenceRounded direction a b options = .error e := by
  constructor
  · intro c origin target year month year' month' exact destination hv hv' horigin htarget hexact
      hdestination hmultiple
    exact Calendar.roundsToItself hlargest hsmallest hinc hv hv' horigin htarget hexact
      hdestination hmultiple
  intro direction a b
  unfold differenceRounded difference
  split
  · exact .inl rfl
  · next hc =>
    split
    · exact .inl rfl
    · by_cases hl : a.start.InLimits ∧ b.start.InLimits
      · rw [firstDay_of_inLimits hl.1, firstDay_of_inLimits hl.2]
        simp only [bind, Except.bind]
        rcases spanRounded_cases hlargest
          (not_not.1 hc) hl.1 hl.2 with hsame | ⟨exact, e, hexact, hupper, herror⟩
        · exact .inl (by rw [hsame])
        · exact .inr ⟨exact, e, hexact, hupper, by rw [herror]⟩
      · -- a first day that is not represented is refused either way
        left
        rw [firstDay_eq, firstDay_eq, IsoDate.checkLimits, IsoDate.checkLimits]
        by_cases hfirst : a.start.InLimits
        · rw [if_pos hfirst, if_neg fun hsecond => hl ⟨hfirst, hsecond⟩]
          rfl
        · rw [if_neg hfirst]
          rfl

/-- Back from a leap month by a year and months, which the mode would raise if there were anything
to raise. -/
theorem exact_multiples_stay_adarI5784 :
    (∃ destination, Calendar.difference .hebrew ⟨2024, 2, 10⟩ ⟨2022, 9, 26⟩ .year =
      .ok { years := -1, months := -5 } ∧
      IsoDate.epochNanoseconds ⟨2022, 9, 26⟩ = .ok destination ∧
      roundRelative { years := -1, months := -5 } destination
        ⟨2024, 2, 10⟩ .hebrew false .year 1 .month .expand = .ok { years := -1, months := -5 }) ∧
    ∃ d, differenceRounded .since adarI5784 tishri5783 ⟨.month, .year, .expand, 1⟩ = .ok d ∧
      difference .since adarI5784 tishri5783 ⟨.month, .year, .expand, 1⟩ = .ok d := by
  obtain ⟨hself, hwhole⟩ :=
    exact_multiples_stay ⟨.month, .year, .expand, 1⟩ (.inl rfl) (.inr rfl) le_rfl
  have hexact : Calendar.difference .hebrew ⟨2024, 2, 10⟩ ⟨2022, 9, 26⟩ .year =
      .ok { years := -1, months := -5 } := by
    decide +kernel
  have hdestination : (IsoDate.epochNanoseconds ⟨2022, 9, 26⟩).isOk = true := by decide +kernel
  have hupper :
      (Calendar.add .hebrew ⟨2024, 2, 10⟩ { years := -1, months := -6 } .constrain).isOk =
      true := by
    decide +kernel
  have hrounded :
      (differenceRounded .since adarI5784 tishri5783 ⟨.month, .year, .expand, 1⟩).isOk = true := by
    decide +kernel
  obtain ⟨destination, hdestination⟩ := exists_of_isOk hdestination
  obtain ⟨upper, hupper⟩ := exists_of_isOk hupper
  obtain ⟨d, hd⟩ := exists_of_isOk hrounded
  have hstays :=
    hself .hebrew ⟨2024, 2, 10⟩ ⟨2022, 9, 26⟩ 5784 6 5783 1 { years := -1, months := -5 }
      destination (by decide) (by decide) (by decide +kernel) (by decide +kernel) hexact
      hdestination ⟨one_dvd _, fun hyear => absurd hyear (by decide)⟩
  constructor
  · rcases hstays.ok_or_refused (by decide) (by decide) with hok | ⟨e, hrefused, -⟩ | ⟨-, hsame, -⟩
    · exact ⟨destination, hexact, hdestination, hok⟩
    · cases hupper.symm.trans hrefused
    · obtain rfl := Except.ok.inj (hupper.symm.trans hsame)
      exact absurd hupper (by decide +kernel)
  · rcases hwhole .since adarI5784 tishri5783 with hsame | ⟨exact, e, -, -, hrefused⟩
    · exact ⟨d, hd, hsame ▸ hd⟩
    · cases hd.symm.trans hrefused

end YearMonth

end Almanac
