import Almanac.Proofs.DateDifference
import Almanac.Proofs.Refusal
import Almanac.Proofs.WholeYears
import Almanac.Rounding.Options
import Almanac.Value.Option

/-!
# Spans that are to be rounded

A span is rounded to one of two multiples of an increment. What leads on from its origin to a date
leads no further than the dates of the represented range are apart, so that both multiples are small
spans, if the increment is bounded. No day count is then reduced to a word on the way.

* `DateSpan.roundedDown`, `DateSpan.roundedUp`: a span with the lower and with the upper multiple.
* `DifferenceOptions.Sound`, `DifferenceOptions.Accepted`: the options with which years and months
  are measured, with any increment and with one that is read.
* `Approaches`: a span leads towards a date, which one more of its smallest unit leads past.
* `Approaches.natAbs_le`: it is no longer than that; `Approaches.small_lower`,
  `Approaches.small_upper`: **the two multiples are small spans**.
* `Measured`: a span is the exact difference of two first days; `Measured.count_of_add`: **the first
  day that a small span leads to**.
-/

namespace Almanac

namespace DateSpan

/-- The count of a unit of dates. -/
def count (span : DateSpan) : TimeUnit → Int
  | .year => span.years
  | .month => span.months
  | .week => span.weeks
  | _ => span.days

/-- The span with another count of a unit of dates; smaller units are dropped. -/
def cut (span : DateSpan) (unit : TimeUnit) (n : Int) : DateSpan :=
  match unit with
  | .year => { years := n }
  | .month => { years := span.years, months := n }
  | .week => { years := span.years, months := span.months, weeks := n }
  | _ => { span with days := n }

/-- The whole increments in the count of a unit. -/
def multiple (span : DateSpan) (unit : TimeUnit) (increment : Int) : Int :=
  (span.count unit).tdiv increment

/-- The span with the multiple of the increment that is next toward zero. -/
def roundedDown (span : DateSpan) (unit : TimeUnit) (increment : Int) : DateSpan :=
  span.cut unit (span.multiple unit increment * increment)

/-- The span with the multiple of the increment that is next away from zero. -/
def roundedUp (span : DateSpan) (unit : TimeUnit) (increment : Int) : DateSpan :=
  span.cut unit ((span.multiple unit increment + span.heading) * increment)

theorem dayCount_cut {unit : TimeUnit} (hu : unit = .year ∨ unit = .month) (span : DateSpan)
    (n : Int) :
    (span.cut unit n).dayCount = 0 := by
  rcases hu with rfl | rfl <;> rfl

end DateSpan

/-- The options with which years and months are measured, whatever the increment. -/
structure DifferenceOptions.Sound (options : DifferenceOptions) : Prop where
  largest : options.largest = .year ∨ options.largest = .month
  smallest : options.smallest = .year ∨ options.smallest = .month
  smallest_le : options.smallest = .year → options.largest = .year
  one_le_increment : 1 ≤ options.increment

/-- The options with which years and months are measured, with an increment that is read. -/
structure DifferenceOptions.Accepted (options : DifferenceOptions) :
    Prop extends options.Sound where
  increment_le : options.increment ≤ Value.maxIncrement

theorem IsoDate.epochNanoseconds_eq {d : IsoDate} (hv : d.Valid) (hw : fitsWord d.count = true) :
    d.epochNanoseconds = .ok (d.count * TimeUnit.nanoseconds .day) := by
  rw [epochNanoseconds, toEpochDay, Iso.toEpochDay_eq hv hw]
  rfl

namespace Calendar

variable {c : Calendar} {origin target one two : IsoDate} {unit : TimeUnit} {s : DateSpan}
  {instant : Int}

/-- The running number of the month that the years and months of a span lead to. -/
def indexAfter (c : Calendar) (origin : IsoDate) (span : DateSpan) : Int :=
  c.monthAfter (c.dateOf origin).year (c.dateOf origin).month span.years span.months

/-- The running number of the month of a date. -/
def indexOf (c : Calendar) (d : IsoDate) : Int := c.monthIndex (c.dateOf d).year (c.dateOf d).month

/-- The position that years and months lead to, the day of the origin as it is. -/
def positionAfter (c : Calendar) (origin : IsoDate) (span : DateSpan) : Int :=
  32 * c.indexAfter origin span + (c.dateOf origin).day

/-- **A greater count of a unit** leads to a later month. -/
theorem strictMono_indexAfter (hu : unit = .year ∨ unit = .month)
    (hm : c.HasMonth (c.dateOf origin).year (c.dateOf origin).month) (span : DateSpan) :
    StrictMono fun n => c.indexAfter origin (span.cut unit n) := by
  rcases hu with rfl | rfl
  · exact strictMono_monthAfter hm
  · intro j k hjk
    have hj := c.monthAfter_eq_add (c.dateOf origin).year (c.dateOf origin).month span.years j
    have hk := c.monthAfter_eq_add (c.dateOf origin).year (c.dateOf origin).month span.years k
    simp only [indexAfter, DateSpan.cut]
    omega

theorem strictMono_positionAfter (hu : unit = .year ∨ unit = .month) (hv : origin.Valid)
    (span : DateSpan) : StrictMono fun n => c.positionAfter origin (span.cut unit n) := by
  intro j k hjk
  have hlater : c.indexAfter origin (span.cut unit j) < c.indexAfter origin (span.cut unit k) :=
    strictMono_indexAfter hu (hasDate_dateOf hv).1 span hjk
  simp only [positionAfter]
  omega

/-- Two represented dates are not more months apart than days, and those of a month. -/
theorem indexOf_sub_le (hv : one.Valid) (hv' : two.Valid) (hl : one.InLimits) (hl' : two.InLimits) :
    (c.indexOf two - c.indexOf one).natAbs ≤ 200000040 := by
  have hdays := natAbs_sub_le_of_strictMono c.strictMono_monthStart (c.indexOf one) (c.indexOf two)
  have hone := epochDay_bounds (hasDate_dateOf (c := c) hv)
  have htwo := epochDay_bounds (hasDate_dateOf (c := c) hv')
  have hlen := c.monthLength_le (c.indexOf one)
  have hlen' := c.monthLength_le (c.indexOf two)
  rw [epochDay_dateOf hv, monthStart_succ] at hone
  rw [epochDay_dateOf hv', monthStart_succ] at htwo
  rw [IsoDate.inLimits_iff hv] at hl
  rw [IsoDate.inLimits_iff hv'] at hl'
  simp only [indexOf] at hlen hlen' hdays ⊢
  omega

section

variable (hv : origin.Valid) (hv' : target.Valid) (horigin : (c.dateOf origin).day = 1)
  (htarget : (c.dateOf target).day = 1) (hdays : s.dayCount = 0)
  (hleads : c.indexAfter origin s = c.indexOf target)
include hv' horigin htarget hdays hleads

/-- Years and months that lead to the month of a first day lead to that day. -/
theorem countAfter_first : c.countAfter (c.dateOf origin) s = target.count := by
  have hfirst : c.dateOf target = ⟨(c.dateOf target).year, (c.dateOf target).month, 1⟩ :=
    congrArg (YearMonthDay.mk _ _) htarget
  rw [indexAfter, indexOf] at hleads
  rw [count_first hv' hfirst, countAfter, hdays, horigin, hleads,
    min_eq_left (c.one_le_monthLength _)]
  omega

include hv

/-- They are added, if both days are represented. -/
theorem add_first (hl : origin.InLimits) (hl' : target.InLimits) :
    c.add origin s .constrain = .ok target := by
  have hcount := countAfter_first hv' horigin htarget hdays hleads
  rw [add_eq_checkLimits_of_fitsWord hv (IsoDate.monthInLimits_of_inLimits hl) hdays
    (by rw [hcount]; exact IsoDate.fitsWord_of_date hv' hl'), hcount, IsoDate.ofEpochDay_count hv']
  exact if_pos hl'

end

/-- The instant that is reached is that of the date that is reached, which is represented. -/
theorem add_of_reach (h : c.reach origin s = .ok instant) :
    ∃ reached, c.add origin s .constrain = .ok reached ∧
      instant = reached.count * TimeUnit.nanoseconds .day := by
  obtain ⟨reached, hreached, h⟩ := bind_eq_ok h
  have hv := valid_of_add hreached
  rw [IsoDate.epochNanoseconds_eq hv (IsoDate.fitsWord_of_date hv (inLimits_of_add hreached))] at h
  exact ⟨reached, hreached, (Except.ok.inj h).symm⟩

/-- It is not found only where the addition of the span is refused. -/
theorem add_of_reach_eq_error {e : Error} (h : c.reach origin s = .error e) :
    c.add origin s .constrain = .error e := by
  rcases bind_eq_error h with h | ⟨reached, hreached, h⟩
  · exact h
  · have hv := valid_of_add hreached
    rw [IsoDate.epochNanoseconds_eq hv
      (IsoDate.fitsWord_of_date hv (inLimits_of_add hreached))] at h
    cases h

end Calendar

/-- **A span leads towards a date**: its count of the smallest unit is the last one that does not
lead past it. -/
structure Approaches (c : Calendar) (origin target : IsoDate) (options : DifferenceOptions)
    (span : DateSpan) :
    Prop where
  sound : options.Sound
  origin_valid : origin.Valid
  target_valid : target.Valid
  origin_inLimits : origin.InLimits
  target_inLimits : target.InLimits
  years_nonneg : 0 ≤ span.heading * span.years
  isLast : IsLast (fun n => c.positionAfter origin (span.cut options.smallest n)) span.heading
    (c.position (c.dateOf target)) (span.count options.smallest)

/-- A span is the exact difference, in accepted units, of the first days of two months. -/
structure Measured (c : Calendar) (origin target : IsoDate) (options : DifferenceOptions)
    (span : DateSpan) : Prop where
  accepted : options.Accepted
  origin_valid : origin.Valid
  target_valid : target.Valid
  origin_inLimits : origin.InLimits
  target_inLimits : target.InLimits
  origin_first : (c.dateOf origin).day = 1
  target_first : (c.dateOf target).day = 1
  fillsNoYear : c.FillsNoYear (c.dateOf origin).year (c.dateOf origin).month (c.indexOf target)
    options.largest span

variable {c : Calendar} {origin target reached : IsoDate} {options : DifferenceOptions}
  {span r : DateSpan}

namespace Approaches

theorem hasMonth (h : Approaches c origin target options span) :
    c.HasMonth (c.dateOf origin).year (c.dateOf origin).month :=
  (Calendar.hasDate_dateOf h.origin_valid).1

/-- **No more years and months** than the months that they lead over. -/
theorem natAbs_le (h : Approaches c origin target options span) :
    span.years.natAbs ≤ 200000040 ∧ (span.count options.smallest).natAbs ≤ 200000040 := by
  have hapart := Calendar.indexOf_sub_le (c := c) h.origin_valid h.target_valid h.origin_inLimits
    h.target_inLimits
  have hyears := h.years_nonneg
  have hcount := h.isLast.nonneg
  have hwithin := h.isLast.within
  have horigin := (Calendar.hasDate_dateOf (c := c) h.origin_valid).hasMonthOf
  have htarget := (Calendar.hasDate_dateOf (c := c) h.target_valid).hasMonthOf
  have hday := horigin.one_le_day
  have hday' := horigin.day_le
  have htday := htarget.one_le_day
  have htday' := htarget.day_le
  have hwhole := Calendar.monthIndex_le_monthAfter h.hasMonth span.heading_cases hyears
    (show 0 ≤ span.heading * 0 by simp)
  have hfar := natAbs_sub_le_of_strictMono (Calendar.strictMono_monthAfter h.hasMonth) 0 span.years
  simp only [Calendar.monthAfter_zero h.hasMonth, Int.add_zero, Int.sub_zero] at hfar
  simp only [Calendar.positionAfter, Calendar.position, Calendar.indexAfter] at hwithin
  simp only [Calendar.indexOf] at hapart
  rcases h.sound.smallest with hu | hu <;> rw [hu] at hwithin hcount ⊢ <;>
    simp only [DateSpan.cut, DateSpan.count] at hwithin hcount ⊢
  · rcases span.heading_cases with hs | hs <;> rw [hs] at hyears hwithin hwhole <;> omega
  · rw [Calendar.monthAfter_eq_add] at hwithin
    rcases span.heading_cases with hs | hs <;> rw [hs] at hyears hcount hwithin hwhole <;> omega

/-- A span is small whose count is small. -/
theorem small_cut (h : Approaches c origin target options span) {n : Int}
    (hn : n.natAbs ≤ 2000000000) :
    (span.cut options.smallest n).Small := by
  obtain ⟨hyears, -⟩ := h.natAbs_le
  have hdays := DateSpan.dayCount_cut h.sound.smallest span n
  refine ⟨?_, ?_, by rw [hdays]; decide⟩
  all_goals
    rcases h.sound.smallest with hu | hu <;> rw [hu] <;> simp only [DateSpan.cut] <;> omega

/-- The count of the smallest unit lies between the two multiples of the increment. -/
theorem multiple_bounds (h : Approaches c origin target options span) :
    0 ≤ span.heading * span.multiple options.smallest options.increment ∧
      span.heading * (span.multiple options.smallest options.increment * options.increment) ≤
        span.heading * span.count options.smallest ∧
      span.heading * span.count options.smallest < span.heading *
        ((span.multiple options.smallest options.increment + span.heading) * options.increment) :=
  tdiv_bounds span.heading_cases h.sound.one_le_increment h.isLast.nonneg

/-- The lower multiple of the increment lies in the direction of the span. -/
theorem mul_increment_nonneg (h : Approaches c origin target options span) :
    0 ≤ span.heading * (span.multiple options.smallest options.increment * options.increment) := by
  have hinc := h.sound.one_le_increment
  rw [← Int.mul_assoc]
  exact Int.mul_nonneg h.multiple_bounds.1 (by omega)

/-- **The lower multiple** of whichever increment is a small span. -/
theorem small_lower (h : Approaches c origin target options span) :
    (span.roundedDown options.smallest options.increment).Small := by
  obtain ⟨-, hbelow, -⟩ := h.multiple_bounds
  have hnonneg := h.mul_increment_nonneg
  have hcount := h.natAbs_le.2
  refine h.small_cut ?_
  rcases span.heading_cases with hs | hs <;> rw [hs] at hbelow hnonneg <;> omega

/-- **The upper multiple** of an increment that is read is a small span. -/
theorem small_upper (h : Approaches c origin target options span)
    (hinc : options.increment ≤ Value.maxIncrement) :
    (span.roundedUp options.smallest options.increment).Small := by
  obtain ⟨-, hbelow, -⟩ := h.multiple_bounds
  have hnonneg := h.mul_increment_nonneg
  have hcount := h.natAbs_le.2
  have hone := h.sound.one_le_increment
  have hgreatest : options.increment ≤ 1000000000 := hinc
  refine h.small_cut ?_
  rw [Int.add_mul]
  rcases span.heading_cases with hs | hs <;> rw [hs] at hbelow hnonneg ⊢ <;> omega

/-- So is the next year, into which months may be carried. -/
theorem small_year (h : Approaches c origin target options span) :
    ({ years := span.years + span.heading } : DateSpan).Small := by
  have hyears := h.natAbs_le.1
  constructor <;> simp only [DateSpan.dayCount]
  · rcases span.heading_cases with hs | hs <;> rw [hs] <;> omega
  · decide
  · decide

end Approaches

namespace Measured

theorem dateOf_origin (h : Measured c origin target options span) :
    c.dateOf origin = ⟨(c.dateOf origin).year, (c.dateOf origin).month, 1⟩ :=
  congrArg (YearMonthDay.mk _ _) h.origin_first

theorem hasMonth (h : Measured c origin target options span) :
    c.HasMonth (c.dateOf origin).year (c.dateOf origin).month :=
  (Calendar.hasDate_dateOf h.origin_valid).1

theorem count_origin (h : Measured c origin target options span) :
    origin.count = c.monthStart (c.indexOf origin) :=
  Calendar.count_first h.origin_valid h.dateOf_origin

theorem count_target (h : Measured c origin target options span) :
    target.count = c.monthStart (c.indexOf target) :=
  Calendar.count_first h.target_valid (congrArg (YearMonthDay.mk _ _) h.target_first)

/-- **The first day that years and months lead to**, if they are small. -/
theorem count_of_add (h : Measured c origin target options span) (hsmall : r.Small)
    (hdays : r.dayCount = 0) (hr : c.add origin r .constrain = .ok reached) :
    reached.Valid ∧ reached.count = c.monthStart (c.indexAfter origin r) := by
  obtain ⟨rfl, -⟩ := Calendar.add_spec h.origin_valid
    (IsoDate.fitsWord_of_date h.origin_valid h.origin_inLimits)
    (Calendar.yearInWords_of_small h.origin_valid
      (IsoDate.monthInLimits_of_inLimits h.origin_inLimits) hsmall) h.dateOf_origin hr
  refine ⟨(IsoDate.ofEpochDay_spec _).1, ?_⟩
  rw [IsoDate.count_ofEpochDay, Calendar.countAfter, hdays, min_eq_left (c.one_le_monthLength _),
    Calendar.indexAfter]
  simp only [Int.sub_self, Int.add_zero]

/-- A difference of first days is to be rounded. -/
theorem of_difference (ha : options.Accepted) (hv : origin.Valid) (hv' : target.Valid)
    (hl : origin.InLimits) (hl' : target.InLimits) (horigin : (c.dateOf origin).day = 1)
    (htarget : (c.dateOf target).day = 1)
    (h : c.difference origin target options.largest = .ok span) :
    Measured c origin target options span.upToMonths :=
  ⟨ha, hv, hv', hl, hl', horigin, htarget,
    (Calendar.fillsNoYear_difference hv hv' (IsoDate.yearFits_of_inLimits hl)
      (IsoDate.yearFits_of_inLimits hl') (congrArg (YearMonthDay.mk _ _) horigin)
      (congrArg (YearMonthDay.mk _ _) htarget) ha.largest h).1⟩

/-- **The exact difference** leads from the one first day to the other. -/
theorem add_eq (h : Measured c origin target options span) (hdays : span.dayCount = 0) :
    c.add origin span .constrain = .ok target :=
  Calendar.add_first h.origin_valid h.target_valid h.origin_first h.target_first hdays
    h.fillsNoYear.leads h.origin_inLimits h.target_inLimits

theorem strictMono_indexAfter (h : Measured c origin target options span) :
    StrictMono fun n => c.indexAfter origin (span.cut options.smallest n) :=
  Calendar.strictMono_indexAfter h.accepted.smallest h.hasMonth span

/-- The count of the smallest unit does not lead past the target, and one more does. -/
theorem index_bounds (h : Measured c origin target options span) :
    span.heading * c.indexAfter origin (span.cut options.smallest (span.count options.smallest)) ≤
        span.heading * c.indexOf target ∧
      span.heading * c.indexOf target < span.heading *
        c.indexAfter origin
          (span.cut options.smallest (span.count options.smallest + span.heading)) := by
  have hleads := h.fillsNoYear.leads
  have hmonths := h.fillsNoYear.months_nonneg
  have hs := span.heading_cases
  rw [Calendar.monthAfter_eq_add] at hleads
  rcases h.accepted.smallest with hu | hu
  · have hfills := h.fillsNoYear.fillsNoYear (h.accepted.smallest_le hu)
    rw [hu]
    refine ⟨?_, hfills⟩
    simp only [Calendar.indexAfter, DateSpan.cut, DateSpan.count]
    rcases hs with hs | hs <;> rw [hs] at hmonths ⊢ <;> omega
  · rw [hu]
    simp only [Calendar.indexAfter, DateSpan.cut, DateSpan.count]
    rw [Calendar.monthAfter_eq_add c _ _ _ span.months,
      Calendar.monthAfter_eq_add c _ _ _ (span.months + span.heading), ← Int.add_assoc, hleads]
    refine ⟨le_rfl, ?_⟩
    rcases hs with hs | hs <;> rw [hs] <;> omega

/-- The exact difference leads from the one first day towards the other. -/
theorem approaches (h : Measured c origin target options span) :
    Approaches c origin target options span := by
  obtain ⟨hwithin, hbeyond⟩ := h.index_bounds
  have hs := span.heading_cases
  have hposition : c.position (c.dateOf target) = 32 * c.indexOf target + 1 := by
    rw [Calendar.position, h.target_first]
    rfl
  refine ⟨h.accepted.toSound, h.origin_valid, h.target_valid, h.origin_inLimits, h.target_inLimits,
    h.fillsNoYear.years_nonneg, ?_, ?_, ?_⟩
  · rcases h.accepted.smallest with hu | hu <;> rw [hu]
    · exact h.fillsNoYear.years_nonneg
    · exact h.fillsNoYear.months_nonneg
  · simp only [Calendar.positionAfter, h.origin_first, hposition]
    rcases hs with hs | hs <;> rw [hs] at hwithin ⊢ <;> omega
  · simp only [Calendar.positionAfter, h.origin_first, hposition]
    rcases hs with hs | hs <;> rw [hs] at hbeyond ⊢ <;> omega

theorem origin_le_target (h : Measured c origin target options span) :
    span.heading * origin.count ≤ span.heading * target.count := by
  rw [h.count_origin, h.count_target, sign_mul_le_iff c.strictMono_monthStart span.heading_cases,
    ← h.fillsNoYear.leads]
  exact Calendar.monthIndex_le_monthAfter h.hasMonth span.heading_cases h.fillsNoYear.years_nonneg
    h.fillsNoYear.months_nonneg

/-- A count of the smallest unit in the direction of the span does not lead back. -/
theorem indexOf_le_indexAfter (h : Measured c origin target options span) {n : Int}
    (hn : 0 ≤ span.heading * n) :
    span.heading * c.indexOf origin ≤
      span.heading * c.indexAfter origin (span.cut options.smallest n) := by
  have hs := span.heading_cases
  rcases h.accepted.smallest with hu | hu <;> rw [hu]
  · exact Calendar.monthIndex_le_monthAfter h.hasMonth hs hn (by rw [DateSpan.cut, Int.mul_zero])
  · exact Calendar.monthIndex_le_monthAfter h.hasMonth hs h.fillsNoYear.years_nonneg hn

end Measured

end Almanac
