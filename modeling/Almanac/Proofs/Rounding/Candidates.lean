import Almanac.Proofs.Rounding.Directed

/-!
# The dates that enclose any destination

Rounding looks for two dates that enclose the destination, whichever days of their months the origin
and the destination are. The difference is measured with the day of the origin as it is, and the
candidates cut that day off. A day that is cut off stays on its side of every date, so that the two
candidates enclose the destination still, and they are days of two months. This is so as long as the
days to the upper candidate can be counted in a word. Those to the lower one always can, and an
increment that is read leads no further.

* `Calendar.WithinWord`: the days to the date that a span leads to fit a word.
* `Calendar.approaches_difference`: **the difference of two dates** leads from the one towards the
  other.
* `Approaches.between`: **the two candidates enclose the destination**, and are not the same.
* `Calendar.LeadsOut`, `Calendar.leadsOut_of_add`: a span that leads out of the represented range.
* `Calendar.candidates_enclose`: **rounding fails only where a candidate is not represented**.
* `Calendar.candidate_beyondWord`: an increment that leads beyond a word.
-/

namespace Almanac

/-- The days to the date that a span leads to can be counted in a word. -/
def Calendar.WithinWord (c : Calendar) (origin : IsoDate) (s : DateSpan) : Prop :=
  fitsWord (c.countAfter (c.dateOf origin) s) = true

variable {c : Calendar} {origin target lower upper : IsoDate} {options : DifferenceOptions}
  {span s : DateSpan}

namespace DateSpan

/-- The direction of a span whose parts lead in one direction. -/
theorem Heads.heading_eq {sign : Int} (h : span.Heads sign) (hs : sign = 1 ∨ sign = -1)
    (hne : span ≠ {}) :
    span.heading = sign := by
  have hpart := h.sign_eq hs
  have hsign : span.sign = sign := by
    unfold DateSpan.sign
    split
    · next hyears => exact hpart _ (by simp [toList]) hyears
    · next hyears =>
      split
      · next hmonths => exact hpart _ (by simp [toList]) hmonths
      · next hmonths =>
        split
        · next hweeks => exact hpart _ (by simp [toList]) hweeks
        · next hweeks =>
          refine hpart _ (by simp [toList]) fun hdays => hne ?_
          cases span
          simp_all only [ne_eq, not_not]
  unfold heading
  rcases hs with rfl | rfl <;> rw [hsign] <;> rfl

end DateSpan

namespace Calendar

/-- A difference of no length is that of a date and itself. -/
theorem Measures.ne_zero {one two : IsoDate} {largest : TimeUnit} {sign : Int} (hv : one.Valid)
    (hv' : two.Valid) (hne : two.compare one ≠ 0)
    (h : c.Measures sign (c.dateOf one) (c.dateOf two) largest span) : span ≠ {} := by
  rintro rfl
  have hd := hasDate_dateOf (c := c) hv
  have hcount := h.countAfter_eq
  have hone := epochDay_dateOf (c := c) hv
  rw [epochDay_eq_monthStart hd.1] at hone
  rw [countAfter, monthAfter_zero hd.1, Int.add_zero, monthLength_monthIndex hd.1,
    min_eq_left hd.2.2, hone, epochDay_dateOf hv'] at hcount
  apply hne
  rw [IsoDate.compare_eq_sign hv' hv, ← hcount]
  simp [DateSpan.dayCount]

/-- The position of a date, from which nothing leads away. -/
theorem positionAfter_zero (hv : origin.Valid) :
    c.positionAfter origin {} = c.position (c.dateOf origin) := by
  have hindex : c.indexAfter origin {} = c.monthIndex (c.dateOf origin).year
      (c.dateOf origin).month :=
    (monthAfter_zero (hasDate_dateOf hv).1 0).trans (Int.add_zero _)
  rw [positionAfter, hindex, position]

/-- **The difference of two dates** leads from the one towards the other. -/
theorem approaches_difference (ha : options.Sound) (hv : origin.Valid) (hv' : target.Valid)
    (hl : origin.InLimits) (hl' : target.InLimits)
    (hspan : c.difference origin target options.largest = .ok span) :
    Approaches c origin target options span := by
  by_cases hzero : target.compare origin = 0
  · -- a difference of no length leads nowhere, and one more unit leads on
    obtain rfl := IsoDate.compare_eq_zero_iff.1 hzero
    obtain rfl : {} = span := by rwa [difference_self, Except.ok.injEq] at hspan
    have hcut : ({} : DateSpan).cut options.smallest 0 = {} := by
      rcases ha.smallest with hu | hu <;> rw [hu] <;> rfl
    have hcount : ({} : DateSpan).count options.smallest = 0 := by
      rcases ha.smallest with hu | hu <;> rw [hu] <;> rfl
    have hmono := strictMono_positionAfter (c := c) ha.smallest hv {} (show (0 : Int) < 1 by decide)
    have hheading : ({} : DateSpan).heading = 1 := rfl
    simp only [hcut, positionAfter_zero hv] at hmono
    refine ⟨ha, hv, hv, hl, hl, le_rfl, ?_⟩
    rw [hcount, hheading]
    refine ⟨le_rfl, ?_, ?_⟩
    · simp only [hcut, positionAfter_zero hv, le_refl]
    · simp only [Int.one_mul, Int.zero_add]
      exact hmono
  · have hs := (IsoDate.compare_cases target origin).resolve_left hzero
    have hmeasures := measures_difference hv hv' (IsoDate.yearFits_of_inLimits hl)
      (IsoDate.yearFits_of_inLimits hl') hzero ha.largest hspan
    have hone := (hasDate_dateOf (c := c) hv).hasMonthOf
    have hheads := hmeasures.heads hs hone (hasDate_dateOf hv')
    have hheading := hheads.heading_eq hs (hmeasures.ne_zero hv hv' hzero)
    refine ⟨ha, hv, hv', hl, hl', hheading ▸ hheads _ (by simp [DateSpan.toList]), ?_⟩
    rw [hheading]
    rcases ha.smallest with hu | hu
    · have hlast := hmeasures.years_isLast (ha.smallest_le hu)
      simp only [position_yearsLater hone] at hlast
      rw [hu]
      exact hlast
    · have hlast := hmeasures.months_isLast
      simp only [position_later hone] at hlast
      rw [hu]
      exact hlast

end Calendar

namespace Approaches

/-- The days that a small span leads to can be counted. -/
theorem withinWord_of_small (h : Approaches c origin target options span) (hsmall : s.Small) :
    c.WithinWord origin s := by
  have hd := Calendar.hasDate_dateOf (c := c) h.origin_valid
  have hstart := Calendar.monthStart_monthAfter_le (c := c) h.origin_valid
    (IsoDate.monthInLimits_of_inLimits h.origin_inLimits) hsmall
  have hdays := hsmall.days
  generalize hi : c.monthAfter (c.dateOf origin).year (c.dateOf origin).month s.years s.months =
    i at hstart
  have hone := c.one_le_monthLength i
  have hlen := c.monthLength_le i
  have hday : 1 ≤ (c.dateOf origin).day := hd.2.1
  rw [Calendar.WithinWord, fitsWord_iff, Calendar.countAfter, hi]
  omega

/-- Those to the lower candidate can be counted, whatever the increment. -/
theorem withinWord_lower (h : Approaches c origin target options span) :
    c.WithinWord origin (span.roundedDown options.smallest options.increment) :=
  h.withinWord_of_small h.small_lower

/-- Those to the upper candidate can be counted if the increment is one that is read. -/
theorem withinWord_upper (h : Approaches c origin target options span)
    (hinc : options.increment ≤ Value.maxIncrement) :
    c.WithinWord origin (span.roundedUp options.smallest options.increment) :=
  h.withinWord_of_small (h.small_upper hinc)

/-- **A candidate that is represented** is the day that it leads to, cut off to its month. -/
theorem count_of_add (h : Approaches c origin target options span) (hw : c.WithinWord origin s)
    (hdays : s.dayCount = 0) (hs : c.add origin s .constrain = .ok lower) :
    lower.Valid ∧ lower.InLimits ∧
    lower.count = c.cutCount (c.indexAfter origin s) (c.dateOf origin).day := by
  obtain ⟨rfl, hl⟩ := Calendar.add_spec_of_fitsWord h.origin_valid
    (IsoDate.monthInLimits_of_inLimits h.origin_inLimits) hdays hw hs
  refine ⟨(IsoDate.ofEpochDay_spec _).1, hl, ?_⟩
  rw [IsoDate.count_ofEpochDay, Calendar.countAfter, hdays, Int.add_zero]
  rfl

section

variable (h : Approaches c origin target options span)
  (hw : c.WithinWord origin (span.roundedUp options.smallest options.increment))
include h hw

/-- **The two candidates enclose the destination**, one on either side of it, and are not the
same. -/
theorem between
    (hlower : c.add origin (span.roundedDown options.smallest options.increment) .constrain =
      .ok lower)
    (hupper : c.add origin (span.roundedUp options.smallest options.increment) .constrain =
      .ok upper) :
    span.heading * lower.count ≤ span.heading * target.count ∧
      span.heading * target.count ≤ span.heading * upper.count ∧ lower.count ≠ upper.count := by
  have hs := span.heading_cases
  have hday := (Calendar.hasDate_dateOf (c := c) h.origin_valid).hasMonthOf
  have htarget := Calendar.hasDate_dateOf (c := c) h.target_valid
  have hmono := Calendar.strictMono_positionAfter (c := c) h.sound.smallest h.origin_valid span
  obtain ⟨-, hbelow, habove⟩ := h.multiple_bounds
  obtain ⟨-, -, hlc⟩ :=
    h.count_of_add h.withinWord_lower (DateSpan.dayCount_cut h.sound.smallest _ _) hlower
  obtain ⟨-, -, huc⟩ := h.count_of_add hw (DateSpan.dayCount_cut h.sound.smallest _ _) hupper
  rw [← Calendar.epochDay_dateOf (c := c) h.target_valid, hlc, huc]
  refine ⟨?_, ?_, ?_⟩
  · apply Calendar.sign_mul_cutCount_le hs hday.one_le_day hday.day_le htarget
    exact (h.isLast.within_iff hmono hs _).2 hbelow
  · -- seen the other way, the upper candidate is not past the destination
    have hpast := mt (h.isLast.within_iff hmono hs _).1 habove.not_ge
    have hback :
      -span.heading * c.positionAfter origin (span.roundedUp options.smallest options.increment) ≤
        -span.heading * c.position (c.dateOf target) := by
      rw [Int.neg_mul, Int.neg_mul, neg_le_neg_iff]
      exact (not_le.1 hpast).le
    have hcut := Calendar.sign_mul_cutCount_le (by omega) hday.one_le_day hday.day_le htarget hback
    rwa [Int.neg_mul, Int.neg_mul, neg_le_neg_iff] at hcut
  · -- the candidates are days of two months
    have hmonths := Calendar.strictMono_indexAfter h.sound.smallest hday.month span
    have hapart : span.multiple options.smallest options.increment * options.increment ≠
        (span.multiple options.smallest options.increment + span.heading) * options.increment := by
      intro heq
      rw [heq] at hbelow
      exact absurd habove hbelow.not_gt
    rcases lt_or_gt_of_ne hapart with hlt | hgt
    · exact (Calendar.cutCount_lt (hmonths hlt) hday.one_le_day).ne
    · exact (Calendar.cutCount_lt (hmonths hgt) hday.one_le_day).ne'

end

end Approaches

/-- **A span leads out of the represented range**: the date that it leads to is not represented, and
it is refused for that date. -/
structure Calendar.LeadsOut (c : Calendar) (origin : IsoDate) (s : DateSpan) (e : Error) :
    Prop where
  add_eq : c.add origin s .constrain = .error e
  beyond : ¬ (IsoDate.ofEpochDay (c.countAfter (c.dateOf origin) s)).InLimits
  error_eq : ∃ reached, reached = IsoDate.ofEpochDay (c.countAfter (c.dateOf origin) s) ∧
    e = .dateBeyondLimits reached.year reached.month reached.day

/-- Years and months whose addition is refused lead out of the represented range, if the days to
where they lead can be counted. -/
theorem Calendar.leadsOut_of_add (hv : origin.Valid) (hl : origin.InLimits) (hdays : s.dayCount = 0)
    (hw : c.WithinWord origin s) {e : Error} (h : c.add origin s .constrain = .error e) :
    c.LeadsOut origin s e := by
  have hchecked := h
  rw [add_eq_checkLimits_of_fitsWord hv (IsoDate.monthInLimits_of_inLimits hl) hdays hw,
    IsoDate.checkLimits] at hchecked
  split at hchecked
  · cases hchecked
  · next hbeyond => exact ⟨h, hbeyond, _, rfl, (Except.error.inj hchecked).symm⟩

/-- A destination between two instants that are not the same is rounded to one of the two. -/
theorem Nudge.pick_ne_error {sign increment destination start finish : Int} {unit : TimeUnit}
    {mode : RoundingMode} {low high : Candidate}
    (hin : ¬ (destination < min start finish ∨ max start finish < destination)) (h : start ≠ finish)
    (e : Error) :
    pick sign increment destination unit mode low high start finish ≠ .error e := by
  unfold pick
  rw [if_neg hin, if_neg h]
  dsimp only
  split
  · rintro ⟨⟩
  · rintro ⟨⟩

/-- The span that is picked is one of the two candidates. -/
theorem Nudge.span_of_pick {sign increment destination start finish : Int} {unit : TimeUnit}
    {mode : RoundingMode} {low high : Candidate} {nudge : Nudge}
    (h : pick sign increment destination unit mode low high start finish = .ok nudge) :
    nudge.span = low.span ∨ nudge.span = high.span := by
  unfold pick at h
  split at h
  · cases h
  · split at h
    · cases h
    · dsimp only at h
      split at h
      · obtain rfl := Except.ok.inj h
        exact .inr rfl
      · obtain rfl := Except.ok.inj h
        exact .inl rfl

namespace Approaches

/-- The span that is rounded to one of the candidates in months keeps its years. -/
theorem years_of_of_eq_ok (h : Approaches c origin target options span)
    (hu : options.smallest = .month) {n : Int} {nudge : Nudge}
    (hn : Nudge.of span.heading span n origin c options.increment options.smallest options.mode =
      .ok nudge) :
    nudge.span.years = span.years := by
  rw [Nudge.of_eq h.sound] at hn
  obtain ⟨start, -, hn⟩ := bind_eq_ok hn
  obtain ⟨finish, -, hn⟩ := bind_eq_ok hn
  rcases Nudge.span_of_pick hn with hspan | hspan <;> rw [hspan, hu] <;> rfl

section

variable (h : Approaches c origin target options span)
  (hw : c.WithinWord origin (span.roundedUp options.smallest options.increment))
include h hw

/-- **A span is not rounded in one unit** only where one of the two candidates is refused. -/
theorem of_eq_error {e : Error}
    (hn : Nudge.of span.heading span
      (target.count * TimeUnit.nanoseconds .day) origin c options.increment options.smallest
        options.mode = .error e) :
    c.add origin (span.roundedDown options.smallest options.increment) .constrain = .error e ∨
      c.add origin (span.roundedUp options.smallest options.increment) .constrain = .error e := by
  rw [Nudge.of_eq h.sound] at hn
  rcases bind_eq_error hn with hdown | ⟨start, hstart, hn⟩
  · exact .inl (Calendar.add_of_reach_eq_error hdown)
  · rcases bind_eq_error hn with hup | ⟨finish, hfinish, hn⟩
    · exact .inr (Calendar.add_of_reach_eq_error hup)
    · -- both candidates are represented, and the destination lies between them
      obtain ⟨lower, hlower, rfl⟩ := Calendar.add_of_reach hstart
      obtain ⟨upper, hupper, rfl⟩ := Calendar.add_of_reach hfinish
      obtain ⟨hbelow, habove, hapart⟩ := h.between hw hlower hupper
      refine absurd hn (Nudge.pick_ne_error ?_ ?_ e)
      · simp only [TimeUnit.nanoseconds]
        rcases span.heading_cases with hs | hs <;> rw [hs] at hbelow habove <;> omega
      · simp only [TimeUnit.nanoseconds]
        omega

/-- **A span is not rounded** only where a candidate leads out of the represented range: one of the
two that enclose the destination, or the year that months are carried into. -/
theorem roundRelative_eq_error {e : Error}
    (hr : roundRelative span
      (target.count * TimeUnit.nanoseconds .day) origin c false options.largest options.increment
        options.smallest options.mode = .error e) :
    ∃ s, (s = span.roundedDown options.smallest options.increment ∨
      s = span.roundedUp options.smallest options.increment ∨
      (options.largest = .year ∧ options.smallest = .month) ∧
        s = { years := span.years + span.heading }) ∧
      c.LeadsOut origin s e := by
  rw [roundRelative_eq h.sound] at hr
  rcases bind_eq_error hr with hn | ⟨nudge, hnudge, hr⟩
  · rcases h.of_eq_error hw hn with hdown | hup
    · exact ⟨_, .inl rfl, Calendar.leadsOut_of_add h.origin_valid h.origin_inLimits
        (DateSpan.dayCount_cut h.sound.smallest _ _) h.withinWord_lower hdown⟩
    · exact ⟨_, .inr (.inl rfl), Calendar.leadsOut_of_add h.origin_valid h.origin_inLimits
        (DateSpan.dayCount_cut h.sound.smallest _ _) hw hup⟩
  · split at hr
    · next hfills =>
      rcases bind_eq_error hr with hyear | ⟨full, -, hr⟩
      · have hadd := Calendar.add_of_reach_eq_error hyear
        rw [DateSpan.grow, h.years_of_of_eq_ok hfills.2.2 hnudge] at hadd
        exact ⟨_, .inr (.inr ⟨hfills.2, rfl⟩),
          Calendar.leadsOut_of_add h.origin_valid h.origin_inLimits rfl
            (h.withinWord_of_small h.small_year) hadd⟩
      · split at hr
        · cases hr
        · cases hr
    · cases hr

end

end Approaches

/-- **Rounding fails only where a candidate is not represented.** The difference of two represented
dates, in years or months, is rounded by two candidates, multiples of the increment in its smallest
unit. If both lead to represented dates, the destination lies between these, and they are not the
same. So nothing is refused but a candidate, or the year that months may be carried into, that leads
out of the represented range, for the date that it leads to; the destination is never outside, and
the fraction of the way never has the denominator zero. The increment is one that is read, or any
other from which the days to the upper candidate can be counted in a word. -/
theorem Calendar.candidates_enclose (c : Calendar) (origin target : IsoDate) (hv : origin.Valid)
    (hv' : target.Valid) (hl : origin.InLimits) (hl' : target.InLimits) (ha : options.Sound)
    (hinc : options.increment ≤ Value.maxIncrement ∨
      ∀ span, c.difference origin target options.largest = .ok span →
        c.WithinWord origin (span.roundedUp options.smallest options.increment)) :
    ∃ span destination low high, c.difference origin target options.largest = .ok span ∧
      target.epochNanoseconds = .ok destination ∧
      Nudge.lower span options.smallest options.increment = .ok low ∧
      Nudge.candidate span options.smallest (low.count + options.increment * span.heading) =
        .ok high ∧
      (∀ lower upper, c.add origin low.span .constrain = .ok lower →
        c.add origin high.span .constrain = .ok upper →
        target.Between lower upper ∧ lower ≠ upper) ∧
      ∀ e,
        roundRelative span destination origin c false options.largest options.increment
          options.smallest options.mode = .error e →
        (∃ s, (s = low.span ∨ s = high.span ∨
          (options.largest = .year ∧ options.smallest = .month) ∧
            s = { years := span.years + span.heading }) ∧
          c.LeadsOut origin s e) ∧
        (∀ unit first second, e ≠ .outsideBracket unit first second) ∧ e ≠ .zeroDenominator := by
  obtain ⟨span, hspan⟩ := exists_difference c hv hv' hl hl' ha.largest
  have happroaches := approaches_difference ha hv hv' hl hl' hspan
  have hw := hinc.elim happroaches.withinWord_upper fun h => h span hspan
  have hnext : span.multiple options.smallest options.increment * options.increment +
      options.increment * span.heading =
        (span.multiple options.smallest options.increment + span.heading) * options.increment := by
    ring
  refine ⟨span, _, _, _, hspan, IsoDate.epochNanoseconds_eq hv' (IsoDate.fitsWord_of_date hv' hl'),
    Nudge.lower_eq ha.smallest ha.one_le_increment span, Nudge.candidate_eq ha.smallest span _, ?_,
    ?_⟩
  · intro lower upper hlower hupper
    dsimp only at hlower hupper
    rw [hnext] at hupper
    obtain ⟨hbelow, habove, hapart⟩ := happroaches.between hw hlower hupper
    have hlv := (happroaches.count_of_add happroaches.withinWord_lower
      (DateSpan.dayCount_cut ha.smallest _ _) hlower).1
    have huv := (happroaches.count_of_add hw (DateSpan.dayCount_cut ha.smallest _ _) hupper).1
    refine ⟨IsoDate.between_of_sign span.heading_cases hv' hlv huv hbelow habove, ?_⟩
    rintro rfl
    exact hapart rfl
  · intro e he
    obtain ⟨s, hcases, hout⟩ := happroaches.roundRelative_eq_error hw he
    obtain ⟨reached, -, rfl⟩ := hout.error_eq
    dsimp only
    rw [hnext]
    refine ⟨⟨s, hcases, hout⟩, ?_, ?_⟩
    · rintro unit first second ⟨⟩
    · rintro ⟨⟩

/-- A year back from the last day of the Hebrew leap month, which is cut off to the last day of Adar
and so to the destination itself. -/
theorem Calendar.candidates_enclose_adarI5784 :
    ∃ lower upper, hebrew.add ⟨2024, 3, 10⟩ { years := -1 } .constrain = .ok lower ∧
      hebrew.add ⟨2024, 3, 10⟩ { years := -2 } .constrain = .ok upper ∧
      (⟨2023, 3, 22⟩ : IsoDate).Between lower upper ∧ lower ≠ upper := by
  have ha : (⟨.year, .year, .halfEven, 1⟩ : DifferenceOptions).Sound :=
    ⟨.inl rfl, .inl rfl, fun _ => rfl, le_rfl⟩
  have hexact : hebrew.difference ⟨2024, 3, 10⟩ ⟨2023, 3, 22⟩ .year = .ok { years := -1 } := by
    decide +kernel
  have hlower : (hebrew.add ⟨2024, 3, 10⟩ { years := -1 } .constrain).isOk = true := by
    decide +kernel
  have hupper : (hebrew.add ⟨2024, 3, 10⟩ { years := -2 } .constrain).isOk = true := by
    decide +kernel
  obtain ⟨lower, hlower⟩ := exists_of_isOk hlower
  obtain ⟨upper, hupper⟩ := exists_of_isOk hupper
  obtain ⟨span, destination, low, high, hspan, -, hlow, hhigh, hencloses, -⟩ :=
    candidates_enclose hebrew ⟨2024, 3, 10⟩ ⟨2023, 3, 22⟩ (by decide) (by decide) (by decide)
      (by decide) ha (.inl (by decide))
  obtain rfl := Except.ok.inj (hexact.symm.trans hspan)
  obtain rfl : (⟨-1, { years := -1 }⟩ : Candidate) = low := Except.ok.inj hlow
  obtain rfl : (⟨-2, { years := -2 }⟩ : Candidate) = high := Except.ok.inj hhigh
  exact ⟨lower, upper, hlower, hupper, hencloses lower upper hlower hupper⟩

/-- **An increment that leads beyond a word.** From the first day that is counted nothing is left
between the origin and the destination. Years whose months wrap to it lead back, and the fraction of
the way has the denominator zero; years that no word holds are refused, though not for a date
outside the range. -/
theorem Calendar.candidate_beyondWord :
    iso8601.difference ⟨1970, 1, 1⟩ ⟨1970, 1, 1⟩ .year = .ok {} ∧
      roundRelative {} 0 ⟨1970, 1, 1⟩ iso8601 false .year (2 ^ 62) .year .trunc =
        .error .zeroDenominator ∧
      roundRelative {} 0 ⟨1970, 1, 1⟩ iso8601 false .year (10 ^ 30) .year .trunc =
        .error (.dateBeyondWord (1970 + 10 ^ 30) 1 1) := by
  refine ⟨?_, ?_, ?_⟩ <;> decide +kernel

end Almanac
