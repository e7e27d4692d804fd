import Almanac.Proofs.Grammar.Date

/-!
# Accepted months and dates

Which of the spelled texts are accepted, as conditions on what they spell: the date exists, a time
follows a day and an offset a time, a time keeps to the hours, minutes and seconds that there are,
and an offset to the hours and minutes. The seconds of an offset are spelled like those of a time,
but nothing is asked of them.

* `WrittenDate.Admitted`: the conditions before the annotations; `WrittenDate.fault?_eq_none_iff`.
* `WrittenDate.calendar?_eq_ok_iff`: the conditions on the annotations.
* `ParsedMonth.parse_eq_ok_iff`: **a text is accepted** if and only if it spells something that
  meets them.
* `ParsedMonth.parse_spelled`: a spelled date with what follows it.
* `WrittenDate.InRange`: every part within its range.
* `ParsedMonth.accepted_in_range`: what an accepted text spells, and that another second of the
  offset would do as well; `ParsedMonth.accepted_offset_second`: a second that there is not.
-/

namespace Almanac

namespace WrittenDate

/-- What is asked of the parts before the annotations. -/
structure Admitted (w : WrittenDate) : Prop where
  positive : w.negativeZero = false
  valid : w.iso.Valid
  time : ∀ t ∈ w.time, w.day ≠ none ∧ t.hour ≤ 23 ∧ t.minute ≤ 59 ∧ t.second ≤ 60
  offset : ∀ o ∈ w.offset, w.time ≠ none ∧ ∃ z, o = .ofClock z ∧ z.hour ≤ 23 ∧ z.minute ≤ 59

/-- A date that exists, a time of a day, a leap second included, and an offset in numbers, every
part within its range. -/
structure InRange (w : WrittenDate) : Prop where
  valid : w.iso.Valid
  time : ∀ t ∈ w.time, t.hour ≤ 23 ∧ t.minute ≤ 59 ∧ t.second ≤ 60
  offset : ∀ o ∈ w.offset, ∃ z, o = .ofClock z ∧ z.hour ≤ 23 ∧ z.minute ≤ 59 ∧ z.second ≤ 59

/-- The calendar that the annotations name, if they name any: the first of several, of which none is
critical. -/
def NamesFirst (names : List (Bool × List Char)) (calendar : Option String) : Prop :=
  (1 < names.length → ∀ n ∈ names, n.1 = false) ∧
    calendar = names.head?.map fun n => String.ofList n.2

variable {w w' : WrittenDate} {s : List Char} {suffixes : List Suffix} {calendar : Option String}
  {p : ParsedMonth}

theorem Admitted.nested (h : w.Admitted) : w.Nested := by
  constructor
  · intro htime
    obtain ⟨t, ht⟩ := Option.ne_none_iff_exists'.1 htime
    exact (h.time t ht).1
  · intro hoffset
    obtain ⟨o, ho⟩ := Option.ne_none_iff_exists'.1 hoffset
    exact (h.offset o ho).1

theorem timeFault?_eq_none_iff :
    w.timeFault? = none ↔ ∀ t ∈ w.time, w.day ≠ none ∧ t.hour ≤ 23 ∧ t.minute ≤ 59 ∧
    t.second ≤ 60 := by
  unfold timeFault?
  cases w.time with
  | none => simp
  | some t => cases w.day <;> simp [isTime, and_assoc]

theorem offsetFault?_eq_none_iff :
    w.offsetFault? = none ↔
      ∀ o ∈ w.offset, w.time ≠ none ∧ ∃ z, o = .ofClock z ∧ z.hour ≤ 23 ∧ z.minute ≤ 59 := by
  unfold offsetFault?
  match w.offset with
  | none => simp
  | some .utc => simp
  | some (.ofClock z) => cases w.time <;> simp [isOffset]

/-- **Nothing is wrong** before the annotations if and only if the conditions are met. -/
theorem fault?_eq_none_iff : w.fault? = none ↔ w.Admitted := by
  unfold fault?
  constructor
  · intro h
    split at h
    · cases h
    · next hpositive =>
      rw [Option.orElse_eq_none, Option.orElse_eq_none, timeFault?_eq_none_iff,
        offsetFault?_eq_none_iff] at h
      obtain ⟨htime, hoffset, hvalid⟩ := h
      refine ⟨by simpa using hpositive, ?_, htime, hoffset⟩
      by_contra hnot
      rw [if_neg hnot] at hvalid
      cases hvalid
  · rintro ⟨hpositive, hvalid, htime, hoffset⟩
    rw [hpositive, timeFault?_eq_none_iff.2 htime, offsetFault?_eq_none_iff.2 hoffset,
      if_pos hvalid]
    rfl

/-- **The annotations are accepted** if they are notes, after a zone or not, and none of several
calendars is critical. -/
theorem calendar?_eq_ok_iff :
    calendar? suffixes = .ok calendar ↔ ∃ (zone : Option Suffix) (notes : List Suffix),
      suffixes = zone.toList ++ notes ∧ (∀ z ∈ zone, z.IsZone) ∧ (∀ a ∈ notes, a.IsNote) ∧
        NamesFirst (notes.filterMap Suffix.named?) calendar := by
  unfold calendar?
  constructor
  · intro h
    split at h
    · cases h
    · next names hnames =>
      obtain ⟨zone, notes, hsuffixes, hzone, hnotes, rfl⟩ := calendars_eq_ok_iff.1 hnames
      split at h
      · cases h
      · next hcritical =>
        refine ⟨zone, notes, hsuffixes, hzone, hnotes, ?_, (Except.ok.inj h).symm⟩
        intro hlength n hn
        by_contra hc
        exact hcritical ⟨hlength, List.any_eq_true.2 ⟨n, hn, by simpa using hc⟩⟩
  · rintro ⟨zone, notes, hsuffixes, hzone, hnotes, hcritical, rfl⟩
    have hnames := calendars_eq_ok_iff.2 ⟨zone, notes, hsuffixes, hzone, hnotes, rfl⟩
    rw [hnames]
    refine if_neg ?_
    rintro ⟨hlength, hany⟩
    obtain ⟨n, hn, hc⟩ := List.any_eq_true.1 hany
    rw [hcritical hlength n hn] at hc
    cases hc

theorem check_eq_ok_iff :
    w.check = .ok p ↔ w.Admitted ∧ calendar? w.suffixes = .ok p.calendar ∧ w.iso = p.iso := by
  unfold check
  split
  · next hfault =>
    refine iff_of_false (fun h => by cases h) fun h => ?_
    rw [fault?_eq_none_iff.2 h.1] at hfault
    cases hfault
  · next hnone =>
    rw [and_iff_right (fault?_eq_none_iff.1 hnone)]
    cases calendar? w.suffixes with
    | error fault => exact iff_of_false (fun h => by cases h) fun h => by cases h.1
    | ok calendar =>
      obtain ⟨iso, name⟩ := p
      simp only [Except.map, Except.ok.injEq, ParsedMonth.mk.injEq]
      exact And.comm

/-- **A text can be spelled out in one way only**, if all that belongs together stands together. -/
theorem eq_of_spells (h : Spells s w) (h' : Spells s w') (hw : w.Nested) (hw' : w'.Nested) :
    w = w' :=
  Option.some.inj ((ofChars?_of_spells h hw).symm.trans (ofChars?_of_spells h' hw'))

end WrittenDate

namespace ParsedMonth

open WrittenDate

variable {s : String} {p : ParsedMonth}

/-- **A text is accepted** if and only if it spells a date that is admitted, and annotations that
are. -/
theorem parse_eq_ok_iff :
    parse s = .ok p ↔ ∃ w, Spells s.toList w ∧ w.Admitted ∧ calendar? w.suffixes = .ok p.calendar ∧
    w.iso = p.iso := by
  unfold parse
  constructor
  · intro h
    split at h
    · cases h
    · next w hw =>
      cases hcheck : w.check with
      | error fault =>
        rw [hcheck] at h
        cases h
      | ok q =>
        rw [hcheck] at h
        obtain rfl := Except.ok.inj h
        exact ⟨w, spells_of_ofChars? hw, check_eq_ok_iff.1 hcheck⟩
  · rintro ⟨w, hspells, hw⟩
    rw [ofChars?_of_spells hspells hw.1.nested]
    simp only [check_eq_ok_iff.2 hw]
    rfl

/-- **A spelled date is read** with what follows it. -/
theorem parse_spelled {y md t o : List Char} {bodies : List (List Char)} {year : Int} {month : Nat}
    {day : Option Nat} {time offset : Option Clock} {calendar : Option String}
    (hyear : WritesYear y year) (hpositive : y ≠ negativeZeroYear)
    (hmonth : WritesMonthDay md month day) (hvalid : IsoDate.Valid ⟨year, month, day.getD 1⟩)
    (ht : WritesTime t time) (htime : ∀ c ∈ time, day ≠ none ∧ c.hour ≤ 23 ∧ c.minute ≤ 59 ∧
      c.second ≤ 60)
    (ho : WritesOffset o (offset.map .ofClock))
    (hoffset : ∀ z ∈ offset, time ≠ none ∧ z.hour ≤ 23 ∧ z.minute ≤ 59)
    (hbodies : ∀ b ∈ bodies, IsBody b)
    (hcalendar : calendar? (bodies.map suffixOf) = .ok calendar) :
    parse (String.ofList (y ++ (md ++ (t ++ (o ++ bodies.flatMap bracket))))) =
      .ok ⟨⟨year, month, day.getD 1⟩, calendar⟩ := by
  let w : WrittenDate :=
    { year, negativeZero := y = negativeZeroYear, month, day, time, offset := offset.map .ofClock,
      suffixes := bodies.map suffixOf }
  refine parse_eq_ok_iff.2 ⟨w, ?_, ⟨decide_eq_false hpositive, hvalid, htime, ?_⟩, hcalendar, rfl⟩
  · rw [String.toList_ofList]
    exact .mk hyear hmonth ht ho hbodies
  · intro z hz
    obtain ⟨c, hc, rfl⟩ := Option.mem_map.1 hz
    obtain ⟨htime', hhour, hminute⟩ := hoffset c hc
    exact ⟨htime', c, rfl, hhour, hminute⟩

/-- **What an accepted text spells.** There is one way to read it: an ISO date that exists, a time
within the hours, minutes and seconds of a day, a leap second included, and an offset in numbers
within hours and minutes. The seconds of the offset have no bound: with any others in their place
the text is accepted alike. So everything is within its range exactly if they are. -/
theorem accepted_in_range (h : parse s = .ok p) :
    ∃ w, Spells s.toList w ∧ (∀ w', Spells s.toList w' → w'.Nested → w' = w) ∧ w.iso = p.iso ∧
      p.iso.Valid ∧
      (∀ t ∈ w.time, t.hour ≤ 23 ∧ t.minute ≤ 59 ∧ t.second ≤ 60) ∧
      (∀ o ∈ w.offset, ∃ z, o = .ofClock z ∧ z.hour ≤ 23 ∧ z.minute ≤ 59 ∧
        ∀ (s' : String) (second : Nat),
        Spells s'.toList { w with offset := some (.ofClock { z with second }) } →
          parse s' = .ok p) ∧
      (w.InRange ↔ ∀ z, w.offset = some (.ofClock z) → z.second ≤ 59) := by
  obtain ⟨w, hspells, hw, hcalendar, hiso⟩ := parse_eq_ok_iff.1 h
  refine ⟨w, hspells, fun w' h' hnested => eq_of_spells h' hspells hnested hw.nested, hiso,
    hiso ▸ hw.valid, fun t ht => (hw.time t ht).2, fun o ho => ?_, ?_,
      fun hsecond => ⟨hw.valid, fun t ht => (hw.time t ht).2, ?_⟩⟩
  · obtain ⟨htime, z, rfl, hhour, hminute⟩ := hw.offset o ho
    refine ⟨z, rfl, hhour, hminute, fun s' second hspells' => ?_⟩
    have hw' : Admitted { w with offset := some (.ofClock { z with second }) } := by
      refine ⟨hw.positive, hw.valid, hw.time, ?_⟩
      rintro _ ⟨⟩
      exact ⟨htime, _, rfl, hhour, hminute⟩
    exact parse_eq_ok_iff.2 ⟨_, hspells', hw', hcalendar, hiso⟩
  · intro hrange z hz
    obtain ⟨_, ⟨⟩, -, -, hsecond⟩ := hrange.offset _ hz
    exact hsecond
  · intro o ho
    obtain ⟨-, z, rfl, hhour, hminute⟩ := hw.offset o ho
    exact ⟨z, rfl, hhour, hminute, hsecond z ho⟩

/-- A leap second, in a text with an offset, a zone and two calendars. -/
theorem accepted_in_range_leap_second :
    parse "20241231t235960,5-0330[!America/St_Johns][u-ca=hebrew][u-ca=coptic]" =
      .ok ⟨⟨2024, 12, 31⟩, some "hebrew"⟩ ∧
      ∃ w, Spells "20241231t235960,5-0330[!America/St_Johns][u-ca=hebrew][u-ca=coptic]".toList w ∧
        (∀ w',
          Spells "20241231t235960,5-0330[!America/St_Johns][u-ca=hebrew][u-ca=coptic]".toList w' →
          w'.Nested → w' = w) ∧
        w.iso = ⟨2024, 12, 31⟩ ∧ w.InRange := by
  have hparse : parse "20241231t235960,5-0330[!America/St_Johns][u-ca=hebrew][u-ca=coptic]" =
      .ok ⟨⟨2024, 12, 31⟩, some "hebrew"⟩ := by decide +kernel
  obtain ⟨w, hspells, hunique, hiso, -, -, -, hrange⟩ := accepted_in_range hparse
  refine ⟨hparse, w, hspells, hunique, hiso, hrange.2 fun z hz => ?_⟩
  have hread :
      ofChars? "20241231t235960,5-0330[!America/St_Johns][u-ca=hebrew][u-ca=coptic]".toList =
        some { year := 2024, month := 12, day := some 31, time := some ⟨23, 59, 60⟩,
               offset := some (.ofClock ⟨3, 30, 0⟩),
               suffixes := [⟨true, "America/St_Johns".toList⟩, ⟨false, "u-ca=hebrew".toList⟩,
                            ⟨false, "u-ca=coptic".toList⟩] } := by
    decide +kernel
  rw [← hunique _ (spells_of_ofChars? hread) ⟨fun _ => nofun, fun _ => nofun⟩] at hz
  cases hz
  decide

/-- The ninety-ninth second of an offset is accepted. -/
theorem accepted_offset_second :
    ¬ ∀ (s : String) (p : ParsedMonth) (w : WrittenDate),
      parse s = .ok p → Spells s.toList w → w.Nested → w.InRange := by
  intro hall
  have hparse : parse "2024-06-15T12:00+01:00:99" = .ok ⟨⟨2024, 6, 15⟩, none⟩ := by decide +kernel
  have hread : ofChars? "2024-06-15T12:00+01:00:99".toList =
      some { year := 2024, month := 6, day := some 15, time := some ⟨12, 0, 0⟩,
             offset := some (.ofClock ⟨1, 0, 99⟩) } := by
    decide +kernel
  have hrange := hall _ _ _ hparse (spells_of_ofChars? hread) ⟨fun _ => nofun, fun _ => nofun⟩
  obtain ⟨_, ⟨⟩, -, -, hsecond⟩ := hrange.offset _ rfl
  exact absurd hsecond (by decide)

end ParsedMonth

end Almanac
