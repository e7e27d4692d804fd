import Almanac.Duration.Printer
import Almanac.Proofs.Grammar.Duration

/-!
# Durations as they are written

The text of a duration spells its components: the counts that are not zero, and the seconds with a
fraction, which is written without its final zeros and comes to the same number of nanoseconds. So
the components are read back.

* `Component.shown`, `Component.writes_component`: a count that is left out if it is zero.
* `Component.exists_fraction`: the fraction of a second.
* `Duration.wholeSeconds`, `Duration.secondFraction`: the seconds that a duration shows.
* `Components.spells_chars`: **the text of a duration spells its components**.
* `Components.fault?_written`, `Components.magnitudes_written`: they are at no fault, and what they
  come to.
-/

namespace Almanac

open Text (digits number)

/-- Nothing is written of a component exactly if there is none. -/
theorem WritesComponent.eq_nil_iff {fractional : Bool} {designator : Char} {front : List Char}
    {component : Option Component} (h : WritesComponent fractional designator front component) :
    front = [] ↔ component = .none := by
  cases h <;> simp

namespace Component

variable {n ns : Nat}

/-- A count as a component: none if it is zero. -/
def shown (n : Nat) : Option Component := if n = 0 then none else some ⟨n, []⟩

/-- A count is written with its designator, unless it is zero. -/
theorem writes_component (fractional : Bool) {designator : Char}
    (h : designator.toUpper = designator) (n : Nat) :
    WritesComponent fractional designator (Duration.component n designator) (shown n) := by
  unfold Duration.component shown
  split
  · exact .none
  · exact .some (Text.writes_digits n) (Text.digits_ne_nil n) .none (fun _ => rfl) (Nat.zero_le 9) h

theorem countOf_some (c : Component) : countOf (some c) = c.count := rfl

theorem countOf_shown (n : Nat) : countOf (shown n) = n := by
  unfold shown
  split
  · next h => exact h.symm
  · rfl

theorem hasFraction_shown (n : Nat) : hasFraction (shown n) = false := by
  unfold shown
  split <;> rfl

theorem fractionNanoseconds_shown (n : Nat) (unit : TimeUnit) :
    fractionNanoseconds (shown n) unit = 0 := by
  unfold shown
  split
  · rfl
  · simp only [fractionNanoseconds, number, List.foldl_nil, Nat.zero_mul, Nat.zero_div]

theorem fractionNanoseconds_second (c : Component) :
    fractionNanoseconds (some c) .second =
      number c.fraction * 1000000000 / Nat.pow 10 c.fraction.length := rfl

/-- **The fraction of a second** writes its nanoseconds, of which there are fewer than a second
has. -/
theorem exists_fraction (h : ns < 1000000000) :
    ∃ fraction, WritesFraction (Duration.fractionChars ns) fraction ∧ fraction.length ≤ 9 ∧
      number fraction * 1000000000 / Nat.pow 10 fraction.length = ns := by
  unfold Duration.fractionChars
  split
  · next hzero =>
    refine ⟨[], .none, Nat.zero_le 9, ?_⟩
    rw [hzero]
    rfl
  · next hne =>
    -- each final zero that is not written is a power of ten that the reader multiplies by
    have hlength : (Text.paddedDigits 9 ns).length = 9 :=
      Text.length_paddedDigits (show ns < 10 ^ 9 from h)
    obtain ⟨zeros, m, htrimmed, ⟨values, hvalues, rfl⟩, hm⟩ :=
      (Text.writes_paddedDigits 9 ns).exists_trimmed
    have hplaces : values.length + zeros = 9 := by
      have hsame := congrArg List.length hvalues
      rw [List.length_map, List.length_map] at hsame
      rw [htrimmed, List.length_append, List.length_replicate, hsame] at hlength
      exact hlength
    have hsome : values ≠ [] := by
      rintro rfl
      exact hne (hm.trans (Nat.zero_mul _))
    refine ⟨values, .some (.inl rfl) hvalues hsome, by omega, ?_⟩
    have hpower : 1000000000 = 10 ^ zeros * 10 ^ values.length := by
      rw [← Nat.pow_add, Nat.add_comm, hplaces]
    change _ / 10 ^ values.length = ns
    rw [hpower, ← Nat.mul_assoc, Nat.mul_div_cancel _ (Nat.pow_pos (by decide)), hm]

end Component

namespace Duration

/-- The seconds that a duration shows, with those that its parts of a second come to. -/
def wholeSeconds (d : Duration) : Nat := d.seconds.natAbs + d.subsecond / 1000000000

/-- The nanoseconds that a duration shows as a fraction of a second. -/
def secondFraction (d : Duration) : Nat := d.subsecond % 1000000000

theorem secondFraction_lt (d : Duration) : d.secondFraction < 1000000000 := Nat.mod_lt _ (by decide)

/-- The counts that the text of a duration shows, without the sign. -/
def magnitudes (d : Duration) : DurationParts where
  years := d.years.natAbs
  months := d.months.natAbs
  weeks := d.weeks.natAbs
  days := d.days.natAbs
  hours := d.hours.natAbs
  minutes := d.minutes.natAbs
  seconds := d.wholeSeconds
  milliseconds := d.secondFraction / 1000000
  microseconds := d.secondFraction % 1000000 / 1000
  nanoseconds := d.secondFraction % 1000

theorem secondChars_eq (d : Duration) :
    d.secondChars =
      if d.wholeSeconds = 0 ∧ d.secondFraction = 0 ∧ d.dateChars ++ d.hourChars ≠ [] then []
      else digits d.wholeSeconds ++ fractionChars d.secondFraction ++ ['S'] := rfl

/-- The component of the seconds that a duration shows. -/
structure WritesSeconds (d : Duration) (seconds : Option Component) : Prop where
  writes : WritesComponent true 'S' d.secondChars seconds
  count_eq : Component.countOf seconds = d.wholeSeconds
  fraction_eq : Component.fractionNanoseconds seconds .second = d.secondFraction
  shown_of_none : seconds = none → d.dateChars ++ d.hourChars ≠ []

/-- **The seconds are written** with their fraction. -/
theorem exists_writesSeconds (d : Duration) : ∃ seconds, d.WritesSeconds seconds := by
  -- seconds of zero are left out, unless there is nothing else to be shown
  by_cases hnothing : d.wholeSeconds = 0 ∧ d.secondFraction = 0 ∧ d.dateChars ++ d.hourChars ≠ []
  · have hchars : d.secondChars = [] := by rw [secondChars_eq, if_pos hnothing]
    obtain ⟨hwhole, hfraction, hshown⟩ := hnothing
    refine ⟨none, ?_, hwhole.symm, hfraction.symm, fun _ => hshown⟩
    rw [hchars]
    exact .none
  · have hchars : d.secondChars = digits d.wholeSeconds ++
        (fractionChars d.secondFraction ++ ['S']) := by
      rw [secondChars_eq, if_neg hnothing, List.append_assoc]
    obtain ⟨fraction, hwrites, hlength, hvalue⟩ := Component.exists_fraction d.secondFraction_lt
    refine ⟨some ⟨d.wholeSeconds, fraction⟩, ?_, Component.countOf_some _, ?_, nofun⟩
    · rw [hchars]
      exact .some (Text.writes_digits _) (Text.digits_ne_nil _) hwrites nofun hlength (by decide)
    · rw [Component.fractionNanoseconds_second, hvalue]

end Duration

namespace Components

open Component (shown writes_component countOf fractionNanoseconds hasFraction)

variable {d : Duration} {seconds : Option Component}

/-- The components of the text of a duration, its seconds given. -/
def written (d : Duration) (seconds : Option Component) : Components where
  negative := d.sign < 0
  years := shown d.years.natAbs
  months := shown d.months.natAbs
  weeks := shown d.weeks.natAbs
  days := shown d.days.natAbs
  timed := d.hourChars ++ d.secondChars ≠ []
  hours := shown d.hours.natAbs
  minutes := shown d.minutes.natAbs
  seconds := seconds

/-- The end of the text of a duration: the time, if there is any. -/
def timeChars (d : Duration) : List Char :=
  if d.hourChars ++ d.secondChars = [] then [] else 'T' :: (d.hourChars ++ d.secondChars)

/-- No hours or minutes are written exactly if they are left out. -/
theorem hourChars_eq_nil_iff (d : Duration) :
    d.hourChars = [] ↔ shown d.hours.natAbs = none ∧ shown d.minutes.natAbs = none := by
  have hhours : WritesComponent true 'H' _ _ := writes_component true (by decide) d.hours.natAbs
  have hminutes : WritesComponent true 'M' _ _ := writes_component true (by decide) d.minutes.natAbs
  rw [Duration.hourChars, List.append_eq_nil_iff, hhours.eq_nil_iff, hminutes.eq_nil_iff]

/-- **The time is spelled**, if there is any. -/
theorem writes_timeChars (h : d.WritesSeconds seconds) :
    WritesTimePart (timeChars d) (written d seconds).timed (shown d.hours.natAbs)
      (shown d.minutes.natAbs) seconds := by
  unfold timeChars
  split
  · next hnone =>
    obtain ⟨hhours, hseconds⟩ := List.append_eq_nil_iff.1 hnone
    obtain ⟨hhour, hminute⟩ := (hourChars_eq_nil_iff d).1 hhours
    have htimed : (written d seconds).timed = false := decide_eq_false (not_not.2 hnone)
    rw [htimed, hhour, hminute, h.writes.eq_nil_iff.1 hseconds]
    exact .none
  · next hsome =>
    have htimed : (written d seconds).timed = true := decide_eq_true hsome
    rw [htimed, Duration.hourChars, List.append_assoc]
    exact .some (by decide) (writes_component true (by decide) _)
      (writes_component true (by decide) _) h.writes

/-- **The text of a duration spells its components.** -/
theorem spells_chars (h : d.WritesSeconds seconds) : Spells d.chars (written d seconds) := by
  have hchars :
    d.chars = (if d.sign < 0 then ['-'] else []) ++ 'P' :: (Duration.component d.years.natAbs 'Y' ++
      (Duration.component d.months.natAbs 'M' ++ (Duration.component d.weeks.natAbs 'W' ++
        (Duration.component d.days.natAbs 'D' ++ timeChars d)))) := by
    simp only [Duration.chars, Duration.dateChars, timeChars, List.append_assoc, List.cons_append]
  have hsign : WritesSign (if d.sign < 0 then ['-'] else []) (written d seconds).negative := by
    unfold written
    split
    · next hneg =>
      rw [decide_eq_true hneg]
      exact .minus
    · next hpos =>
      rw [decide_eq_false hpos]
      exact .none
  rw [hchars]
  exact .mk hsign (by decide) (writes_component false (by decide) _)
    (writes_component false (by decide) _) (writes_component false (by decide) _)
      (writes_component false (by decide) _) (writes_timeChars h)

/-- No date is written exactly if all of its components are left out. -/
theorem dateless_written_iff (d : Duration) (seconds : Option Component) :
    (written d seconds).dateless = true ↔ d.dateChars = [] := by
  have hyears : WritesComponent false 'Y' _ _ := writes_component false (by decide) d.years.natAbs
  have hmonths : WritesComponent false 'M' _ _ := writes_component false (by decide) d.months.natAbs
  have hweeks : WritesComponent false 'W' _ _ := writes_component false (by decide) d.weeks.natAbs
  have hdays : WritesComponent false 'D' _ _ := writes_component false (by decide) d.days.natAbs
  simp only [dateless, written, Bool.and_eq_true, Option.isNone_iff_eq_none, Duration.dateChars,
    List.append_eq_nil_iff, hyears.eq_nil_iff, hmonths.eq_nil_iff, hweeks.eq_nil_iff,
    hdays.eq_nil_iff]

/-- No time is written exactly if all of its components are left out. -/
theorem timeless_written_iff (h : d.WritesSeconds seconds) :
    (written d seconds).timeless = true ↔ d.hourChars ++ d.secondChars = [] := by
  simp only [timeless, written, Bool.and_eq_true, Option.isNone_iff_eq_none, List.append_eq_nil_iff,
    hourChars_eq_nil_iff, h.writes.eq_nil_iff]

/-- What is written of a duration is at no fault: there is something in it, in the time as well if
that has been begun, and only the seconds have a fraction. -/
theorem fault?_written (h : d.WritesSeconds seconds) : (written d seconds).fault? = none := by
  have htimeless := timeless_written_iff h
  have hsome : ¬ ((written d seconds).dateless && (written d seconds).timeless) = true := by
    rw [Bool.and_eq_true, dateless_written_iff, htimeless, List.append_eq_nil_iff]
    rintro ⟨hdate, hhour, hsecond⟩
    exact h.shown_of_none (h.writes.eq_nil_iff.1 hsecond) (by rw [hdate, hhour]; rfl)
  have htime : ¬ ((written d seconds).timed && (written d seconds).timeless) = true := by
    rw [Bool.and_eq_true, htimeless]
    exact fun ⟨htimed, hnone⟩ => of_decide_eq_true htimed hnone
  rw [fault?, if_neg hsome, if_neg htime]
  simp only [written, Component.hasFraction_shown, Bool.false_and, Bool.false_eq_true, if_false]

/-- **What the components come to**: the counts of the duration without its sign, the whole seconds
carried out of the parts of a second. -/
theorem magnitudes_written (h : d.WritesSeconds seconds) :
    (written d seconds).magnitudes = d.magnitudes := by
  have hns : fractionNanoseconds (written d seconds).hours .hour +
      fractionNanoseconds (written d seconds).minutes .minute +
        fractionNanoseconds (written d seconds).seconds .second = d.secondFraction := by
    simp only [written, Component.fractionNanoseconds_shown, h.fraction_eq, Nat.zero_add]
  simp only [magnitudes, hns]
  simp only [written, Component.hasFraction_shown, Component.countOf_shown, h.count_eq,
    Bool.or_self, Bool.false_eq_true, if_false, Int.natCast_zero, Int.add_zero]
  rfl

end Components

end Almanac
