import Almanac.Iso.Printer
import Almanac.Proofs.Grammar.Accepted
import Almanac.Proofs.Iso.DayCount

/-!
# Written dates are read

The text of a date, or of a month, is read as what it was written for: the year in each of its
forms, the month, the day where it is written, and the calendar where it is named.

* `WrittenDate.writesYear_yearChars`: **a written year** is a year, and never a negative zero.
* `CalendarDisplay.exists_bodies`, `CalendarDisplay.calendar?_annotations`: the calendar of a
  suffix.
* `IsoDate.parse_day`, `IsoDate.parse_month`: a date and a month in either form, with what follows
  them.
* `IsoDate.parse_dateChars`, `IsoDate.parse_monthChars`: **the text of a date and of a month** are
  read.
-/

namespace Almanac

open Text (WritesIn paddedChars paddedDigits)
open WrittenDate (IsBody bracket bracketed calendar? suffixOf)

namespace WrittenDate

theorem writesIn_paddedDigits {width n : Nat} (h : n < 10 ^ (width + 1)) :
    WritesIn (width + 1) (paddedDigits (width + 1) n) n :=
  ⟨Text.length_paddedDigits h, Text.writes_paddedDigits _ n⟩

theorem writesIn_two {n : Int} (h₀ : 0 ≤ n) (h : n < 100) :
    WritesIn 2 (paddedChars 2 n) n.toNat := by
  rw [paddedChars, if_neg (by omega), show n.natAbs = n.toNat by omega]
  exact writesIn_paddedDigits (by omega)

/-- The text of a year. -/
theorem writesYear_yearChars {year : Int} (h : year.natAbs < 1000000) :
    WritesYear (Iso.yearChars year) year := by
  unfold Iso.yearChars
  split
  · have hyear := WritesYear.four (writesIn_paddedDigits (show year.natAbs < 10 ^ (3 + 1) by omega))
    rwa [Int.natAbs_of_nonneg (by omega)] at hyear
  · split
    · have hyear :=
        WritesYear.minus (writesIn_paddedDigits (show year.natAbs < 10 ^ (5 + 1) by omega))
      rwa [show -(year.natAbs : Int) = year by omega] at hyear
    · have hyear :=
        WritesYear.plus (writesIn_paddedDigits (show year.natAbs < 10 ^ (5 + 1) by omega))
      rwa [Int.natAbs_of_nonneg (by omega)] at hyear

/-- No year is written as a negative zero. -/
theorem yearChars_ne_negativeZero {year : Int} (h : year.natAbs < 1000000) :
    Iso.yearChars year ≠ negativeZeroYear := by
  intro heq
  -- such a text is read as the year zero, which is written without a sign
  have hread := takeYear_append (writesYear_yearChars h) []
  rw [heq] at hread
  have hzero : takeYear (negativeZeroYear ++ []) = some (0, []) := rfl
  obtain ⟨rfl, -⟩ := Prod.mk.inj (Option.some.inj (hzero.symm.trans hread))
  exact absurd heq (by decide +kernel)

end WrittenDate

namespace CalendarDisplay

/-- The annotations that a suffix consists of. -/
def annotations (c : Calendar) : CalendarDisplay → List Suffix
  | never => []
  | auto => if c = .iso8601 then [] else [⟨false, "u-ca=".toList ++ c.id.toList⟩]
  | always => [⟨false, "u-ca=".toList ++ c.id.toList⟩]
  | critical => [⟨true, "u-ca=".toList ++ c.id.toList⟩]

/-- The calendar that a suffix names, if it names one. -/
def named? (c : Calendar) : CalendarDisplay → Option String
  | never => none
  | auto => if c = .iso8601 then none else some c.id
  | always | critical => some c.id

/-- **The calendar that a suffix names** is read from its annotations. -/
theorem calendar?_annotations (c : Calendar) (how : CalendarDisplay) :
    calendar? (how.annotations c) = .ok (how.named? c) := by
  cases how <;> cases c <;> rfl

/-- A suffix consists of its annotations in brackets. -/
theorem exists_bodies (c : Calendar) (how : CalendarDisplay) :
    ∃ bodies : List (List Char), how.suffix c = bodies.flatMap bracket ∧ (∀ b ∈ bodies, IsBody b) ∧
      bodies.map suffixOf = how.annotations c := by
  obtain ⟨bodies, hbodies, hmap⟩ : ∃ bodies, bracketed none (how.suffix c) = some bodies ∧
      bodies.map suffixOf = how.annotations c := by
    cases how <;> cases c <;> exact ⟨_, rfl, rfl⟩
  obtain ⟨hsuffix, hall⟩ := WrittenDate.bracketed_eq_some_iff.1 hbodies
  exact ⟨bodies, hsuffix, hall, hmap⟩

end CalendarDisplay

namespace IsoDate

open WrittenDate

variable {d : IsoDate} {md t o : List Char} {bodies : List (List Char)} {time offset : Option Clock}
  {calendar : Option String}

/-- The month and the day of a valid date have two digits. -/
theorem writesIn_of_valid (hv : d.Valid) :
    WritesIn 2 (paddedChars 2 d.month) d.month.toNat ∧
    WritesIn 2 (paddedChars 2 d.day) d.day.toNat ∧
      ((d.month.toNat : Nat) : Int) = d.month ∧ ((d.day.toNat : Nat) : Int) = d.day := by
  have hlength := Iso.daysInMonth_le d.year d.month
  obtain ⟨hm₁, hm₂, hd₁, hd₂⟩ := hv
  exact ⟨writesIn_two (by omega) (by omega), writesIn_two (by omega) (by omega),
    Int.toNat_of_nonneg (by omega), Int.toNat_of_nonneg (by omega)⟩

/-- **A date with what follows it** is read, in either form. -/
theorem parse_day (hv : d.Valid) (hyear : d.year.natAbs < 1000000)
    (hday : WritesMonthDay md d.month.toNat (some d.day.toNat)) (ht : WritesTime t time)
    (htime : ∀ c ∈ time, c.hour ≤ 23 ∧ c.minute ≤ 59 ∧ c.second ≤ 60)
    (ho : WritesOffset o (offset.map .ofClock))
    (hoffset : ∀ z ∈ offset, time ≠ none ∧ z.hour ≤ 23 ∧ z.minute ≤ 59)
    (hbodies : ∀ b ∈ bodies, IsBody b)
    (hcalendar : calendar? (bodies.map suffixOf) = .ok calendar) :
    ParsedMonth.parse
      (String.ofList (Iso.yearChars d.year ++ (md ++ (t ++ (o ++ bodies.flatMap bracket))))) =
        .ok ⟨d, calendar⟩ := by
  obtain ⟨-, -, hm, hd⟩ := writesIn_of_valid hv
  have hdate : IsoDate.mk d.year d.month.toNat d.day.toNat = d := by rw [hm, hd]
  have hread :=
    ParsedMonth.parse_spelled (writesYear_yearChars hyear) (yearChars_ne_negativeZero hyear) hday
      (hdate.symm ▸ hv) ht (fun c hc => ⟨nofun, htime c hc⟩) ho hoffset hbodies hcalendar
  rwa [Option.getD_some, hdate] at hread

/-- **A month with annotations** is read as its first day, in either form. -/
theorem parse_month (hv : d.Valid) (hyear : d.year.natAbs < 1000000)
    (hmonth : WritesMonthDay md d.month.toNat none) (hbodies : ∀ b ∈ bodies, IsBody b)
    (hcalendar : calendar? (bodies.map suffixOf) = .ok calendar) :
    ParsedMonth.parse (String.ofList (Iso.yearChars d.year ++ (md ++ bodies.flatMap bracket))) =
      .ok ⟨{ d with day := 1 }, calendar⟩ := by
  obtain ⟨-, -, hm, -⟩ := writesIn_of_valid hv
  have hfirst : IsoDate.Valid ⟨d.year, d.month.toNat, 1⟩ := by
    rw [hm]
    exact ⟨hv.1, hv.2.1, le_rfl, le_trans hv.2.2.1 hv.2.2.2⟩
  have hoffset : WritesOffset [] (Option.map .ofClock none) := .none
  have hread :=
    ParsedMonth.parse_spelled (writesYear_yearChars hyear)
    (yearChars_ne_negativeZero hyear) hmonth hfirst .none nofun hoffset nofun hbodies hcalendar
  rwa [Option.getD_none, hm] at hread

/-- The date that a text of a month gives: the anchor, or where no day is written the first of its
ISO month. -/
def ofMonthChars (d : IsoDate) (c : Calendar) (how : CalendarDisplay) : IsoDate :=
  if c ≠ .iso8601 || how.isForced then d else { d with day := 1 }

/-- **The text of a date is read** as the date and its calendar. -/
theorem parse_dateChars (hv : d.Valid) (hyear : d.year.natAbs < 1000000) (c : Calendar)
    (how : CalendarDisplay) :
    ParsedMonth.parse (String.ofList (d.dateChars c how)) = .ok ⟨d, how.named? c⟩ := by
  obtain ⟨bodies, hsuffix, hbodies, hmap⟩ := how.exists_bodies c
  obtain ⟨hmonth, hday, -⟩ := writesIn_of_valid hv
  have hoffset : WritesOffset [] (Option.map .ofClock none) := .none
  have hread := parse_day hv hyear (.extendedDay hmonth hday) .none nofun hoffset nofun hbodies
    (hmap.symm ▸ how.calendar?_annotations c)
  rw [← hsuffix] at hread
  simpa only [dateChars, fullChars, yearMonthChars, List.append_assoc, List.cons_append,
    List.nil_append] using hread

/-- **The text of a month is read** as the date that it shows and its calendar. -/
theorem parse_monthChars (hv : d.Valid) (hyear : d.year.natAbs < 1000000) (c : Calendar)
    (how : CalendarDisplay) :
    ParsedMonth.parse (String.ofList (d.monthChars c how)) =
      .ok ⟨d.ofMonthChars c how, how.named? c⟩ := by
  unfold monthChars ofMonthChars
  split
  · exact parse_dateChars hv hyear c how
  · obtain ⟨bodies, hsuffix, hbodies, hmap⟩ := how.exists_bodies c
    have hread := parse_month hv hyear (.extendedMonth (writesIn_of_valid hv).1) hbodies
      (hmap.symm ▸ how.calendar?_annotations c)
    rw [← hsuffix] at hread
    simpa only [yearMonthChars, List.append_assoc] using hread

end IsoDate

end Almanac
