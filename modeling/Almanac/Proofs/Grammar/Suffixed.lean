import Almanac.Proofs.Written

/-!
# Dates with what may follow them

A date is read as the same date whatever follows it: a time, an offset after a time, a time zone and
notes, in any of their forms. So is a month, as the first of its days, but only annotations follow
one.

* `Zone`, `Note`: annotations that are well-formed by their types; `suffixChars`: their text.
* `Note.calendar?`: the calendar that notes name, which is that of the first that names any.
* `WrittenDate.calendar?_annotations`: **annotations are read** as that calendar.
* `IsoDate.basicChars`, `IsoDate.basicMonthChars`: the forms without hyphens.
* `ParsedMonth.suffixes_keep_date`: **every written date** in all its forms.
-/

namespace Almanac

open Text (paddedChars)
open WrittenDate (IsBody bracket suffixOf)

/-- A time zone, critical or not. -/
structure Zone where
  chars : List Char
  isBody : IsBody chars
  no_equals : '=' ∉ chars
  ne_nil : chars ≠ []
  ne_mark : chars ≠ ['!']

/-- A key and a value. -/
structure Note where
  key : List Char
  value : List Char
  isKey : IsKeyText key
  isValue : IsGroups value

/-- The text of a note. -/
def Note.chars (n : Note) : List Char := n.key ++ '=' :: n.value

/-- The annotations that a zone and notes make up. -/
def annotationTexts (zone : Option Zone) (notes : List Note) : List (List Char) :=
  zone.toList.map Zone.chars ++ notes.map Note.chars

/-- The text of a zone, if there is one, and of notes. -/
def suffixChars (zone : Option Zone) (notes : List Note) : List Char :=
  (annotationTexts zone notes).flatMap bracket

/-- The calendar that notes name, if they name one. -/
def Note.calendar? (notes : List Note) : Option String :=
  (notes.find? fun n => n.key = "u-ca".toList).map fun n => String.ofList n.value

/-- A date without hyphens. -/
def IsoDate.basicChars (d : IsoDate) : List Char :=
  Iso.yearChars d.year ++ (paddedChars 2 d.month ++ paddedChars 2 d.day)

/-- A month without hyphens. -/
def IsoDate.basicMonthChars (d : IsoDate) : List Char :=
  Iso.yearChars d.year ++ paddedChars 2 d.month

namespace Note

variable (n : Note)

theorem isBody : IsBody n.chars := by
  have hnot : ∀ c ∈ ['[', ']'], c ∉ n.chars := by
    intro c hc hmem
    have hneither : ∀ c ∈ ['[', ']'],
      ¬ (WrittenDate.isKeyStart c = true ∨ c.isDigit = true ∨ c = '-') ∧ c ≠ '=' ∧
        ¬ (c.isAlphanum = true ∨ c = '-') := Text.forall_mem_of_all (by decide)
    obtain ⟨hkey, hequals, hvalue⟩ := hneither c hc
    rcases List.mem_append.1 hmem with hmem | hmem
    · exact n.isKey.not_mem hkey hmem
    · rcases List.mem_cons.1 hmem with heq | hmem
      · exact hequals heq
      · exact n.isValue.not_mem hvalue hmem
  exact ⟨hnot '[' (by decide), hnot ']' (by decide)⟩

/-- A note is not critical, as a key begins with no exclamation mark. -/
theorem suffixOf_chars : suffixOf n.chars = ⟨false, n.chars⟩ := by
  obtain ⟨c, hc, hstart⟩ := n.isKey.1
  obtain ⟨rest, hkey⟩ := List.head?_eq_some_iff.1 hc
  have hne : c ≠ '!' := by
    rintro rfl
    exact absurd hstart (by decide)
  rw [chars, hkey, List.cons_append]
  unfold suffixOf
  split
  · next heq => exact absurd (List.cons.inj heq).1 hne
  · rfl

theorem key_value_eq : (suffixOf n.chars).key = n.key ∧ (suffixOf n.chars).value = n.value := by
  refine Suffix.key_value_eq ?_ (n.isKey.not_mem (by decide))
  rw [n.suffixOf_chars]
  rfl

theorem isNote : (suffixOf n.chars).IsNote := by
  obtain ⟨hkey, hvalue⟩ := n.key_value_eq
  refine ⟨?_, ⟨?_, ?_⟩, ?_⟩
  · rw [n.suffixOf_chars]
    exact List.mem_append_right _ List.mem_cons_self
  · rw [hkey, WrittenDate.isKey_iff,
      WrittenDate.dropFinalBreak_of_not_mem (n.isKey.not_mem (by decide))]
    exact n.isKey
  · rw [hvalue, WrittenDate.isValue_iff,
      WrittenDate.dropFinalBreak_of_not_mem (n.isValue.not_mem (by decide))]
    exact n.isValue
  · rw [n.suffixOf_chars]
    intro h
    cases h

theorem named?_eq :
    (suffixOf n.chars).named? = if n.key = "u-ca".toList then some (false, n.value) else none := by
  obtain ⟨hkey, hvalue⟩ := n.key_value_eq
  rw [Suffix.named?, hkey, hvalue, n.suffixOf_chars]

end Note

theorem Zone.isZone (z : Zone) : (suffixOf z.chars).IsZone := by
  have hequals := z.no_equals
  have hmark := z.ne_mark
  unfold suffixOf
  split
  · next body heq =>
    rw [heq] at hequals hmark
    refine ⟨fun hmem => hequals (List.mem_cons_of_mem _ hmem), ?_⟩
    rintro rfl
    exact hmark rfl
  · exact ⟨hequals, z.ne_nil⟩

namespace WrittenDate

variable {zone : Option Zone} {notes : List Note}

theorem isBody_of_mem_annotationTexts : ∀ b ∈ annotationTexts zone notes, IsBody b := by
  intro b hb
  rcases List.mem_append.1 hb with hb | hb
  · obtain ⟨z, -, rfl⟩ := List.mem_map.1 hb
    exact z.isBody
  · obtain ⟨n, -, rfl⟩ := List.mem_map.1 hb
    exact n.isBody

/-- The calendars that notes name: none of them is critical, and the first is that of the first note
to name one. -/
theorem namesFirst_notes (notes : List Note) :
    NamesFirst ((notes.map fun n => suffixOf n.chars).filterMap Suffix.named?)
      (Note.calendar? notes) := by
  rw [List.filterMap_map]
  constructor
  · intro _ name hname
    obtain ⟨n, -, hn⟩ := List.mem_filterMap.1 hname
    rw [Function.comp_apply, n.named?_eq] at hn
    split at hn
    · cases hn
      rfl
    · cases hn
  · rw [List.head?_filterMap, Note.calendar?]
    induction notes with
    | nil => rfl
    | cons n notes ih =>
      rw [List.findSome?_cons, List.find?_cons, Function.comp_apply, n.named?_eq]
      by_cases hkey : n.key = "u-ca".toList
      · rw [if_pos hkey, decide_eq_true hkey]
        rfl
      · rw [if_neg hkey, decide_eq_false hkey]
        exact ih

/-- **Annotations are read** as the calendar that the notes name. -/
theorem calendar?_annotations (zone : Option Zone) (notes : List Note) :
    calendar? ((annotationTexts zone notes).map suffixOf) = .ok (Note.calendar? notes) := by
  refine calendar?_eq_ok_iff.2
    ⟨zone.map fun z => suffixOf z.chars, notes.map fun n => suffixOf n.chars, ?_, ?_, ?_,
      namesFirst_notes notes⟩
  · cases zone <;> simp [annotationTexts]
  · intro z hz
    obtain ⟨zone, -, rfl⟩ := Option.mem_map.1 hz
    exact zone.isZone
  · intro a ha
    obtain ⟨n, -, rfl⟩ := List.mem_map.1 ha
    exact n.isNote

end WrittenDate

namespace ParsedMonth

open WrittenDate

variable {t o : List Char} {time offset : Option Clock}

/-- **What follows a date never changes it.** Every valid date with a year of up to six digits is
read from its extended and its basic form, whatever time, offset, zone and notes follow it; and its
month is read from either form of a month, as the first day, whatever zone and notes follow. The
calendar is that of the first note that names one. -/
theorem suffixes_keep_date {d : IsoDate} (hv : d.Valid) (hyear : d.year.natAbs ≤ 999999)
    (ht : WritesTime t time) (htime : ∀ c ∈ time, c.hour ≤ 23 ∧ c.minute ≤ 59 ∧ c.second ≤ 60)
    (ho : WritesOffset o (offset.map .ofClock))
    (hoffset : ∀ z ∈ offset, time ≠ none ∧ z.hour ≤ 23 ∧ z.minute ≤ 59) (zone : Option Zone)
    (notes : List Note) :
    parse (String.ofList (d.fullChars ++ (t ++ (o ++ suffixChars zone notes)))) =
      .ok ⟨d, Note.calendar? notes⟩ ∧
    parse (String.ofList (d.basicChars ++ (t ++ (o ++ suffixChars zone notes)))) =
      .ok ⟨d, Note.calendar? notes⟩ ∧
    parse (String.ofList (d.yearMonthChars ++ suffixChars zone notes)) =
      .ok ⟨{ d with day := 1 }, Note.calendar? notes⟩ ∧
    parse (String.ofList (d.basicMonthChars ++ suffixChars zone notes)) =
      .ok ⟨{ d with day := 1 }, Note.calendar? notes⟩ := by
  have hyear : d.year.natAbs < 1000000 := by omega
  obtain ⟨hmonth, hday, -⟩ := IsoDate.writesIn_of_valid hv
  have hbodies : ∀ b ∈ annotationTexts zone notes, IsBody b := isBody_of_mem_annotationTexts
  have hcalendar := calendar?_annotations zone notes
  refine ⟨?_, ?_, ?_, ?_⟩
  · have hread :=
      IsoDate.parse_day hv hyear (.extendedDay hmonth hday) ht htime ho hoffset hbodies hcalendar
    simpa only [suffixChars, IsoDate.fullChars, IsoDate.yearMonthChars, List.append_assoc,
      List.cons_append] using hread
  · have hread :=
      IsoDate.parse_day hv hyear (.basicDay hmonth hday) ht htime ho hoffset hbodies hcalendar
    simpa only [suffixChars, IsoDate.basicChars, List.append_assoc] using hread
  · have hread := IsoDate.parse_month hv hyear (.extendedMonth hmonth) hbodies hcalendar
    simpa only [suffixChars, IsoDate.yearMonthChars, List.append_assoc] using hread
  · have hread := IsoDate.parse_month hv hyear (.basicMonth hmonth) hbodies hcalendar
    simpa only [suffixChars, IsoDate.basicMonthChars, List.append_assoc] using hread

/-- A leap day before the year zero, with a leap second, an offset of all three parts, a critical
zone and two notes. -/
theorem suffixes_keep_date_leap_day :
    ∃ (zone : Option Zone) (notes : List Note),
      (suffixChars zone notes = "[!Asia/Kolkata][x_1=a-B2][u-ca=hebrew]".toList ∧
        Note.calendar? notes = some "hebrew") ∧
      (IsoDate.Valid ⟨-4, 2, 29⟩ ∧
        (-4 : Int).natAbs ≤ 999999 ∧ WritesTime "t23:5960,5".toList (some ⟨23, 59, 60⟩) ∧
        WritesOffset "-05:30:59".toList (some (.ofClock ⟨5, 30, 59⟩))) ∧
      parse "-000004-02-29t23:5960,5-05:30:59[!Asia/Kolkata][x_1=a-B2][u-ca=hebrew]" =
        .ok ⟨⟨-4, 2, 29⟩, some "hebrew"⟩ ∧
      parse "-0000040229t23:5960,5-05:30:59[!Asia/Kolkata][x_1=a-B2][u-ca=hebrew]" =
        .ok ⟨⟨-4, 2, 29⟩, some "hebrew"⟩ ∧
      parse "-000004-02[!Asia/Kolkata][x_1=a-B2][u-ca=hebrew]" = .ok ⟨⟨-4, 2, 1⟩, some "hebrew"⟩ ∧
      parse "-00000402[!Asia/Kolkata][x_1=a-B2][u-ca=hebrew]" =
        .ok ⟨⟨-4, 2, 1⟩, some "hebrew"⟩ := by
  let zone : Zone :=
    ⟨"!Asia/Kolkata".toList, ⟨by decide, by decide⟩, by decide, by decide, by decide⟩
  let other : Note :=
    ⟨"x_1".toList, "a-B2".toList, ⟨⟨'x', rfl, rfl⟩, Text.forall_mem_of_all (by decide)⟩,
    .join (g := ['a']) (by decide) (Text.forall_mem_of_all (by decide))
      (.last (by decide) (Text.forall_mem_of_all (by decide)))⟩
  let calendar : Note :=
    ⟨"u-ca".toList, "hebrew".toList, ⟨⟨'u', rfl, rfl⟩, Text.forall_mem_of_all (by decide)⟩,
    .last (by decide) (Text.forall_mem_of_all (by decide))⟩
  have hsuffix :
      suffixChars (some zone) [other, calendar] =
      "[!Asia/Kolkata][x_1=a-B2][u-ca=hebrew]".toList := by
    decide +kernel
  have hcalendar : Note.calendar? [other, calendar] = some "hebrew" := by decide +kernel
  have hv : IsoDate.Valid ⟨-4, 2, 29⟩ := by decide
  have hyear : (-4 : Int).natAbs ≤ 999999 := by decide
  have ht : WritesTime "t23:5960,5".toList (some ⟨23, 59, 60⟩) :=
    .some (.inr (.inl rfl))
      (.seconds (h := "23".toList) (m := ":59".toList) (s := "60".toList) (f := ",5".toList)
      ⟨rfl, [2, 3], rfl, rfl⟩ (.colon ⟨rfl, [5, 9], rfl, rfl⟩) (.plain ⟨rfl, [6, 0], rfl, rfl⟩)
      (.some (.inr rfl) ⟨[5], rfl, rfl⟩ (by decide)))
  have ho : WritesOffset "-05:30:59".toList ((some ⟨5, 30, 59⟩ : Option Clock).map .ofClock) :=
    .some (.inr rfl) (.seconds (h := "05".toList) (m := ":30".toList) (s := ":59".toList) (f := [])
      ⟨rfl, [0, 5], rfl, rfl⟩ (.colon ⟨rfl, [3, 0], rfl, rfl⟩)
        (.colon ⟨rfl, [5, 9], rfl, rfl⟩) .none)
  have hread : ∀ {l : List Char} {s : String} {p}, parse (String.ofList l) = .ok p → l = s.toList →
      parse s = .ok p := by
    rintro _ s p h rfl
    rwa [String.ofList_toList] at h
  obtain ⟨hfull, hbasic, hmonth, hbasicMonth⟩ := suffixes_keep_date (d := ⟨-4, 2, 29⟩) hv hyear ht
    (by rintro _ ⟨⟩; decide) ho (by rintro _ ⟨⟩; exact ⟨nofun, by decide⟩) (some zone)
      [other, calendar]
  rw [hsuffix, hcalendar] at hfull hbasic hmonth hbasicMonth
  exact ⟨some zone, [other, calendar], ⟨hsuffix, hcalendar⟩, ⟨hv, hyear, ht, ho⟩,
    hread hfull (by decide +kernel), hread hbasic (by decide +kernel),
    hread hmonth (by decide +kernel), hread hbasicMonth (by decide +kernel)⟩

end ParsedMonth

end Almanac
