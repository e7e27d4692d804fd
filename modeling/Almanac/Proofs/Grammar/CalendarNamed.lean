import Almanac.Proofs.Grammar.Accepted

/-!
# The calendar that annotations name

Annotations are read one after another, and refused where one of them is at fault, or where several
name a calendar and one of these is critical, whichever it is. All that counts of the others is that
they are well formed.

* `Suffix.namesCalendar`: whether an annotation names a calendar.
* `WrittenDate.Faulty`: what is wrong with a row of annotations.
* `WrittenDate.calendar?_eq_ok_iff_not_faulty`: **a row without fault** names the calendar of the
  first annotation that names one.
* `WrittenDate.annotations_refused_iff`: **a row is refused** exactly if it has a fault.
-/

namespace Almanac

namespace Suffix

/-- Whether the key of an annotation is that of calendars. -/
def namesCalendar (a : Suffix) : Bool := '=' ∈ a.body && a.key = "u-ca".toList

variable {a : Suffix}

theorem namesCalendar_iff : a.namesCalendar = true ↔ '=' ∈ a.body ∧ a.key = "u-ca".toList := by
  simp [namesCalendar]

/-- Without line breaks an annotation is a note exactly if it has a key and a value and is not
critical, unless it names a calendar. -/
theorem isNote_iff (h : '\n' ∉ a.body) :
    a.IsNote ↔ '=' ∈ a.body ∧ (IsKeyText a.key ∧ IsGroups a.value) ∧
    (a.critical = true → a.key = "u-ca".toList) := by
  refine and_congr_right fun hequals => and_congr_left fun _ => ?_
  rw [body_eq hequals, List.mem_append, List.mem_cons, not_or, not_or] at h
  obtain ⟨hkey, -, hvalue⟩ := h
  rw [WrittenDate.isKey_iff, WrittenDate.dropFinalBreak_of_not_mem hkey, WrittenDate.isValue_iff,
    WrittenDate.dropFinalBreak_of_not_mem hvalue]

theorem IsZone.namesCalendar (h : a.IsZone) : a.namesCalendar = false := by
  rw [← Bool.not_eq_true, namesCalendar_iff]
  exact fun hname => h.1 hname.1

/-- The calendar that a note names. -/
theorem IsNote.named?_eq (h : a.IsNote) :
    a.named? = if a.namesCalendar then some (a.critical, a.value) else none := by
  simp only [named?, namesCalendar_iff, h.1, true_and]

end Suffix

namespace WrittenDate

/-- What is wrong with a row of annotations. -/
inductive Faulty (row : List Suffix) : Prop
  /-- A text without an equals sign is a time zone, which comes first and is not empty. -/
  | zone {i : Nat} {a : Suffix} (ha : row[i]? = some a) (hequals : '=' ∉ a.body)
    (hplace : i ≠ 0 ∨ a.body = [])
  | malformed {a : Suffix} (ha : a ∈ row) (hequals : '=' ∈ a.body)
    (hform : ¬ IsKeyText a.key ∨ ¬ IsGroups a.value)
  | critical {a : Suffix} (ha : a ∈ row) (hequals : '=' ∈ a.body) (hcritical : a.critical = true)
      (hkey : a.key ≠ "u-ca".toList)
  /-- Of several calendars one is critical. -/
  | calendars {a : Suffix} (hseveral : 2 ≤ row.countP Suffix.namesCalendar) (ha : a ∈ row)
      (hname : a.namesCalendar = true) (hcritical : a.critical = true)

/-- The calendar that is named first. -/
def firstNamed (row : List Suffix) : Option String :=
  (row.find? Suffix.namesCalendar).map fun a => String.ofList a.value

variable {a : Suffix} {row notes : List Suffix} {zone : Option Suffix} {calendar : Option String}
  {bodies : List (List Char)}

/-- The calendars that notes name, with their critical marks. -/
theorem filterMap_named? (h : ∀ a ∈ notes, a.IsNote) :
    notes.filterMap Suffix.named? = (notes.filter Suffix.namesCalendar).map fun a =>
      (a.critical, a.value) := by
  induction notes with
  | nil => rfl
  | cons a notes ih =>
    obtain ⟨ha, hnotes⟩ := List.forall_mem_cons.1 h
    have hnamed := ha.named?_eq
    by_cases hname : a.namesCalendar = true
    · rw [if_pos hname] at hnamed
      rw [List.filterMap_cons_some hnamed, List.filter_cons_of_pos hname, ih hnotes, List.map_cons]
    · rw [if_neg hname] at hnamed
      rw [List.filterMap_cons_none hnamed, List.filter_cons_of_neg hname, ih hnotes]

/-- The first of several calendars is taken, if none of them is critical. -/
theorem namesFirst_iff (hzone : ∀ z ∈ zone, z.IsZone) (hnotes : ∀ a ∈ notes, a.IsNote)
    (hrow : row = zone.toList ++ notes) :
    NamesFirst (notes.filterMap Suffix.named?) calendar ↔
      (2 ≤ row.countP Suffix.namesCalendar → ∀ a ∈ row, a.namesCalendar = true →
        a.critical = false) ∧
        calendar = firstNamed row := by
  have hfilter : notes.filter Suffix.namesCalendar = row.filter Suffix.namesCalendar := by
    rw [hrow, List.filter_append]
    cases zone with
    | none => rfl
    | some z =>
      rw [Option.toList_some, List.filter_cons_of_neg (by simp [(hzone z rfl).namesCalendar])]; rfl
  rw [NamesFirst, filterMap_named? hnotes, hfilter, List.length_map, ← List.countP_eq_length_filter,
    List.head?_map, List.head?_filter, Option.map_map]
  refine and_congr (imp_congr_right fun _ => ?_) Iff.rfl
  simp only [List.forall_mem_map, List.mem_filter, and_imp]

/-- Where nothing is wrong, an annotation with an equals sign is a note. -/
theorem isNote_of_not_faulty (hrow : ¬ Faulty row) (ha : a ∈ row) (hbreak : '\n' ∉ a.body)
    (hequals : '=' ∈ a.body) :
    a.IsNote := by
  rw [Suffix.isNote_iff hbreak]
  refine ⟨hequals, ⟨?_, ?_⟩, fun hcritical => ?_⟩
  · by_contra hkey
    exact hrow (.malformed ha hequals (.inl hkey))
  · by_contra hvalue
    exact hrow (.malformed ha hequals (.inr hvalue))
  · by_contra hkey
    exact hrow (.critical ha hequals hcritical hkey)

/-- Where nothing is wrong, there are notes, after a zone or not. -/
theorem exists_notes_of_not_faulty (hbreak : ∀ a ∈ row, '\n' ∉ a.body) (hrow : ¬ Faulty row) :
    ∃ (zone : Option Suffix) (notes : List Suffix),
      row = zone.toList ++ notes ∧ (∀ z ∈ zone, z.IsZone) ∧ ∀ a ∈ notes, a.IsNote := by
  have hnote (a : Suffix) (ha : a ∈ row) : '=' ∈ a.body → a.IsNote :=
    isNote_of_not_faulty hrow ha (hbreak a ha)
  -- behind the first place every annotation has an equals sign
  have hbehind (i : ℕ) (a : Suffix) (ha : row[i + 1]? = some a) : a.IsNote := by
    refine hnote a (List.mem_of_getElem? ha) ?_
    by_contra hequals
    exact hrow (.zone ha hequals (.inl i.succ_ne_zero))
  cases row with
  | nil => exact ⟨none, [], rfl, fun z hz => (by cases hz), fun a ha => (by cases ha)⟩
  | cons a rest =>
    have hrest : ∀ b ∈ rest, b.IsNote := fun b hb => by
      obtain ⟨i, hi⟩ := List.getElem?_of_mem hb
      exact hbehind i b hi
    by_cases hequals : '=' ∈ a.body
    · exact ⟨none, a :: rest, rfl, fun z hz => (by cases hz),
        List.forall_mem_cons.2 ⟨hnote a List.mem_cons_self hequals, hrest⟩⟩
    · refine ⟨some a, rest, rfl, ?_, hrest⟩
      rintro _ ⟨⟩
      exact ⟨hequals, fun hempty => hrow (.zone (i := 0) rfl hequals (.inr hempty))⟩

/-- **A row without fault** names the calendar of the first annotation that names one. -/
theorem calendar?_eq_ok_iff_not_faulty (hbreak : ∀ a ∈ row, '\n' ∉ a.body) :
    calendar? row = .ok calendar ↔ ¬ Faulty row ∧ calendar = firstNamed row := by
  constructor
  · intro hok
    obtain ⟨zone, notes, hrow, hzone, hnotes, hfirst⟩ := calendar?_eq_ok_iff.1 hok
    obtain ⟨hcritical, hcalendar⟩ := (namesFirst_iff hzone hnotes hrow).1 hfirst
    -- only the zone, which stands first, has no equals sign
    have hnote (a : Suffix) (ha : a ∈ row) (hequals : '=' ∈ a.body) : a.IsNote := by
      rw [hrow, List.mem_append, Option.mem_toList] at ha
      exact ha.elim (fun hz => absurd hequals (hzone a hz).1) (hnotes a)
    refine ⟨fun hfault => ?_, hcalendar⟩
    cases hfault with
    | @zone i a ha hequals hplace =>
      have hmem : a ∉ notes := fun hmem => hequals (hnotes a hmem).1
      cases zone with
      | none =>
        rw [hrow, Option.toList_none, List.nil_append] at ha
        exact hmem (List.mem_of_getElem? ha)
      | some z =>
        rw [hrow, Option.toList_some, List.singleton_append] at ha
        cases i with
        | zero =>
          obtain rfl : z = a := Option.some.inj ha
          exact (hzone z rfl).2 (hplace.resolve_left fun hne => hne rfl)
        | succ i => exact hmem (List.mem_of_getElem? ha)
    | @malformed a ha hequals hform =>
      have hpair := ((Suffix.isNote_iff (hbreak a ha)).1 (hnote a ha hequals)).2.1
      exact hform.elim (fun hkey => hkey hpair.1) fun hvalue => hvalue hpair.2
    | @critical a ha hequals hmark hkey => exact hkey ((hnote a ha hequals).2.2 hmark)
    | @calendars a hseveral ha hname hmark =>
      exact Bool.false_ne_true ((hcritical hseveral a ha hname).symm.trans hmark)
  · rintro ⟨hrow, rfl⟩
    obtain ⟨zone, notes, hsplit, hzone, hnotes⟩ := exists_notes_of_not_faulty hbreak hrow
    refine calendar?_eq_ok_iff.2 ⟨zone, notes, hsplit, hzone, hnotes,
      (namesFirst_iff hzone hnotes hsplit).2 ⟨?_, rfl⟩⟩
    intro hseveral a ha hname
    by_contra hmark
    exact hrow (.calendars hseveral ha hname (Bool.eq_true_of_not_eq_false hmark))

/-- **Annotations are refused** exactly if one of them is at fault, or one of several calendars is
critical, wherever it stands. Otherwise they name the first calendar that there is. -/
theorem annotations_refused_iff (h : ∀ b ∈ bodies, IsBody b ∧ '\n' ∉ b) :
    bracketed none (bodies.flatMap bracket) = some bodies ∧
      ((∃ fault, calendar? (bodies.map suffixOf) = .error fault) ↔ Faulty (bodies.map suffixOf)) ∧
      (¬ Faulty (bodies.map suffixOf) →
        calendar? (bodies.map suffixOf) = .ok (firstNamed (bodies.map suffixOf))) := by
  have hbreak : ∀ a ∈ bodies.map suffixOf, '\n' ∉ a.body := by
    refine List.forall_mem_map.2 fun b hb hmem => (h b hb).2 ?_
    obtain hbody | hbody := eq_suffixOf_body b
    · exact hbody ▸ hmem
    · exact hbody ▸ List.mem_cons_of_mem _ hmem
  have hnamed (hrow : ¬ Faulty (bodies.map suffixOf)) :
      calendar? (bodies.map suffixOf) = .ok (firstNamed (bodies.map suffixOf)) :=
    (calendar?_eq_ok_iff_not_faulty hbreak).2 ⟨hrow, rfl⟩
  refine ⟨bracketed_flatMap fun b hb => (h b hb).1, ⟨?_, fun hrow => ?_⟩, hnamed⟩
  · rintro ⟨fault, herror⟩
    by_contra hrow
    rw [hnamed hrow] at herror
    cases herror
  · cases hcalendar : calendar? (bodies.map suffixOf) with
    | error fault => exact ⟨fault, rfl⟩
    | ok calendar => exact absurd hrow ((calendar?_eq_ok_iff_not_faulty hbreak).1 hcalendar).1

/-- A zone, a note and two calendars, and two calendars of which the second is critical. -/
theorem annotations_refused_second_critical :
    (¬ Faulty
      [⟨true, "Europe/Paris".toList⟩, ⟨false, "foo=bar-1".toList⟩, ⟨false, "u-ca=hebrew".toList⟩,
        ⟨false, "u-ca=coptic".toList⟩] ∧
      calendar?
        [⟨true, "Europe/Paris".toList⟩, ⟨false, "foo=bar-1".toList⟩, ⟨false, "u-ca=hebrew".toList⟩,
        ⟨false, "u-ca=coptic".toList⟩] = .ok (some "hebrew")) ∧
    Faulty [⟨false, "u-ca=hebrew".toList⟩, ⟨true, "u-ca=coptic".toList⟩] ∧
      ∃ fault, calendar? [⟨false, "u-ca=hebrew".toList⟩, ⟨true, "u-ca=coptic".toList⟩] =
        .error fault := by
  have haccepted := @annotations_refused_iff
    ["!Europe/Paris".toList, "foo=bar-1".toList, "u-ca=hebrew".toList, "u-ca=coptic".toList]
      (by simp +decide [IsBody])
  have hrefused :=
    @annotations_refused_iff ["u-ca=hebrew".toList, "!u-ca=coptic".toList]
    (by simp +decide [IsBody])
  refine ⟨⟨fun hfault => ?_, rfl⟩, ?_⟩
  · obtain ⟨fault, herror⟩ := haccepted.2.1.2 hfault
    cases herror
  · have hfault : Faulty [⟨false, "u-ca=hebrew".toList⟩, ⟨true, "u-ca=coptic".toList⟩] :=
      .calendars (a := ⟨true, "u-ca=coptic".toList⟩) (by decide) (by decide) (by decide) rfl
    exact ⟨hfault, hrefused.2.1.2 hfault⟩

end WrittenDate

end Almanac
