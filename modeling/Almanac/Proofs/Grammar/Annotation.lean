import Almanac.YearMonth.Parser
import Mathlib.Data.List.Basic

/-!
# The grammar of annotations

The annotations at the end of a text: texts in brackets, of which the first may be a time zone and
the others are keys with values.

* `WrittenDate.bracketed_eq_some_iff`: **the texts in brackets** are found exactly where a text
  consists of them.
* `IsKeyText`, `IsGroups`: a key and a value; `WrittenDate.isKey_iff` and `WrittenDate.isValue_iff`:
  what passes for one is one, or one with a line break after it.
* `Suffix.IsZone`, `Suffix.IsNote`: a time zone, and a key with a value.
* `WrittenDate.calendars_eq_ok_iff`: **annotations are accepted** if they are notes, after a zone or
  not.
-/

namespace Almanac

/-- A key: lower-case letters, digits, hyphens and underscores, of which the first is a letter or
underscore. -/
def IsKeyText (s : List Char) : Prop :=
  (∃ c ∈ s.head?, WrittenDate.isKeyStart c = true) ∧
    ∀ c ∈ s, WrittenDate.isKeyStart c = true ∨ c.isDigit = true ∨ c = '-'

/-- A value: groups of letters and digits, joined by single hyphens. -/
inductive IsGroups : List Char → Prop
  | last {g} (hne : g ≠ []) (hg : ∀ c ∈ g, c.isAlphanum = true) : IsGroups g
  | join {g s} (hne : g ≠ []) (hg : ∀ c ∈ g, c.isAlphanum = true) (hs : IsGroups s) :
    IsGroups (g ++ '-' :: s)

namespace IsGroups

variable {c : Char} {s : List Char}

/-- What may follow the beginning of a group. -/
def InGroup (s : List Char) : Prop :=
  (∀ c ∈ s, c.isAlphanum = true) ∨
    ∃ g t, s = g ++ '-' :: t ∧ (∀ c ∈ g, c.isAlphanum = true) ∧ IsGroups t

theorem ne_nil (h : IsGroups s) : s ≠ [] := by
  cases h with
  | last hne hg => exact hne
  | join hne hg hs => exact List.append_ne_nil_of_left_ne_nil hne _

theorem cons_iff : IsGroups (c :: s) ↔ c.isAlphanum = true ∧ InGroup s := by
  constructor
  · intro h
    generalize htext : c :: s = text at h
    cases h with
    | last hne hg =>
      subst htext
      obtain ⟨hc, hs⟩ := List.forall_mem_cons.1 hg
      exact ⟨hc, .inl hs⟩
    | @join g t hne hg ht =>
      obtain ⟨c', g, rfl⟩ := List.exists_cons_of_ne_nil hne
      obtain ⟨rfl, rfl⟩ := List.cons.inj htext
      obtain ⟨hc, hs⟩ := List.forall_mem_cons.1 hg
      exact ⟨hc, .inr ⟨g, t, rfl, hs, ht⟩⟩
  · rintro ⟨hc, hs | ⟨g, t, rfl, hg, ht⟩⟩
    · exact .last (List.cons_ne_nil _ _) (List.forall_mem_cons.2 ⟨hc, hs⟩)
    · exact .join (List.cons_ne_nil c g) (List.forall_mem_cons.2 ⟨hc, hg⟩) ht

theorem inGroup_cons_iff :
    InGroup (c :: s) ↔ c.isAlphanum = true ∧ InGroup s ∨ c = '-' ∧ IsGroups s := by
  constructor
  · rintro (h | ⟨g, t, htext, hg, ht⟩)
    · obtain ⟨hc, hs⟩ := List.forall_mem_cons.1 h
      exact .inl ⟨hc, .inl hs⟩
    · cases g with
      | nil =>
        obtain ⟨rfl, rfl⟩ := List.cons.inj htext
        exact .inr ⟨rfl, ht⟩
      | cons c' g =>
        obtain ⟨rfl, rfl⟩ := List.cons.inj htext
        obtain ⟨hc, hs⟩ := List.forall_mem_cons.1 hg
        exact .inl ⟨hc, .inr ⟨g, t, rfl, hs, ht⟩⟩
  · rintro (⟨hc, hs | ⟨g, t, rfl, hg, ht⟩⟩ | ⟨rfl, hs⟩)
    · exact .inl (List.forall_mem_cons.2 ⟨hc, hs⟩)
    · exact .inr ⟨c :: g, t, rfl, List.forall_mem_cons.2 ⟨hc, hg⟩, ht⟩
    · exact .inr ⟨[], s, rfl, fun c hc => (by cases hc), hs⟩

/-- The characters of a value. -/
theorem isAlphanum_or_hyphen (h : IsGroups s) : ∀ c ∈ s, c.isAlphanum = true ∨ c = '-' := by
  induction h with
  | last hne hg => exact fun c hc => .inl (hg c hc)
  | join hne hg hs ih =>
    exact List.forall_mem_append.2
      ⟨fun c hc => .inl (hg c hc), List.forall_mem_cons.2 ⟨.inr rfl, ih⟩⟩

theorem not_mem (h : IsGroups s) (hc : ¬ (c.isAlphanum = true ∨ c = '-')) : c ∉ s :=
  fun hmem => hc (h.isAlphanum_or_hyphen c hmem)

end IsGroups

theorem IsKeyText.not_mem {s : List Char} {c : Char} (h : IsKeyText s)
    (hc : ¬ (WrittenDate.isKeyStart c = true ∨ c.isDigit = true ∨ c = '-')) : c ∉ s :=
      fun hmem => hc (h.2 c hmem)

namespace WrittenDate

/-- A text in brackets. -/
def bracket (body : List Char) : List Char := '[' :: (body ++ [']'])

/-- A text that may stand in brackets, as it has none itself. -/
def IsBody (body : List Char) : Prop := '[' ∉ body ∧ ']' ∉ body

variable {s body : List Char} {bodies : List (List Char)}

theorem isBody_cons {c : Char} : IsBody (c :: body) ↔ (c ≠ '[' ∧ c ≠ ']') ∧ IsBody body := by
  simp only [IsBody, List.mem_cons, not_or, ne_eq, eq_comm (a := c)]
  exact and_and_and_comm

/-- An open bracket is read to its end. -/
theorem bracketed_append (h : IsBody body) (read rest : List Char) :
    bracketed (some read) (body ++ ']' :: rest) = (bracketed none rest).map
      ((read.reverse ++ body) :: ·) := by
  induction body generalizing read with
  | nil => simp only [List.nil_append, bracketed, if_true, List.append_nil]
  | cons c body ih =>
    obtain ⟨⟨hopen, hclose⟩, hbody⟩ := isBody_cons.1 h
    rw [List.cons_append, bracketed, if_neg hclose, if_neg hopen, ih hbody]
    simp only [List.reverse_cons, List.append_assoc, List.singleton_append]

theorem bracketed_flatMap (h : ∀ b ∈ bodies, IsBody b) :
    bracketed none (bodies.flatMap bracket) = some bodies := by
  induction bodies with
  | nil => rfl
  | cons b bodies ih =>
    have hrest := ih fun b' hb' => h b' (List.mem_cons_of_mem _ hb')
    rw [List.flatMap_cons, bracket, List.cons_append, List.append_assoc, List.singleton_append,
      bracketed, if_pos rfl, bracketed_append (h b List.mem_cons_self), hrest]
    rfl

/-- What is read of a text in brackets, in an open bracket and outside of any. -/
theorem exists_of_bracketed (s : List Char) :
    (∀ bodies, bracketed none s = some bodies → s = bodies.flatMap bracket ∧
      ∀ b ∈ bodies, IsBody b) ∧
      ∀ read bodies, bracketed (some read) s = some bodies →
        ∃ body more, bodies = (read.reverse ++ body) :: more ∧
        s = body ++ ']' :: more.flatMap bracket ∧ IsBody body ∧ ∀ b ∈ more, IsBody b := by
  induction s with
  | nil =>
    refine ⟨?_, fun _ _ h => by cases h⟩
    rintro _ ⟨⟩
    exact ⟨rfl, fun _ h => by cases h⟩
  | cons c s ih =>
    obtain ⟨hclosed, hopen⟩ := ih
    refine ⟨?_, ?_⟩
    · intro bodies h
      unfold bracketed at h
      split at h
      · next hc =>
        obtain ⟨body, more, rfl, rfl, hbody, hmore⟩ := hopen [] bodies h
        subst hc
        refine ⟨?_, List.forall_mem_cons.2 ⟨hbody, hmore⟩⟩
        simp only [List.reverse_nil, List.nil_append, List.flatMap_cons, bracket, List.cons_append,
          List.append_assoc]
      · cases h
    · intro read bodies h
      unfold bracketed at h
      split at h
      · next hc =>
        obtain ⟨more, hmore, rfl⟩ := Option.map_eq_some_iff.1 h
        obtain ⟨rfl, hbodies⟩ := hclosed more hmore
        exact ⟨[], more, by rw [List.append_nil], by rw [hc, List.nil_append],
          ⟨List.not_mem_nil, List.not_mem_nil⟩, hbodies⟩
      · next hclose =>
        split at h
        · cases h
        · next hc =>
          obtain ⟨body, more, rfl, rfl, hbody, hmore⟩ := hopen (c :: read) bodies h
          refine ⟨c :: body, more, ?_, rfl, isBody_cons.2 ⟨⟨hc, hclose⟩, hbody⟩, hmore⟩
          rw [List.reverse_cons, List.append_assoc, List.singleton_append]

/-- **The texts in brackets** are found exactly where a text consists of them. -/
theorem bracketed_eq_some_iff :
    bracketed none s = some bodies ↔ s = bodies.flatMap bracket ∧ ∀ b ∈ bodies, IsBody b := by
  constructor
  · exact (exists_of_bracketed s).1 bodies
  · rintro ⟨rfl, h⟩
    exact bracketed_flatMap h

/-- An annotation is what its brackets hold, but for the exclamation mark that makes it critical. -/
theorem eq_suffixOf_body (b : List Char) :
    b = (suffixOf b).body ∨ b = '!' :: (suffixOf b).body := by
  unfold suffixOf
  split
  · exact .inr rfl
  · exact .inl rfl

/-- A text has perhaps one line break at its end. -/
theorem eq_dropFinalBreak (s : List Char) :
    s = dropFinalBreak s ∨ s = dropFinalBreak s ++ ['\n'] := by
  unfold dropFinalBreak
  split
  · next h => exact .inr (List.dropLast_append_getLast? '\n' h).symm
  · exact .inl rfl

theorem dropFinalBreak_of_not_mem (h : '\n' ∉ s) : dropFinalBreak s = s :=
  if_neg fun hlast => h (List.mem_of_getLast? hlast)

/-- What passes for a key is one, once a final line break is dropped. -/
theorem isKey_iff : isKey s = true ↔ IsKeyText (dropFinalBreak s) := by
  unfold isKey IsKeyText
  split
  · next c rest heq =>
    rw [heq]
    simp only [Bool.and_eq_true, List.all_eq_true, Bool.or_eq_true, decide_eq_true_eq,
      List.head?_cons, Option.mem_def, Option.some.injEq, exists_eq_left', List.forall_mem_cons,
      or_assoc]
    constructor
    · rintro ⟨hc, hrest⟩
      exact ⟨hc, .inl hc, hrest⟩
    · rintro ⟨hc, -, hrest⟩
      exact ⟨hc, hrest⟩
  · next heq => simp [heq]

theorem isGroups_iff_aux (s : List Char) :
    (isGroups true s = true ↔ IsGroups s) ∧ (isGroups false s = true ↔ IsGroups.InGroup s) := by
  induction s with
  | nil =>
    exact ⟨iff_of_false (by decide) fun h => h.ne_nil rfl,
      iff_of_true rfl (.inl fun c hc => by cases hc)⟩
  | cons c s ih =>
    obtain ⟨hstart, hin⟩ := ih
    rw [IsGroups.cons_iff, IsGroups.inGroup_cons_iff, ← hin, ← hstart]
    by_cases hc : c.isAlphanum = true
    · have hne : c ≠ '-' := by
        rintro rfl
        exact absurd hc (by decide)
      simp only [isGroups, hc, if_true, true_and, hne, false_and, or_false, and_self]
    · simp [isGroups, hc]

/-- What passes for a value is one, once a final line break is dropped. -/
theorem isValue_iff : isValue s = true ↔ IsGroups (dropFinalBreak s) := (isGroups_iff_aux _).1

end WrittenDate

namespace Suffix

/-- What stands before the first equals sign. -/
def key (a : Suffix) : List Char := a.body.takeWhile (· ≠ '=')

/-- What stands behind the first equals sign. -/
def value (a : Suffix) : List Char := (a.body.dropWhile (· ≠ '=')).drop 1

/-- A time zone, which has no equals sign. -/
def IsZone (a : Suffix) : Prop := '=' ∉ a.body ∧ a.body ≠ []

/-- A key with a value, not critical unless it names a calendar. -/
def IsNote (a : Suffix) : Prop :=
  '=' ∈ a.body ∧ (WrittenDate.isKey a.key = true ∧ WrittenDate.isValue a.value = true) ∧
    (a.critical = true → a.key = "u-ca".toList)

/-- The calendar that an annotation names, with its critical mark. -/
def named? (a : Suffix) : Option (Bool × List Char) :=
  if a.key = "u-ca".toList then some (a.critical, a.value) else none

variable {a : Suffix}

/-- A key and its value, told apart again. -/
theorem key_value_eq {k v : List Char} (hbody : a.body = k ++ '=' :: v) (hk : '=' ∉ k) :
    a.key = k ∧ a.value = v := by
  have hall : ∀ c ∈ k, decide (c ≠ '=') = true := fun c hc => decide_eq_true fun h => hk (h ▸ hc)
  rw [key, value, hbody, List.takeWhile_append_of_pos hall, List.dropWhile_append_of_pos hall]
  simp

theorem body_eq (h : '=' ∈ a.body) : a.body = a.key ++ '=' :: a.value := by
  obtain ⟨k, v, hbody, hk⟩ := List.eq_append_cons_of_mem h
  obtain ⟨hkey, hvalue⟩ := key_value_eq hbody hk
  rw [hkey, hvalue, hbody]

end Suffix

namespace WrittenDate

variable {a : Suffix} {rest suffixes : List Suffix} {names : List (Bool × List Char)}
  {isFirst : Bool}

/-- An annotation with an equals sign is a note or refused. -/
theorem calendars_cons_eq_ok_iff (h : '=' ∈ a.body) :
    calendars isFirst (a :: rest) = .ok names ↔
      a.IsNote ∧ ∃ more, calendars false rest = .ok more ∧ a.named?.toList ++ more = names := by
  have hcalendars : calendars isFirst (a :: rest) =
      if !isKey a.key || !isValue a.value then .error (.malformedSuffix (String.ofList a.body))
      else if a.key = "u-ca".toList then (calendars false rest).map ((a.critical, a.value) :: ·)
      else if a.critical then .error (.unknownCritical (String.ofList a.body))
      else calendars false rest := by
    rw [calendars, if_neg (not_not.2 h)]
    rfl
  rw [hcalendars, Suffix.IsNote, Suffix.named?]
  split
  · next hbad =>
    refine iff_of_false (fun herror => by cases herror) ?_
    rintro ⟨⟨-, ⟨hkey, hvalue⟩, -⟩, -⟩
    simp [hkey, hvalue] at hbad
  · next hgood =>
    have hgood : isKey a.key = true ∧ isValue a.value = true := by simpa using hgood
    split
    · next hkey =>
      have hnote : '=' ∈ a.body ∧ (isKey a.key = true ∧ isValue a.value = true) ∧
          (a.critical = true → a.key = "u-ca".toList) := ⟨h, hgood, fun _ => hkey⟩
      rw [and_iff_right hnote]
      cases calendars false rest with
      | error e =>
        exact iff_of_false (fun herror => by cases herror) (by rintro ⟨_, herror, -⟩; cases herror)
      | ok more => simp [Except.map]
    · next hkey =>
      split
      · next hcritical =>
        exact iff_of_false (fun herror => by cases herror) fun hnote => hkey (hnote.1.2.2 hcritical)
      · next hcritical =>
        have hnote : '=' ∈ a.body ∧ (isKey a.key = true ∧ isValue a.value = true) ∧
            (a.critical = true → a.key = "u-ca".toList) := ⟨h, hgood, fun hc => absurd hc hcritical⟩
        rw [and_iff_right hnote]
        simp

/-- **Annotations that may not begin with a zone** are accepted if they are notes. -/
theorem calendars_false_eq_ok_iff :
    calendars false suffixes = .ok names ↔
    (∀ a ∈ suffixes, a.IsNote) ∧ suffixes.filterMap Suffix.named? = names := by
  induction suffixes generalizing names with
  | nil => simp [calendars]
  | cons a rest ih =>
    have hnames :
        (a :: rest).filterMap Suffix.named? = a.named?.toList ++ rest.filterMap Suffix.named? := by
      cases hname : a.named? <;> simp [hname]
    rw [List.forall_mem_cons, hnames]
    by_cases h : '=' ∈ a.body
    · rw [calendars_cons_eq_ok_iff h]
      constructor
      · rintro ⟨ha, more, hmore, rfl⟩
        obtain ⟨hrest, rfl⟩ := ih.1 hmore
        exact ⟨⟨ha, hrest⟩, rfl⟩
      · rintro ⟨⟨ha, hrest⟩, rfl⟩
        exact ⟨ha, _, ih.2 ⟨hrest, rfl⟩, rfl⟩
    · have hrefused : calendars false (a :: rest) = .error .misplacedTimeZone := by
        rw [calendars, if_pos h]
        rfl
      rw [hrefused]
      exact iff_of_false (fun herror => by cases herror) fun hall => h hall.1.1.1

/-- **Annotations are accepted** if they are notes, after a zone or not. -/
theorem calendars_eq_ok_iff :
    calendars true suffixes = .ok names ↔ ∃ (zone : Option Suffix) (notes : List Suffix),
      suffixes = zone.toList ++ notes ∧ (∀ z ∈ zone, z.IsZone) ∧ (∀ a ∈ notes, a.IsNote) ∧
        notes.filterMap Suffix.named? = names := by
  constructor
  · intro h
    -- the first annotation is told apart by whether it has an equals sign
    by_cases hzone : ∃ z ∈ suffixes.head?, '=' ∉ z.body
    · obtain ⟨z, hz, heq⟩ := hzone
      obtain ⟨rest, rfl⟩ := List.head?_eq_some_iff.1 hz
      rw [calendars, if_pos heq] at h
      split at h
      · cases h
      · next hne =>
        obtain ⟨hnotes, hnames⟩ := calendars_false_eq_ok_iff.1 h
        refine ⟨some z, rest, rfl, ?_, hnotes, hnames⟩
        rintro _ ⟨⟩
        exact ⟨heq, by simpa using hne⟩
    · have hfalse : calendars false suffixes = .ok names := by
        cases suffixes with
        | nil => exact h
        | cons a rest =>
          have ha : '=' ∈ a.body := by
            by_contra hne
            exact hzone ⟨a, rfl, hne⟩
          exact (calendars_cons_eq_ok_iff ha).2 ((calendars_cons_eq_ok_iff ha).1 h)
      obtain ⟨hnotes, hnames⟩ := calendars_false_eq_ok_iff.1 hfalse
      exact ⟨none, suffixes, rfl, fun z hz => (by cases hz), hnotes, hnames⟩
  · rintro ⟨zone, notes, rfl, hzone, hnotes, hnames⟩
    have hrest := calendars_false_eq_ok_iff.2 ⟨hnotes, hnames⟩
    cases zone with
    | some z =>
      obtain ⟨heq, hne⟩ := hzone z rfl
      change calendars true (z :: notes) = _
      rw [calendars, if_pos heq, if_neg (by simpa using hne), hrest]
    | none =>
      cases notes with
      | nil => exact hrest
      | cons a rest =>
        have ha := (hnotes a List.mem_cons_self).1
        exact (calendars_cons_eq_ok_iff ha).2 ((calendars_cons_eq_ok_iff ha).1 hrest)

end WrittenDate

end Almanac
