import Almanac.Proofs.Grammar.Accepted
import Almanac.Proofs.Grammar.Duration

/-!
# The alphabet of accepted texts

Which characters an accepted text may have: each part of the grammar has an alphabet, and a text
that spells it has no other characters. All of them are printable ASCII but for two: digits may be
of any script, and a line break may end the key or the value of an annotation. A time zone at the
front of the annotations may have any character.

* `Text.IsPrintable`, `Text.printable_of_mem`: printable ASCII, and what is.
* `IsDateChar`, `IsNoteChar`, `IsDurationChar`: the alphabets of dates, of annotations and of
  durations.
* `Spells.isDateChar`, `WrittenDate.isNoteChar_of_isNote`, `Components.Spells.isDurationChar`:
  **what is spelled has its alphabet**.
* `WrittenDate.beforeAnnotations`, `WrittenDate.afterZone`: a text without a leading time zone.
* `ParsedMonth.accepted_alphabet`: **the alphabet of accepted texts**;
  `ParsedMonth.accepted_other_characters`: texts with other characters than printable ASCII.
-/

namespace Almanac

namespace Text

/-- A printable character of ASCII. -/
def IsPrintable (c : Char) : Prop := 0x20 ≤ c.toNat ∧ c.toNat ≤ 0x7E

instance : DecidablePred IsPrintable := fun c => by
  unfold IsPrintable; infer_instance

/-- A digit that is printable ASCII is one of the ten. -/
theorem IsPrintable.isDigit_ascii {c : Char} (h : IsPrintable c) (hdigit : isDigit c = true) :
    c.isDigit = true :=
  of_lt_ascii (P := fun c => isDigit c = true → c.isDigit = true) (by decide +kernel)
    (Nat.lt_of_le_of_lt h.2 (by decide)) hdigit

theorem isAlphanum_of_isLower {c : Char} (h : c.isLower = true) : c.isAlphanum = true := by
  change ((c.isUpper || c.isLower) || c.isDigit) = true
  rw [h, Bool.or_true, Bool.true_or]

theorem isAlphanum_of_isDigit {c : Char} (h : c.isDigit = true) : c.isAlphanum = true := by
  change (c.isAlpha || c.isDigit) = true
  rw [h, Bool.or_true]

/-- A letter or digit of ASCII is printable. -/
theorem isPrintable_of_isAlphanum {c : Char} (h : c.isAlphanum = true) : IsPrintable c := by
  delta Char.isAlphanum Char.isAlpha Char.isUpper Char.isLower Char.isDigit at h
  simp only [Bool.or_eq_true, decide_eq_true_eq, Bool.and_eq_true] at h
  change ((65 ≤ c.toNat ∧ c.toNat ≤ 90) ∨ (97 ≤ c.toNat ∧ c.toNat ≤ 122)) ∨
    (48 ≤ c.toNat ∧ c.toNat ≤ 57) at h
  unfold IsPrintable
  omega

theorem isPrintable_of_isDigit {c : Char} (h : c.isDigit = true) : IsPrintable c :=
  isPrintable_of_isAlphanum (isAlphanum_of_isDigit h)

end Text

open Text (WritesIn Writes IsPrintable)

/-- What stands in a date besides digits. -/
def dateMarks : List Char := "+-:.,TtZz ".toList

theorem isPrintable_dateMarks : ∀ c ∈ dateMarks, IsPrintable c := Text.forall_mem_of_all (by decide)

/-- A digit, a sign, a separator, or the designator of a time or of UTC. -/
def IsDateChar (c : Char) : Prop := Text.isDigit c = true ∨ c ∈ dateMarks

/-- What stands in annotations besides letters and digits. -/
def noteMarks : List Char := "[]!=-_".toList

theorem isPrintable_noteMarks : ∀ c ∈ noteMarks, IsPrintable c := Text.forall_mem_of_all (by decide)

/-- A letter or digit of ASCII, a bracket or mark, or a line break. -/
def IsNoteChar (c : Char) : Prop := c = '\n' ∨ c.isAlphanum = true ∨ c ∈ noteMarks

/-- What stands in a duration besides digits. -/
def durationMarks : List Char := "+-.,PpYyMmWwDdTtHhSs".toList

theorem isPrintable_durationMarks : ∀ c ∈ durationMarks, IsPrintable c :=
  Text.forall_mem_of_all (by decide)

/-- A digit, a sign, a designator, or the mark of a fraction. -/
def IsDurationChar (c : Char) : Prop := Text.isDigit c = true ∨ c ∈ durationMarks

section Dates

variable {s : List Char} {n places month : Nat} {year : Int} {day : Option Nat}
  {time : Option Clock} {offset : Option Offset} {clock : Clock}

theorem Text.WritesIn.isDateChar (h : WritesIn places s n) : ∀ c ∈ s, IsDateChar c :=
  fun c hc => .inl (h.2.isDigit c hc)

theorem WritesYear.isDateChar (h : WritesYear s year) : ∀ c ∈ s, IsDateChar c := by
  cases h with
  | four h => exact h.isDateChar
  | plus h => exact List.forall_mem_cons.2 ⟨.inr (by decide), h.isDateChar⟩
  | minus h => exact List.forall_mem_cons.2 ⟨.inr (by decide), h.isDateChar⟩

theorem WritesMonthDay.isDateChar (h : WritesMonthDay s month day) : ∀ c ∈ s, IsDateChar c := by
  have hhyphen : IsDateChar '-' := .inr (by decide)
  cases h with
  | extendedMonth hm => exact List.forall_mem_cons.2 ⟨hhyphen, hm.isDateChar⟩
  | extendedDay hm hd =>
    exact List.forall_mem_cons.2 ⟨hhyphen, List.forall_mem_append.2 ⟨hm.isDateChar,
      List.forall_mem_cons.2 ⟨hhyphen, hd.isDateChar⟩⟩⟩
  | basicMonth hm => exact hm.isDateChar
  | basicDay hm hd => exact List.forall_mem_append.2 ⟨hm.isDateChar, hd.isDateChar⟩

theorem WritesPair.isDateChar (h : WritesPair s n) : ∀ c ∈ s, IsDateChar c := by
  cases h with
  | plain h => exact h.isDateChar
  | colon h => exact List.forall_mem_cons.2 ⟨.inr (by decide), h.isDateChar⟩

theorem IsFraction.isDateChar (h : IsFraction s) : ∀ c ∈ s, IsDateChar c := by
  cases h with
  | none => nofun
  | some hmark hdigits hlength =>
    refine List.forall_mem_cons.2 ⟨.inr ?_, fun c hc => .inl (hdigits.isDigit c hc)⟩
    rcases hmark with rfl | rfl <;> decide

theorem WritesClock.isDateChar (h : WritesClock s clock) : ∀ c ∈ s, IsDateChar c := by
  cases h with
  | hours hh => exact hh.isDateChar
  | minutes hh hm => exact List.forall_mem_append.2 ⟨hh.isDateChar, hm.isDateChar⟩
  | seconds hh hm hs hf =>
    simp only [List.forall_mem_append]
    exact ⟨hh.isDateChar, hm.isDateChar, hs.isDateChar, hf.isDateChar⟩

theorem WritesTime.isDateChar (h : WritesTime s time) : ∀ c ∈ s, IsDateChar c := by
  cases h with
  | none => nofun
  | some hc h =>
    refine List.forall_mem_cons.2 ⟨.inr ?_, h.isDateChar⟩
    rcases hc with rfl | rfl | rfl <;> decide

theorem WritesOffset.isDateChar (h : WritesOffset s offset) : ∀ c ∈ s, IsDateChar c := by
  cases h with
  | none => nofun
  | utc hc =>
    refine List.forall_mem_cons.2 ⟨.inr ?_, nofun⟩
    rcases hc with rfl | rfl <;> decide
  | some hc h =>
    refine List.forall_mem_cons.2 ⟨.inr ?_, h.isDateChar⟩
    rcases hc with rfl | rfl <;> decide

end Dates

section Durations

variable {s : List Char} {c designator : Char} {fractional timed negative : Bool}
  {values : List Nat} {component hours minutes seconds : Option Component} {w : Components}

theorem isDurationChar_of_toUpper (h : c.toUpper ∈ Component.letters) : IsDurationChar c :=
  .inr (Component.of_toUpper_mem (P := fun c => c ∈ durationMarks) (by decide +kernel) h)

theorem WritesFraction.isDurationChar (h : WritesFraction s values) :
    ∀ c ∈ s, IsDurationChar c := by
  cases h with
  | none => nofun
  | some hmark hdigits hne =>
    have hwrites : Writes _ _ := ⟨values, hdigits, rfl⟩
    refine List.forall_mem_cons.2 ⟨.inr ?_, fun c hc => .inl (hwrites.isDigit c hc)⟩
    rcases hmark with rfl | rfl <;> decide

theorem WritesComponent.isDurationChar (h : WritesComponent fractional designator s component)
    (hdesignator : designator ∈ Component.letters) : ∀ c ∈ s, IsDurationChar c := by
  cases h with
  | none => nofun
  | some hcount hne hf hfractional hlength hc =>
    refine List.forall_mem_append.2
      ⟨fun c hc => .inl (hcount.isDigit c hc), List.forall_mem_append.2
      ⟨hf.isDurationChar, List.forall_mem_singleton.2 (isDurationChar_of_toUpper ?_)⟩⟩
    rwa [hc]

theorem WritesSign.isDurationChar (h : WritesSign s negative) : ∀ c ∈ s, IsDurationChar c := by
  cases h with
  | none => nofun
  | plus => exact List.forall_mem_singleton.2 (.inr (by decide))
  | minus => exact List.forall_mem_singleton.2 (.inr (by decide))

theorem WritesTimePart.isDurationChar (h : WritesTimePart s timed hours minutes seconds) :
    ∀ c ∈ s, IsDurationChar c := by
  cases h with
  | none => nofun
  | some hc hh hm hs =>
    refine List.forall_mem_cons.2 ⟨isDurationChar_of_toUpper (by rw [hc]; decide), ?_⟩
    simp only [List.forall_mem_append]
    exact ⟨hh.isDurationChar (by decide), hm.isDurationChar (by decide),
      hs.isDurationChar (by decide)⟩

/-- **What spells a duration** has only its characters. -/
theorem Components.Spells.isDurationChar (h : Components.Spells s w) :
    ∀ c ∈ s, IsDurationChar c := by
  obtain ⟨hsign, hp, hy, hm, hw, hd, ht⟩ := h
  simp only [List.forall_mem_append, List.forall_mem_cons]
  exact ⟨hsign.isDurationChar, isDurationChar_of_toUpper (by rw [hp]; decide),
    hy.isDurationChar (by decide), hm.isDurationChar (by decide), hw.isDurationChar (by decide),
    hd.isDurationChar (by decide), ht.isDurationChar⟩

theorem Duration.isDurationChar_of_parse {s : String} {d : Duration}
    (h : Duration.parse s = .ok d) :
    ∀ c ∈ s.toList, IsDurationChar c := by
  obtain ⟨w, hw, -⟩ := Duration.parse_eq_ok_iff.1 h
  exact hw.isDurationChar

end Durations

section Annotations

variable {s body : List Char} {bodies : List (List Char)} {a : Suffix}

/-- What is left of a text has its characters, and so has a line break. -/
theorem isNoteChar_of_dropFinalBreak (h : ∀ c ∈ WrittenDate.dropFinalBreak s, IsNoteChar c) :
    ∀ c ∈ s, IsNoteChar c := by
  rcases WrittenDate.eq_dropFinalBreak s with hs | hs
  · rwa [← hs] at h
  · rw [hs]
    exact List.forall_mem_append.2 ⟨h, List.forall_mem_singleton.2 (.inl rfl)⟩

theorem isNoteChar_of_isKey (h : WrittenDate.isKey s = true) : ∀ c ∈ s, IsNoteChar c := by
  refine isNoteChar_of_dropFinalBreak fun c hc => ?_
  have hkey := (WrittenDate.isKey_iff.1 h).2 c hc
  simp only [WrittenDate.isKeyStart, Bool.or_eq_true, decide_eq_true_eq] at hkey
  rcases hkey with (hlower | rfl) | hdigit | rfl
  · exact .inr (.inl (Text.isAlphanum_of_isLower hlower))
  · exact .inr (.inr (by decide))
  · exact .inr (.inl (Text.isAlphanum_of_isDigit hdigit))
  · exact .inr (.inr (by decide))

theorem isNoteChar_of_isValue (h : WrittenDate.isValue s = true) : ∀ c ∈ s, IsNoteChar c := by
  refine isNoteChar_of_dropFinalBreak fun c hc => ?_
  rcases (WrittenDate.isValue_iff.1 h).isAlphanum_or_hyphen c hc with halnum | rfl
  · exact .inr (.inl halnum)
  · exact .inr (.inr (by decide))

/-- **A note** has only the characters of annotations. -/
theorem WrittenDate.isNoteChar_of_isNote (h : a.IsNote) : ∀ c ∈ a.body, IsNoteChar c := by
  obtain ⟨hequals, ⟨hkey, hvalue⟩, -⟩ := h
  rw [Suffix.body_eq hequals]
  exact List.forall_mem_append.2 ⟨isNoteChar_of_isKey hkey,
    List.forall_mem_cons.2 ⟨.inr (.inr (by decide)), isNoteChar_of_isValue hvalue⟩⟩

end Annotations

namespace WrittenDate

variable {s front body : List Char} {bodies : List (List Char)} {w : WrittenDate}
  {calendar : Option String}

/-- The text before the annotations. -/
def beforeAnnotations (s : List Char) : List Char := s.takeWhile (· ≠ '[')

/-- The annotations of a text, without a time zone at their front. -/
def afterZone (s : List Char) : List Char :=
  let annotations := s.dropWhile (· ≠ '[')
  if '=' ∈ annotations.takeWhile (· ≠ ']') then annotations
  else (annotations.dropWhile (· ≠ ']')).drop 1

theorem mem_suffixOf_body_iff {b : List Char} : '=' ∈ (suffixOf b).body ↔ '=' ∈ b := by
  rcases eq_suffixOf_body b with h | h
  · rw [← h]
  · conv_rhs => rw [h]
    simp

theorem isNoteChar_of_body {b : List Char} (h : (suffixOf b).IsNote) :
    ∀ c ∈ bracket b, IsNoteChar c := by
  have hbody := isNoteChar_of_isNote h
  have hb : ∀ c ∈ b, IsNoteChar c := by
    rcases eq_suffixOf_body b with heq | heq
    · rwa [← heq] at hbody
    · rw [heq]
      exact List.forall_mem_cons.2 ⟨.inr (.inr (by decide)), hbody⟩
  exact List.forall_mem_cons.2 ⟨.inr (.inr (by decide)), List.forall_mem_append.2
    ⟨hb, List.forall_mem_singleton.2 (.inr (.inr (by decide)))⟩⟩

/-- The annotations of a text start with the first bracket. -/
theorem takeWhile_front (hfront : '[' ∉ front) (bodies : List (List Char)) :
    (front ++ bodies.flatMap bracket).takeWhile (· ≠ '[') = front ∧
      (front ++ bodies.flatMap bracket).dropWhile (· ≠ '[') = bodies.flatMap bracket := by
  have hall : ∀ c ∈ front, decide (c ≠ '[') = true :=
    fun c hc => decide_eq_true fun h => hfront (h ▸ hc)
  rw [List.takeWhile_append_of_pos hall, List.dropWhile_append_of_pos hall]
  cases bodies with
  | nil => exact ⟨List.append_nil _, rfl⟩
  | cons b bodies => exact ⟨List.append_nil _, rfl⟩

/-- A leading bracket is left out if it has no equals sign. -/
theorem afterZone_append (hfront : '[' ∉ front) (hbody : IsBody body) :
    afterZone (front ++ (body :: bodies).flatMap bracket) =
      if '=' ∈ body then (body :: bodies).flatMap bracket else bodies.flatMap bracket := by
  have hall : ∀ c ∈ '[' :: body, decide (c ≠ ']') = true := by
    refine List.forall_mem_cons.2 ⟨by decide, fun c hc => decide_eq_true ?_⟩
    rintro rfl
    exact hbody.2 hc
  have htext :
      (body :: bodies).flatMap bracket = ('[' :: body) ++ ']' :: bodies.flatMap bracket := by
    rw [List.flatMap_cons, bracket, List.cons_append, List.cons_append, List.append_assoc,
      List.singleton_append]
  have hfirst : ((body :: bodies).flatMap bracket).takeWhile (· ≠ ']') = '[' :: body := by
    rw [htext, List.takeWhile_append_of_pos hall]
    exact List.append_nil _
  have hrest :
      ((body :: bodies).flatMap bracket).dropWhile (· ≠ ']') = ']' :: bodies.flatMap bracket := by
    rw [htext, List.dropWhile_append_of_pos hall]
    rfl
  have hequals : '=' ∈ '[' :: body ↔ '=' ∈ body := by simp
  simp only [afterZone, (takeWhile_front hfront _).2, hfirst, hrest, hequals, List.drop_succ_cons,
    List.drop_zero]

/-- **Behind a leading zone** there are only the characters of annotations, if the annotations are
accepted. -/
theorem isNoteChar_of_calendar? (hfront : '[' ∉ front) (hbodies : ∀ b ∈ bodies, IsBody b)
    (h : calendar? (bodies.map suffixOf) = .ok calendar) :
    ∀ c ∈ afterZone (front ++ bodies.flatMap bracket), IsNoteChar c := by
  obtain ⟨zone, notes, hsuffixes, hzone, hnotes, -⟩ := calendar?_eq_ok_iff.1 h
  have hall : ∀ bodies : List (List Char), (∀ b ∈ bodies, (suffixOf b).IsNote) →
      ∀ c ∈ bodies.flatMap bracket, IsNoteChar c := by
    intro bodies hbodies c hc
    obtain ⟨b, hb, hc⟩ := List.mem_flatMap.1 hc
    exact isNoteChar_of_body (hbodies b hb) c hc
  cases bodies with
  | nil =>
    have hnone : afterZone (front ++ [].flatMap bracket) = [] := by
      unfold afterZone
      rw [(takeWhile_front hfront []).2]
      rfl
    rw [hnone]
    nofun
  | cons b bodies =>
    rw [afterZone_append hfront (hbodies b List.mem_cons_self)]
    -- the first is the zone exactly if it has no equals sign
    cases zone with
    | none =>
      have hmap : (b :: bodies).map suffixOf = notes := hsuffixes
      have hb : ∀ b' ∈ b :: bodies, (suffixOf b').IsNote :=
        fun b' hb' => hnotes _ (hmap ▸ List.mem_map_of_mem hb')
      rw [if_pos (mem_suffixOf_body_iff.1 (hb b List.mem_cons_self).1)]
      exact hall _ hb
    | some z =>
      obtain ⟨hz, hrest⟩ : suffixOf b = z ∧ bodies.map suffixOf = notes := List.cons.inj hsuffixes
      rw [if_neg fun hmem => (hzone z rfl).1 (hz ▸ mem_suffixOf_body_iff.2 hmem)]
      exact hall _ fun b' hb' => hnotes _ (hrest ▸ List.mem_map_of_mem hb')

/-- A text that is spelled, before its annotations and with them. -/
theorem exists_front (h : Spells s w) : ∃ (front : List Char) (bodies : List (List Char)),
    s = front ++ bodies.flatMap bracket ∧ (∀ c ∈ front, IsDateChar c) ∧ '[' ∉ front ∧
    (∀ b ∈ bodies, IsBody b) ∧
      w.suffixes = bodies.map suffixOf := by
  obtain @⟨y, md, t, o, bodies, _, _, _, _, _, hyear, hmonth, ht, ho, hbodies⟩ := h
  have hfront : ∀ c ∈ y ++ (md ++ (t ++ o)), IsDateChar c := by
    simp only [List.forall_mem_append]
    exact ⟨hyear.isDateChar, hmonth.isDateChar, ht.isDateChar, ho.isDateChar⟩
  have hbracket : ¬ IsDateChar '[' := by
    unfold IsDateChar
    decide
  exact ⟨y ++ (md ++ (t ++ o)), bodies, by simp only [List.append_assoc], hfront,
    fun h => hbracket (hfront _ h), hbodies, rfl⟩

end WrittenDate

section Printable

variable {c : Char} {marks : List Char}

/-- Of digits and printable marks all is printable ASCII but the digits of other scripts. -/
theorem isPrintable_iff_isDigit (hmarks : ∀ c ∈ marks, IsPrintable c)
    (h : Text.isDigit c = true ∨ c ∈ marks) :
    IsPrintable c ↔ (Text.isDigit c = true → c.isDigit = true) := by
  constructor
  · exact fun hc => hc.isDigit_ascii
  · intro hc
    rcases h with hdigit | hmark
    · exact Text.isPrintable_of_isDigit (hc hdigit)
    · exact hmarks c hmark

theorem IsDateChar.isPrintable_iff (h : IsDateChar c) :
    IsPrintable c ↔ (Text.isDigit c = true → c.isDigit = true) :=
  isPrintable_iff_isDigit isPrintable_dateMarks h

theorem IsDurationChar.isPrintable_iff (h : IsDurationChar c) :
    IsPrintable c ↔ (Text.isDigit c = true → c.isDigit = true) :=
  isPrintable_iff_isDigit isPrintable_durationMarks h

/-- Of the characters of annotations all are printable ASCII but the line break. -/
theorem IsNoteChar.isPrintable_iff (h : IsNoteChar c) : IsPrintable c ↔ c ≠ '\n' := by
  constructor
  · rintro hc rfl
    exact absurd hc (by decide)
  · intro hne
    rcases h with rfl | halnum | hmark
    · exact absurd rfl hne
    · exact Text.isPrintable_of_isAlphanum halnum
    · exact isPrintable_noteMarks c hmark

end Printable

open WrittenDate in
/-- **The alphabet of accepted texts.** A month or date has signs, separators, designators and
digits of any script before its annotations, and behind a leading time zone brackets, marks, ASCII
letters and digits and perhaps line breaks; a duration has signs, designators, points, commas and
digits of any script. All of that is printable ASCII exactly if the digits are ASCII and there is no
line break. -/
theorem accepted_alphabet (s : String) :
    (∀ p, ParsedMonth.parse s = .ok p →
      (∀ c ∈ beforeAnnotations s.toList, IsDateChar c) ∧ (∀ c ∈ afterZone s.toList, IsNoteChar c) ∧
      ((∀ c ∈ beforeAnnotations s.toList ++ afterZone s.toList, IsPrintable c) ↔
        (∀ c ∈ beforeAnnotations s.toList, Text.isDigit c = true → c.isDigit = true) ∧
          '\n' ∉ afterZone s.toList)) ∧
    ∀ d, Duration.parse s = .ok d →
      (∀ c ∈ s.toList, IsDurationChar c) ∧
      ((∀ c ∈ s.toList, IsPrintable c) ↔
        ∀ c ∈ s.toList, Text.isDigit c = true → c.isDigit = true) := by
  constructor
  · intro p h
    obtain ⟨w, hspells, -, hcalendar, -⟩ := ParsedMonth.parse_eq_ok_iff.1 h
    obtain ⟨front, bodies, hs, hdate, hfront, hbodies, hsuffixes⟩ := exists_front hspells
    have hnote := isNoteChar_of_calendar? hfront hbodies (hsuffixes ▸ hcalendar)
    have hbefore : beforeAnnotations s.toList = front := hs ▸ (takeWhile_front hfront bodies).1
    rw [← hs] at hnote
    rw [← hbefore] at hdate
    refine ⟨hdate, hnote, ?_⟩
    have hbreak : (∀ c ∈ afterZone s.toList, c ≠ '\n') ↔ '\n' ∉ afterZone s.toList :=
      ⟨fun hall hmem => hall _ hmem rfl, fun hnot c hc heq => hnot (heq ▸ hc)⟩
    rw [List.forall_mem_append, ← hbreak]
    exact and_congr (forall₂_congr fun c hc => (hdate c hc).isPrintable_iff)
      (forall₂_congr fun c hc => (hnote c hc).isPrintable_iff)
  · intro d h
    have hall := Duration.isDurationChar_of_parse h
    exact ⟨hall, forall₂_congr fun c hc => (hall c hc).isPrintable_iff⟩

open WrittenDate in
/-- A time zone that is not ASCII, before an annotation that is, and a duration with a digit of
another script. -/
theorem accepted_alphabet_greek_zone :
    (ParsedMonth.parse "2024-06-15[Αθήνα][u-ca=hebrew]" = .ok ⟨⟨2024, 6, 15⟩, some "hebrew"⟩ ∧
      (∀ c ∈ beforeAnnotations "2024-06-15[Αθήνα][u-ca=hebrew]".toList, IsDateChar c) ∧
      (∀ c ∈ afterZone "2024-06-15[Αθήνα][u-ca=hebrew]".toList, IsNoteChar c) ∧
      ∀ c ∈ beforeAnnotations "2024-06-15[Αθήνα][u-ca=hebrew]".toList ++
        afterZone "2024-06-15[Αθήνα][u-ca=hebrew]".toList, IsPrintable c) ∧
    Duration.parse "-p\u0661yT1,5h" = .ok { years := -1, hours := -1, minutes := -30 } ∧
      (∀ c ∈ "-p\u0661yT1,5h".toList, IsDurationChar c) ∧
      ¬ ∀ c ∈ "-p\u0661yT1,5h".toList, IsPrintable c := by
  have hmonth : ParsedMonth.parse "2024-06-15[Αθήνα][u-ca=hebrew]" =
      .ok ⟨⟨2024, 6, 15⟩, some "hebrew"⟩ := by
    decide +kernel
  have hduration :
      Duration.parse "-p\u0661yT1,5h" = .ok { years := -1, hours := -1, minutes := -30 } := by
    decide +kernel
  obtain ⟨hdate, hnote, hprintable⟩ := (accepted_alphabet _).1 _ hmonth
  obtain ⟨hall, hascii⟩ := (accepted_alphabet _).2 _ hduration
  refine ⟨⟨hmonth, hdate, hnote,
    hprintable.2 ⟨Text.forall_mem_of_all (by decide +kernel), by decide +kernel⟩⟩, hduration, hall,
    fun h => ?_⟩
  exact absurd (hascii.1 h '\u0661' (by decide)) (by decide)

open WrittenDate in
/-- A month in digits of another script, a line break behind the name of a calendar, and a count in
digits of another script are accepted. -/
theorem accepted_other_characters :
    (¬ ∀ s p, ParsedMonth.parse s = .ok p → ∀ c ∈ beforeAnnotations s.toList, IsPrintable c) ∧
    (¬ ∀ s p, ParsedMonth.parse s = .ok p → ∀ c ∈ afterZone s.toList, IsPrintable c) ∧
    ¬ ∀ s d, Duration.parse s = .ok d → ∀ c ∈ s.toList, IsPrintable c := by
  refine ⟨fun hall => ?_, fun hall => ?_, fun hall => ?_⟩
  · have hparse : ParsedMonth.parse "\u0662\u0660\u0662\u0664-\u0660\u0666" =
        .ok ⟨⟨2024, 6, 1⟩, none⟩ := by
      decide +kernel
    exact absurd (hall _ _ hparse '\u0666' (by decide +kernel)) (by decide)
  · have hparse :
        ParsedMonth.parse "2024-06[u-ca=hebrew\n]" = .ok ⟨⟨2024, 6, 1⟩, some "hebrew\n"⟩ := by
      decide +kernel
    exact absurd (hall _ _ hparse '\n' (by decide +kernel)) (by decide)
  · have hparse : Duration.parse "P\u0661Y" = .ok { years := 1 } := by decide +kernel
    exact absurd (hall _ _ hparse '\u0661' (by decide)) (by decide)

end Almanac
