import Almanac.Calendar.Arithmetic
import Almanac.Proofs.Digit
import Almanac.Proofs.MonthIndex

/-!
# Month codes and months

A code that a calendar writes is read again, and leads back to its month; in another year it leads
to a month of that year.

* `MonthCode.Spells`, `MonthCode.ofText_eq_ok_iff`: the texts that are read as a code.
* `MonthCode.ofText_text`: the text of a code is read as that code.
* `Calendar.placeOfCode_codeOfPlace`: the code of a month has the place of the month.
* `Calendar.codeOfPlace_placeOfCode`: the month of a code has that code.
* `Calendar.hasMonth_placeOfCode`: a code that a calendar knows has a month in every year.
* `Calendar.codeIn`, `Calendar.monthCode_placeOfCode`: the code of that month, which is Adar for the
  leap month of a common year.
* `Calendar.monthOfText_monthCode`: a year finds the month of a code that it gave.
-/

namespace Almanac

namespace MonthCode

theorem text_toList {code : MonthCode} (h₁ : 0 ≤ code.number) (h₂ : code.number < 100) :
    code.text.toList = 'M' :: (code.number.toNat / 10).digitChar ::
      (code.number.toNat % 10).digitChar :: (if code.leap then ['L'] else []) := by
  have hpad : (Text.padded 2 code.number).toList = [(code.number.toNat / 10).digitChar,
      (code.number.toNat % 10).digitChar] := by
    rw [Text.padded, String.toList_ofList, Text.paddedChars, if_neg (by omega),
      show code.number.natAbs = code.number.toNat by omega, Text.paddedDigits_two (by omega)]
  rw [text, String.toList_append, String.toList_append, hpad]
  cases code.leap <;> rfl

/-- A text that spells a code: its letter, two digits of any script that write its number and are
not both the ASCII zero, the mark of a leap month, and perhaps a line break. -/
inductive Spells : List Char → MonthCode → Prop
  | mk {a b : Char} {tens ones : Nat} {leap : Bool} {rest : List Char}
    (ha : Text.digit? a = some tens)
      (hb : Text.digit? b = some ones) (hzero : ¬ (a = '0' ∧ b = '0'))
      (hrest : rest = [] ∨ rest = ['\n']) :
      Spells ('M' :: a :: b :: ((if leap then ['L'] else []) ++ rest)) ⟨10 * tens + ones, leap⟩

theorem leapOfEnd?_eq_some_iff {s : List Char} {leap : Bool} :
    leapOfEnd? s = some leap ↔
      ∃ rest, (rest = [] ∨ rest = ['\n']) ∧ s = (if leap then ['L'] else []) ++ rest := by
  constructor
  · intro h
    unfold leapOfEnd? at h
    split at h
    · obtain rfl := Option.some.inj h
      exact ⟨[], .inl rfl, rfl⟩
    · obtain rfl := Option.some.inj h
      exact ⟨['\n'], .inr rfl, rfl⟩
    · obtain rfl := Option.some.inj h
      exact ⟨[], .inl rfl, rfl⟩
    · obtain rfl := Option.some.inj h
      exact ⟨['\n'], .inr rfl, rfl⟩
    · cases h
  · rintro ⟨rest, rfl | rfl, rfl⟩ <;> cases leap <;> rfl

/-- **A text is read as a code** exactly if it spells the code. -/
theorem ofText_eq_ok_iff {s : String} {code : MonthCode} :
    ofText s = .ok code ↔ Spells s.toList code := by
  have hchars : ofText s = .ok code ↔ ofChars? s.toList = some code := by
    unfold ofText
    cases ofChars? s.toList <;> simp
  rw [hchars]
  constructor
  · intro h
    unfold ofChars? at h
    split at h
    · next a b rest heq =>
      simp only [Option.bind_eq_bind, Option.bind_eq_some_iff] at h
      obtain ⟨tens, ha, ones, hb, leap, hleap, h⟩ := h
      obtain ⟨rest, hrest, rfl⟩ := leapOfEnd?_eq_some_iff.1 hleap
      split at h
      · cases h
      · next hzero =>
        obtain rfl := Option.some.inj h
        rw [heq]
        exact .mk ha hb hzero hrest
    · cases h
  · intro h
    generalize s.toList = chars at h
    obtain @⟨a, b, tens, ones, leap, rest, ha, hb, hzero, hrest⟩ := h
    simp only [ofChars?, ha, hb, leapOfEnd?_eq_some_iff.2 ⟨rest, hrest, rfl⟩, Option.bind_eq_bind,
      Option.bind_some, if_neg hzero]

theorem Spells.number_nonneg {s : List Char} {code : MonthCode} (h : Spells s code) :
    0 ≤ code.number := by
  cases h with
  | mk => exact Int.natCast_nonneg (_ + _)

theorem number_nonneg {s : String} {code : MonthCode} (h : ofText s = .ok code) : 0 ≤ code.number :=
  (ofText_eq_ok_iff.1 h).number_nonneg

/-- **The text of a code** is read as that code. -/
theorem ofText_text {code : MonthCode} (h₁ : 1 ≤ code.number) (h₂ : code.number < 100) :
    ofText code.text = .ok code := by
  obtain ⟨number, leap⟩ := code
  simp only at h₁ h₂
  have hzero : ∀ d : Nat, d < 10 → d.digitChar = '0' → d = 0 := by
    intro d hd
    interval_cases d <;> decide
  have hnot : ¬ ((number.toNat / 10).digitChar = '0' ∧ (number.toNat % 10).digitChar = '0') := by
    rintro ⟨ht, ho⟩
    have := hzero _ (by omega) ht
    have := hzero _ (by omega) ho
    omega
  have hnumber : (10 * (number.toNat / 10 : Nat) + (number.toNat % 10 : Nat) : Int) = number := by
    omega
  have hspells : Spells _ ⟨_, leap⟩ :=
    .mk (Text.digit?_digitChar (show number.toNat / 10 < 10 by omega))
      (Text.digit?_digitChar (show number.toNat % 10 < 10 by omega)) hnot (.inl rfl)
  rw [hnumber, List.append_nil] at hspells
  rw [ofText_eq_ok_iff, text_toList (by dsimp only; omega) h₂]
  exact hspells

end MonthCode

namespace Calendar

variable {c : Calendar}

theorem monthsInYear_eq (c : Calendar) (year : Int) :
    c.monthsInYear year = (c.monthsPerYear?).getD (if c.isHebrewLeap year then 13 else 12) := by
  cases c <;> rfl

/-- Only the Hebrew calendar has leap months. -/
theorem isHebrewLeap_eq_false (h : c ≠ hebrew) (year : Int) : c.isHebrewLeap year = false := by
  simp [isHebrewLeap, h]

theorem leap_monthCode_eq_false (h : c ≠ hebrew) (year month : Int) :
    (c.monthCode year month).leap = false := by
  simp [monthCode, codeOfPlace, isHebrewLeap_eq_false h]

theorem adar_eq : Hebrew.adar = 6 := rfl

/-- A month is written by its place, by the code of the leap month, or by the place before. -/
theorem codeOfPlace_cases (leap : Bool) (month : Int) :
    ((leap = false ∨ month < 6) ∧ codeOfPlace leap month = ⟨month, false⟩) ∨
      (leap = true ∧ month = 6 ∧ codeOfPlace leap month = ⟨5, true⟩) ∨
      (leap = true ∧ 6 < month ∧ codeOfPlace leap month = ⟨month - 1, false⟩) := by
  have ha := adar_eq
  unfold codeOfPlace
  cases leap with
  | false => exact .inl ⟨.inl rfl, rfl⟩
  | true =>
    rw [if_pos rfl]
    split
    · exact .inl ⟨.inr (by omega), rfl⟩
    · split
      · exact .inr (.inl ⟨rfl, by omega, rfl⟩)
      · exact .inr (.inr ⟨rfl, by omega, rfl⟩)

/-- **The code of a month** has the place of the month. -/
theorem placeOfCode_codeOfPlace (leap : Bool) (month : Int) :
    placeOfCode leap (codeOfPlace leap month) = month := by
  have ha := adar_eq
  rcases codeOfPlace_cases leap month with ⟨h, he⟩ | ⟨-, rfl, he⟩ | ⟨hl, h, he⟩
  · rw [he, placeOfCode, if_neg Bool.false_ne_true]
    split
    · next hlate =>
      rcases h with h | h
      · rw [h] at hlate
        exact absurd hlate.1 Bool.false_ne_true
      · have hge : Hebrew.adar ≤ month := hlate.2
        omega
    · rfl
  · rw [he]
    rfl
  · rw [he, placeOfCode, if_neg Bool.false_ne_true,
      if_pos ⟨hl, by rw [ha]; exact Int.le_sub_one_of_lt h⟩]
    exact Int.sub_add_cancel month 1

/-- The place of a code has that code, if the year has the leap month that the code may be of. -/
theorem codeOfPlace_placeOfCode {leap : Bool} {code : MonthCode}
    (h : code.leap = true → leap = true ∧ code.number = 5) :
    codeOfPlace leap (placeOfCode leap code) = code := by
  obtain ⟨number, isLeap⟩ := code
  have ha := adar_eq
  cases isLeap with
  | true =>
    obtain ⟨rfl, rfl⟩ := h rfl
    rfl
  | false =>
    cases leap with
    | false => rfl
    | true =>
      rw [placeOfCode, if_neg Bool.false_ne_true]
      split
      · next hlate =>
        have hlate : Hebrew.adar ≤ number := hlate.2
        rw [codeOfPlace, if_pos rfl, if_neg (by omega), if_neg (by omega), Int.add_sub_cancel]
      · next hearly =>
        have hearly : ¬ Hebrew.adar ≤ number := fun h => hearly ⟨rfl, h⟩
        rw [codeOfPlace, if_pos rfl, if_pos (not_le.1 hearly)]

theorem hasMonthCode_monthCode {year month : Int} (h : c.HasMonth year month) :
    c.hasMonthCode (c.monthCode year month) = true := by
  obtain ⟨h₁, h₂⟩ := h
  rw [monthsInYear_eq] at h₂
  unfold hasMonthCode monthCode
  cases hm : c.monthsPerYear? with
  | some months =>
    have hc : c ≠ hebrew := by
      rintro rfl
      cases hm
    rw [hm, Option.getD_some] at h₂
    simp [isHebrewLeap_eq_false hc, codeOfPlace, h₂]
  | none =>
    rw [hm, Option.getD_none] at h₂
    rcases codeOfPlace_cases (c.isHebrewLeap year) month with ⟨h, he⟩ | ⟨-, -, he⟩ | ⟨hl, h, he⟩
    · rw [he]
      have : month ≤ 12 := by
        rcases h with h | h
        · simpa [h] using h₂
        · omega
      simp [this]
    · rw [he]
      rfl
    · rw [he]
      rw [if_pos hl] at h₂
      simp
      omega

theorem monthCode_number_bounds {year month : Int} (h : c.HasMonth year month) :
    1 ≤ (c.monthCode year month).number ∧ (c.monthCode year month).number ≤ 13 := by
  have h₁ := h.1
  have h₂ := le_trans h.2 (c.monthsInYear_bounds year).2
  rw [monthCode]
  rcases codeOfPlace_cases (c.isHebrewLeap year) month with ⟨-, he⟩ | ⟨-, -, he⟩ | ⟨-, hlt, he⟩
  all_goals
    rw [he]
    simp only
    omega

theorem ofText_monthCode {year month : Int} (h : c.HasMonth year month) :
    MonthCode.ofText (c.monthCode year month).text = .ok (c.monthCode year month) := by
  obtain ⟨h₁, h₂⟩ := monthCode_number_bounds h
  exact MonthCode.ofText_text h₁ (by omega)

/-- **A code that a calendar knows has a month in every year**, the leap month that of Adar. -/
theorem hasMonth_placeOfCode {code : MonthCode} (h : c.hasMonthCode code = true)
    (hn : 1 ≤ code.number) (year : Int) :
    c.HasMonth year (placeOfCode (c.isHebrewLeap year) code) := by
  rw [HasMonth, monthsInYear_eq]
  unfold hasMonthCode at h
  cases hm : c.monthsPerYear? with
  | some months =>
    have hc : c ≠ hebrew := by
      rintro rfl
      cases hm
    simp only [hm, Bool.and_eq_true, Bool.not_eq_true', decide_eq_true_eq] at h
    simp only [isHebrewLeap_eq_false hc, placeOfCode, h.1, Option.getD_some]
    exact ⟨hn, h.2⟩
  | none =>
    have ha := adar_eq
    simp only [hm, Bool.and_eq_true, decide_eq_true_eq] at h
    rw [Option.getD_none]
    unfold placeOfCode
    split
    · split <;> omega
    · split
      · next hlate =>
        rw [if_pos hlate.1]
        omega
      · split <;> omega

/-- The leap month of a common year is Adar, unless it is refused. -/
theorem monthOfCode_eq {code : MonthCode} {overflow : Overflow} (h : c.hasMonthCode code = true)
    (hkept : overflow = .constrain ∨ code.leap = false) (year : Int) (written : String) :
    c.monthOfCode year code written overflow = .ok (placeOfCode (c.isHebrewLeap year) code) := by
  rcases hkept with rfl | hleap
  · simp [monthOfCode, monthOfCodeWhere, h]
  · simp [monthOfCode, monthOfCodeWhere, h, hleap]

theorem monthOfCodeIn_eq {code : MonthCode} (h : c.hasMonthCode code = true) (year : Int) :
    c.monthOfCodeIn code year = placeOfCode (c.isHebrewLeap year) code := by
  rw [monthOfCodeIn, monthOfCode_eq h (.inl rfl)]

/-- **The code of a month** has the place of the month in all years of its kind. -/
theorem monthOfCodeIn_monthCode {year month year' : Int} (h : c.HasMonth year month)
    (hkind : c.isHebrewLeap year' = c.isHebrewLeap year) :
    c.monthOfCodeIn (c.monthCode year month) year' = month := by
  rw [monthOfCodeIn_eq (hasMonthCode_monthCode h), hkind, monthCode, placeOfCode_codeOfPlace]

/-- Two months of a year have two codes. -/
theorem monthCode_inj {year m n : Int} (h : c.monthCode year m = c.monthCode year n) : m = n := by
  rw [← placeOfCode_codeOfPlace (c.isHebrewLeap year) m,
    ← placeOfCode_codeOfPlace (c.isHebrewLeap year) n]
  exact congrArg _ h

/-- The code that a month of a code has in a year: in a Hebrew common year the leap month is
Adar. -/
def codeIn (c : Calendar) (code : MonthCode) (year : Int) : MonthCode :=
  if code = ⟨5, true⟩ ∧ c.isHebrewLeap year = false then ⟨6, false⟩ else code

/-- The only code of a leap month is that of number five. -/
theorem eq_of_leap {code : MonthCode} (h : c.hasMonthCode code = true) (hleap : code.leap = true) :
    code = ⟨5, true⟩ := by
  obtain ⟨number, leap⟩ := code
  obtain rfl : leap = true := hleap
  unfold hasMonthCode at h
  split at h
  · simp at h
  · simp only [Bool.not_true, Bool.false_or, Bool.and_eq_true, beq_iff_eq, adar_eq] at h
    rw [h.2]
    rfl

/-- A code is kept in a year, unless it is that of a leap month which the year has not. -/
theorem codeIn_eq_self_iff {code : MonthCode} (h : c.hasMonthCode code = true) (year : Int) :
    c.codeIn code year = code ↔ (code.leap = true → c.isHebrewLeap year = true) := by
  unfold codeIn
  split
  · next hlost =>
    rw [hlost.1, hlost.2]
    decide
  · next hkept =>
    refine ⟨fun _ hleap => ?_, fun _ => rfl⟩
    rw [← Bool.not_eq_false]
    exact fun hcommon => hkept ⟨eq_of_leap h hleap, hcommon⟩

/-- **The month of a code** has that code, unless it is Adar in place of the leap month. -/
theorem monthCode_placeOfCode {code : MonthCode} (h : c.hasMonthCode code = true) (year : Int) :
    c.monthCode year (placeOfCode (c.isHebrewLeap year) code) = c.codeIn code year := by
  rw [monthCode]
  cases hleap : code.leap with
  | false =>
    rw [codeOfPlace_placeOfCode (by simp [hleap]), (codeIn_eq_self_iff h year).2 (by simp [hleap])]
  | true =>
    rw [eq_of_leap h hleap, codeIn]
    cases c.isHebrewLeap year <;> rfl

/-- The month that keeps a code in another year has the code that is due there. -/
theorem monthCode_monthOfCodeIn {year month : Int} (h : c.HasMonth year month) (year' : Int) :
    c.monthCode year' (c.monthOfCodeIn (c.monthCode year month) year') =
      c.codeIn (c.monthCode year month) year' := by
  rw [monthOfCodeIn_eq (hasMonthCode_monthCode h), monthCode_placeOfCode (hasMonthCode_monthCode h)]

/-- The code of a month has a month in every year. -/
theorem hasMonth_monthOfCodeIn {year month : Int} (h : c.HasMonth year month) (year' : Int) :
    c.HasMonth year' (c.monthOfCodeIn (c.monthCode year month) year') := by
  rw [monthOfCodeIn_eq (hasMonthCode_monthCode h)]
  exact hasMonth_placeOfCode (hasMonthCode_monthCode h) (monthCode_number_bounds h).1 year'

/-- **A year finds the month of a code that it gave**, whatever becomes of other leap months. -/
theorem monthOfText_monthCode {year month : Int} (h : c.HasMonth year month) (overflow : Overflow) :
    c.monthOfText year (c.monthCode year month).text overflow = .ok month := by
  have hleap : ((c.monthCode year month).leap && !c.isHebrewLeap year) = false := by
    rw [monthCode]
    rcases codeOfPlace_cases (c.isHebrewLeap year) month with ⟨-, he⟩ | ⟨hl, -, he⟩ | ⟨-, -, he⟩
    · rw [he]; rfl
    · rw [he, hl]; rfl
    · rw [he]; rfl
  have hplace : placeOfCode (c.isHebrewLeap year) (c.monthCode year month) = month :=
    placeOfCode_codeOfPlace _ _
  rw [monthOfText, ofText_monthCode h]
  simp [bind, Except.bind, monthOfCode, monthOfCodeWhere, hasMonthCode_monthCode h, hleap, hplace]

end Calendar

end Almanac
