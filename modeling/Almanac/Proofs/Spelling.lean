import Almanac.Proofs.Resolved

/-!
# The spelling of a month code

A month code is a name: a month of a year has one code, and a code is written in one way. But it is
read from more texts than that one, since its digits may be of any script and a line break may
follow. What is read is told apart from what is written by the characters alone, and only in digits
that are not ASCII can a code have the number zero.

* `MonthCode.IsPlain`: ASCII digits and no line break.
* `MonthCode.Spells.text_eq`, `MonthCode.isPlain_text`: **a plain spelling** is the text of its
  code.
* `Calendar.ofText_eq_of_monthOfText`: two texts of one month of a year are texts of one code.
* `MonthCode.spelled_once`: **a code has one plain spelling**; `MonthCode.spelled_otherwise`: others
  that are read.
-/

namespace Almanac

/-- Two texts that are read as one month of a year, where no month is replaced, are texts of one
code. -/
theorem Calendar.ofText_eq_of_monthOfText {c : Calendar} {year month : Int} {s t : String}
    (hs : c.monthOfText year s .reject = .ok month)
    (ht : c.monthOfText year t .reject = .ok month) :
    ∃ code, MonthCode.ofText s = .ok code ∧ MonthCode.ofText t = .ok code := by
  obtain ⟨codeS, hcodeS, -⟩ := monthOfText_eq_ok_iff.1 hs
  obtain ⟨codeT, hcodeT, -⟩ := monthOfText_eq_ok_iff.1 ht
  have hmonthS := (monthOfText_reject_iff.1 hs).2 codeS hcodeS
  have hmonthT := (monthOfText_reject_iff.1 ht).2 codeT hcodeT
  obtain rfl := hmonthS.symm.trans hmonthT
  exact ⟨_, hcodeS, hcodeT⟩

namespace MonthCode

/-- A text whose digits are ASCII and which has no line break. -/
def IsPlain (s : List Char) : Prop := (∀ c ∈ s, Text.isDigit c = true → c.isDigit = true) ∧ '\n' ∉ s

variable {s t : List Char} {code : MonthCode}

/-- **A plain spelling** has the two digits of a number that is not zero, and nothing behind them
but the mark of a leap month. -/
theorem Spells.exists_of_isPlain (h : Spells s code) (hs : IsPlain s) :
    ∃ tens ones : Nat, tens < 10 ∧ ones < 10 ∧ ¬ (tens = 0 ∧ ones = 0) ∧
      code.number = 10 * tens + ones ∧
      s = 'M' :: tens.digitChar :: ones.digitChar :: if code.leap then ['L'] else [] := by
  cases h with
  | @mk a b tens ones leap rest ha hb hzero hrest =>
    obtain ⟨hdigits, hbreak⟩ := hs
    simp only [List.forall_mem_cons] at hdigits
    obtain ⟨-, hdigitA, hdigitB, -⟩ := hdigits
    obtain rfl := Text.eq_digitChar ha (hdigitA (by rw [Text.isDigit, ha]; rfl))
    obtain rfl := Text.eq_digitChar hb (hdigitB (by rw [Text.isDigit, hb]; rfl))
    obtain rfl : rest = [] := by
      refine hrest.resolve_right ?_
      rintro rfl
      simp at hbreak
    refine ⟨tens, ones, Text.digit?_lt ha, Text.digit?_lt hb, ?_, rfl, by rw [List.append_nil]⟩
    rintro ⟨rfl, rfl⟩
    exact hzero ⟨rfl, rfl⟩

/-- **A plain spelling** is the text of its code, whose number is not zero. -/
theorem Spells.text_eq (h : Spells s code) (hs : IsPlain s) :
    1 ≤ code.number ∧ code.text.toList = s := by
  obtain ⟨tens, ones, htens, hones, hzero, hnumber, rfl⟩ := h.exists_of_isPlain hs
  have hten : code.number.toNat / 10 = tens := by omega
  have hone : code.number.toNat % 10 = ones := by omega
  refine ⟨by omega, ?_⟩
  rw [text_toList (by omega) (by omega), hten, hone]

/-- **The text of a code** is a plain spelling. -/
theorem isPlain_text (h₁ : 0 ≤ code.number) (h₂ : code.number < 100) :
    IsPlain code.text.toList := by
  have hascii : ∀ d < 10, d.digitChar.isDigit = true ∧ d.digitChar ≠ '\n' := by decide
  have htens := hascii (code.number.toNat / 10) (by omega)
  have hones := hascii (code.number.toNat % 10) (by omega)
  have hmark : Text.isDigit 'L' = false := by decide
  rw [text_toList h₁ h₂]
  constructor
  · simp only [List.forall_mem_cons]
    refine ⟨by decide, fun _ => htens.1, fun _ => hones.1, ?_⟩
    cases code.leap <;> simp [hmark]
  · simp only [List.mem_cons, not_or]
    refine ⟨by decide, htens.2.symm, hones.2.symm, ?_⟩
    cases code.leap <;> decide

theorem Spells.number_lt (h : Spells s code) : code.number < 100 := by
  cases h with
  | mk ha hb hzero hrest =>
    have htens := Text.digit?_lt ha
    have hones := Text.digit?_lt hb
    dsimp only
    omega

/-- **A text is the text of its code** exactly if it is plain. -/
theorem text_eq_iff {s : String} (h : ofText s = .ok code) :
    1 ≤ code.number ∧ code.text = s ↔ IsPlain s.toList := by
  have hspells := ofText_eq_ok_iff.1 h
  constructor
  · rintro ⟨-, rfl⟩
    exact isPlain_text hspells.number_nonneg hspells.number_lt
  · intro hs
    obtain ⟨hnumber, htext⟩ := hspells.text_eq hs
    exact ⟨hnumber, String.toList_injective htext⟩

/-- **A code has one plain spelling.** A text that is read as a code is the text of the code, whose
number is not zero, exactly if its digits are ASCII and no line break follows. Of such texts it is
the only one that is read as the code, and, where no month may be replaced by another one, the only
one that is read as its month of a year; all texts of that month are texts of the code. -/
theorem spelled_once {s : String} {code : MonthCode} (h : ofText s = .ok code) :
    (1 ≤ code.number ∧ code.text = s ↔ IsPlain s.toList) ∧
    (IsPlain s.toList → ∀ t, ofText t = .ok code → IsPlain t.toList → t = s) ∧
    ∀ (c : Calendar) (year month : Int) (t : String), c.monthOfText year s .reject = .ok month →
      c.monthOfText year t .reject = .ok month →
      ofText t = .ok code ∧ (IsPlain s.toList → IsPlain t.toList → t = s) := by
  have honly : IsPlain s.toList → ∀ t, ofText t = .ok code → IsPlain t.toList → t = s := by
    intro hplain t ht hplain'
    have htext := ((text_eq_iff h).2 hplain).2
    have htext' := ((text_eq_iff ht).2 hplain').2
    exact htext'.symm.trans htext
  refine ⟨text_eq_iff h, honly, ?_⟩
  intro c year month t hs ht
  obtain ⟨code', hcode, hcode'⟩ := Calendar.ofText_eq_of_monthOfText hs ht
  obtain rfl := Except.ok.inj (hcode.symm.trans h)
  exact ⟨hcode', fun hplain => honly hplain t hcode'⟩

/-- The code of the leap month, and the month after it in a Hebrew leap year by its text and by that
text with a line break behind it. -/
theorem spelled_once_adarI :
    ofText "M05L" = .ok ⟨5, true⟩ ∧ (1 ≤ (5 : Int) ∧ (⟨5, true⟩ : MonthCode).text = "M05L") ∧
      Calendar.hebrew.monthOfText 5784 "M06" .reject = .ok 7 ∧
      Calendar.hebrew.monthOfText 5784 "M06\n" .reject = .ok 7 ∧
      ofText "M06\n" = .ok ⟨6, false⟩ := by
  have hcode : ofText "M05L" = .ok ⟨5, true⟩ := rfl
  have hplain : IsPlain "M05L".toList := ⟨Text.forall_mem_of_all (by decide), by decide⟩
  have hnext : ofText "M06" = .ok ⟨6, false⟩ := rfl
  have hmonth : Calendar.hebrew.monthOfText 5784 "M06" .reject = .ok 7 := rfl
  have hmonth' : Calendar.hebrew.monthOfText 5784 "M06\n" .reject = .ok 7 := rfl
  exact ⟨hcode, (spelled_once hcode).1.2 hplain, hmonth, hmonth',
    ((spelled_once hnext).2.2 _ _ _ _ hmonth hmonth').1⟩

/-- Number zero in digits of another script, and a line break behind the code of a month. -/
theorem spelled_otherwise :
    (¬ ∀ s code, ofText s = .ok code → 1 ≤ code.number) ∧
    (¬ ∀ s code, ofText s = .ok code → code.text = s) ∧
    (¬ ∀ s t code, ofText s = .ok code → ofText t = .ok code → s = t) ∧
    ¬ ∀ (c : Calendar) (year month : Int) (s t : String),
      c.monthOfText year s .reject = .ok month → c.monthOfText year t .reject = .ok month →
        s = t := by
  have hzero : ofText "M\u0660\u0660" = .ok ⟨0, false⟩ := by decide +kernel
  have hplain : ofText "M01" = .ok ⟨1, false⟩ := rfl
  have hbreak : ofText "M01\n" = .ok ⟨1, false⟩ := rfl
  refine ⟨fun hall => ?_, fun hall => ?_, fun hall => ?_, fun hall => ?_⟩
  · exact absurd (hall _ _ hzero) (by decide)
  · exact absurd (hall _ _ hbreak) (by decide +kernel)
  · exact absurd (hall _ _ _ hplain hbreak) (by decide)
  · have hmonth : Calendar.gregory.monthOfText 2024 "M01" .reject = .ok 1 := rfl
    have hmonth' : Calendar.gregory.monthOfText 2024 "M01\n" .reject = .ok 1 := rfl
    exact absurd (hall _ _ _ _ _ hmonth hmonth') (by decide)

end MonthCode

end Almanac
