import Almanac.Proofs.Resolution

/-!
# What a record is resolved to

A year and a month that have been resolved from a record are those that the record says: its year
and the year of its era, which agree, and its month and the month of its code, which agree as well.
A month is refused where it would be replaced by another one, and otherwise it is resolved to the
same whether it may be replaced or not.

* `Calendar.eq_of_resolveYear`, `Calendar.yearOfEra_of_resolveYear`: the year.
* `Calendar.monthOfText_eq_ok_iff`, `Calendar.monthOfText_of_resolveMonth`: the month of a code.
* `Calendar.monthOfText_reject_iff`, `Calendar.resolveMonth_reject_iff`: **a month that may not be
  replaced**.
* `Calendar.hasMonth_or_zero_of_resolveMonth`: **the month exists**, unless it is the month before
  the first.
* `Calendar.CountsMonth`, `Calendar.CountsDate`: the days to what a record is resolved to can be
  counted in a word, where they are.
-/

namespace Almanac

namespace Calendar

variable {c : Calendar} {fields : Record Reading} {year month n : Int} {written : String}
  {overflow : Overflow}

/-- **The year of a record** is resolved to itself, if at all. -/
theorem eq_of_resolveYear (h : c.resolveYear fields = .ok year)
    (hn : fields.number? .year = some n) :
    year = n := by
  unfold resolveYear at h
  rw [hn] at h
  obtain ⟨fromEra, -, h⟩ := bind_eq_ok h
  cases fromEra with
  | none => exact (Except.ok.inj h).symm
  | some y =>
    simp only at h
    split at h
    · exact (Except.ok.inj h).symm
    · cases h

/-- **The era of a record** is whole, and gives the year that is resolved. -/
theorem yearOfEra_of_resolveYear (h : c.resolveYear fields = .ok year) (heras : c.hasEras = true)
    (hgiven : fields.text? .era ≠ none ∨ fields.number? .eraYear ≠ none) :
    ∃ era eraYear, fields.text? .era = some era ∧ fields.number? .eraYear = some eraYear ∧
      c.yearOfEra era eraYear = .ok year := by
  obtain ⟨fromEra, hfrom, h⟩ := bind_eq_ok h
  unfold yearFromEra at hfrom
  rw [heras] at hfrom
  cases hera : fields.text? .era with
  | none =>
    rw [hera] at hfrom hgiven
    cases heraYear : fields.number? .eraYear with
    | none => simp [heraYear] at hgiven
    | some m => simp [heraYear] at hfrom
  | some era =>
    rw [hera] at hfrom
    cases heraYear : fields.number? .eraYear with
    | none => simp [heraYear] at hfrom
    | some m =>
      rw [heraYear] at hfrom
      obtain ⟨y, hy, rfl⟩ := map_eq_ok hfrom
      refine ⟨era, m, rfl, rfl, ?_⟩
      cases hyear : fields.number? .year with
      | none =>
        rw [hyear] at h
        rw [hy, Except.ok.inj h]
      | some given =>
        rw [hyear] at h
        simp only at h
        split at h
        · next heq => rw [hy, ← heq, Except.ok.inj h]
        · cases h

/-- The month of a record that has a code is the month of the code. -/
theorem monthOfText_of_resolveMonth (h : c.resolveMonth year fields overflow = .ok month)
    (hcode : fields.text? .monthCode = some written) :
    c.monthOfText year written overflow = .ok month := by
  unfold resolveMonth at h
  rw [hcode] at h
  cases hmonth : fields.number? .month with
  | none =>
    rw [hmonth] at h
    exact h
  | some given =>
    rw [hmonth] at h
    obtain ⟨found, hfound, h⟩ := bind_eq_ok h
    split at h
    · next heq => rw [hfound, ← heq, Except.ok.inj h]
    · cases h

/-- **The month of a written code**, if the calendar knows the code and, where a leap month is
refused, the year has it. -/
theorem monthOfText_eq_ok_iff :
    c.monthOfText year written overflow = .ok month ↔
      ∃ code, MonthCode.ofText written = .ok code ∧ c.hasMonthCode code = true ∧
        (overflow = .reject → code.leap = true → c.isHebrewLeap year = true) ∧
        month = placeOfCode (c.isHebrewLeap year) code := by
  rw [monthOfText, bind_eq_ok_iff]
  refine exists_congr fun code => and_congr_right fun _ => ?_
  unfold monthOfCode monthOfCodeWhere
  cases hknown : c.hasMonthCode code with
  | false => simp
  | true =>
    cases code.leap <;> cases c.isHebrewLeap year <;> cases overflow <;> simp [eq_comm]

/-- **A month code is refused** where its month has another code in the year, and nowhere else. -/
theorem monthOfText_reject_iff :
    c.monthOfText year written .reject = .ok month ↔
    c.monthOfText year written .constrain = .ok month ∧
      ∀ code, MonthCode.ofText written = .ok code → c.monthCode year month = code := by
  simp only [monthOfText_eq_ok_iff]
  constructor
  · rintro ⟨code, hcode, hknown, hleap, rfl⟩
    refine ⟨⟨code, hcode, hknown, by simp, rfl⟩, fun code' hcode' => ?_⟩
    obtain rfl := Except.ok.inj (hcode.symm.trans hcode')
    rw [monthCode_placeOfCode hknown, codeIn_eq_self_iff hknown]
    exact hleap trivial
  · rintro ⟨⟨code, hcode, hknown, -, rfl⟩, hkept⟩
    have hkept := hkept code hcode
    rw [monthCode_placeOfCode hknown, codeIn_eq_self_iff hknown] at hkept
    exact ⟨code, hcode, hknown, fun _ => hkept, rfl⟩

theorem regulateMonth_constrain (c : Calendar) (year n : Int) :
    c.regulateMonth year n .constrain = .ok (min n (c.monthsInYear year)) := by
  unfold regulateMonth
  split
  · rw [min_eq_right (by omega)]
  · rw [min_eq_left (by omega)]

theorem regulateMonth_reject_iff :
    c.regulateMonth year n .reject = .ok month ↔ c.regulateMonth year n .constrain = .ok month ∧
    month = n := by
  unfold regulateMonth
  split
  · simp only [reduceCtorEq, Except.ok.injEq, false_iff, not_and]
    omega
  · simp only [Except.ok.injEq]
    omega

/-- The month of a place exists, which may be the last one. -/
theorem hasMonth_of_regulateMonth (hn : 1 ≤ n) (h : c.regulateMonth year n overflow = .ok month) :
    c.HasMonth year month := by
  have hmin : c.regulateMonth year n .constrain = .ok month := by
    cases overflow with
    | constrain => exact h
    | reject => exact (regulateMonth_reject_iff.1 h).1
  rw [regulateMonth_constrain] at hmin
  obtain rfl := Except.ok.inj hmin
  exact ⟨le_min hn (le_trans (by decide) (c.monthsInYear_bounds year).1), min_le_right _ _⟩

/-- **A month is refused** where it is not the place and the code that a record gives, and nowhere
else. -/
theorem resolveMonth_reject_iff :
    c.resolveMonth year fields .reject = .ok month ↔
    c.resolveMonth year fields .constrain = .ok month ∧
      (∀ written, fields.text? .monthCode = some written →
        ∀ code, MonthCode.ofText written = .ok code → c.monthCode year month = code) ∧
      ∀ n, fields.number? .month = some n → month = n := by
  unfold resolveMonth
  cases fields.number? .month with
  | none =>
    cases fields.text? .monthCode with
    | none => simp
    | some written =>
      simp only [Option.some.injEq, forall_eq', reduceCtorEq, false_implies, implies_true, and_true]
      exact monthOfText_reject_iff
  | some n =>
    cases fields.text? .monthCode with
    | none =>
      simp only [Option.some.injEq, forall_eq', reduceCtorEq, false_implies, implies_true, true_and]
      exact regulateMonth_reject_iff
    | some written =>
      simp only [Option.some.injEq, forall_eq', bind_eq_ok_iff, monthOfText_reject_iff]
      constructor
      · rintro ⟨m, ⟨hm, hkept⟩, h⟩
        split at h
        · next heq =>
          obtain rfl := Except.ok.inj h
          obtain rfl := heq
          exact ⟨⟨n, hm, if_pos rfl⟩, hkept, rfl⟩
        · cases h
      · rintro ⟨⟨m, hm, h⟩, hkept, rfl⟩
        split at h
        · next heq =>
          obtain rfl := heq
          exact ⟨month, ⟨hm, hkept⟩, if_pos rfl⟩
        · cases h

/-- The month of a written code exists, or is the month before the first, which a code of number
zero names. -/
theorem hasMonth_or_zero_of_monthOfText (h : c.monthOfText year written overflow = .ok month) :
    c.HasMonth year month ∨
      month = 0 ∧ ∃ code, MonthCode.ofText written = .ok code ∧ code.number = 0 := by
  obtain ⟨code, hcode, hknown, -, rfl⟩ := monthOfText_eq_ok_iff.1 h
  by_cases hpos : 1 ≤ code.number
  · exact .inl (hasMonth_placeOfCode hknown hpos year)
  · have hnonneg := MonthCode.number_nonneg hcode
    have hzero : code.number = 0 := by omega
    have ha := adar_eq
    -- a leap month has number five
    have hleap : code.leap = false := by
      rw [← Bool.not_eq_true]
      intro hleap
      rw [eq_of_leap hknown hleap] at hzero
      cases hzero
    refine .inr ⟨?_, code, hcode, hzero⟩
    rw [placeOfCode, hleap, if_neg Bool.false_ne_true, if_neg (by omega), hzero]

/-- **The month of a record** exists, or is the month before the first, which a code of number zero
names. -/
theorem hasMonth_or_zero_of_resolveMonth (hpos : ∀ n, fields.number? .month = some n → 1 ≤ n)
    (h : c.resolveMonth year fields overflow = .ok month) :
    c.HasMonth year month ∨
      month = 0 ∧ ∃ written code, fields.text? .monthCode = some written ∧
        MonthCode.ofText written = .ok code ∧ code.number = 0 := by
  cases hcode : fields.text? .monthCode with
  | some written =>
    refine (hasMonth_or_zero_of_monthOfText (monthOfText_of_resolveMonth h hcode)).imp_right ?_
    rintro ⟨hzero, code, hread, hnumber⟩
    exact ⟨hzero, written, code, rfl, hread, hnumber⟩
  | none =>
    unfold resolveMonth at h
    rw [hcode] at h
    cases hmonth : fields.number? .month with
    | none =>
      rw [hmonth] at h
      cases h
    | some given =>
      rw [hmonth] at h
      exact .inl (hasMonth_of_regulateMonth (hpos given hmonth) h)

/-- A month that may not be replaced is the one that is resolved if it may. -/
theorem resolveMonth_constrain (h : c.resolveMonth year fields overflow = .ok month) :
    c.resolveMonth year fields .constrain = .ok month := by
  cases overflow with
  | constrain => exact h
  | reject => exact (resolveMonth_reject_iff.1 h).1

/-- The days to the first of the month that a record is resolved to can be counted in a word, where
they are. -/
def CountsMonth (c : Calendar) (fields : Record Reading) : Prop :=
  ∀ year month, c.resolveYear fields = .ok year →
    c.resolveMonth year fields .constrain = .ok month →
    c.Countable ⟨year, month, 1⟩

/-- The days to the date that a record is resolved to can be counted in a word, where they are. -/
def CountsDate (c : Calendar) (fields : Record Reading) : Prop :=
  ∀ year month given, c.resolveYear fields = .ok year →
    c.resolveMonth year fields .constrain = .ok month → fields.number? .day = some given →
    c.Countable ⟨year, month, min given (c.daysInMonth year month)⟩

theorem countsMonth_of_not_followsIso (h : ¬ c.followsIso = true) : c.CountsMonth fields :=
  fun _ _ _ _ hiso => absurd hiso h

theorem countsDate_of_not_followsIso (h : ¬ c.followsIso = true) : c.CountsDate fields :=
  fun _ _ _ _ _ _ hiso => absurd hiso h

end Calendar

end Almanac
