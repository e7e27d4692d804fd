import Almanac.Proofs.Reading
import Almanac.Value.Option

/-!
# Failures that are reported

A failure is reported to the caller if it is one of type or of range and has a message that can be
written. The others are those of the machine: a number beyond a double or a word, a zero
denominator, and a message that shows a number of too many digits or values too deep inside one
another. Reading a value reports all but these.

* `Error.Reported`, `Reports`: an error that is reported, and an operation that fails with no other,
  where values may be shown to `free` levels inside one another.
* `reports_bind_iff`: a sequence of two steps reports if each step does that is taken.
* `Iso.toEpochDay_reports_iff`, `IsoDate.ofEpochDay?_reports_iff`: the two ways between dates and
  day counts, which are taken in words.
* `IsoDate.IsShort`: a date of which a message can be written.
* `Value.truncated_reports_iff`, `Value.positive_reports_iff`, `Value.argument_reports_iff`,
  `Value.toIncrement_reports_iff`: **the numbers that are read without a report**.
-/

namespace Almanac

open Shown (IsOverlong)

variable {free : Nat}

namespace Shown

variable {n : Int}

theorem isOverlong_iff : IsOverlong n ↔ 10 ^ Text.maxDigits ≤ n.natAbs := by
  rw [IsOverlong, Nat.pow_eq]

/-- Numbers of no more than thirty digits are written. -/
theorem not_isOverlong (h : n.natAbs ≤ 10 ^ 30) : ¬ IsOverlong n := by
  rw [isOverlong_iff, Nat.not_le]
  exact h.trans_lt (Nat.pow_lt_pow_right (by decide) (by decide))

end Shown

namespace Double

theorem div_le_roundHalfEven (num den : Nat) : num / den ≤ roundHalfEven num den := by
  unfold roundHalfEven
  dsimp only
  repeat' split
  all_goals omega

variable {m : Nat}

theorem exponent_one (hm : m ≠ 0) : exponent m 1 = m.log2 := by
  have hone : Nat.log2 1 = 0 := by decide
  simp [exponent, hone, Nat.not_lt.2 (Nat.log2_self_le hm)]

/-- A natural of more than 53 places is rounded to a number of as many places, or to the power of
two that follows. -/
theorem log2_le_nearestMagnitude (hm : 52 ≤ m.log2) :
    ((2 ^ m.log2 : Nat) : Rat) ≤ nearestMagnitude m 1 := by
  obtain ⟨k, hk⟩ := Nat.exists_eq_add_of_le hm
  have hzero : m ≠ 0 := by
    rintro rfl
    exact absurd hm (by decide)
  have hlast : lastPlace m 1 = k := by
    rw [lastPlace, exponent_one hzero]
    omega
  have hplaces : 2 ^ 52 ≤ m / 2 ^ k := by
    rw [Nat.le_div_iff_mul_le (Nat.two_pow_pos k), ← Nat.pow_add, ← hk]
    exact Nat.log2_self_le hzero
  simp only [nearestMagnitude, if_neg hzero, hlast, Int.natCast_nonneg, if_true, Int.natAbs_natCast,
    Nat.one_mul, Nat.cast_le]
  rw [hk, Nat.pow_add]
  exact Nat.mul_le_mul_right _ (hplaces.trans (div_le_roundHalfEven m (2 ^ k)))

/-- An integer that rounds to a double has no more digits than are written. -/
theorem not_isOverlong_of_fits {n : Int} (h : fits n = true) : ¬ Shown.IsOverlong n := by
  intro hlong
  rw [Shown.isOverlong_iff] at hlong
  have hpow : 2 ^ Text.maxDigits ≤ n.natAbs := (Nat.pow_le_pow_left (by decide) _).trans hlong
  have hlog : Text.maxDigits ≤ n.natAbs.log2 :=
    (Nat.le_log2 (Nat.ne_zero_of_lt ((Nat.two_pow_pos _).trans_le hpow))).2 hpow
  have hrounded := log2_le_nearestMagnitude (hlog.trans' (by decide))
  rw [fits, decide_eq_true_eq, Rat.num_intCast, Rat.den_intCast] at h
  have hlt : 2 ^ n.natAbs.log2 < 2 ^ 1024 := Nat.cast_lt.1 (hrounded.trans_lt h)
  exact absurd (hlog.trans_lt ((Nat.pow_lt_pow_iff_right Nat.one_lt_two).1 hlt)) (by decide)

end Double
/-- An error that is reported to the caller, as one of type or of range with a message. -/
def Error.Reported (free : Nat) (e : Error) : Prop :=
  (e.family = .type ∨ e.family = .range) ∧ ∃ text, e.message free = .ok text

/-- **The errors that are reported** are those that carry a kind and show what can be written. -/
theorem Error.reported_iff {e : Error} :
    e.Reported free ↔ e.kind?.isSome = true ∧ e.wording.Writable free := by
  have hkind : (e.family = .type ∨ e.family = .range) ↔ e.kind?.isSome = true := by
    cases e <;> simp [family, kind?, Kind.family]
  rw [Reported, hkind, message, Shown.exists_write_iff]

/-- An operation returns, or fails with an error that is reported. -/
def Reports {α : Type} (free : Nat) (x : Except Error α) : Prop :=
  ∀ e, x = .error e → e.Reported free

section

variable {α β : Type} {x : Except Error α}

theorem reports_ok (a : α) : Reports free (.ok a : Except Error α) := by
  intro e h
  cases h

theorem reports_of_eq_ok {a : α} (h : x = .ok a) : Reports free x := h ▸ reports_ok a

theorem reports_error_iff {e : Error} :
    Reports free (.error e : Except Error α) ↔ e.Reported free := by
  constructor
  · intro h
    exact h e rfl
  · intro h e' he'
    cases he'
    exact h

/-- The error of an operation that is refused with one of some kind, in words that show nothing but
text. -/
theorem reports_error {e : Error} (h : (e.kind?.isSome && e.wording.isText) = true) :
    Reports free (.error e : Except Error α) := by
  rw [Bool.and_eq_true] at h
  exact reports_error_iff.2 (Error.reported_iff.2 ⟨h.1, Shown.writable_of_isText h.2⟩)

/-- The error of an operation that is refused with one of some kind is reported if its words can be
written. -/
theorem reports_error_iff_writable {e : Error} (h : e.kind?.isSome = true) :
    Reports free (.error e : Except Error α) ↔ e.wording.Writable free := by
  rw [reports_error_iff, Error.reported_iff, and_iff_right h]

theorem reports_error_of_writable {e : Error} (h : e.kind?.isSome = true)
    (hw : e.wording.Writable free) :
    Reports free (.error e : Except Error α) := (reports_error_iff_writable h).2 hw

/-- The error of an operation that carries no kind. -/
theorem not_reports_error {e : Error} (h : e.kind? = none) :
    ¬ Reports free (.error e : Except Error α) := by
  rw [reports_error_iff, Error.reported_iff, h]
  rintro ⟨⟨⟩, -⟩

/-- **A sequence of two steps** reports if the first step does and, where that returns, the second
one. -/
theorem reports_bind_iff {f : α → Except Error β} :
    Reports free (x >>= f) ↔ Reports free x ∧ ∀ a, x = .ok a → Reports free (f a) := by
  cases x with
  | error e =>
    constructor
    · intro h
      refine ⟨reports_error_iff.2 (h e rfl), ?_⟩
      intro a ha
      cases ha
    · rintro ⟨h, -⟩
      exact reports_error_iff.2 (reports_error_iff.1 h)
  | ok a =>
    constructor
    · intro h
      refine ⟨reports_ok a, ?_⟩
      rintro _ ⟨⟩
      exact h
    · rintro ⟨-, h⟩
      exact h a rfl

theorem Reports.bind {f : α → Except Error β} (hx : Reports free x)
    (hf : ∀ a, x = .ok a → Reports free (f a)) :
    Reports free (x >>= f) := reports_bind_iff.2 ⟨hx, hf⟩

theorem reports_map_iff {f : α → β} : Reports free (x.map f) ↔ Reports free x := by
  cases x with
  | error e => exact reports_error_iff.trans reports_error_iff.symm
  | ok a => exact iff_of_true (reports_ok _) (reports_ok a)

end

/-- No part of a date has more digits than are written. -/
structure IsoDate.IsShort (d : IsoDate) : Prop where
  year : ¬ IsOverlong d.year
  month : ¬ IsOverlong d.month
  day : ¬ IsOverlong d.day

namespace IsoDate

variable {d : IsoDate}

/-- A date that exists is short if its year is. -/
theorem Valid.isShort (hv : d.Valid) (hy : ¬ IsOverlong d.year) : d.IsShort := by
  obtain ⟨hm₁, hm₂, hd₁, hd₂⟩ := hv
  have hlen := Iso.daysInMonth_le d.year d.month
  exact ⟨hy, Shown.not_isOverlong (by omega), Shown.not_isOverlong (by omega)⟩

/-- A date that exists is short if its days can be counted in a word. -/
theorem isShort_of_fitsWord (hv : d.Valid) (hw : fitsWord d.count = true) : d.IsShort := by
  apply hv.isShort
  obtain ⟨hm₁, hm₂, hd₁, hd₂⟩ := hv
  have hlen := Iso.daysInMonth_le d.year d.month
  have hnear : Iso.NearWord (Iso.epochDay d.year d.month 1) := by
    rw [fitsWord_iff, count_eq_first, count] at hw
    dsimp only at hw
    rw [Iso.NearWord]
    omega
  have hyears := Iso.fitsWord_years ⟨hm₁, hm₂⟩ hnear
  rw [fitsWord_iff] at hyears
  exact Shown.not_isOverlong (by omega)

/-- The date of a day count that is a word is short. -/
theorem isShort_of_ofEpochDay? {n : Int} (h : ofEpochDay? n = .ok d) : d.IsShort := by
  unfold ofEpochDay? at h
  split at h
  · next hw =>
    obtain rfl := Except.ok.inj h
    exact isShort_of_fitsWord (ofEpochDay_spec n).1 (by rwa [count_ofEpochDay])
  · cases h

/-- **A date that does not exist** is refused with a report exactly if it is short. -/
theorem reports_invalid_iff {α : Type} :
    Reports free (.error (.invalidIsoDate d.year d.month d.day) : Except Error α) ↔ d.IsShort := by
  rw [reports_error_iff_writable rfl]
  constructor
  · intro h
    simp only [Error.wording, Shown.append_eq, Shown.writable_append_iff,
      Shown.writable_number_iff] at h
    exact ⟨h.1.1.1.1.2, h.1.1.2, h.2⟩
  · intro h
    simp [Error.wording, h.year, h.month, h.day]

theorem reports_checkLimits (h : d.IsShort) : Reports free d.checkLimits := by
  unfold checkLimits
  split
  · exact reports_ok d
  · exact reports_error_of_writable rfl (by simp [Error.wording, h.year, h.month, h.day])

/-- **A month outside the represented range** is refused with a report exactly if its year and its
number are short. -/
theorem reports_monthBeyond_iff {α : Type} {year month : Int} :
    Reports free (.error (.yearMonthBeyondLimits year month) : Except Error α) ↔
      ¬ IsOverlong year ∧ ¬ IsOverlong month := by
  rw [reports_error_iff_writable rfl]
  simp [Error.wording]

theorem reports_checkMonthLimits (h : d.IsShort) : Reports free d.checkMonthLimits := by
  unfold checkMonthLimits
  split
  · exact reports_ok d
  · exact reports_monthBeyond_iff.2 ⟨h.year, h.month⟩

end IsoDate

/-- The ISO date of a day count that is a word is short. -/
theorem Calendar.isShort_isoOf {c : Calendar} {d : YearMonthDay}
    (h : fitsWord (c.epochDay d) = true) :
    (c.isoOf d).IsShort :=
  IsoDate.isShort_of_fitsWord (c.valid_isoOf d) (by rwa [c.count_isoOf])

/-- **A date is counted** with a report exactly if its year, month and day fit a word. -/
theorem Iso.toEpochDay_reports_iff {year month day : Int} :
    Reports free (toEpochDay year month day) ↔ inWords year month day = true := by
  unfold toEpochDay
  split
  · next h => exact iff_of_true (reports_ok _) h
  · next h => exact iff_of_false (not_reports_error rfl) h

/-- **A day count** is taken for its date with a report exactly if it fits a word. -/
theorem IsoDate.ofEpochDay?_reports_iff {n : Int} :
    Reports free (ofEpochDay? n) ↔ fitsWord n = true := by
  unfold ofEpochDay?
  split
  · next h => exact iff_of_true (reports_ok _) h
  · next h => exact iff_of_false (not_reports_error rfl) h

namespace Value

/-- A rational that is beyond a double. -/
def BeyondDouble (v : Value) : Prop := ∃ q, v = .number (.ratio q) ∧ Double.fits q = false

theorem reports_checkRatio_iff {q : Rat} : Reports free (checkRatio q) ↔ Double.fits q = true := by
  unfold checkRatio
  split
  · next h => exact iff_of_true (reports_ok q) h
  · next h => exact iff_of_false (not_reports_error rfl) h

theorem reports_toNumber (v : Value) (name : String) : Reports free (v.toNumber name) := by
  unfold toNumber
  split
  · exact reports_ok _
  · exact reports_error rfl
  · exact reports_error rfl

theorem toNumber_eq_ok_iff {v : Value} {name : String} {n : Number} :
    v.toNumber name = .ok n ↔ v = .number n := by
  cases v <;> simp [toNumber]

/-- **A number that is cut off** is read with a report, unless it is a rational beyond a double. -/
theorem truncated_reports_iff {v : Value} {name : String} :
    Reports free (v.truncated name) ↔ ¬ v.BeyondDouble := by
  unfold truncated
  rw [reports_bind_iff]
  constructor
  · rintro ⟨-, h⟩ ⟨q, rfl, hq⟩
    have hread := h (.ratio q) (toNumber_eq_ok_iff.2 rfl)
    simp only [reports_bind_iff, reports_checkRatio_iff] at hread
    rw [hread.1] at hq
    cases hq
  · intro h
    refine ⟨reports_toNumber v name, ?_⟩
    intro n hn
    rw [toNumber_eq_ok_iff] at hn
    cases n with
    | whole n => exact reports_ok n
    | ratio q =>
      have hq : Double.fits q = true := by
        by_contra hbeyond
        exact h ⟨q, hn, by simpa using hbeyond⟩
      exact (reports_checkRatio_iff.2 hq).bind fun q _ => reports_ok _
    | double d =>
      simp only
      split
      · exact reports_ok _
      · exact reports_error rfl

/-- The numbers that are to be positive and are read without a report: a rational beyond a double,
and a number below one that is shown with a part of too many digits. -/
inductive PositiveEscapes : Value → Prop
  | beyond {q : Rat} (hq : Double.fits q = false) : PositiveEscapes (.number (.ratio q))
  | whole {n : Int} (hlow : n < 1) (hlong : IsOverlong n) : PositiveEscapes (.number (.whole n))
  | ratio {q : Rat} (hlow : Number.integerPart q < 1)
    (hlong : IsOverlong q.num ∨ IsOverlong q.den) :
    PositiveEscapes (.number (.ratio q))

/-- A fraction is shown by its two parts. -/
theorem writable_ratio_iff {q : Rat} :
    (Number.ratio q).display.Writable free ↔ ¬ (IsOverlong q.num ∨ IsOverlong q.den) := by
  simp [Number.display]

/-- A number that is tested for being finite leads on if it fits a double. -/
theorem reports_checkRatio_bind_iff {α : Type} {q : Rat} {f : Rat → Except Error α} :
    Reports free (checkRatio q >>= f) ↔ Double.fits q = true ∧ Reports free (f q) := by
  rw [reports_bind_iff, reports_checkRatio_iff, and_congr_right_iff]
  intro hq
  simp [checkRatio, hq]

/-- **A number that is to be positive** is read with a report, unless it is one of those. -/
theorem positive_reports_iff {v : Value} {name : String} :
    Reports free (v.positive name) ↔ ¬ v.PositiveEscapes := by
  have hlow :
    ∀ n : Int, Reports free (if n < 1 then Except.error (.notPositive name v.display) else .ok n) ↔
      (n < 1 → v.display.Writable free) := by
    intro n
    split
    · next h =>
      rw [reports_error_iff_writable rfl, imp_iff_right h]
      simp [Error.wording]
    · next h => exact iff_of_true (reports_ok n) (fun hlow => absurd hlow h)
  cases v with
  | number n =>
    cases n with
    | whole n =>
      refine (hlow n).trans ⟨?_, fun h hn hlong => h (.whole hn hlong)⟩
      rintro h (_ | ⟨hn, hlong⟩ | _)
      exact h hn hlong
    | ratio q =>
      cases hq : Double.fits q with
      | false =>
        have hchecked : checkRatio q = .error .numberBeyondDouble := by simp [checkRatio, hq]
        have hread : (number (.ratio q)).positive name = .error .numberBeyondDouble := by
          simp only [positive, truncated, toNumber, hchecked, bind, Except.bind]
        rw [hread]
        exact iff_of_false (not_reports_error rfl) (not_not.2 (.beyond hq))
      | true =>
        have hchecked : checkRatio q = .ok q := by simp [checkRatio, hq]
        have hread : (number (.ratio q)).positive name =
            if Number.integerPart q < 1
              then .error (.notPositive name (number (.ratio q)).display)
              else .ok (Number.integerPart q) := by
          simp only [positive, truncated, toNumber, hchecked, bind, Except.bind]
          rfl
        rw [hread, hlow, display, writable_ratio_iff]
        refine ⟨?_, fun h hn hlong => h (.ratio hn hlong)⟩
        rintro h (hbeyond | _ | ⟨hn, hlong⟩)
        · rw [hq] at hbeyond
          cases hbeyond
        · exact h hn hlong
    | double d =>
      refine iff_of_true ?_ (by rintro (_ | _ | _))
      unfold positive
      apply (truncated_reports_iff.2 ?_).bind
      · intro n _
        exact (hlow n).2 fun _ => trivial
      · rintro ⟨q, ⟨⟩, -⟩
  | _ => exact iff_of_true (reports_error rfl) (by rintro (_ | _ | _))

theorem reports_string (v : Value) (name : String) : Reports free (v.string name) := by
  unfold string
  split
  · exact reports_ok _
  · exact reports_error rfl

theorem reports_toCalendar (v : Value) : Reports free v.toCalendar := by
  unfold toCalendar
  split
  · exact reports_ok _
  · split
    · exact reports_ok _
    · exact reports_error rfl
  · exact reports_error rfl

/-- The arguments of a constructor that are read without a report: the text of a numeral with the
denominator zero, or of a rational beyond a double, and such a rational itself. -/
inductive ArgumentEscapes : Value → Prop
  | zeroDenominator {s : String} (h : Numeral.read s = .error .zeroDenominator) :
    ArgumentEscapes (.text s)
  | numeral {s : String} {q : Rat} (h : Numeral.read s = .ok q) (hq : Double.fits q = false) :
    ArgumentEscapes (.text s)
  | ratio {q : Rat} (hq : Double.fits q = false) : ArgumentEscapes (.number (.ratio q))

/-- An argument that is no text is cut off as a number is, but for the kind of the refusal. -/
theorem argument_reports_iff_of_ne_text {v : Value} {name : String} (h : ∀ s, v ≠ .text s) :
    Reports free (v.argument name) ↔ ¬ v.BeyondDouble := by
  have hread : v.readNumeral name = .ok v := by
    unfold readNumeral
    split
    · next s => exact absurd rfl (h s)
    · rfl
  rw [← (truncated_reports_iff : Reports free (v.truncated name) ↔ ¬ v.BeyondDouble)]
  unfold argument
  rw [hread]
  simp only [bind, Except.bind]
  generalize v.truncated name = x
  cases x with
  | ok n => exact iff_of_true (reports_ok n) (reports_ok n)
  | error e =>
    cases e
    case numberExpected => exact iff_of_true (reports_error rfl) (reports_error rfl)
    all_goals exact Iff.rfl

/-- The text of a numeral is taken for the rational that it writes. -/
theorem argument_text {s : String} {q : Rat} (h : Numeral.read s = .ok q) (name : String) :
    (text s).argument name = (number (.ratio q)).argument name := by
  have hread : (text s).readNumeral name = .ok (number (.ratio q)) := by
    simp only [readNumeral, h]
  unfold argument
  rw [hread]
  rfl

/-- **The argument of a constructor** is read with a report, unless it is one of those. -/
theorem argument_reports_iff {v : Value} {name : String} :
    Reports free (v.argument name) ↔ ¬ v.ArgumentEscapes := by
  by_cases htext : ∃ s, v = .text s
  · obtain ⟨s, rfl⟩ := htext
    cases hread : Numeral.read s with
    | ok q =>
      rw [argument_text hread, argument_reports_iff_of_ne_text (fun s => by simp), not_iff_not]
      constructor
      · rintro ⟨_, ⟨⟩, hq⟩
        exact .numeral hread hq
      · intro h
        cases h with
        | zeroDenominator h => rw [hread] at h; cases h
        | numeral h hq =>
          rw [hread, Except.ok.injEq] at h
          exact ⟨q, rfl, h ▸ hq⟩
    | error fault =>
      cases fault with
      | unreadable =>
        have hrefused : (text s).argument name = .error (.argumentUnreadable name s) := by
          simp only [argument, readNumeral, hread, bind, Except.bind]
        rw [hrefused]
        refine iff_of_true (reports_error rfl) ?_
        intro h
        cases h with
        | zeroDenominator h => rw [hread] at h; cases h
        | numeral h hq => rw [hread] at h; cases h
      | zeroDenominator =>
        have hrefused : (text s).argument name = .error .zeroDenominator := by
          simp only [argument, readNumeral, hread, bind, Except.bind]
        rw [hrefused]
        exact iff_of_false (not_reports_error rfl) (not_not.2 (.zeroDenominator hread))
  · have hne : ∀ s, v ≠ .text s := fun s h => htext ⟨s, h⟩
    rw [argument_reports_iff_of_ne_text hne, not_iff_not]
    constructor
    · rintro ⟨q, rfl, hq⟩
      exact .ratio hq
    · intro h
      cases h with
      | zeroDenominator h => exact absurd rfl (hne _)
      | numeral h hq => exact absurd rfl (hne _)
      | ratio hq => exact ⟨_, rfl, hq⟩

/-- The rounding increments that are read without a report: a number beyond a double, a fraction
beyond the bounds with a part of too many digits, and a value that is no number and cannot be
shown. -/
inductive IncrementEscapes (free : Nat) : Value → Prop
  | whole {n : Int} (hn : Double.fits n = false) : IncrementEscapes free (.number (.whole n))
  | ratio {q : Rat} (hq : Double.fits q = false) : IncrementEscapes free (.number (.ratio q))
  | fraction {q : Rat}
    (hbounds : ¬ (1 ≤ Number.integerPart q ∧ Number.integerPart q ≤ maxIncrement))
    (hlong : IsOverlong q.num ∨ IsOverlong q.den) : IncrementEscapes free (.number (.ratio q))
  | other {v : Value} (hnull : v ≠ .null) (hnumber : ∀ n, v ≠ .number n)
    (h : ¬ v.display.Writable free) :
    IncrementEscapes free v

/-- **A rounding increment** is read with a report, unless it is one of those. -/
theorem toIncrement_reports_iff {v : Value} :
    Reports free v.toIncrement ↔ ¬ v.IncrementEscapes free := by
  have hbounded : ∀ n : Int, Reports free (if 1 ≤ n ∧ n ≤ maxIncrement then Except.ok n
      else .error (.incrementBeyondBounds maxIncrement v.display)) ↔
      (¬ (1 ≤ n ∧ n ≤ maxIncrement) → v.display.Writable free) := by
    intro n
    split
    · next h => exact iff_of_true (reports_ok n) (fun hnot => absurd h hnot)
    · next h =>
      rw [reports_error_iff_writable rfl, imp_iff_right h]
      simp [Error.wording]
  unfold toIncrement
  dsimp only
  split
  · refine iff_of_true (reports_ok 1) ?_
    rintro (_ | _ | _ | ⟨hnull, -, -⟩)
    exact hnull rfl
  · next n =>
    rw [reports_checkRatio_bind_iff, hbounded]
    constructor
    · rintro ⟨hn, -⟩ (hbeyond | _ | _ | ⟨-, hnumber, -⟩)
      · rw [hn] at hbeyond
        cases hbeyond
      · exact hnumber _ rfl
    · intro h
      have hn : Double.fits n = true := by
        by_contra hbeyond
        exact h (.whole (by simpa using hbeyond))
      exact ⟨hn, fun _ => Double.not_isOverlong_of_fits hn⟩
  · next q =>
    rw [reports_checkRatio_bind_iff, hbounded, display, writable_ratio_iff]
    constructor
    · rintro ⟨hq, hwritten⟩ (_ | hbeyond | ⟨hbounds, hlong⟩ | ⟨-, hnumber, -⟩)
      · rw [hq] at hbeyond
        cases hbeyond
      · exact hwritten hbounds hlong
      · exact hnumber _ rfl
    · intro h
      refine ⟨?_, fun hbounds hlong => h (.fraction hbounds hlong)⟩
      by_contra hbeyond
      exact h (.ratio (by simpa using hbeyond))
  · next d =>
    refine iff_of_true ?_ ?_
    · split
      · exact (hbounded _).2 fun _ => trivial
      · exact reports_error rfl
    · rintro (_ | _ | _ | ⟨-, hnumber, -⟩)
      exact hnumber _ rfl
  · next hnull hwhole hratio hdouble =>
    have hnumber : ∀ n, v ≠ .number n := by
      rintro (n | q | d) rfl
      · exact hwhole n rfl
      · exact hratio q rfl
      · exact hdouble d rfl
    refine (reports_error_iff_writable rfl).trans ?_
    constructor
    · rintro hwritten (_ | _ | _ | ⟨-, -, h⟩)
      · exact hwhole _ rfl
      · exact hratio _ rfl
      · exact hratio _ rfl
      · exact h hwritten.2
    · intro h
      refine ⟨trivial, ?_⟩
      by_contra hshown
      exact h (.other hnull hnumber hshown)

theorem reports_optionText (v : Value) (name : String) : Reports free (v.optionText name) := by
  unfold optionText
  split
  · exact reports_ok _
  · exact reports_error rfl

theorem reports_named {α : Type} (v : Value) (name : String) (members : List (α × String)) :
    Reports free (v.named name members) := by
  unfold named
  apply (reports_optionText v name).bind
  intro s _
  split
  · exact reports_ok _
  · exact reports_error rfl

theorem reports_toOverflow (v : Value) : Reports free v.toOverflow := by
  unfold toOverflow
  split
  · exact reports_ok _
  · exact reports_ok _
  · exact reports_named _ _ _

theorem reports_toRoundingMode (v : Value) : Reports free v.toRoundingMode := by
  unfold toRoundingMode
  split
  · exact reports_ok _
  · exact reports_ok _
  · exact reports_named _ _ _

theorem reports_toDateUnit (v : Value) (name : String) : Reports free (v.toDateUnit name) := by
  unfold toDateUnit
  dsimp only
  split
  · exact reports_ok _
  · split
    · exact reports_ok _
    · exact reports_error rfl
  · apply (reports_optionText v name).bind
    intro s _
    split
    · exact reports_ok _
    · split
      · split
        · exact reports_ok _
        · exact reports_error rfl
      · exact reports_error rfl

end Value

end Almanac
