import Almanac.Text.Padded
import Mathlib.Data.List.Basic
import Mathlib.Data.List.Induction
import Mathlib.Tactic.IntervalCases

/-!
# Digits that write a number

The digits of a number write that number, with leading zeros as well, and fill the places that they
are given.

* `Text.forall_mem_of_all`, `Text.of_lt_ascii`: what holds of the characters of a given text, or of
  ASCII, is looked up.
* `Text.number_append_singleton`, `Text.number_lt`: the number of one more digit, and how large a
  number can be.
* `Text.Writes`: a row of digits writes a number.
* `Text.writes_digits`, `Text.writes_paddedDigits`: **the digits of a number write it**.
* `Text.spanDigits_append`: **a row of digits is read to its end**; `Text.exists_of_spanDigits`: and
  nothing else.
* `Text.Writes.exists_trimmed`: a row of digits without its final zeros.
* `Text.length_paddedDigits`: a number with no more digits than places fills the places.
-/

namespace Almanac.Text

/-- What holds of each character of a text in turn. -/
theorem forall_mem_of_all {P : Char → Prop} [DecidablePred P] {s : List Char}
    (h : (s.all fun c => P c) = true) :
    ∀ c ∈ s, P c := fun c hc => of_decide_eq_true (List.all_eq_true.1 h c hc)

/-- What holds of every character of ASCII can be looked up. -/
theorem of_lt_ascii {P : Char → Prop} (h : ∀ n < 128, P (Char.ofNat n)) {c : Char}
    (hc : c.toNat < 128) : P c := by
  have hP := h c.toNat hc
  rwa [Char.ofNat_toNat] at hP

theorem toNat_lt_of_toUpper {c : Char} (h : c.toUpper.toNat < 128) : c.toNat < 128 := by
  unfold Char.toUpper at h
  split at h
  · next hc =>
    have hz : c.toNat ≤ 122 := hc.2
    omega
  · exact h

theorem digit?_digitChar {d : Nat} (h : d < 10) : digit? d.digitChar = some d := by
  interval_cases d <;> rfl

theorem paddedDigits_two {n : Nat} (h : n < 100) :
    paddedDigits 2 n = [(n / 10).digitChar, (n % 10).digitChar] := by
  unfold paddedDigits
  by_cases hn : n < 10
  · have hd : digits n = [n.digitChar] := by rw [digits, if_pos hn]
    rw [hd, Nat.div_eq_of_lt hn, Nat.mod_eq_of_lt hn]
    rfl
  · have ht : digits (n / 10) = [(n / 10).digitChar] := by rw [digits, if_pos (by omega)]
    rw [digits, if_neg hn, ht]
    rfl

variable {s : List Char} {n d : Nat}

theorem digit?_lt {c : Char} (h : digit? c = some d) : d < 10 := by
  obtain ⟨z, hz, rfl⟩ := Option.map_eq_some_iff.1 h
  have hrange := List.find?_some hz
  simp only [Bool.and_eq_true, decide_eq_true_eq] at hrange
  omega

/-- An ASCII digit is the digit of its value. -/
theorem eq_digitChar {c : Char} (h : digit? c = some d) (hc : c.isDigit = true) :
    c = d.digitChar := by
  have hascii : c.toNat < 128 := by
    simp only [Char.isDigit, Bool.and_eq_true, decide_eq_true_eq] at hc
    exact Nat.lt_of_le_of_lt hc.2 (by decide)
  obtain ⟨hvalue, hchar⟩ := of_lt_ascii
    (P := fun c => c.isDigit = true → digit? c = some (c.toNat - 48) ∧ (c.toNat - 48).digitChar = c)
    (by decide +kernel) hascii hc
  rw [← hchar, Option.some.inj (h.symm.trans hvalue)]

theorem values_lt {values : List Nat} (h : s.map digit? = values.map some) :
    ∀ d ∈ values, d < 10 := by
  intro d hd
  have hmem : some d ∈ s.map digit? := h ▸ List.mem_map_of_mem hd
  obtain ⟨c, -, hc⟩ := List.mem_map.1 hmem
  exact digit?_lt hc

/-- One more digit writes ten times the number and the digit. -/
theorem number_append_singleton (values : List Nat) (d : Nat) :
    number (values ++ [d]) = 10 * number values + d := by
  simp only [number, List.foldl_append, List.foldl_cons, List.foldl_nil]

/-- A row of digits writes less than the power of ten of its length. -/
theorem number_lt {values : List Nat} (h : ∀ d ∈ values, d < 10) :
    number values < 10 ^ values.length := by
  induction values using List.reverseRecOn with
  | nil => decide
  | append_singleton values d ih =>
    rw [List.forall_mem_append, List.forall_mem_singleton] at h
    have hvalues := ih h.1
    have hd := h.2
    rw [number_append_singleton, List.length_append, List.length_singleton, Nat.pow_succ]
    omega

/-- A row of digits that writes a number. -/
def Writes (s : List Char) (n : Nat) : Prop :=
  ∃ values, s.map digit? = values.map some ∧ number values = n

theorem writes_digit (h : d < 10) : Writes [d.digitChar] d := by
  refine ⟨[d], ?_, ?_⟩
  · simp only [List.map_cons, List.map_nil, digit?_digitChar h]
  · simp [number]

theorem Writes.snoc (h : Writes s n) (hd : d < 10) : Writes (s ++ [d.digitChar]) (10 * n + d) := by
  obtain ⟨values, hvalues, rfl⟩ := h
  refine ⟨values ++ [d], ?_, number_append_singleton values d⟩
  simp only [List.map_append, hvalues, List.map_cons, List.map_nil, digit?_digitChar hd]

/-- A leading zero writes nothing. -/
theorem Writes.zero_cons (h : Writes s n) : Writes ('0' :: s) n := by
  obtain ⟨values, hvalues, rfl⟩ := h
  refine ⟨0 :: values, ?_, rfl⟩
  simp only [List.map_cons, hvalues]
  rfl

/-- **The digits of a number** write it. -/
theorem writes_digits (n : Nat) : Writes (digits n) n := by
  induction n using digits.induct with
  | case1 n h =>
    rw [digits, if_pos h]
    exact writes_digit h
  | case2 n h ih =>
    rw [digits, if_neg h]
    have hsnoc := ih.snoc (Nat.mod_lt n (show 10 > 0 by decide))
    rwa [Nat.div_add_mod] at hsnoc

/-- A text that does not go on with a digit. -/
def EndsDigits (rest : List Char) : Prop := ∀ c ∈ rest.head?, digit? c = none

/-- **A row of digits is read to its end.** -/
theorem spanDigits_append {values : List Nat} {rest : List Char}
    (h : s.map digit? = values.map some) (hrest : EndsDigits rest) :
    spanDigits (s ++ rest) = (values, rest) := by
  induction s generalizing values with
  | nil =>
    obtain rfl : values = [] := by simpa using h.symm
    cases rest with
    | nil => rfl
    | cons c rest => simp only [List.nil_append, spanDigits, hrest c rfl]
  | cons c s ih =>
    cases values with
    | nil => cases h
    | cons v values =>
      obtain ⟨hc, hs⟩ := List.cons.inj h
      simp only [List.cons_append, spanDigits, hc, ih hs]

/-- What is read of the digits at the front of a text is their row, up to its end. -/
theorem exists_of_spanDigits (s : List Char) :
    ∃ front, s = front ++ (spanDigits s).2 ∧ front.map digit? = (spanDigits s).1.map some ∧
      EndsDigits (spanDigits s).2 := by
  induction s with
  | nil => exact ⟨[], rfl, rfl, fun c hc => by cases hc⟩
  | cons c s ih =>
    obtain ⟨front, hs, hfront, hends⟩ := ih
    unfold spanDigits
    split
    · next d hd =>
      refine ⟨c :: front, by rw [List.cons_append, ← hs], ?_, hends⟩
      rw [List.map_cons, hd, hfront, List.map_cons]
    · next hd =>
      refine ⟨[], rfl, rfl, fun c' hc' => ?_⟩
      obtain rfl := Option.some.inj hc'
      exact hd

/-- The characters that write a number are digits. -/
theorem Writes.isDigit (h : Writes s n) : ∀ c ∈ s, isDigit c = true := by
  obtain ⟨values, hvalues, -⟩ := h
  intro c hc
  have hmem : digit? c ∈ values.map some := hvalues ▸ List.mem_map_of_mem hc
  obtain ⟨d, -, hd⟩ := List.mem_map.1 hmem
  rw [Text.isDigit, ← hd]
  rfl

/-- The digits that write a number are read as that number. -/
theorem Writes.exists_span {rest : List Char} (h : Writes s n) (hrest : EndsDigits rest) :
    ∃ values, spanDigits (s ++ rest) = (values, rest) ∧ number values = n ∧
      values.length = s.length := by
  obtain ⟨values, hvalues, rfl⟩ := h
  refine ⟨values, spanDigits_append hvalues hrest, rfl, ?_⟩
  have hlength := congrArg List.length hvalues
  simpa using hlength.symm

/-- Without a final zero a row of digits writes a tenth. -/
theorem Writes.of_snoc_zero (h : Writes (s ++ ['0']) n) : ∃ m, Writes s m ∧ n = m * 10 := by
  obtain ⟨values, hvalues, rfl⟩ := h
  rw [List.map_append] at hvalues
  obtain ⟨front, last, rfl, hfront, hlast⟩ := List.map_eq_append_iff.1 hvalues.symm
  obtain rfl : last = [0] := by
    have hzero : [digit? '0'] = [some 0] := by decide
    exact List.map_injective_iff.2 (Option.some_injective Nat) (hlast.trans hzero)
  refine ⟨number front, ⟨front, hfront.symm, rfl⟩, ?_⟩
  rw [number_append_singleton, Nat.add_zero, Nat.mul_comm]

/-- **Without its final zeros** a row of digits writes the number divided by as many tens. -/
theorem Writes.exists_trimmed (h : Writes s n) :
    ∃ zeros m, s = (s.reverse.dropWhile (· = '0')).reverse ++ List.replicate zeros '0' ∧
      Writes (s.reverse.dropWhile (· = '0')).reverse m ∧ n = m * 10 ^ zeros := by
  induction s using List.reverseRecOn generalizing n with
  | nil => exact ⟨0, n, rfl, h, by rw [Nat.pow_zero, Nat.mul_one]⟩
  | append_singleton s c ih =>
    by_cases hc : c = '0'
    · subst hc
      have htrim : (s ++ ['0']).reverse.dropWhile (· = '0') = s.reverse.dropWhile (· = '0') := by
        rw [List.reverse_append, List.reverse_singleton, List.singleton_append,
          List.dropWhile_cons_of_pos]
        exact decide_eq_true rfl
      obtain ⟨m, hm, rfl⟩ := h.of_snoc_zero
      obtain ⟨zeros, k, hs, hk, rfl⟩ := ih hm
      refine ⟨zeros + 1, k, ?_, ?_, ?_⟩
      · rw [htrim, List.replicate_succ', ← List.append_assoc, ← hs]
      · rw [htrim]
        exact hk
      · rw [Nat.pow_succ, Nat.mul_assoc]
    · have htrim : (s ++ [c]).reverse.dropWhile (· = '0') = (s ++ [c]).reverse := by
        rw [List.reverse_append, List.reverse_singleton, List.singleton_append,
          List.dropWhile_cons_of_neg]
        simpa using hc
      refine ⟨0, n, ?_, ?_, ?_⟩
      · rw [htrim, List.reverse_reverse, List.replicate_zero, List.append_nil]
      · rw [htrim, List.reverse_reverse]
        exact h
      · rw [Nat.pow_zero, Nat.mul_one]

theorem digits_ne_nil (n : Nat) : digits n ≠ [] := by
  rw [digits]
  split
  · exact List.cons_ne_nil _ _
  · exact List.append_ne_nil_of_right_ne_nil _ (List.cons_ne_nil _ _)

theorem writes_paddedDigits (width n : Nat) : Writes (paddedDigits width n) n := by
  unfold paddedDigits
  generalize width - (digits n).length = zeros
  induction zeros with
  | zero => exact writes_digits n
  | succ zeros ih => exact ih.zero_cons

theorem length_digits_le {width : Nat} (h : n < 10 ^ (width + 1)) :
    (digits n).length ≤ width + 1 := by
  induction width generalizing n with
  | zero =>
    rw [digits, if_pos (by simpa using h)]
    rfl
  | succ width ih =>
    rw [digits]
    split
    · exact Nat.succ_le_succ (Nat.zero_le _)
    · have htens : n / 10 < 10 ^ (width + 1) := by
        rw [Nat.div_lt_iff_lt_mul (by decide)]
        exact h
      have := ih htens
      simp only [List.length_append, List.length_singleton]
      omega

/-- **A number fills the places** that it is given, if it has no more digits than these. -/
theorem length_paddedDigits {width : Nat} (h : n < 10 ^ (width + 1)) :
    (paddedDigits (width + 1) n).length = width + 1 := by
  have := length_digits_le h
  rw [paddedDigits, List.length_append, List.length_replicate]
  omega

end Almanac.Text
