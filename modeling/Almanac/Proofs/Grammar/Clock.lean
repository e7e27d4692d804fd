import Almanac.Proofs.Digit
import Almanac.YearMonth.Parser

/-!
# The grammar of numbers and clocks

What may stand in a text for a number of fixed width, for a fraction and for the hours, minutes and
seconds of a time or an offset, said apart from the reader. The reader finds such a text at the
front of a longer one, and whatever it finds there is such a text.

* `Text.WritesIn`: a number of a given number of digits; `WrittenDate.takeNumber_eq_some_iff`.
* `WritesPair`: two digits, perhaps after a colon; `WrittenDate.takeColonPair_eq_some_iff`.
* `IsFraction`: a point or comma and up to nine digits, or nothing.
* `WritesClock`: hours, minutes and seconds, as far as they go.
* `WrittenDate.exists_of_takeClock`, `WrittenDate.takeClock_append`: **a clock is read if and only
  if it is there**, where the text goes on with nothing that could be part of it (`EndsClock`).
-/

namespace Almanac

open Text (Writes EndsDigits digit? spanDigits)

/-- A row of a given number of digits that writes a number. -/
def Text.WritesIn (places : Nat) (s : List Char) (n : Nat) : Prop := s.length = places ∧ Writes s n

open Text (WritesIn)

/-- Two digits, perhaps after a colon. -/
inductive WritesPair : List Char → Nat → Prop
  | plain {s n} (h : WritesIn 2 s n) : WritesPair s n
  | colon {s n} (h : WritesIn 2 s n) : WritesPair (':' :: s) n

/-- The fraction of a second: a point or comma and one to nine digits, or nothing. -/
inductive IsFraction : List Char → Prop
  | none : IsFraction []
  | some {mark digits n} (hmark : mark = '.' ∨ mark = ',') (hdigits : Writes digits n)
      (hlength : 1 ≤ digits.length ∧ digits.length ≤ 9) : IsFraction (mark :: digits)

/-- Hours, minutes and seconds, as far as they go. -/
inductive WritesClock : List Char → Clock → Prop
  | hours {h hour} (hh : WritesIn 2 h hour) : WritesClock h { hour }
  | minutes {h m hour minute} (hh : WritesIn 2 h hour) (hm : WritesPair m minute) :
      WritesClock (h ++ m) { hour, minute }
  | seconds {h m s f hour minute second} (hh : WritesIn 2 h hour) (hm : WritesPair m minute)
      (hs : WritesPair s second) (hf : IsFraction f) :
      WritesClock (h ++ (m ++ (s ++ f))) { hour, minute, second }

/-- A text that does not go on with a part of a clock. -/
def EndsClock (rest : List Char) : Prop :=
  EndsDigits rest ∧ ∀ c ∈ rest.head?, c ≠ ':' ∧ c ≠ '.' ∧ c ≠ ','

variable {s rest : List Char} {n places : Nat}

theorem Text.WritesIn.lt (h : WritesIn places s n) : n < 10 ^ places := by
  obtain ⟨rfl, values, hvalues, rfl⟩ := h
  have hlength : values.length = s.length := by
    simpa using (congrArg List.length hvalues).symm
  exact hlength ▸ number_lt (values_lt hvalues)

theorem Text.WritesIn.exists_cons (h : WritesIn (places + 1) s n) :
    ∃ c t, s = c :: t ∧ digit? c ≠ none := by
  obtain ⟨hlength, hwrites⟩ := h
  cases s with
  | nil => cases hlength
  | cons c t =>
    refine ⟨c, t, rfl, ?_⟩
    have hdigit := hwrites.isDigit c List.mem_cons_self
    exact Option.isSome_iff_ne_none.1 hdigit

namespace WrittenDate

theorem takeDigits_append {values : List Nat} (h : s.map digit? = values.map some)
    (rest : List Char) : takeDigits s.length (s ++ rest) = some (values, rest) := by
  induction s generalizing values with
  | nil =>
    obtain rfl : values = [] := by simpa using h
    rfl
  | cons c s ih =>
    cases values with
    | nil => cases h
    | cons d values =>
      simp only [List.map_cons, List.cons.injEq] at h
      obtain ⟨hd, hs⟩ := h
      simp only [List.cons_append, List.length_cons, takeDigits, hd, ih hs, Option.bind_eq_bind,
        Option.bind_some, pure]

theorem takeNumber_append (h : Writes s n) (rest : List Char) :
    takeNumber s.length (s ++ rest) = some (n, rest) := by
  obtain ⟨values, hvalues, rfl⟩ := h
  rw [takeNumber, takeDigits_append hvalues, Option.map_some]

theorem exists_of_takeDigits {values : List Nat} (h : takeDigits places s = some (values, rest)) :
    ∃ front, s = front ++ rest ∧ front.length = places ∧ front.map digit? = values.map some := by
  induction places generalizing s values with
  | zero =>
    obtain ⟨rfl, rfl⟩ := Prod.mk.inj (Option.some.inj h)
    exact ⟨[], rfl, rfl, rfl⟩
  | succ places ih =>
    cases s with
    | nil => cases h
    | cons c s =>
      simp only [takeDigits, Option.bind_eq_bind, Option.bind_eq_some_iff] at h
      obtain ⟨d, hd, ⟨ds, r⟩, hds, heq⟩ := h
      obtain ⟨rfl, rfl⟩ := Prod.mk.inj (Option.some.inj heq)
      obtain ⟨front, rfl, hlength, hfront⟩ := ih hds
      refine ⟨c :: front, rfl, congrArg (· + 1) hlength, ?_⟩
      rw [List.map_cons, hd, hfront, List.map_cons]

/-- **A number of fixed width is read if and only if it is there.** -/
theorem takeNumber_eq_some_iff :
    takeNumber places s = some (n, rest) ↔ ∃ front, s = front ++ rest ∧
    WritesIn places front n := by
  constructor
  · intro h
    obtain ⟨⟨values, r⟩, hvalues, heq⟩ := Option.map_eq_some_iff.1 h
    obtain ⟨hn, rfl⟩ := Prod.mk.inj heq
    obtain ⟨front, hs, hlength, hfront⟩ := exists_of_takeDigits hvalues
    exact ⟨front, hs, hlength, values, hfront, hn⟩
  · rintro ⟨front, rfl, rfl, hwrites⟩
    exact takeNumber_append hwrites rest

theorem takeNumber_of_endsDigits (h : EndsDigits s) : takeNumber (places + 1) s = none := by
  cases s with
  | nil => rfl
  | cons c s =>
    simp only [takeNumber, takeDigits, h c rfl, Option.bind_eq_bind, Option.bind_none,
      Option.map_none]

theorem takeColonPair_of_ne (h : ∀ c ∈ s.head?, c ≠ ':') : takeColonPair s = takeNumber 2 s := by
  unfold takeColonPair
  split
  · exact absurd rfl (h ':' rfl)
  · rfl

/-- **Two digits after a colon or not** are read if and only if they are there. -/
theorem takeColonPair_eq_some_iff :
    takeColonPair s = some (n, rest) ↔ ∃ front, s = front ++ rest ∧ WritesPair front n := by
  constructor
  · intro h
    unfold takeColonPair at h
    split at h
    · obtain ⟨front, rfl, hfront⟩ := takeNumber_eq_some_iff.1 h
      exact ⟨':' :: front, rfl, .colon hfront⟩
    · obtain ⟨front, rfl, hfront⟩ := takeNumber_eq_some_iff.1 h
      exact ⟨front, rfl, .plain hfront⟩
  · rintro ⟨front, rfl, hfront⟩
    cases hfront with
    | plain hfront =>
      -- a digit is no colon
      obtain ⟨c, t, rfl, hc⟩ := hfront.exists_cons
      rw [takeColonPair_of_ne, takeNumber_eq_some_iff]
      · exact ⟨_, rfl, hfront⟩
      · rintro _ ⟨⟩ rfl
        exact hc rfl
    | colon hfront => exact takeNumber_eq_some_iff.2 ⟨_, rfl, hfront⟩

theorem takeColonPair_of_endsClock (h : EndsClock s) : takeColonPair s = none := by
  rw [takeColonPair_of_ne fun c hc => (h.2 c hc).1, takeNumber_of_endsDigits h.1]

/-- What is dropped as a fraction is one. -/
theorem exists_of_dropFraction (s : List Char) :
    ∃ front, s = front ++ dropFraction s ∧ IsFraction front := by
  unfold dropFraction
  split
  · next c s =>
    split
    · next hmark =>
      simp only
      split
      · next hlength =>
        obtain ⟨front, hs, hfront, -⟩ := Text.exists_of_spanDigits s
        have hplaces : front.length = (spanDigits s).1.length := by
          simpa using congrArg List.length hfront
        rw [← hplaces] at hlength
        refine ⟨c :: front, by rw [List.cons_append, ← hs], .some hmark ⟨_, hfront, rfl⟩ hlength⟩
      · exact ⟨[], rfl, .none⟩
    · exact ⟨[], rfl, .none⟩
  · exact ⟨[], rfl, .none⟩

/-- A fraction is dropped. -/
theorem dropFraction_append (h : IsFraction s) (hrest : EndsClock rest) :
    dropFraction (s ++ rest) = rest := by
  cases h with
  | none =>
    cases rest with
    | nil => rfl
    | cons c rest =>
      obtain ⟨-, hpoint, hcomma⟩ := hrest.2 c rfl
      exact if_neg (by simp [hpoint, hcomma])
  | some hmark hdigits hlength =>
    obtain ⟨values, hspan, -, hplaces⟩ := hdigits.exists_span hrest.1
    simp only [List.cons_append, dropFraction, if_pos hmark, hspan, hplaces, if_pos hlength]

/-- What is read as a clock is one. -/
theorem exists_of_takeClock {clock : Clock} (h : takeClock s = some (clock, rest)) :
    ∃ front, s = front ++ rest ∧ WritesClock front clock := by
  simp only [takeClock, Option.bind_eq_bind, Option.bind_eq_some_iff] at h
  obtain ⟨⟨hour, s₁⟩, hhour, h⟩ := h
  obtain ⟨front, rfl, hfront⟩ := takeNumber_eq_some_iff.1 hhour
  simp only at h
  split at h
  · obtain ⟨rfl, rfl⟩ := Prod.mk.inj (Option.some.inj h)
    exact ⟨front, rfl, .hours hfront⟩
  · next minute s₂ hminute =>
    obtain ⟨front₂, rfl, hfront₂⟩ := takeColonPair_eq_some_iff.1 hminute
    split at h
    · obtain ⟨rfl, rfl⟩ := Prod.mk.inj (Option.some.inj h)
      exact ⟨front ++ front₂, by rw [List.append_assoc], .minutes hfront hfront₂⟩
    · next second s₃ hsecond =>
      obtain ⟨front₃, rfl, hfront₃⟩ := takeColonPair_eq_some_iff.1 hsecond
      obtain ⟨rfl, rfl⟩ := Prod.mk.inj (Option.some.inj h)
      obtain ⟨fraction, hs₃, hfraction⟩ := exists_of_dropFraction s₃
      refine ⟨front ++ (front₂ ++ (front₃ ++ fraction)), ?_,
        .seconds hfront hfront₂ hfront₃ hfraction⟩
      rw [List.append_assoc, List.append_assoc, List.append_assoc, ← hs₃]

/-- **A clock is read to its end.** -/
theorem takeClock_append {clock : Clock} (h : WritesClock s clock) (hrest : EndsClock rest) :
    takeClock (s ++ rest) = some (clock, rest) := by
  cases h with
  | hours hh =>
    rw [takeClock, takeNumber_eq_some_iff.2 ⟨_, rfl, hh⟩]
    simp only [Option.bind_eq_bind, Option.bind_some, takeColonPair_of_endsClock hrest]
    rfl
  | minutes hh hm =>
    rw [takeClock, List.append_assoc, takeNumber_eq_some_iff.2 ⟨_, rfl, hh⟩]
    simp only [Option.bind_eq_bind, Option.bind_some, takeColonPair_eq_some_iff.2 ⟨_, rfl, hm⟩,
      takeColonPair_of_endsClock hrest]
    rfl
  | seconds hh hm hs hf =>
    rw [takeClock, List.append_assoc, List.append_assoc, List.append_assoc,
      takeNumber_eq_some_iff.2 ⟨_, rfl, hh⟩]
    simp only [Option.bind_eq_bind, Option.bind_some, takeColonPair_eq_some_iff.2 ⟨_, rfl, hm⟩,
      takeColonPair_eq_some_iff.2 ⟨_, rfl, hs⟩, dropFraction_append hf hrest]
    rfl

end WrittenDate

end Almanac
