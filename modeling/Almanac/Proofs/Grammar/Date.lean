import Almanac.Proofs.Grammar.Annotation
import Almanac.Proofs.Grammar.Clock

/-!
# The grammar of months and dates

What a text of a month or date consists of, said apart from the reader: a year, a month and perhaps
a day, a time, an offset and annotations. The relation is not a function, as two digits after a
month and a hyphen may be the day or the hours of an offset; the reader takes them as the day. A
time and an offset are refused without what they belong to, so that no accepted text can be spelled
out in two ways.

* `WritesYear`, `WritesMonthDay`, `WritesTime`, `WritesOffset`: the parts; `Spells`: the whole.
* `WrittenDate.spells_of_ofChars?`: **what is read is spelled**.
* `WrittenDate.ofChars?_of_spells`: **what is spelled is read**, if a time follows a day and an
  offset a time.
-/

namespace Almanac

open Text (WritesIn Writes EndsDigits digit?)

/-- A year: four digits, or a sign and six. -/
inductive WritesYear : List Char → Int → Prop
  | four {s n} (h : WritesIn 4 s n) : WritesYear s n
  | plus {s n} (h : WritesIn 6 s n) : WritesYear ('+' :: s) n
  | minus {s n} (h : WritesIn 6 s n) : WritesYear ('-' :: s) (-n)

/-- A month and perhaps a day, after hyphens or not. -/
inductive WritesMonthDay : List Char → Nat → Option Nat → Prop
  | extendedMonth {m month} (hm : WritesIn 2 m month) : WritesMonthDay ('-' :: m) month none
  | extendedDay {m d month day} (hm : WritesIn 2 m month) (hd : WritesIn 2 d day) :
      WritesMonthDay ('-' :: (m ++ '-' :: d)) month (some day)
  | basicMonth {m month} (hm : WritesIn 2 m month) : WritesMonthDay m month none
  | basicDay {m d month day} (hm : WritesIn 2 m month) (hd : WritesIn 2 d day) :
      WritesMonthDay (m ++ d) month (some day)

/-- A time behind its separator, or nothing. -/
inductive WritesTime : List Char → Option Clock → Prop
  | none : WritesTime [] none
  | some {c s clock} (hc : c = 'T' ∨ c = 't' ∨ c = ' ') (h : WritesClock s clock) :
    WritesTime (c :: s) (some clock)

/-- The designator of UTC, an offset behind its sign, or nothing. -/
inductive WritesOffset : List Char → Option Offset → Prop
  | none : WritesOffset [] none
  | utc {c} (hc : c = 'Z' ∨ c = 'z') : WritesOffset [c] (some .utc)
  | some {c s clock} (hc : c = '+' ∨ c = '-') (h : WritesClock s clock) :
      WritesOffset (c :: s) (some (.ofClock clock))

/-- A year that is written as a negative zero. -/
def negativeZeroYear : List Char := "-000000".toList

/-- A text that spells a month or date with all that follows it. -/
inductive Spells : List Char → WrittenDate → Prop
  | mk {y md t o : List Char} {bodies : List (List Char)} {year : Int} {month : Nat}
    {day : Option Nat}
      {time : Option Clock} {offset : Option Offset} (hyear : WritesYear y year)
      (hmonth : WritesMonthDay md month day) (htime : WritesTime t time)
      (hoffset : WritesOffset o offset) (hbodies : ∀ b ∈ bodies, WrittenDate.IsBody b) :
      Spells (y ++ (md ++ (t ++ (o ++ bodies.flatMap WrittenDate.bracket))))
        { year, negativeZero := y = negativeZeroYear, month, day, time, offset,
          suffixes := bodies.map WrittenDate.suffixOf }

/-- A year is written in no more than six digits. -/
theorem WritesYear.natAbs_lt {y : List Char} {year : Int} (h : WritesYear y year) :
    year.natAbs < 1000000 := by
  cases h with
  | four h | plus h | minus h =>
    have hlt := h.lt
    omega

namespace WrittenDate

variable {s rest y md t o : List Char} {bodies : List (List Char)} {n month : Nat}
  {day : Option Nat} {year : Int} {time : Option Clock} {offset : Option Offset} {w : WrittenDate}

/-- A year that begins with a digit has four of them. -/
theorem takeYear_of_digit {c : Char} (h : Text.digit? c ≠ none) (s : List Char) :
    takeYear (c :: s) = (takeNumber 4 (c :: s)).map fun (n, rest) => ((n : Int), rest) := by
  unfold takeYear
  split
  · next heq =>
    obtain ⟨rfl, -⟩ := List.cons.inj heq
    exact absurd (by decide) h
  · next heq =>
    obtain ⟨rfl, -⟩ := List.cons.inj heq
    exact absurd (by decide) h
  · rfl

/-- What is read as a year is one. -/
theorem exists_of_takeYear (h : takeYear s = some (year, rest)) :
    ∃ front, s = front ++ rest ∧ WritesYear front year := by
  unfold takeYear at h
  split at h
  all_goals
    obtain ⟨⟨n, r⟩, hn, heq⟩ := Option.map_eq_some_iff.1 h
    obtain ⟨rfl, rfl⟩ := Prod.mk.inj heq
    obtain ⟨front, rfl, hfront⟩ := takeNumber_eq_some_iff.1 hn
  · exact ⟨'+' :: front, rfl, .plus hfront⟩
  · exact ⟨'-' :: front, rfl, .minus hfront⟩
  · exact ⟨front, rfl, .four hfront⟩

/-- **A year is read to its end.** -/
theorem takeYear_append (h : WritesYear y year) (rest : List Char) :
    takeYear (y ++ rest) = some (year, rest) := by
  cases h with
  | four h =>
    have hread : takeNumber 4 (y ++ rest) = some (_, rest) := takeNumber_eq_some_iff.2 ⟨y, rfl, h⟩
    obtain ⟨c, tail, rfl, hc⟩ := h.exists_cons
    rw [List.cons_append] at hread ⊢
    rw [takeYear_of_digit hc, hread]
    rfl
  | plus h =>
    rw [List.cons_append, takeYear, takeNumber_eq_some_iff.2 ⟨_, rfl, h⟩]
    rfl
  | minus h =>
    rw [List.cons_append, takeYear, takeNumber_eq_some_iff.2 ⟨_, rfl, h⟩]
    rfl

/-- Whether a year is a negative zero can be seen at the front of the text. -/
theorem isPrefixOf_append (h : WritesYear y year) (rest : List Char) :
    "-000000".toList.isPrefixOf (y ++ rest) = decide (y = negativeZeroYear) := by
  have hseven : ∀ s : List Char, s.length = 6 → ∀ c,
      (negativeZeroYear <+: c :: s ++ rest ↔ c :: s = negativeZeroYear) := by
    intro s hs c
    have hlength : negativeZeroYear.length = (c :: s).length := by
      rw [List.length_cons, hs]
      rfl
    constructor
    · rintro ⟨tail, htail⟩
      exact (List.append_inj_left htail hlength).symm
    · intro heq
      exact ⟨rest, by rw [heq]⟩
  rw [Bool.eq_iff_iff, decide_eq_true_iff, List.isPrefixOf_iff_prefix]
  cases h with
  | four h =>
    obtain ⟨c, tail, rfl, hc⟩ := h.exists_cons
    -- a digit is no sign
    have hne : c ≠ '-' := by
      rintro rfl
      exact hc rfl
    refine iff_of_false ?_ fun heq => hne (List.cons.inj heq).1
    rintro ⟨tail', htail⟩
    exact hne (List.cons.inj htail).1.symm
  | plus h => exact hseven _ h.1 _
  | minus h => exact hseven _ h.1 _

/-- What may follow a time: an offset or annotations, or nothing. -/
def IsTail (rest : List Char) : Prop := ∀ c ∈ rest.head?, c ∈ ['+', '-', 'Z', 'z', '[']

theorem IsTail.endsClock (h : IsTail rest) : EndsClock rest := by
  have hall : ∀ c ∈ ['+', '-', 'Z', 'z', '['], digit? c = none ∧ c ≠ ':' ∧ c ≠ '.' ∧ c ≠ ',' :=
    Text.forall_mem_of_all (by decide)
  exact ⟨fun c hc => (hall c (h c hc)).1, fun c hc => (hall c (h c hc)).2⟩

theorem head?_flatMap_bracket (bodies : List (List Char)) :
    ∀ c ∈ (bodies.flatMap bracket).head?, c = '[' := by
  cases bodies with
  | nil => intro c hc; cases hc
  | cons b bodies => rintro _ ⟨⟩; rfl

theorem endsDigits_flatMap_bracket (bodies : List (List Char)) :
    EndsDigits (bodies.flatMap bracket) := by
  intro c hc
  rw [head?_flatMap_bracket bodies c hc]
  rfl

theorem isTail_append (h : WritesOffset o offset) (bodies : List (List Char)) :
    IsTail (o ++ bodies.flatMap bracket) := by
  intro c hc
  cases h with
  | none =>
    rw [head?_flatMap_bracket bodies c hc]
    decide
  | utc hz =>
    obtain rfl := Option.some.inj hc
    rcases hz with rfl | rfl <;> decide
  | some hsign _ =>
    obtain rfl := Option.some.inj hc
    rcases hsign with rfl | rfl <;> decide

/-- What is read as a time is one. -/
theorem exists_of_takeTime (s : List Char) :
    ∃ front, s = front ++ (takeTime s).2 ∧ WritesTime front (takeTime s).1 := by
  unfold takeTime
  split
  · next c s =>
    split
    · next hc =>
      split
      · next clock rest hclock =>
        obtain ⟨front, rfl, hfront⟩ := exists_of_takeClock hclock
        exact ⟨c :: front, rfl, .some hc hfront⟩
      · exact ⟨[], rfl, .none⟩
    · exact ⟨[], rfl, .none⟩
  · exact ⟨[], rfl, .none⟩

/-- **A time is read to its end.** -/
theorem takeTime_append (h : WritesTime t time) (hrest : IsTail rest) :
    takeTime (t ++ rest) = (time, rest) := by
  cases h with
  | none =>
    cases rest with
    | nil => rfl
    | cons c rest =>
      have hall : ∀ c ∈ ['+', '-', 'Z', 'z', '['], ¬ (c = 'T' ∨ c = 't' ∨ c = ' ') :=
        Text.forall_mem_of_all (by decide)
      exact if_neg (hall c (hrest c rfl))
  | some hc h =>
    simp only [List.cons_append, takeTime, if_pos hc, takeClock_append h hrest.endsClock]

/-- What is read as an offset is one. -/
theorem exists_of_takeOffset (s : List Char) :
    ∃ front, s = front ++ (takeOffset s).2 ∧ WritesOffset front (takeOffset s).1 := by
  unfold takeOffset
  split
  · next c s =>
    split
    · next hc => exact ⟨[c], rfl, .utc hc⟩
    · split
      · next hc =>
        split
        · next clock rest hclock =>
          obtain ⟨front, rfl, hfront⟩ := exists_of_takeClock hclock
          exact ⟨c :: front, rfl, .some hc hfront⟩
        · exact ⟨[], rfl, .none⟩
      · exact ⟨[], rfl, .none⟩
  · exact ⟨[], rfl, .none⟩

/-- **An offset is read to its end.** -/
theorem takeOffset_append (h : WritesOffset o offset) (hrest : ∀ c ∈ rest.head?, c = '[') :
    takeOffset (o ++ rest) = (offset, rest) := by
  have htail : IsTail rest := fun c hc => by
    rw [hrest c hc]
    decide
  cases h with
  | none =>
    cases rest with
    | nil => rfl
    | cons c rest =>
      obtain rfl := hrest c rfl
      rfl
  | utc hz => simp only [List.singleton_append, takeOffset, if_pos hz]
  | @some c _ _ hsign h =>
    have hne : ¬ (c = 'Z' ∨ c = 'z') := by rcases hsign with rfl | rfl <;> decide
    simp only [List.cons_append, takeOffset, if_neg hne, if_pos hsign,
      takeClock_append h htail.endsClock]

theorem takeSuffix_eq (date : WrittenDate) (s : List Char) :
    takeSuffix date s = (bracketed none (takeOffset (takeTime s).2).2).map fun bodies =>
      { date with time := (takeTime s).1, offset := (takeOffset (takeTime s).2).1,
                  suffixes := bodies.map suffixOf } := by
  change (bracketed none (takeOffset (takeTime s).2).2).bind _ = _
  cases bracketed none (takeOffset (takeTime s).2).2 <;> rfl

/-- What is read of what follows a date is a time, an offset and annotations. -/
theorem exists_of_takeSuffix {date : WrittenDate} (h : takeSuffix date s = some w) :
    ∃ (t o : List Char) (time : Option Clock) (offset : Option Offset) (bodies : List (List Char)),
      s = t ++ (o ++ bodies.flatMap bracket) ∧ WritesTime t time ∧ WritesOffset o offset ∧
      (∀ b ∈ bodies, IsBody b) ∧
      w = { date with time, offset, suffixes := bodies.map suffixOf } := by
  rw [takeSuffix_eq, Option.map_eq_some_iff] at h
  obtain ⟨bodies, hbodies, rfl⟩ := h
  obtain ⟨t, hs, ht⟩ := exists_of_takeTime s
  obtain ⟨o, hrest, ho⟩ := exists_of_takeOffset (takeTime s).2
  obtain ⟨hbrackets, hall⟩ := bracketed_eq_some_iff.1 hbodies
  exact ⟨t, o, _, _, bodies, by rw [← hbrackets, ← hrest, ← hs], ht, ho, hall, rfl⟩

/-- **What follows a date is read.** -/
theorem takeSuffix_append (date : WrittenDate) (ht : WritesTime t time) (ho : WritesOffset o offset)
    (hbodies : ∀ b ∈ bodies, IsBody b) :
    takeSuffix date (t ++ (o ++ bodies.flatMap bracket)) =
      some { date with time, offset, suffixes := bodies.map suffixOf } := by
  rw [takeSuffix_eq, takeTime_append ht (isTail_append ho bodies)]
  simp only [takeOffset_append ho (head?_flatMap_bracket bodies), bracketed_flatMap hbodies,
    Option.map_some]

/-- What is spelled behind a year, given what follows it. -/
theorem spells_append {date : WrittenDate} (hyear : WritesYear y year)
    (hmonth : WritesMonthDay md month day)
    (hdate : date = { year, negativeZero := y = negativeZeroYear, month, day })
    (h : takeSuffix date s = some w) :
    Spells (y ++ (md ++ s)) w := by
  obtain ⟨t, o, time, offset, bodies, rfl, ht, ho, hbodies, rfl⟩ := exists_of_takeSuffix h
  subst hdate
  exact .mk hyear hmonth ht ho hbodies

/-- What is read behind the hyphen of an extended form is spelled there. -/
theorem spells_of_takeExtended (hyear : WritesYear y year)
    (h : takeExtended year (y = negativeZeroYear) s = some w) : Spells (y ++ '-' :: s) w := by
  simp only [takeExtended, Option.bind_eq_bind, Option.bind_eq_some_iff] at h
  obtain ⟨⟨month, s₁⟩, hmonth, h⟩ := h
  obtain ⟨m, rfl, hm⟩ := takeNumber_eq_some_iff.1 hmonth
  simp only at h
  split at h
  · next date hday =>
    obtain rfl := Option.some.inj h
    split at hday
    · next s₂ =>
      obtain ⟨⟨day, s₃⟩, hday, hsuffix⟩ := Option.bind_eq_some_iff.1 hday
      obtain ⟨d, rfl, hd⟩ := takeNumber_eq_some_iff.1 hday
      have hspells := spells_append hyear (.extendedDay hm hd) rfl hsuffix
      simpa only [List.cons_append, List.append_assoc] using hspells
    · cases hday
  · exact spells_append hyear (.extendedMonth hm) rfl h

/-- What is read of a basic form is spelled there. -/
theorem spells_of_takeBasic (hyear : WritesYear y year)
    (h : takeBasic year (y = negativeZeroYear) s = some w) : Spells (y ++ s) w := by
  simp only [takeBasic, Option.bind_eq_bind, Option.bind_eq_some_iff] at h
  obtain ⟨⟨month, s₁⟩, hmonth, h⟩ := h
  obtain ⟨m, rfl, hm⟩ := takeNumber_eq_some_iff.1 hmonth
  simp only at h
  split at h
  · next day s₂ hday =>
    obtain ⟨d, rfl, hd⟩ := takeNumber_eq_some_iff.1 hday
    rw [← List.append_assoc m]
    exact spells_append hyear (.basicDay hm hd) rfl h
  · exact spells_append hyear (.basicMonth hm) rfl h

/-- **What is read is spelled.** -/
theorem spells_of_ofChars? (h : ofChars? s = some w) : Spells s w := by
  simp only [ofChars?, Option.bind_eq_bind, Option.bind_eq_some_iff] at h
  obtain ⟨⟨year, rest⟩, hyear, h⟩ := h
  obtain ⟨y, rfl, hy⟩ := exists_of_takeYear hyear
  simp only [isPrefixOf_append hy] at h
  split at h
  · exact spells_of_takeExtended hy h
  · exact spells_of_takeBasic hy h

/-- What belongs together stands together: a time follows a day, and an offset follows a time. -/
def Nested (w : WrittenDate) : Prop :=
  (w.time ≠ none → w.day ≠ none) ∧ (w.offset ≠ none → w.time ≠ none)

/-- Without a day there is nothing between the month and the annotations. -/
theorem Nested.eq_none (h : Nested w) (hday : w.day = none) : w.time = none ∧ w.offset = none := by
  have htime : w.time = none := by
    by_contra hne
    exact h.1 hne hday
  refine ⟨htime, ?_⟩
  by_contra hne
  exact h.2 hne htime

theorem takeExtended_day (hmonth : WritesIn 2 m month) (hday : WritesIn 2 d n) (negativeZero : Bool)
    (h : takeSuffix { year, negativeZero, month, day := some n } rest = some w) :
    takeExtended year negativeZero (m ++ '-' :: (d ++ rest)) = some w := by
  simp only [takeExtended, takeNumber_eq_some_iff.2 ⟨m, rfl, hmonth⟩,
    takeNumber_eq_some_iff.2 ⟨d, rfl, hday⟩, Option.bind_eq_bind, Option.bind_some, h]
  rfl

theorem takeExtended_month (hmonth : WritesIn 2 m month) (negativeZero : Bool)
    (hrest : ∀ c ∈ rest.head?, c = '[') :
    takeExtended year negativeZero (m ++ rest) = takeSuffix { year, negativeZero, month } rest := by
  simp only [takeExtended, takeNumber_eq_some_iff.2 ⟨m, rfl, hmonth⟩, Option.bind_eq_bind,
    Option.bind_some]
  cases rest with
  | nil => rfl
  | cons c rest =>
    obtain rfl := hrest c rfl
    rfl

theorem takeBasic_day (hmonth : WritesIn 2 m month) (hday : WritesIn 2 d n) (negativeZero : Bool) :
    takeBasic year negativeZero (m ++ (d ++ rest)) =
      takeSuffix { year, negativeZero, month, day := some n } rest := by
  simp only [takeBasic, takeNumber_eq_some_iff.2 ⟨m, rfl, hmonth⟩,
    takeNumber_eq_some_iff.2 ⟨d, rfl, hday⟩, Option.bind_eq_bind, Option.bind_some]

theorem takeBasic_month (hmonth : WritesIn 2 m month) (negativeZero : Bool)
    (hrest : EndsDigits rest) :
    takeBasic year negativeZero (m ++ rest) = takeSuffix { year, negativeZero, month } rest := by
  simp only [takeBasic, takeNumber_eq_some_iff.2 ⟨m, rfl, hmonth⟩, takeNumber_of_endsDigits hrest,
    Option.bind_eq_bind, Option.bind_some]

/-- A text with a year in front is read as the rest of it is. -/
theorem ofChars?_year_hyphen (hyear : WritesYear y year) (rest : List Char) :
    ofChars? (y ++ '-' :: rest) = takeExtended year (y = negativeZeroYear) rest := by
  simp only [ofChars?, takeYear_append hyear, isPrefixOf_append hyear, Option.bind_eq_bind,
    Option.bind_some]

theorem ofChars?_year_digit (hyear : WritesYear y year) (hmonth : WritesIn 2 m month)
    (rest : List Char) :
    ofChars? (y ++ (m ++ rest)) = takeBasic year (y = negativeZeroYear) (m ++ rest) := by
  simp only [ofChars?, takeYear_append hyear, isPrefixOf_append hyear, Option.bind_eq_bind,
    Option.bind_some]
  split
  · next hhyphen =>
    -- a digit is no hyphen
    obtain ⟨c, tail, rfl, hc⟩ := hmonth.exists_cons
    obtain ⟨rfl, -⟩ := List.cons.inj hhyphen
    exact absurd rfl hc
  · rfl

/-- **What is spelled is read**, if all that belongs together stands together. -/
theorem ofChars?_of_spells (h : Spells s w) (hnested : w.Nested) : ofChars? s = some w := by
  obtain ⟨hyear, hmonth, ht, ho, hbodies⟩ := h
  have hread := fun date => takeSuffix_append date ht ho hbodies
  cases hmonth with
  | extendedDay hm hd =>
    simp only [List.cons_append, List.append_assoc]
    rw [ofChars?_year_hyphen hyear, takeExtended_day hm hd _ (hread _)]
  | basicDay hm hd =>
    rw [List.append_assoc, ofChars?_year_digit hyear hm, takeBasic_day hm hd, hread]
  | extendedMonth hm =>
    obtain ⟨rfl, rfl⟩ := hnested.eq_none rfl
    cases ht
    cases ho
    simp only [List.nil_append, List.cons_append] at hread ⊢
    rw [ofChars?_year_hyphen hyear, takeExtended_month hm _ (head?_flatMap_bracket _), hread]
  | basicMonth hm =>
    obtain ⟨rfl, rfl⟩ := hnested.eq_none rfl
    cases ht
    cases ho
    simp only [List.nil_append] at hread ⊢
    rw [ofChars?_year_digit hyear hm, takeBasic_month hm _ (endsDigits_flatMap_bracket _), hread]

end WrittenDate

end Almanac
