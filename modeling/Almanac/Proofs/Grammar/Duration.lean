import Almanac.Duration.Parser
import Almanac.Proofs.Digit

/-!
# The grammar of durations

What a text of a duration consists of, said apart from the reader: a sign, `P`, the components of
the date, and perhaps `T` and the components of the time. A component is a count with its
designator, in either letter case, and those of the time may have a fraction.

* `WritesFraction`, `WritesComponent`, `WritesSign`, `WritesTimePart`: the parts;
  `Components.Spells`: the whole.
* `Component.exists_of_read`: what is read as a component is one.
* `Component.read_append`: a component is read if its designator is the wanted one, and left
  otherwise.
* `Component.Lacks`: a text that does not go on with a component of a designator.
* `Components.ofChars?_of_spells`, `Components.Spells.unique`: **what is spelled is read**, and
  spelled in one way.
* `Duration.parse_eq_ok_iff`: **the texts that are accepted**.
-/

namespace Almanac

open Text (Writes EndsDigits digit? spanDigits)

/-- The fraction of a count, digit by digit: a point or comma and digits, or nothing. -/
inductive WritesFraction : List Char → List Nat → Prop
  | none : WritesFraction [] []
  | some {mark digits values} (hmark : mark = '.' ∨ mark = ',')
    (hdigits : digits.map digit? = values.map some)
      (hne : values ≠ []) : WritesFraction (mark :: digits) values

/-- A count, its fraction where there may be one, and its designator; or nothing. -/
inductive WritesComponent (fractional : Bool) (designator : Char) :
    List Char → Option Component → Prop
  | none : WritesComponent fractional designator [] none
  | some {count f n fraction c} (hcount : Writes count n) (hne : count ≠ [])
    (hf : WritesFraction f fraction)
      (hfractional : fractional = false → fraction = []) (hlength : fraction.length ≤ 9)
      (hc : c.toUpper = designator) :
      WritesComponent fractional designator (count ++ (f ++ [c])) (some ⟨n, fraction⟩)

/-- A sign, or none. -/
inductive WritesSign : List Char → Bool → Prop
  | none : WritesSign [] false
  | plus : WritesSign ['+'] false
  | minus : WritesSign ['-'] true

/-- The time designator with hours, minutes and seconds, or nothing. -/
inductive WritesTimePart :
    List Char → Bool → Option Component → Option Component → Option Component → Prop
  | none : WritesTimePart [] false none none none
  | some {c h m s hours minutes seconds} (hc : c.toUpper = 'T')
    (hh : WritesComponent true 'H' h hours)
      (hm : WritesComponent true 'M' m minutes) (hs : WritesComponent true 'S' s seconds) :
      WritesTimePart (c :: (h ++ (m ++ s))) true hours minutes seconds

/-- A text that spells components. -/
inductive Components.Spells : List Char → Components → Prop
  | mk {sign y m w d t : List Char} {p : Char} {negative timed : Bool}
      {years months weeks days hours minutes seconds : Option Component}
      (hsign : WritesSign sign negative) (hp : p.toUpper = 'P')
      (hy : WritesComponent false 'Y' y years) (hm : WritesComponent false 'M' m months)
      (hw : WritesComponent false 'W' w weeks) (hd : WritesComponent false 'D' d days)
      (ht : WritesTimePart t timed hours minutes seconds) :
      Spells (sign ++ p :: (y ++ (m ++ (w ++ (d ++ t)))))
        { negative, years, months, weeks, days, timed, hours, minutes, seconds }

namespace Component

theorem exists_of_spanFraction (s : List Char) :
    ∃ f, s = f ++ (spanFraction s).2 ∧ WritesFraction f (spanFraction s).1 := by
  unfold spanFraction
  split
  · next c rest =>
    split
    · next hmark =>
      obtain ⟨digits, hrest, hdigits, -⟩ := Text.exists_of_spanDigits rest
      split
      · exact ⟨[], rfl, .none⟩
      · next ds rest' hne hspan =>
        rw [hspan] at hrest hdigits
        exact ⟨c :: digits, by rw [hrest, List.cons_append], .some hmark hdigits hne⟩
    · exact ⟨[], rfl, .none⟩
  · exact ⟨[], rfl, .none⟩

/-- A fraction is read only where there may be one. -/
theorem exists_of_fraction (fractional : Bool) (s : List Char) :
    ∃ f, s = f ++ (if fractional then spanFraction s else ([], s)).2 ∧
      WritesFraction f (if fractional then spanFraction s else ([], s)).1 ∧
      (fractional = false → (if fractional then spanFraction s else ([], s)).1 = []) := by
  cases fractional with
  | false => exact ⟨[], rfl, .none, fun _ => rfl⟩
  | true =>
    obtain ⟨f, hs, hf⟩ := exists_of_spanFraction s
    exact ⟨f, hs, hf, nofun⟩

/-- **What is read as a component** is one. -/
theorem exists_of_read {fractional : Bool} {designator : Char} {s rest : List Char}
    {component : Option Component} (h : read fractional designator s = (component, rest)) :
    ∃ front, s = front ++ rest ∧ WritesComponent fractional designator front component := by
  have hnothing : (none, s) = (component, rest) →
      ∃ front, s = front ++ rest ∧ WritesComponent fractional designator front component := by
    rintro ⟨⟩
    exact ⟨[], rfl, .none⟩
  unfold read at h
  split at h
  · exact hnothing h
  · next ds afterCount hne hspan =>
    obtain ⟨count, hs, hcount, -⟩ := Text.exists_of_spanDigits s
    obtain ⟨f, hafter, hf, hfractional⟩ := exists_of_fraction fractional afterCount
    rw [hspan] at hs hcount
    generalize (if fractional then spanFraction afterCount else ([], afterCount)) =
      read at h hafter hf hfractional
    obtain ⟨fraction, afterFraction⟩ := read
    simp only at h
    split at h
    · next c rest' =>
      split at h
      · next hc =>
        obtain ⟨rfl, rfl⟩ := Prod.mk.inj h
        have hdigits : count ≠ [] := by
          rintro rfl
          exact hne (List.map_eq_nil_iff.1 hcount.symm)
        refine ⟨count ++ (f ++ [c]), ?_, .some ⟨ds, hcount, rfl⟩ hdigits hf hfractional hc.2 hc.1⟩
        rw [hs, hafter, List.append_assoc, List.append_assoc, List.singleton_append]
      · exact hnothing h
    · exact hnothing h

/-- The letters that durations are written with, in upper case. -/
def letters : List Char := ['P', 'Y', 'M', 'W', 'D', 'T', 'H', 'S']

/-- What holds of the letters in both cases can be looked up. -/
theorem of_toUpper_mem {P : Char → Prop}
    (h : ∀ n < 128, (Char.ofNat n).toUpper ∈ letters → P (Char.ofNat n)) {c : Char}
    (hc : c.toUpper ∈ letters) : P c := by
  have hascii : ∀ c ∈ letters, c.toNat < 128 := Text.forall_mem_of_all (by decide)
  exact Text.of_lt_ascii (P := fun c => c.toUpper ∈ letters → P c) h
    (Text.toNat_lt_of_toUpper (hascii _ hc)) hc

theorem digit?_of_toUpper {c : Char} (h : c.toUpper ∈ letters) : digit? c = none :=
  of_toUpper_mem (P := fun c => digit? c = none) (by decide +kernel) h

theorem not_mem_marks_of_toUpper {c : Char} (h : c.toUpper ∈ letters) : c ∉ ['.', ',', '+', '-'] :=
  of_toUpper_mem (P := fun c => c ∉ ['.', ',', '+', '-']) (by decide +kernel) h

theorem endsDigits_cons {c : Char} (h : c.toUpper ∈ letters) (rest : List Char) :
    EndsDigits (c :: rest) := by
  intro c' hc'
  obtain rfl := Option.some.inj hc'
  exact digit?_of_toUpper h

/-- A text does not go on with a component of a designator. -/
def Lacks (fractional : Bool) (wanted : Char) (s : List Char) : Prop :=
  read fractional wanted s = (none, s)

theorem lacks_of_endsDigits {fractional : Bool} {wanted : Char} {s : List Char} (h : EndsDigits s) :
    Lacks fractional wanted s := by
  have hspan : spanDigits s = ([], s) := Text.spanDigits_append (s := []) rfl h
  unfold Lacks read
  rw [hspan]

variable {front : List Char} {values : List Nat} {fractional : Bool} {designator wanted : Char}
  {c : Char}

/-- A fraction ends a row of digits. -/
theorem endsDigits_fraction (h : WritesFraction front values) (hc : c.toUpper ∈ letters)
    (rest : List Char) :
    EndsDigits (front ++ c :: rest) := by
  cases h with
  | none => exact endsDigits_cons hc rest
  | some hmark hdigits hne =>
    intro c' hc'
    obtain rfl := Option.some.inj hc'
    rcases hmark with rfl | rfl <;> decide

/-- A fraction is read to its end. -/
theorem spanFraction_append (h : WritesFraction front values) (hc : c.toUpper ∈ letters)
    (rest : List Char) : spanFraction (front ++ c :: rest) = (values, c :: rest) := by
  cases h with
  | none =>
    have hmarks := not_mem_marks_of_toUpper hc
    simp only [List.mem_cons, not_or] at hmarks
    exact if_neg (not_or.2 ⟨hmarks.1, hmarks.2.1⟩)
  | some hmark hdigits hne =>
    obtain ⟨v, vs, rfl⟩ := List.exists_cons_of_ne_nil hne
    have hspan := Text.spanDigits_append hdigits (endsDigits_cons hc rest)
    simp only [List.cons_append, spanFraction, if_pos hmark, hspan]

/-- **A component is read** if its designator is the wanted one, and left where it is otherwise. -/
theorem read_append {component : Component}
    (h : WritesComponent fractional designator front (some component)) (hd : designator ∈ letters)
    (wanted : Char) (rest : List Char) :
    read fractional wanted (front ++ rest) =
      if designator = wanted then (some component, rest) else (none, front ++ rest) := by
  cases h with
  | @some count f n fraction c hcount hne hf hfractional hlength hc =>
    have hletter : c.toUpper ∈ letters := hc ▸ hd
    obtain ⟨values, hdigits, rfl⟩ := hcount
    have hspan : spanDigits (count ++ (f ++ c :: rest)) = (values, f ++ c :: rest) :=
      Text.spanDigits_append hdigits (endsDigits_fraction hf hletter rest)
    have hfraction : (if fractional then spanFraction (f ++ c :: rest) else ([], f ++ c :: rest)) =
        (fraction, c :: rest) := by
      cases fractional with
      | true => exact spanFraction_append hf hletter rest
      | false =>
        obtain rfl := hfractional rfl
        cases hf with
        | none => rfl
        | some _ _ hvalues => exact absurd rfl hvalues
    have hvalues : values ≠ [] := by
      rintro rfl
      exact hne (List.map_eq_nil_iff.1 hdigits)
    obtain ⟨v, vs, rfl⟩ := List.exists_cons_of_ne_nil hvalues
    have hfront : count ++ (f ++ [c]) ++ rest = count ++ (f ++ c :: rest) := by
      simp only [List.append_assoc, List.singleton_append]
    rw [hfront]
    unfold read
    rw [hspan]
    simp only [hfraction, hc, hlength, and_true]

/-- **A component that may be left out** is read, if what comes next is none of its designator. -/
theorem read_component {component : Option Component}
    (h : WritesComponent fractional designator front component) (hd : designator ∈ letters)
    {rest : List Char} (hrest : Lacks fractional designator rest) :
    read fractional designator (front ++ rest) = (component, rest) := by
  cases component with
  | none =>
    cases h
    exact hrest
  | some component => rw [read_append h hd, if_pos rfl]

/-- Components of other designators are passed over. -/
theorem lacks_append {component : Option Component}
    (h : WritesComponent fractional designator front component) (hd : designator ∈ letters)
    (hne : designator ≠ wanted) {rest : List Char} (hrest : Lacks fractional wanted rest) :
    Lacks fractional wanted (front ++ rest) := by
  cases component with
  | none =>
    cases h
    exact hrest
  | some component => rw [Lacks, read_append h hd, if_neg hne]

end Component

namespace Components

open Component (read Lacks read_component lacks_append)

variable {s sign : List Char} {w : Components} {negative : Bool}
  {years months weeks days : Option Component}

/-- What is read as the time, up to the end of the text, is one. -/
theorem exists_of_readTime (h : readTime { negative, years, months, weeks, days } s = some w) :
    ∃ timed hours minutes seconds, WritesTimePart s timed hours minutes seconds ∧
      w = { negative, years, months, weeks, days, timed, hours, minutes, seconds } := by
  unfold readTime at h
  split at h
  · obtain rfl := Option.some.inj h
    exact ⟨_, _, _, _, .none, rfl⟩
  · next c s =>
    split at h
    · next hc =>
      rcases hhours : read true 'H' s with ⟨hours, s₁⟩
      rcases hminutes : read true 'M' s₁ with ⟨minutes, s₂⟩
      rcases hseconds : read true 'S' s₂ with ⟨seconds, s₃⟩
      simp only [hhours, hminutes, hseconds] at h
      split at h
      · next hend =>
        obtain ⟨hour, rfl, hhour⟩ := Component.exists_of_read hhours
        obtain ⟨minute, rfl, hminute⟩ := Component.exists_of_read hminutes
        obtain ⟨second, rfl, hsecond⟩ := Component.exists_of_read hseconds
        rw [hend, List.append_nil]
        exact ⟨true, hours, minutes, seconds, .some hc hhour hminute hsecond,
          (Option.some.inj h).symm⟩
      · cases h
    · cases h

/-- What is read behind a sign is spelled there. -/
theorem spells_of_readUnsigned (hsign : WritesSign sign negative)
    (h : readUnsigned negative s = some w) :
    Spells (sign ++ s) w := by
  unfold readUnsigned at h
  split at h
  · next p s =>
    split at h
    · next hp =>
      rcases hyears : read false 'Y' s with ⟨years, s₁⟩
      rcases hmonths : read false 'M' s₁ with ⟨months, s₂⟩
      rcases hweeks : read false 'W' s₂ with ⟨weeks, s₃⟩
      rcases hdays : read false 'D' s₃ with ⟨days, s₄⟩
      simp only [hyears, hmonths, hweeks, hdays] at h
      obtain ⟨year, rfl, hyear⟩ := Component.exists_of_read hyears
      obtain ⟨month, rfl, hmonth⟩ := Component.exists_of_read hmonths
      obtain ⟨week, rfl, hweek⟩ := Component.exists_of_read hweeks
      obtain ⟨day, rfl, hday⟩ := Component.exists_of_read hdays
      obtain ⟨timed, hours, minutes, seconds, htime, rfl⟩ := exists_of_readTime h
      exact .mk hsign hp hyear hmonth hweek hday htime
    · cases h
  · cases h

/-- **What is read is spelled.** -/
theorem spells_of_ofChars? (h : ofChars? s = some w) : Spells s w := by
  unfold ofChars? at h
  split at h
  · exact spells_of_readUnsigned .minus h
  · exact spells_of_readUnsigned .plus h
  · exact spells_of_readUnsigned .none h

variable {timed : Bool} {hours minutes seconds : Option Component}

/-- **The time is read to the end of the text.** -/
theorem readTime_of_writes (h : WritesTimePart s timed hours minutes seconds) :
    readTime { negative, years, months, weeks, days } s =
      some { negative, years, months, weeks, days, timed, hours, minutes, seconds } := by
  cases h with
  | none => rfl
  | @some c h m s hours minutes seconds hc hh hm hs =>
    have hend : ∀ wanted, Lacks true wanted [] := fun wanted => Component.lacks_of_endsDigits nofun
    have hlacks : ∀ wanted, 'S' ≠ wanted → Lacks true wanted (s ++ []) :=
      fun wanted hne => lacks_append hs (by decide) hne (hend wanted)
    have hseconds := read_component hs (by decide) (hend 'S')
    have hminutes := read_component hm (by decide) (hlacks 'M' (by decide))
    have hhours :=
      read_component hh (by decide)
      (lacks_append hm (by decide) (by decide) (hlacks 'H' (by decide)))
    rw [List.append_nil] at hseconds hminutes hhours
    simp only [readTime, hc, if_true, hhours, hminutes, hseconds]

/-- A time is no component of a date. -/
theorem lacks_of_writesTimePart (h : WritesTimePart s timed hours minutes seconds) (wanted : Char) :
    Lacks false wanted s := by
  refine Component.lacks_of_endsDigits ?_
  cases h with
  | none => nofun
  | some hc => exact Component.endsDigits_cons (by rw [hc]; decide) _

/-- **What is spelled is read.** -/
theorem ofChars?_of_spells (h : Spells s w) : ofChars? s = some w := by
  obtain @⟨sign, y, m, wk, d, t, p, negative, timed, years, months, weeks, days, hours, minutes,
    seconds, hsign, hp, hy, hm, hw, hd, ht⟩ := h
  have hrest := lacks_of_writesTimePart ht
  -- each component is lacked by what comes after it
  have hnoDays : ∀ wanted, 'D' ≠ wanted → Lacks false wanted (d ++ t) :=
    fun wanted hne => lacks_append hd (by decide) hne (hrest wanted)
  have hnoWeeks : ∀ wanted, 'W' ≠ wanted → 'D' ≠ wanted → Lacks false wanted (wk ++ (d ++ t)) :=
    fun wanted hne hne' => lacks_append hw (by decide) hne (hnoDays wanted hne')
  have hdays := read_component hd (by decide) (hrest 'D')
  have hweeks := read_component hw (by decide) (hnoDays 'W' (by decide))
  have hmonths := read_component hm (by decide) (hnoWeeks 'M' (by decide) (by decide))
  have hyears := read_component hy (by decide)
    (lacks_append hm (by decide) (by decide) (hnoWeeks 'Y' (by decide) (by decide)))
  have hunsigned : readUnsigned negative (p :: (y ++ (m ++ (wk ++ (d ++ t))))) =
      some { negative, years, months, weeks, days, timed, hours, minutes, seconds } := by
    simp only [readUnsigned, hp, if_true, hyears, hmonths, hweeks, hdays, readTime_of_writes ht]
  cases hsign with
  | plus => exact hunsigned
  | minus => exact hunsigned
  | none =>
    have hmarks := Component.not_mem_marks_of_toUpper (c := p) (by rw [hp]; decide)
    simp only [List.mem_cons, not_or] at hmarks
    rw [← hunsigned]
    unfold ofChars?
    split
    · next hcons => exact absurd (List.cons.inj hcons).1 hmarks.2.2.2.1
    · next hcons => exact absurd (List.cons.inj hcons).1 hmarks.2.2.1
    · rfl

/-- What is spelled is spelled in one way. -/
theorem Spells.unique {w' : Components} (h : Spells s w) (h' : Spells s w') : w' = w := by
  have hread := ofChars?_of_spells h
  rw [ofChars?_of_spells h'] at hread
  exact Option.some.inj hread

end Components

/-- **The texts that are accepted** spell components without a fault, whose counts are those of a
duration. -/
theorem Duration.parse_eq_ok_iff {s : String} {d : Duration} :
    parse s = .ok d ↔ ∃ w, Components.Spells s.toList w ∧ w.fault? = none ∧
    d.toDurationParts = w.parts := by
  unfold parse
  constructor
  · intro h
    split at h
    · cases h
    · next w hw =>
      split at h
      · cases h
      · next hfault => exact ⟨w, Components.spells_of_ofChars? hw, hfault, ofParts_eq_ok_iff.1 h⟩
  · rintro ⟨w, hw, hfault, hparts⟩
    rw [Components.ofChars?_of_spells hw]
    simp only [hfault]
    exact ofParts_eq_ok_iff.2 hparts

end Almanac
