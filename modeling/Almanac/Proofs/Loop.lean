import Mathlib.Data.Int.ConditionallyCompleteOrder
import Mathlib.Order.ConditionallyCompleteLattice.Basic

/-!
# Loops that stop

The searches of the library are given a number of steps that is enough for them. Here are the loops
themselves, which go on as long as a condition holds and have no such number: a loop that never
stops is related to no state.

* `Stops`: a loop stops in a state after a number of steps; `Stops.eq_of_steps`: **a search by
  steps** that has as many of them finds the same.
* `LiesIn`: the year in which a number lies, where the years begin at an increasing sequence of
  numbers.
* `YearFound`: a search for that year, back from an estimate and then on; `yearFound_of_liesIn`:
  **it ends from every estimate**, after as many steps as the estimate is away;
  `YearFound.eq_of_steps`: **so many steps are enough**.
-/

namespace Almanac

/-- A loop that takes a step as long as it goes on, begun in one state, stops in another after `n`
steps. -/
inductive Stops {σ : Type} (goesOn : σ → Prop) (step : σ → σ) : (n : Nat) → (first last : σ) → Prop
  | here {s : σ} (h : ¬ goesOn s) : Stops goesOn step 0 s s
  | later {n : Nat} {s t : σ} (h : goesOn s) (rest : Stops goesOn step n (step s) t) :
    Stops goesOn step (n + 1) s t

/-- **A search by steps finds what the loop does**, if it has a step for each of the loop. Such a
search is any function that takes a step of the loop for each step that it is given, as long as the
loop goes on, and then reads off what it has found. -/
theorem Stops.eq_of_steps {σ β : Type} {goesOn : σ → Prop} [DecidablePred goesOn] {step : σ → σ}
    (f : Nat → σ → β) (found : σ → β) (hzero : ∀ s, f 0 s = found s)
    (hsucc : ∀ n s, f (n + 1) s = if goesOn s then f n (step s) else found s)
    {n steps : Nat} {s t : σ} (h : Stops goesOn step n s t) (hn : n ≤ steps) :
    f steps s = found t := by
  induction h generalizing steps with
  | here hstop =>
    cases steps with
    | zero => exact hzero _
    | succ steps => rw [hsucc, if_neg hstop]
  | later hgo rest ih =>
    obtain ⟨steps, rfl⟩ : ∃ m, steps = m + 1 := ⟨steps - 1, by omega⟩
    rw [hsucc, if_pos hgo]
    exact ih (by omega)

/-- A number lies in the year that begins no later, if the next one begins after it. -/
def LiesIn (begins : Int → Int) (number year : Int) : Prop :=
  begins year ≤ number ∧ number < begins (year + 1)

/-- The loop back from a year to the first one that begins no later than a number. -/
def StopsBack (begins : Int → Int) (number : Int) : Nat → Int → Int → Prop :=
  Stops (fun year => number < begins year) (· - 1)

/-- The loop on from a year as long as the next one begins no later than a number. -/
def StopsAhead (begins : Int → Int) (number : Int) : Nat → Int → Int → Prop :=
  Stops (fun year => begins (year + 1) ≤ number) (· + 1)

/-- What a search for the year of a number finds. It goes back from an estimate, and then ahead. The
number lies in the year that is found and in no other one. -/
structure YearFound (begins : Int → Int) (number estimate year : Int) : Prop where
  liesIn_iff : ∀ y, LiesIn begins number y ↔ y = year
  back : StopsBack begins number (estimate - year).toNat estimate (min estimate year)
  ahead : StopsAhead begins number (year - estimate).toNat (min estimate year) year

variable {begins : Int → Int} {number year : Int}

theorem LiesIn.eq (hb : StrictMono begins) {y : Int} (hy : LiesIn begins number y)
    (h : LiesIn begins number year) : y = year := by
  have h₁ : begins y < begins (year + 1) := lt_of_le_of_lt hy.1 h.2
  have h₂ : begins year < begins (y + 1) := lt_of_le_of_lt h.1 hy.2
  rw [hb.lt_iff_lt] at h₁ h₂
  omega

/-- The loop back stops at the year of the number, or where it begins if that is no later. -/
theorem stopsBack (hb : StrictMono begins) (h : LiesIn begins number year) (estimate : Int) :
    StopsBack begins number (estimate - year).toNat estimate (min estimate year) := by
  generalize hn : (estimate - year).toNat = n
  induction n generalizing estimate with
  | zero =>
    have hle : estimate ≤ year := by omega
    rw [min_eq_left hle]
    exact .here (not_lt.2 (le_trans (hb.le_iff_le.2 hle) h.1))
  | succ n ih =>
    have hlt : year + 1 ≤ estimate := by omega
    have hrest := ih (estimate - 1) (by omega)
    rw [min_eq_right (by omega)] at hrest ⊢
    exact .later (lt_of_lt_of_le h.2 (hb.le_iff_le.2 hlt)) hrest

/-- The loop ahead stops at the year of the number, from every year that is no later. -/
theorem stopsAhead (hb : StrictMono begins) (h : LiesIn begins number year) {first : Int}
    (hfirst : first ≤ year) :
    StopsAhead begins number (year - first).toNat first year := by
  generalize hn : (year - first).toNat = n
  induction n generalizing first with
  | zero =>
    obtain rfl : first = year := by omega
    exact .here (not_le.2 h.2)
  | succ n ih =>
    have hlt : first + 1 ≤ year := by omega
    exact .later (le_trans (hb.le_iff_le.2 hlt) h.1) (ih hlt (by omega))

/-- **The search for a year ends from every estimate**, at the year of the number. -/
theorem yearFound_of_liesIn (hb : StrictMono begins) (h : LiesIn begins number year)
    (estimate : Int) :
    YearFound begins number estimate year where
  liesIn_iff y := ⟨fun hy => hy.eq hb h, fun hy => hy ▸ h⟩
  back := stopsBack hb h estimate
  ahead := by
    have hsteps : (year - estimate).toNat = (year - min estimate year).toNat := by omega
    rw [hsteps]
    exact stopsAhead hb h (min_le_right _ _)

/-- **As many steps as the estimate is away are enough**, each way. -/
theorem YearFound.eq_of_steps {estimate : Int} (h : YearFound begins number estimate year)
    (down up : Nat → Int → Int) (hdown₀ : ∀ y, down 0 y = y)
    (hdown : ∀ n y, down (n + 1) y = if number < begins y then down n (y - 1) else y)
    (hup₀ : ∀ y, up 0 y = y)
    (hup : ∀ n y, up (n + 1) y = if begins (y + 1) ≤ number then up n (y + 1) else y)
    {steps : Nat} (hsteps : (estimate - year).natAbs ≤ steps) :
    up steps (down steps estimate) = year := by
  have hback : (estimate - year).toNat ≤ steps := by omega
  have hahead : (year - estimate).toNat ≤ steps := by omega
  rw [h.back.eq_of_steps down id hdown₀ hdown hback]
  exact h.ahead.eq_of_steps up id hup₀ hup hahead

end Almanac
