import Almanac.Furthest
import Almanac.Proofs.Loop
import Mathlib.Data.Int.ConditionallyCompleteOrder
import Mathlib.Order.ConditionallyCompleteLattice.Basic
import Mathlib.Tactic.Ring

/-!
# Searches for the last candidate

A sequence of integers that grows, seen forwards or backwards, runs past any target behind its
beginning. The searches of this library walk along such a sequence and end at the last place before
that, whether they begin next to it or far away. There is only one such place.

* `Scans`: the loop over the candidates, without a number of steps; `furthest_of_scans`: a search
  finds what it does.
* `furthest_eq_gap`: a search that begins on the near side of a bound ends at the bound.
* `IsLast`: the last place at which a sequence is not past a target; `IsLast.eq`: there is one at
  most.
* `furthest_near`, `scans_from_first`, `furthest_from_first`: **a search ends at the last place**,
  if it begins one candidate short of a guess or one candidate from the start.
-/

namespace Almanac

/-- Seen in either direction, a strictly increasing sequence runs on. -/
theorem sign_mul_le_iff {f : Int → Int} (hf : StrictMono f) {sign : Int} (hs : sign = 1 ∨ sign = -1)
    {i j : Int} : sign * f i ≤ sign * f j ↔ sign * i ≤ sign * j := by
  have hup := hf.le_iff_le (a := i) (b := j)
  have hdown := hf.le_iff_le (a := j) (b := i)
  rcases hs with rfl | rfl <;> omega

/-- The loop over the candidates, on the one that was kept last and the one that is looked at. It
goes on as long as that one is within the bound. -/
def Scans (within : Int → Bool) (s : Int) : Nat → Int × Int → Int × Int → Prop :=
  Stops (fun state => within state.2 = true) fun state => (state.2, state.2 + s)

/-- A search finds what the loop does, if it has a step for each candidate that is kept. -/
theorem furthest_of_scans {within : Int → Bool} {s best k found next : Int} {n steps : Nat}
    (hn : n ≤ steps) (h : Scans within s n (best, k) (found, next)) :
    furthest within s best k steps = found :=
  h.eq_of_steps (fun steps state => furthest within s state.1 state.2 steps) Prod.fst (fun _ => rfl)
    (fun _ _ => rfl) hn

/-- **The loop ends at the bound** that it approaches, if it has `n` candidates to go. -/
theorem scans_to_gap {within : Int → Bool} {s gap : Int} (hs : s = 1 ∨ s = -1)
    (hwithin : ∀ k, within k = true ↔ s * k ≤ s * gap) (n : Nat) (best : Int)
    (hbest : n = 0 → best = gap) : Scans within s n (best, gap - s * (n - 1)) (gap, gap + s) := by
  -- induction on the candidates that are left before the bound
  induction n generalizing best with
  | zero =>
    have hnext : gap - s * ((0 : Nat) - 1) = gap + s := by
      push_cast
      ring
    rw [hbest rfl, hnext]
    refine .here ?_
    rw [hwithin]
    rcases hs with rfl | rfl <;> omega
  | succ n ih =>
    have hnext : gap - s * ((n + 1 : Nat) - 1) + s = gap - s * (n - 1) := by
      push_cast
      ring
    refine .later ?_ ?_
    · rw [hwithin]
      rcases hs with rfl | rfl <;> omega
    · rw [hnext]
      refine ih _ ?_
      rintro rfl
      simp

/-- **A search ends at the bound** that it approaches, if it has `n` candidates to go and no fewer
steps. -/
theorem furthest_eq_gap {within : Int → Bool} {s gap : Int} (hs : s = 1 ∨ s = -1)
    (hwithin : ∀ k, within k = true ↔ s * k ≤ s * gap) (n steps : Nat) (best : Int) (hn : n ≤ steps)
    (hbest : n = 0 → best = gap) : furthest within s best (gap - s * (n - 1)) steps = gap :=
  furthest_of_scans hn (scans_to_gap hs hwithin n best hbest)

/-- The last place, from zero on in the direction of `sign`, at which a sequence is not past a
target. -/
structure IsLast (f : Int → Int) (sign target last : Int) : Prop where
  nonneg : 0 ≤ sign * last
  within : sign * f last ≤ sign * target
  beyond : sign * target < sign * f (last + sign)

variable {f : Int → Int} {sign target last gap : Int}

namespace IsLast

/-- The last place decides about all of them. -/
theorem within_iff (h : IsLast f sign target last) (hf : StrictMono f) (hs : sign = 1 ∨ sign = -1)
    (k : Int) : sign * f k ≤ sign * target ↔ sign * k ≤ sign * last := by
  refine ⟨fun hk => ?_, fun hk => le_trans ((sign_mul_le_iff hf hs).2 hk) h.within⟩
  by_contra hpast
  have hnext := (sign_mul_le_iff hf hs).2
    (show sign * (last + sign) ≤ sign * k by rcases hs with rfl | rfl <;> omega)
  have := h.beyond
  omega

/-- **There is one last place at most.** -/
theorem eq {last' : Int} (h : IsLast f sign target last) (h' : IsLast f sign target last')
    (hf : StrictMono f) (hs : sign = 1 ∨ sign = -1) : last = last' := by
  have h₁ := (h'.within_iff hf hs last).1 h.within
  have h₂ := (h.within_iff hf hs last').1 h'.within
  rcases hs with rfl | rfl <;> omega

end IsLast

/-- A sequence that is before a target one candidate short of a guess, and past it one candidate
further, has its last place at the guess or the candidate before. -/
theorem exists_isLast (hs : sign = 1 ∨ sign = -1) (hahead : 0 ≤ sign * gap)
    (hstart : sign * f 0 ≤ sign * target) (hbefore : sign * f (gap - sign) ≤ sign * target)
    (hbeyond : sign * target < sign * f (gap + sign)) :
    ∃ last, (last = gap ∨ last = gap - sign ∧ gap ≠ 0) ∧ IsLast f sign target last := by
  by_cases hin : sign * f gap ≤ sign * target
  · exact ⟨gap, .inl rfl, hahead, hin, hbeyond⟩
  · have hne : gap ≠ 0 := by
      rintro rfl
      exact hin hstart
    refine ⟨gap - sign, .inr ⟨rfl, hne⟩, ?_, hbefore, ?_⟩
    · rcases hs with rfl | rfl <;> omega
    · rw [Int.sub_add_cancel]
      omega

variable {within : Int → Bool}

/-- **A search that begins one candidate short of a guess** ends at the last place, which is the
guess or the candidate before. -/
theorem furthest_near (hs : sign = 1 ∨ sign = -1)
    (hwithin : ∀ k, within k = true ↔ sign * k ≤ sign * last)
    (hguess : last = gap ∨ last = gap - sign ∧ gap ≠ 0) :
    furthest within sign 0 (if gap = 0 then 0 else gap - sign) 3 = last := by
  have hone := furthest_eq_gap hs hwithin 1 3 0 (by decide) (fun h => absurd h (by decide))
  have htwo := furthest_eq_gap hs hwithin 2 3 0 (by decide) (fun h => absurd h (by decide))
  rcases hguess with rfl | ⟨rfl, hne⟩
  · split
    · next hzero => simpa [hzero] using hone
    · simpa using htwo
  · rw [if_neg hne]
    simpa using hone

/-- The loop that begins one candidate from the start keeps as many candidates as the last place is
away. -/
theorem scans_from_first (hs : sign = 1 ∨ sign = -1)
    (hwithin : ∀ k, within k = true ↔ sign * k ≤ sign * last) (hnonneg : 0 ≤ sign * last) :
    Scans within sign last.natAbs (0, sign) (last, last + sign) := by
  have hfirst : last - sign * ((last.natAbs : Int) - 1) = sign := by
    rcases hs with rfl | rfl <;> omega
  have hwalk := scans_to_gap hs hwithin last.natAbs 0 (by omega)
  rwa [hfirst] at hwalk

/-- **A search that begins one candidate from the start** ends at the last place, if it has the
steps. -/
theorem furthest_from_first (hs : sign = 1 ∨ sign = -1)
    (hwithin : ∀ k, within k = true ↔ sign * k ≤ sign * last) (hnonneg : 0 ≤ sign * last)
    {steps : Nat} (hsteps : last.natAbs ≤ steps) : furthest within sign 0 sign steps = last :=
  furthest_of_scans hsteps (scans_from_first hs hwithin hnonneg)

end Almanac
