import Almanac.Rounding.Relative
import Mathlib.Algebra.Order.Field.Basic
import Mathlib.Algebra.Order.Ring.Rat
import Mathlib.Tactic.Linarith
import Mathlib.Tactic.Ring

/-!
# Which neighbour a span is rounded to

A span lies between two multiples of the increment, and its destination between the two instants
that these lead to. Which of the two is taken depends on the mode and on how far the destination is
past the lower instant and short of the upper one.

* `MagnitudeMode.TakesUpper`, `RoundingMode.TakesUpper`: whether a mode takes the upper of two
  neighbours of a magnitude, and of two instants.
* `MagnitudeMode.choose_eq_upper_iff`, `Nudge.roundedCount_eq_upper_iff`: the choice among two
  magnitudes, and among two counts.
* `truncateTo_eq`, `tdiv_bounds`: the lower multiple of the increment.
* `Nudge.pick_eq_ok`, `Nudge.pick_self`: **the candidate that is picked**, also for a destination at
  the lower one.
-/

namespace Almanac

namespace MagnitudeMode

/-- Whether a mode takes the upper of the two neighbours of a magnitude, which is past the lower one
by `below` and short of the upper one by `above`. It may matter whether the lower neighbour is
even. -/
def TakesUpper (mode : MagnitudeMode) (below above : Rat) (even : Prop) : Prop :=
  match mode with
  | zero => False
  | infinity => 0 < below
  | halfZero => above < below
  | halfInfinity => above ≤ below
  | halfEven => above < below ∨ above = below ∧ ¬ even

variable {mode : MagnitudeMode} {below above : Rat} {even : Prop}

/-- Only the proportion of the two distances matters. -/
theorem takesUpper_mul_iff {q : Rat} (hq : 0 < q) :
    mode.TakesUpper (q * below) (q * above) even ↔ mode.TakesUpper below above even := by
  cases mode <;>
    simp only [TakesUpper, mul_pos_iff_of_pos_left hq, mul_lt_mul_iff_right₀ hq,
      mul_le_mul_iff_right₀ hq, mul_right_inj' hq.ne']

/-- **The upper neighbour is chosen** when the mode takes it. -/
theorem choose_eq_upper_iff (mode : MagnitudeMode) {lower upper : Int} {x : Rat}
    (hlow : (lower : Rat) ≤ x) (hhigh : x < upper) :
    mode.choose x lower upper = upper ↔
      mode.TakesUpper (x - lower) (upper - x) (lower % (2 * (upper - lower)) = 0) := by
  have hne : lower ≠ upper := by
    rintro rfl
    exact absurd hhigh hlow.not_gt
  have habove : 0 < (upper : Rat) - x := sub_pos.2 hhigh
  unfold choose
  by_cases hzero : x = lower
  · -- a magnitude that is a neighbour itself stays as it is
    have hbelow : x - lower = 0 := sub_eq_zero.2 hzero
    rw [if_pos hzero]
    refine iff_of_false hne ?_
    generalize x - lower = below at hbelow
    generalize (upper : Rat) - x = above at habove
    cases mode <;> simp only [TakesUpper] <;> grind
  · have hbelow : 0 < x - lower := sub_pos.2 (lt_of_le_of_ne hlow (Ne.symm hzero))
    rw [if_neg hzero]
    generalize x - lower = below at hbelow ⊢
    generalize (upper : Rat) - x = above at habove ⊢
    cases mode <;> simp only [TakesUpper] <;> grind

end MagnitudeMode

/-- Whether a mode takes the upper of two instants that enclose a destination, as seen in the
direction of `sign`. It may matter whether the lower one is that of an even multiple. -/
def RoundingMode.TakesUpper (mode : RoundingMode) (sign lower destination upper : Int)
    (even : Prop) :
    Prop :=
  (mode.forMagnitude (sign < 0)).TakesUpper (sign * (destination - lower) : Int)
    (sign * (upper - destination) : Int) even

/-- The unit in which instants are counted does not matter. -/
theorem RoundingMode.takesUpper_mul_iff {mode : RoundingMode} {sign lower destination upper q : Int}
    {even : Prop} (hq : 0 < q) :
    mode.TakesUpper sign (lower * q) (destination * q) (upper * q) even ↔
      mode.TakesUpper sign lower destination upper even := by
  have hpos : (0 : Rat) < q := by exact_mod_cast hq
  have hmul : ∀ x y : Int, ((sign * (x * q - y * q) : Int) : Rat) = q * (sign * (x - y) : Int) := by
    intro x y
    push_cast
    ring
  unfold TakesUpper
  rw [hmul, hmul, MagnitudeMode.takesUpper_mul_iff hpos]

section

variable {sign increment value : Int}

/-- **The multiple of an increment next to a number** toward zero. -/
theorem truncateTo_eq (h : 1 ≤ increment) (value : Int) :
    truncateTo increment value = .ok (value.tdiv increment * increment) := by
  rw [truncateTo, if_neg (by omega), Int.fdiv_eq_tdiv_of_nonneg (Int.natCast_nonneg _) (by omega),
    ← Int.mul_assoc]
  rcases lt_trichotomy value 0 with hv | rfl | hv
  · rw [Int.sign_eq_neg_one_of_neg hv, Int.ofNat_natAbs_of_nonpos hv.le, Int.neg_tdiv, neg_one_mul,
      neg_neg]
  · rw [Int.sign_zero, Int.zero_mul, Int.zero_tdiv]
  · rw [Int.sign_eq_one_of_pos hv, Int.natAbs_of_nonneg hv.le, Int.one_mul]

/-- A number lies between the multiple toward zero and the one after. -/
theorem tdiv_bounds (hs : sign = 1 ∨ sign = -1) (h : 1 ≤ increment) (hv : 0 ≤ sign * value) :
    0 ≤ sign * value.tdiv increment ∧ sign * (value.tdiv increment * increment) ≤ sign * value ∧
      sign * value < sign * ((value.tdiv increment + sign) * increment) := by
  obtain ⟨w, hw, rfl⟩ : ∃ w, 0 ≤ w ∧ value = sign * w := by
    refine ⟨sign * value, hv, ?_⟩
    rcases hs with rfl | rfl <;> omega
  have hdiv : (sign * w).tdiv increment = sign * (w / increment) := by
    rw [← Int.tdiv_eq_ediv_of_nonneg hw]
    rcases hs with rfl | rfl
    · rw [Int.one_mul, Int.one_mul]
    · rw [neg_one_mul, neg_one_mul, Int.neg_tdiv]
  have hlow := Int.ediv_mul_le w (show increment ≠ 0 by omega)
  have hhigh := Int.lt_ediv_add_one_mul_self w (show 0 < increment by omega)
  have hnonneg := Int.ediv_nonneg hw (show 0 ≤ increment by omega)
  rw [hdiv]
  rcases hs with rfl | rfl
  · simp only [Int.one_mul]
    exact ⟨hnonneg, hlow, hhigh⟩
  · refine ⟨by omega, ?_, ?_⟩ <;> linarith

end

namespace Nudge

variable {sign increment lower upper : Int} {progress : Rat}

/-- The magnitude that is rounded, a part of the way from the lower count to the upper one. -/
theorem magnitude_total (hs : sign = 1 ∨ sign = -1) (hlow : 0 ≤ sign * lower) (hinc : 1 ≤ increment)
    (h₀ : 0 ≤ progress) :
    (if (lower : Rat) + progress * increment * sign < 0
      then -((lower : Rat) + progress * increment * sign)
      else lower + progress * increment * sign) =
        (sign * lower : Int) + increment * progress := by
  have hlowq : (0 : Rat) ≤ (sign * lower : Int) := by exact_mod_cast hlow
  have hstep : 0 ≤ increment * progress :=
    mul_nonneg (by exact_mod_cast (by omega : 0 ≤ increment)) h₀
  rcases hs with rfl | rfl
  · push_cast at hlowq ⊢
    rw [if_neg (by linarith)]
    ring
  · push_cast at hlowq ⊢
    split <;> linarith

/-- **The upper count is reached** when the mode takes the upper of two neighbours in their
distances. -/
theorem roundedCount_eq_upper_iff (mode : RoundingMode) (hs : sign = 1 ∨ sign = -1)
    (hinc : 1 ≤ increment) (hlow : 0 ≤ sign * lower) (hupper : upper = lower + increment * sign)
    (h₀ : 0 ≤ progress) (h₁ : progress < 1) :
    roundedCount sign increment lower upper progress mode = upper.natAbs ↔
      (mode.forMagnitude (sign < 0)).TakesUpper progress (1 - progress)
        (2 * increment ∣ lower) := by
  have hincq : (0 : Rat) < increment := by exact_mod_cast hinc
  have hlower : (lower.natAbs : Int) = sign * lower := by
    rcases hs with rfl | rfl <;> omega
  have hraised : (upper.natAbs : Int) = sign * lower + increment := by
    rcases hs with rfl | rfl <;> omega
  have heven : sign * lower % (2 * increment) = 0 ↔ 2 * increment ∣ lower := by
    rw [← Int.dvd_iff_emod_eq_zero]
    rcases hs with rfl | rfl
    · rw [Int.one_mul]
    · rw [neg_one_mul, dvd_neg]
  have hbelow : (sign * lower : Int) + increment * progress - ((sign * lower : Int) : Rat) =
      increment * progress := by ring
  have habove : ((sign * lower + increment : Int) : Rat) -
      ((sign * lower : Int) + increment * progress) = increment * (1 - progress) := by
    push_cast
    ring
  have hpast : ((sign * lower : Int) : Rat) ≤ (sign * lower : Int) + increment * progress :=
    le_add_of_nonneg_right (mul_nonneg hincq.le h₀)
  have hshort :
      (sign * lower : Int) + increment * progress < ((sign * lower + increment : Int) : Rat) := by
    rw [← sub_pos, habove]
    exact mul_pos hincq (sub_pos.2 h₁)
  rw [roundedCount, if_neg h₁.ne, hraised, hlower]
  simp only [magnitude_total hs hlow hinc h₀]
  rw [MagnitudeMode.choose_eq_upper_iff _ hpast hshort, hbelow, habove,
    MagnitudeMode.takesUpper_mul_iff hincq, add_sub_cancel_left, heven]

variable {start finish destination : Int} {unit : TimeUnit} {mode : RoundingMode}
  {low high : Candidate} {nudge : Nudge}

/-- The part of the way that a destination is from one instant to the other, by its distances from
the two, whose sign drops out. -/
theorem progress_eq (hs : sign = 1 ∨ sign = -1) (start finish destination : Int) :
    ((destination - start : Int) : Rat) / (finish - start : Int) =
      (sign * (destination - start) : Int) /
        (sign * (destination - start) + sign * (finish - destination) : Int) := by
  rcases hs with rfl | rfl
  · congr 2 <;> ring
  · rw [← neg_div_neg_eq]
    push_cast
    congr 1 <;> ring

/-- **The candidate that is picked** for a destination between the two instants: the upper one if
the mode takes it. -/
theorem pick_eq_ok (hs : sign = 1 ∨ sign = -1) (hinc : 1 ≤ increment) (hlow : 0 ≤ sign * low.count)
    (hhigh : high.count = low.count + increment * sign) (hpast : sign * start ≤ sign * destination)
    (hshort : sign * destination < sign * finish)
    (h : pick sign increment destination unit mode low high start finish = .ok nudge) :
    (mode.TakesUpper sign start destination finish (2 * increment ∣ low.count) ∧
        nudge = ⟨high.span, finish, true⟩) ∨
      (¬ mode.TakesUpper sign start destination finish (2 * increment ∣ low.count) ∧
        nudge = ⟨low.span, start, false⟩) := by
  have hbracket : ¬ (destination < min start finish ∨ max start finish < destination) := by
    rcases hs with rfl | rfl <;> omega
  have hne : start ≠ finish := by
    rintro rfl
    exact absurd hshort hpast.not_gt
  obtain ⟨progress, hprogress⟩ :
      ∃ p, p = ((destination - start : Int) : Rat) / (finish - start : Int) :=
    ⟨_, rfl⟩
  have hquotient := hprogress.trans (progress_eq hs start finish destination)
  rw [pick, if_neg hbracket, if_neg hne] at h
  simp only [← hprogress] at h
  rw [RoundingMode.TakesUpper]
  generalize hbelow : sign * (destination - start) = below at hquotient ⊢
  generalize habove : sign * (finish - destination) = above at hquotient ⊢
  have hbelow₀ : 0 ≤ below := by rcases hs with rfl | rfl <;> omega
  have habove₀ : 0 < above := by rcases hs with rfl | rfl <;> omega
  have hpos : (0 : Rat) < (below + above : Int) := by exact_mod_cast (by omega : 0 < below + above)
  have hrest : 1 - progress = above / (below + above : Int) := by
    rw [hquotient, eq_div_iff hpos.ne', sub_mul, div_mul_cancel₀ _ hpos.ne']
    push_cast
    ring
  have h₀ : 0 ≤ progress := by
    rw [hquotient]
    exact div_nonneg (by exact_mod_cast hbelow₀) hpos.le
  have h₁ : progress < 1 := by
    rw [← sub_pos, hrest]
    exact div_pos (by exact_mod_cast habove₀) hpos
  have hcount := roundedCount_eq_upper_iff mode hs hinc hlow hhigh h₀ h₁
  rw [hrest, hquotient, div_eq_inv_mul, div_eq_inv_mul,
    MagnitudeMode.takesUpper_mul_iff (inv_pos.2 hpos), ← div_eq_inv_mul, ← hquotient] at hcount
  split at h
  · next hup => exact .inl ⟨hcount.1 hup, (Except.ok.inj h).symm⟩
  · next hup => exact .inr ⟨fun ht => hup (hcount.2 ht), (Except.ok.inj h).symm⟩

/-- At no part of the way stands the lower count, whose magnitude no mode changes. -/
theorem roundedCount_zero (sign increment lower upper : Int) (mode : RoundingMode) :
    roundedCount sign increment lower upper 0 mode = lower.natAbs := by
  have hmagnitude :
      (if (lower : Rat) < 0 then -(lower : Rat) else lower) = ((lower.natAbs : Int) : Rat) := by
    rw [Int.natCast_natAbs, Int.cast_abs]
    split
    · next hneg => exact (abs_of_neg hneg).symm
    · next hnonneg => exact (abs_of_nonneg (not_lt.1 hnonneg)).symm
  rw [roundedCount, if_neg zero_ne_one]
  simp only [zero_mul, add_zero, hmagnitude, MagnitudeMode.choose, if_pos]

/-- Two multiples of the increment next to each other have different magnitudes. -/
theorem natAbs_ne_of_dvd (hs : sign = 1 ∨ sign = -1) (hinc : 1 ≤ increment)
    (hlow : increment ∣ lower) (hupper : upper = lower + increment * sign) :
    lower.natAbs ≠ upper.natAbs := by
  obtain ⟨n, rfl⟩ := hlow
  subst hupper
  rw [← Int.mul_add, Int.natAbs_mul, Int.natAbs_mul]
  intro hsame
  have := Nat.eq_of_mul_eq_mul_left (by omega) hsame
  rcases hs with rfl | rfl <;> omega

/-- **The candidate that is picked** for a destination at the lower one, wherever the upper one
lies: the lower one, unless there is no way between the two. -/
theorem pick_self (hs : sign = 1 ∨ sign = -1) (hinc : 1 ≤ increment) (hlow : increment ∣ low.count)
    (hhigh : high.count = low.count + increment * sign) :
    pick sign increment start unit mode low high start finish =
      if start = finish then .error .zeroDenominator else .ok ⟨low.span, start, false⟩ := by
  have hbracket : ¬ (start < min start finish ∨ max start finish < start) := by omega
  have hstays : roundedCount sign increment low.count high.count 0 mode ≠ high.count.natAbs := by
    rw [roundedCount_zero, Ne, Nat.cast_inj]
    exact natAbs_ne_of_dvd hs hinc hlow hhigh
  rw [pick, if_neg hbracket]
  split
  · rfl
  · simp only [Int.sub_self, Int.cast_zero, zero_div, if_neg hstays]

end Nudge

end Almanac
