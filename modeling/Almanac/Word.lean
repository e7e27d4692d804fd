/-!
# Machine words

Counts of years, months and days from 1970 are kept in signed 64-bit words. A number beyond a word
is refused where a count is formed from it. But what is computed from counts is reduced to a word,
so that it is right only if it fits one. The least word stands for no time at all, and so does what
is counted from there.

* `fitsWord`: a number that is a word.
* `toWord`: the word that a number is reduced to.
* `noTime`, `countOn`: the word for no time, and a number counted on from a word.
-/

namespace Almanac

/-- Whether a count fits a signed 64-bit word: from `-2 ^ 63` to `2 ^ 63 - 1`. -/
def fitsWord (n : Int) : Bool := -9223372036854775808 ≤ n && n ≤ 9223372036854775807

/-- The word that a number is reduced to: numbers have the same word if they differ by a multiple of
`2 ^ 64`. -/
def toWord (n : Int) : Int := (n + 9223372036854775808) % 18446744073709551616 - 9223372036854775808

/-- The word that stands for no time. -/
def noTime : Int := -9223372036854775808

/-- The word that a number of steps leads to from another word. -/
def countOn (n steps : Int) : Int :=
  if n = noTime ∨ steps = noTime then noTime else toWord (n + steps)

theorem fitsWord_iff (n : Int) :
    fitsWord n = true ↔ -9223372036854775808 ≤ n ∧ n ≤ 9223372036854775807 := by
  simp [fitsWord]

/-- A number that fits a word is its own word. -/
theorem toWord_of_fitsWord {n : Int} (h : fitsWord n = true) : toWord n = n := by
  rw [fitsWord_iff] at h
  unfold toWord
  omega

theorem fitsWord_toWord (n : Int) : fitsWord (toWord n) = true := by
  rw [fitsWord_iff]
  unfold toWord
  omega

/-- A sum is reduced to a word as the sum of its parts' words is. -/
theorem toWord_add_toWord (m n : Int) : toWord (toWord m + n) = toWord (m + n) := by
  unfold toWord
  omega

theorem fitsWord_countOn (n steps : Int) : fitsWord (countOn n steps) = true := by
  unfold countOn
  split
  · rfl
  · exact fitsWord_toWord _

end Almanac
