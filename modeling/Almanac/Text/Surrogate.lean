/-!
# Unpaired surrogates

A text that was cut from 16-bit units can hold half of a surrogate pair. No character stands for
such a half, so it is held as two characters: a mark and a private character, which tells the half.
The mark is the last code point, which is no character of any script; where it occurs itself it is
held twice. All other characters are held as they are. Neither the mark nor the private characters
mean anything to a reader of numbers, dates or names.

* `Piece`: a character or a half.
* `hold`, `pieces`: from pieces to characters and back.
* `pieces_hold`: nothing is lost.
-/

namespace Almanac.Text

/-- The character that marks a half of a surrogate pair. -/
def surrogateMark : Char := Char.ofNat 0x10FFFF

/-- A character, or a half of a surrogate pair by its place among the 2048 halves. -/
inductive Piece
  | char (c : Char)
  | half (place : Fin 2048)
deriving DecidableEq, Repr

namespace Piece

/-- The 16-bit unit of the half at a place. -/
def unitOfPlace (place : Fin 2048) : Nat := 0xD800 + place.val

/-- The private character of the half at a place. -/
def privateOfPlace (place : Fin 2048) : Char := Char.ofNat (0x100000 + place.val)

/-- The half at the place that a private character tells. -/
def ofPrivate (c : Char) : Piece := .half (Fin.ofNat 2048 (c.toNat - 0x100000))

/-- The characters that hold a piece. -/
def hold : Piece → List Char
  | char c => if c = surrogateMark then [surrogateMark, surrogateMark] else [c]
  | half place => [surrogateMark, privateOfPlace place]

end Piece

/-- The pieces that characters hold. -/
def pieces : List Char → List Piece
  | [] => []
  | [c] => [.char c]
  | c :: d :: rest =>
    if c = surrogateMark then
      (if d = surrogateMark then .char surrogateMark else .ofPrivate d) :: pieces rest
    else .char c :: pieces (d :: rest)

theorem toNat_privateOfPlace (place : Fin 2048) :
    (Piece.privateOfPlace place).toNat = 0x100000 + place.val := by
  have h := place.isLt
  have hv : (0x100000 + place.val).isValidChar := Or.inr ⟨by omega, by omega⟩
  rw [Piece.privateOfPlace, Char.ofNat, dif_pos hv]
  rfl

theorem ofPrivate_privateOfPlace (place : Fin 2048) :
    Piece.ofPrivate (Piece.privateOfPlace place) = .half place := by
  have h := place.isLt
  rw [Piece.ofPrivate, toNat_privateOfPlace, Nat.add_sub_cancel_left]
  congr 1
  apply Fin.ext
  simp only [Fin.ofNat]
  omega

theorem privateOfPlace_ne_mark (place : Fin 2048) : Piece.privateOfPlace place ≠ surrogateMark := by
  intro e
  have h := congrArg Char.toNat e
  have hm : surrogateMark.toNat = 0x10FFFF := by decide
  rw [toNat_privateOfPlace, hm] at h
  have := place.isLt
  omega

/-- Characters that hold pieces hold no others. -/
theorem pieces_hold (ps : List Piece) : pieces (ps.flatMap Piece.hold) = ps := by
  induction ps with
  | nil => rfl
  | cons p ps ih =>
    rw [List.flatMap_cons]
    cases p with
    | char c =>
      by_cases hc : c = surrogateMark
      · simp [Piece.hold, hc, pieces, ih]
      · cases hrest : ps.flatMap Piece.hold with
        | nil =>
          rw [hrest] at ih
          simp [Piece.hold, hc, pieces, ← ih]
        | cons d rest =>
          rw [hrest] at ih
          simp [Piece.hold, hc, pieces, ih]
    | half place =>
      simp [Piece.hold, pieces, privateOfPlace_ne_mark, ofPrivate_privateOfPlace, ih]

end Almanac.Text
