import Almanac.Text.Printable
import Almanac.Text.Surrogate

/-!
# Quoted texts

How a text is quoted in a message. Single quotes enclose it, or double quotes when it holds a
single quote and no double one. The backslash, the enclosing quote and the line characters are
escaped by a backslash, other unprintable characters by their code point in hexadecimal, and an
unpaired surrogate by its unit.

* `quote`: the quoted form of a text.
-/

namespace Almanac.Text

/-- The code point `n` in lower-case hexadecimal with at least `width` digits. -/
def hex (width n : Nat) : List Char :=
  let ds := Nat.toDigits 16 n
  List.replicate (width - ds.length) '0' ++ ds

/-- One character of a quoted text that `mark` encloses. -/
def quoteChar (mark c : Char) : List Char :=
  if c = '\\' || c = mark then ['\\', c]
  else if c = '\n' then ['\\', 'n']
  else if c = '\r' then ['\\', 'r']
  else if c = '\t' then ['\\', 't']
  else if isPrintable c then [c]
  else if c.toNat ≤ 0xFF then '\\' :: 'x' :: hex 2 c.toNat
  else if c.toNat ≤ 0xFFFF then '\\' :: 'u' :: hex 4 c.toNat
  else '\\' :: 'U' :: hex 8 c.toNat

/-- One piece of a quoted text that `mark` encloses. -/
def quotePiece (mark : Char) : Piece → List Char
  | .char c => quoteChar mark c
  | .half place => '\\' :: 'u' :: hex 4 (Piece.unitOfPlace place)

/-- The mark that encloses a text: the single quote unless only that one occurs in the text. -/
def quoteMark (s : List Char) : Char :=
  if s.contains '\'' && !s.contains '"' then '"' else '\''

/-- The quoted form of a text. -/
def quote (s : String) : String :=
  let mark := quoteMark s.toList
  String.ofList (mark :: (pieces s.toList).flatMap (quotePiece mark) ++ [mark])

end Almanac.Text
