/-!
# Decimal digits

The decimal digits of every script: the characters of Unicode's general category `Nd`. They come
in runs of ten, from a digit zero to a digit nine, so the table lists the zeros only.

* `digit?`: the value of a digit.
* `number`: the number that a row of digit values writes.
* `spanDigits`: the longest row of digits at the front of a text.
* `digits`: the ASCII digits of a number, without leading zeros.
* `maxDigits`: how many of them are read or written at once.
-/

namespace Almanac.Text

/-- The code points of the digits zero, one for each run of ten. -/
def digitZeros : List Nat :=
  [0x30, 0x660, 0x6F0, 0x7C0, 0x966, 0x9E6, 0xA66, 0xAE6, 0xB66, 0xBE6, 0xC66, 0xCE6, 0xD66, 0xDE6,
   0xE50, 0xED0, 0xF20, 0x1040, 0x1090, 0x17E0, 0x1810, 0x1946, 0x19D0, 0x1A80, 0x1A90, 0x1B50,
   0x1BB0, 0x1C40, 0x1C50, 0xA620, 0xA8D0, 0xA900, 0xA9D0, 0xA9F0, 0xAA50, 0xABF0, 0xFF10, 0x104A0,
   0x10D30, 0x11066, 0x110F0, 0x11136, 0x111D0, 0x112F0, 0x11450, 0x114D0, 0x11650, 0x116C0,
   0x11730, 0x118E0, 0x11950, 0x11C50, 0x11D50, 0x11DA0, 0x16A60, 0x16AC0, 0x16B50, 0x1D7CE,
   0x1D7D8, 0x1D7E2, 0x1D7EC, 0x1D7F6, 0x1E140, 0x1E2F0, 0x1E950, 0x1FBF0]

/-- The value of a decimal digit of any script. -/
def digit? (c : Char) : Option Nat :=
  (digitZeros.find? fun z => z ≤ c.toNat && c.toNat < z + 10).map (c.toNat - ·)

/-- Whether a character is a decimal digit of some script. -/
def isDigit (c : Char) : Bool := (digit? c).isSome

/-- The number that a row of digit values writes, the most significant first. -/
def number (values : List Nat) : Nat := values.foldl (fun n d => 10 * n + d) 0

/-- The longest row of digits at the front of a text, as values, and the rest. -/
def spanDigits : List Char → List Nat × List Char
  | [] => ([], [])
  | c :: rest =>
    match digit? c with
    | some d => ((d :: (spanDigits rest).1), (spanDigits rest).2)
    | none => ([], c :: rest)

/-- The ASCII digits of a number, the most significant first, without leading zeros. -/
def digits (n : Nat) : List Char :=
  if n < 10 then [n.digitChar] else digits (n / 10) ++ [(n % 10).digitChar]

/-- The greatest number of digits of an integer that is read from a text or written as one. -/
def maxDigits : Nat := 4300

end Almanac.Text
