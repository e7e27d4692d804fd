import Almanac.Text.Padded

/-!
# What messages show

A message is put together from pieces, and only written where an operation fails. It may then turn
out that there is no text: a number has too many digits, or values are inside one another too deep
for what is left of the stack.

* `Shown`: the pieces; `Shown.joined`: several of them with a separator.
* `Shown.IsOverlong`: a number with more digits than are written.
* `Shown.write`: the text, or why there is none.
* `Shown.Writable`, `Shown.exists_write_iff`: what has a text.
* `Shown.isText`: what is text alone, which always has one.
-/

namespace Almanac

/-- Why something is not written. -/
inductive Unwritten
  /-- A number has too many digits. -/
  | tooLong
  /-- Values are inside one another too deep. -/
  | tooDeep
deriving DecidableEq, Repr

/-- Something that a message shows. -/
inductive Shown
  | text (s : String)
  /-- A number, filled with zeros up to a width. -/
  | number (n : Int) (width : Nat := 0)
  | append (one two : Shown)
  /-- A value that is shown inside another one. -/
  | nested (inner : Shown)
deriving DecidableEq, Repr

namespace Shown

instance : Coe String Shown := ⟨text⟩

instance : Append Shown := ⟨append⟩

/-- Several of them, with a separator between each and the next. -/
def joined (separator : String) : List Shown → Shown
  | [] => text ""
  | [one] => one
  | one :: two :: rest => one ++ text separator ++ joined separator (two :: rest)

/-- Whether a number has more digits than are written. -/
def IsOverlong (n : Int) : Prop := Nat.pow 10 Text.maxDigits ≤ n.natAbs

instance (n : Int) : Decidable (IsOverlong n) := Nat.decLe _ _

/-- The text, if a value may still be shown to `free` levels inside another one. -/
def write : Shown → Nat → Except Unwritten String
  | text s, _ => .ok s
  | number n width, _ => if IsOverlong n then .error .tooLong else .ok (Text.padded width n)
  | append one two, free => do return (← one.write free) ++ (← two.write free)
  | nested _, 0 => .error .tooDeep
  | nested inner, free + 1 => inner.write free

/-- Whether there is a text: no number is too long, and no value is inside others too deep. -/
def Writable : Shown → Nat → Prop
  | text _, _ => True
  | number n _, _ => ¬ IsOverlong n
  | append one two, free => one.Writable free ∧ two.Writable free
  | nested _, 0 => False
  | nested inner, free + 1 => inner.Writable free

/-- Whether there is nothing but text. -/
def isText : Shown → Bool
  | text _ => true
  | append one two => one.isText && two.isText
  | _ => false

variable {s one two : Shown} {free : Nat}

@[simp] theorem append_eq (one two : Shown) : one ++ two = append one two := rfl

@[simp] theorem writable_text (t : String) (free : Nat) : (text t).Writable free := trivial

@[simp] theorem writable_number_iff {n : Int} {width : Nat} :
    (number n width).Writable free ↔ ¬ IsOverlong n :=
  Iff.rfl

@[simp] theorem writable_append_iff :
    (append one two).Writable free ↔ one.Writable free ∧ two.Writable free := Iff.rfl

/-- **What has a text.** -/
theorem exists_write_iff : (∃ t, s.write free = .ok t) ↔ s.Writable free := by
  induction s generalizing free with
  | text t => exact iff_of_true ⟨t, rfl⟩ trivial
  | number n width =>
    rw [write, writable_number_iff]
    split
    · next hlong => exact iff_of_false (fun ⟨_, h⟩ => by cases h) (not_not_intro hlong)
    · next hshort => exact iff_of_true ⟨_, rfl⟩ hshort
  | append one two ih₁ ih₂ =>
    rw [writable_append_iff, ← ih₁, ← ih₂, write]
    constructor
    · rintro ⟨t, h⟩
      cases h₁ : one.write free with
      | error u => simp [h₁, bind, Except.bind] at h
      | ok t₁ =>
        cases h₂ : two.write free with
        | error u => simp [h₁, h₂, bind, Except.bind] at h
        | ok t₂ => exact ⟨⟨t₁, rfl⟩, t₂, rfl⟩
    · rintro ⟨⟨t₁, h₁⟩, t₂, h₂⟩
      exact ⟨t₁ ++ t₂, by rw [h₁, h₂]; rfl⟩
  | nested inner ih =>
    cases free with
    | zero => exact iff_of_false (fun ⟨_, h⟩ => by cases h) id
    | succ free => exact ih

/-- Text alone is written. -/
theorem writable_of_isText (h : s.isText = true) : s.Writable free := by
  induction s with
  | text t => trivial
  | number n width => cases h
  | append one two ih₁ ih₂ =>
    rw [isText, Bool.and_eq_true] at h
    exact ⟨ih₁ h.1, ih₂ h.2⟩
  | nested inner => cases h

end Shown

end Almanac
