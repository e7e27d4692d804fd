import Almanac.Value.Basic

/-!
# Equality of values

When two values count as equal: numbers when they stand at the same place, whatever their kinds, the
truth values as one and zero among them; lists item by item; mappings, records included, when they
have the same keys with equal values, in any order; all else when it is the same.

* `Value.same`: the test.
* `Value.quantity?`: the number that a value counts as.
-/

namespace Almanac.Value

/-- The number that a value counts as: a number itself, a truth value one or zero. -/
def quantity? : Value → Option Number
  | bool b => some (.whole (if b then 1 else 0))
  | number n => some n
  | _ => none

/-- Whether two values that are not made of values are equal. -/
def sameAtom : Value → Value → Bool
  | null, null => true
  | text a, text b => a = b
  | yearMonth a, yearMonth b => a = b
  | date a, date b => a = b
  | duration a, duration b => a = b
  | calendar a, calendar b => a = b
  | choice a, choice b => a = b
  | isoDate a, isoDate b => a = b
  | calendarDate a, calendarDate b => a = b
  | span a, span b => a = b
  | options a, options b => a = b
  | nudge a, nudge b => a = b
  | a, b =>
    match a.quantity?, b.quantity? with
    | some m, some n => m.same n
    | _, _ => false

/-- The items of a list, or of a tuple. -/
def items? : Value → Option (List Value)
  | list items | tuple items => some items
  | _ => none

mutual

/-- Whether two values count as equal. -/
def same : Value → Value → Bool
  | list items, w => w.typeName = "list" && sameItems items (w.items?.getD [])
  | tuple items, w => w.typeName = "tuple" && sameItems items (w.items?.getD [])
  | mapping entries, w => w.entries?.any fun e => entries.length = e.length && sameEntries entries e
  | record entries, w => w.entries?.any fun e => entries.length = e.length && sameFields entries e
  | v, w => sameAtom v w

/-- Whether two lists have equal items. -/
def sameItems : List Value → List Value → Bool
  | [], [] => true
  | v :: vs, w :: ws => v.same w && sameItems vs ws
  | _, _ => false

/-- Whether a mapping has an equal value for each of some keys. -/
def sameEntries : List (String × Value) → List (String × Value) → Bool
  | [], _ => true
  | (k, v) :: rest, entries =>
    (entries.find? fun e => e.1 = k).any (fun e => v.same e.2) && sameEntries rest entries

/-- Whether a mapping has an equal value for each of some fields. -/
def sameFields : List (Field × Value) → List (String × Value) → Bool
  | [], _ => true
  | (f, v) :: rest, entries =>
    (entries.find? fun e => e.1 = f.name).any (fun e => v.same e.2) && sameFields rest entries

end

theorem same_whole (m n : Int) : (number (.whole m)).same (number (.whole n)) = decide (m = n) := by
  simp [same, sameAtom, quantity?, Number.same_whole]

end Almanac.Value
