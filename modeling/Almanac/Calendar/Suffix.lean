import Almanac.Calendar.Basic

/-!
# Calendar suffixes

The suffix of a text that names its calendar, such as `[u-ca=hebrew]`, and the ways to show it.

* `CalendarDisplay`: when it is shown.
* `CalendarDisplay.suffix`: the suffix itself.
-/

namespace Almanac

/-- When the text of a value names its calendar. -/
inductive CalendarDisplay
  /-- Unless it is the ISO calendar. -/
  | auto
  | always
  | never
  /-- Always, with the mark that a reader has to understand it. -/
  | critical
deriving DecidableEq, Repr

namespace CalendarDisplay

/-- The option text of each way, in the order a message lists them. -/
def names : List (CalendarDisplay × String) :=
  [(auto, "auto"), (always, "always"), (never, "never"), (critical, "critical")]

/-- The option text of a way. -/
def name : CalendarDisplay → String
  | auto => "auto"
  | always => "always"
  | never => "never"
  | critical => "critical"

/-- Whether the ISO calendar is named too. -/
def isForced (how : CalendarDisplay) : Bool := how = always || how = critical

/-- The suffix that names a calendar. -/
def suffix (c : Calendar) : CalendarDisplay → List Char
  | never => []
  | auto => if c = .iso8601 then [] else "[u-ca=".toList ++ c.id.toList ++ [']']
  | always => "[u-ca=".toList ++ c.id.toList ++ [']']
  | critical => "[!u-ca=".toList ++ c.id.toList ++ [']']

end CalendarDisplay

end Almanac
