import Almanac.Text.Quoted

/-!
# The calendars

The nine calendars as one closed type, with the identifiers that name them.

* `id`: the identifier of a calendar.
* `ofId?`: the calendar of an identifier, ASCII letter case and aliases aside.
* `ofId?_id`: an identifier determines its calendar.
-/

namespace Almanac

/-- A calendar. -/
inductive Calendar
  /-- The ISO 8601 calendar: Gregorian months and leap years, no eras. -/
  | iso8601
  /-- The proleptic Gregorian calendar with its two eras. -/
  | gregory
  /-- The Thai solar calendar: Gregorian months, years of the Buddhist Era. -/
  | buddhist
  /-- The calendar of the Republic of China: Gregorian months, years from 1912. -/
  | roc
  /-- The Coptic calendar: thirteen months, a leap year every fourth year. -/
  | coptic
  /-- The Ethiopic calendar: the months of the Coptic one, another era. -/
  | ethiopic
  /-- The Hebrew lunisolar calendar: twelve or thirteen months. -/
  | hebrew
  /-- The tabular Islamic calendar counted from the civil epoch. -/
  | islamicCivil
  /-- The tabular Islamic calendar counted from the astronomical epoch, a day earlier. -/
  | islamicTabular
deriving DecidableEq, Repr

namespace Calendar

/-- The calendars. -/
def all : List Calendar :=
  [iso8601, gregory, buddhist, roc, coptic, ethiopic, hebrew, islamicCivil, islamicTabular]

/-- The identifier of a calendar. -/
def id : Calendar → String
  | iso8601 => "iso8601"
  | gregory => "gregory"
  | buddhist => "buddhist"
  | roc => "roc"
  | coptic => "coptic"
  | ethiopic => "ethiopic"
  | hebrew => "hebrew"
  | islamicCivil => "islamic-civil"
  | islamicTabular => "islamic-tbla"

/-- The type name that messages use for a calendar. -/
def typeName : Calendar → String
  | iso8601 => "IsoCalendar"
  | gregory => "GregorianCalendar"
  | buddhist => "BuddhistCalendar"
  | roc => "RocCalendar"
  | coptic => "CopticCalendar"
  | ethiopic => "EthiopicCalendar"
  | hebrew => "HebrewCalendar"
  | islamicCivil => "IslamicCivilCalendar"
  | islamicTabular => "IslamicTblaCalendar"

/-- A calendar as messages show it: its type name around the quoted identifier. -/
def display (c : Calendar) : String := c.typeName ++ "(" ++ Text.quote c.id ++ ")"

/-- The identifier that an alias stands for. -/
def unalias (name : String) : String :=
  if name = "gregorian" then "gregory"
  else if name = "islamicc" then "islamic-civil"
  else name

/-- The text in lower case if it is all ASCII; any other text is left alone. -/
def foldCase (name : String) : String :=
  if name.toList.all fun c => c.toNat < 128 then String.ofList (name.toList.map Char.toLower)
  else name

/-- The calendar of an identifier or alias, in any ASCII letter case. -/
def ofId? (name : String) : Option Calendar :=
  all.find? fun c => c.id == unalias (foldCase name)

theorem ofId?_id (c : Calendar) : ofId? c.id = some c := by
  cases c <;> decide

end Calendar

end Almanac
