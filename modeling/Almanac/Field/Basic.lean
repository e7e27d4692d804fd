/-!
# Calendar fields

The six fields that describe a date or a month, in the canonical order in which they are read.

* `Field.name`, `Field.ofName?`: the name of a field and back.
* `Field.sort`: some fields in canonical order, each once.
-/

namespace Almanac

/-- A calendar field. -/
inductive Field
  | day
  | era
  | eraYear
  | month
  | monthCode
  | year
deriving DecidableEq, Repr

namespace Field

/-- The fields in canonical order. -/
def all : List Field := [day, era, eraYear, month, monthCode, year]

/-- The name of a field. -/
def name : Field → String
  | day => "day"
  | era => "era"
  | eraYear => "era_year"
  | month => "month"
  | monthCode => "month_code"
  | year => "year"

/-- The field of a name. -/
def ofName? (name : String) : Option Field := all.find? fun f => f.name == name

theorem ofName?_name (f : Field) : ofName? f.name = some f := by
  cases f <;> decide

/-- Whether a field holds a text: the era and the month code do, the others hold numbers. -/
def isText : Field → Bool
  | era | monthCode => true
  | _ => false

/-- The wanted fields in canonical order, each once. -/
def sort (wanted : List Field) : List Field := all.filter (· ∈ wanted)

end Field

end Almanac
