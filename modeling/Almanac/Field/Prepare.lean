import Almanac.Field.Record
import Almanac.Value.Coercion

/-!
# Fields from mappings

How the fields of a record are read from a mapping that a caller passes.

* `Field.convert`: the value of one field.
* `Record.prepare`: the wanted fields in the given order; a value of `null` counts as absent.
* `Record.preparePartial`: the same, of which one field at least must be there.
* `Record.setKey`, `Record.getKey`, `Record.containsKey`, `Record.eraseKey`: one field, by its key.
-/

namespace Almanac

/-- What a field holds, from a value: the era and the month code are texts, the day and the month
positive numbers, the years any numbers. -/
def Field.convert (f : Field) (v : Value) : Except Error Reading :=
  match f with
  | .day | .month => (v.positive f.name).map .number
  | .year | .eraYear => (v.truncated f.name).map .number
  | .era | .monthCode => (v.string f.name).map .text

/-- The field that a key names; only a text names one. -/
def Field.ofKey? : Value → Option Field
  | .text name => ofName? name
  | _ => none

namespace Record

/-- The record with the value of a named field, if the mapping has one. -/
def readField (source : List (String × Value)) (required : List String) (r : Record Reading)
    (name : String) : Except Error (Record Reading) :=
  let v := Value.lookup source name
  if v.isNull then
    if name ∈ required then .error (.missingField name) else .ok r
  else
    match Field.ofName? name with
    | some f => do return r.set f (← f.convert v)
    | none => .error (.absentField name)

/-- The named fields of a mapping, in the given order. -/
def prepare (source : List (String × Value)) (names required : List String) :
    Except Error (Record Reading) :=
  names.foldlM (readField source required) {}

/-- The named fields of a mapping, of which one at least must be there. -/
def preparePartial (source : List (String × Value)) (names : List String) :
    Except Error (Record Reading) := do
  let r ← prepare source names []
  if r.entries.isEmpty then throw (.noneOfFields names) else return r

/-- The record with the value of the field of a key set. -/
def setKey (r : Record Value) (key v : Value) : Except Error (Record Value) :=
  match Field.ofKey? key with
  | some f => .ok (r.set f v)
  | none => .error (.unknownField key.display)

/-- Whether the field of a key has a value. -/
def containsKey (r : Record Value) (key : Value) : Bool := (Field.ofKey? key).any r.contains

/-- The value of the field of a key. -/
def getKey (r : Record Value) (key : Value) : Except Error Value :=
  match (Field.ofKey? key).bind r.get? with
  | some v => .ok v
  | none => .error (.absentField key.plain)

/-- The record without the field of a key, which must be there. -/
def eraseKey (r : Record Value) (key : Value) : Except Error (Record Value) :=
  match Field.ofKey? key with
  | some f => if r.contains f then .ok (r.erase f) else .error (.absentField key.plain)
  | none => .error (.absentField key.plain)

/-- A record as messages show it. -/
def display (r : Record Value) : Shown := (Value.record r.entries).display

end Record

end Almanac
