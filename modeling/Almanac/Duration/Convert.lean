import Almanac.Duration.Parser
import Almanac.Value.Coercion

/-!
# Durations from values

* `Duration.ofMapping`: the duration of a mapping from component names to whole numbers.
* `Value.toDuration`: the duration that a value is, writes or describes.
* `Duration.ofComponents`: the duration of the components that a caller gives one by one.
-/

namespace Almanac

namespace Duration

/-- The names of the components. -/
def componentNames : List String := TimeUnit.all.map TimeUnit.plural

/-- The components of a mapping; `null` counts as absent. -/
def givenComponents (entries : List (String × Value)) : Except Error (List (TimeUnit × Int)) :=
  TimeUnit.all.filterMapM fun u => do
    let v := Value.lookup entries u.plural
    if v.isNull then return none else return some (u, ← v.integral u.plural)

/-- The duration of some components; the others are zero. -/
def ofGiven (given : List (TimeUnit × Int)) : Except Error Duration :=
  ofParts (.ofCounts fun u => ((given.find? fun g => g.1 = u).map Prod.snd).getD 0)

/-- The duration of a mapping, which must have one component at least. -/
def ofMapping (entries : List (String × Value)) : Except Error Duration := do
  let given ← givenComponents entries
  if given.isEmpty then throw (.noneOfDurationFields componentNames) else ofGiven given

/-- The duration of the components that are given, where `null` is no number. -/
def ofComponents (entries : List (String × Value)) : Except Error Duration := do
  let given ← TimeUnit.all.filterMapM fun u =>
    match entries.find? fun e => e.1 = u.plural with
    | some (_, v) => do return some (u, ← v.integral u.plural)
    | none => return none
  ofGiven given

end Duration

/-- The duration that a value is, writes or describes. -/
def Value.toDuration : Value → Except Error Duration
  | .duration d => .ok d
  | .text s => Duration.parse s
  | v =>
    match v.entries? with
    | some entries => Duration.ofMapping entries
    | none => .error (.durationExpected v.typeName)

end Almanac
