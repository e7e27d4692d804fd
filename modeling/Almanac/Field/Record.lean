import Almanac.Calendar.Structure
import Almanac.Field.Basic

/-!
# Field records

Values for some of the calendar fields, in the order in which they were first set.

* `Record.get?`, `Record.set`, `Record.erase`: one field.
* `Record.get?_set`, `Record.get?_erase`: what a read finds after a change.
* `Record.merge`: two records, of which the second shadows the first by groups of fields.
* `Reading`: what a prepared field holds, a number or a text; `Record.IsPrepared`: each field holds
  the one that it is meant to hold.
-/

namespace Almanac

/-- Values for some fields, in order of insertion; each field has one value at most. -/
structure Record (α : Type) where
  entries : List (Field × α) := []
  nodup : (entries.map Prod.fst).Nodup := by simp
deriving Repr

namespace Record

variable {α : Type}

@[ext]
theorem ext {r s : Record α} (h : r.entries = s.entries) : r = s := by
  cases r; cases s; simp_all

instance [DecidableEq α] : DecidableEq (Record α) := fun r s =>
  if h : r.entries = s.entries then isTrue (ext h) else isFalse fun e => h (congrArg _ e)

/-- The fields of a record in order of insertion. -/
def fields (r : Record α) : List Field := r.entries.map Prod.fst

/-- The value of a field. -/
def get? (r : Record α) (f : Field) : Option α :=
  (r.entries.find? fun e => e.1 = f).map Prod.snd

/-- Whether a field has a value. -/
def contains (r : Record α) (f : Field) : Bool := f ∈ r.fields

/-- A field is in a record when it has a value. -/
theorem contains_eq_isSome (r : Record α) (f : Field) : r.contains f = (r.get? f).isSome := by
  rw [contains, Bool.eq_iff_iff, decide_eq_true_eq, get?, Option.isSome_map, List.find?_isSome,
    fields, List.mem_map]
  simp only [decide_eq_true_eq]

/-- Entries with one value replaced where it stands, or appended. -/
def put (f : Field) (v : α) : List (Field × α) → List (Field × α)
  | [] => [(f, v)]
  | e :: rest => if e.1 = f then (f, v) :: rest else e :: put f v rest

/-- A field keeps its place, and a new one comes last. -/
theorem map_fst_put (f : Field) (v : α) (entries : List (Field × α)) :
    (put f v entries).map Prod.fst =
      if f ∈ entries.map Prod.fst then entries.map Prod.fst else entries.map Prod.fst ++ [f] := by
  induction entries with
  | nil => rfl
  | cons e rest ih =>
    by_cases he : e.1 = f
    · simp [put, he]
    · simp only [put, if_neg he, List.map_cons, ih, List.mem_cons, Ne.symm he, false_or]
      split <;> rfl

theorem find?_put (f g : Field) (v : α) (entries : List (Field × α)) :
    (put f v entries).find? (fun e => e.1 = g) =
      if g = f then some (f, v) else entries.find? fun e => e.1 = g := by
  induction entries with
  | nil =>
    by_cases hg : g = f
    · simp [put, hg]
    · simp [put, hg, Ne.symm hg]
  | cons e rest ih =>
    by_cases he : e.1 = f
    · by_cases hg : f = g
      · simp [put, he, hg]
      · simp [put, he, hg, Ne.symm hg]
    · by_cases heg : e.1 = g
      · have hg : g ≠ f := fun h => he (heg.trans h)
        simp [put, heg, hg]
      · simpa [put, he, heg] using ih

/-- The record with one value replaced where it stands, or appended. -/
def set (r : Record α) (f : Field) (v : α) : Record α where
  entries := put f v r.entries
  nodup := by
    rw [map_fst_put]
    split
    · exact r.nodup
    · next h =>
      rw [List.nodup_append]
      refine ⟨r.nodup, by simp, ?_⟩
      intro a ha b hb hab
      rw [List.mem_singleton] at hb
      exact h (hb ▸ hab ▸ ha)

/-- What is set is read back, and no other field changes. -/
theorem get?_set (r : Record α) (f g : Field) (v : α) :
    (r.set f v).get? g = if g = f then some v else r.get? g := by
  simp only [get?, set, find?_put]
  split <;> rfl

/-- The part of a record whose fields satisfy a test. -/
def filter (r : Record α) (keep : Field → Bool) : Record α where
  entries := r.entries.filter fun e => keep e.1
  nodup := r.nodup.sublist (List.filter_sublist.map _)

/-- The record without a field. -/
def erase (r : Record α) (f : Field) : Record α := r.filter fun g => g ≠ f

theorem get?_filter (r : Record α) (keep : Field → Bool) (f : Field) :
    (r.filter keep).get? f = if keep f then r.get? f else none := by
  have hpred : (fun e : Field × α => keep e.1 && decide (e.1 = f)) =
      fun e => keep f && decide (e.1 = f) := by
    funext e
    by_cases he : e.1 = f <;> simp [he]
  simp only [get?, filter, List.find?_filter]
  cases hk : keep f <;> simp_all

theorem get?_erase (r : Record α) (f g : Field) :
    (r.erase f).get? g = if g = f then none else r.get? g := by
  rw [erase, get?_filter]
  by_cases h : g = f <;> simp [h]

/-- The record with each value changed. -/
def map {β : Type} (g : α → β) (r : Record α) : Record β where
  entries := r.entries.map fun e => (e.1, g e.2)
  nodup := by
    have h : Prod.fst ∘ (fun e : Field × α => (e.1, g e.2)) = Prod.fst := rfl
    rw [List.map_map, h]
    exact r.nodup

theorem get?_map {β : Type} (g : α → β) (r : Record α) (f : Field) :
    (r.map g).get? f = (r.get? f).map g := by
  simp only [get?, map, List.find?_map, Option.map_map]
  rfl

/-- The record that holds the given values, set in order. -/
def ofList (entries : List (Field × α)) : Record α :=
  entries.foldl (fun r e => r.set e.1 e.2) {}

/-- The fields that a value for `f` shadows. The month and its code exclude each other, and so do,
in a calendar with eras, the year and the two fields of its era. -/
def shadowed (hasEras : Bool) (f : Field) : List Field :=
  match f with
  | .day => [.day]
  | .month | .monthCode => [.month, .monthCode]
  | .year | .era | .eraYear => if hasEras then [.year, .era, .eraYear] else [f]

/-- The fields of the first record that the second does not shadow, then the second. -/
def merge (hasEras : Bool) (base patch : Record α) : Record α where
  entries :=
    (base.filter fun f => patch.fields.all fun g => f ∉ shadowed hasEras g).entries ++ patch.entries
  nodup := by
    rw [List.map_append, List.nodup_append]
    refine ⟨(base.filter _).nodup, patch.nodup, ?_⟩
    intro a ha b hb hab
    obtain ⟨e, he, rfl⟩ := List.mem_map.1 ha
    have hk := (List.mem_filter.1 he).2
    simp only [List.all_eq_true, decide_eq_true_eq] at hk
    refine hk b hb ?_
    subst hab
    cases e.1 <;> cases hasEras <;> simp [shadowed]

end Record

/-- What a prepared field holds. -/
inductive Reading
  | number (n : Int)
  | text (s : String)
deriving DecidableEq, Repr

/-- Whether a field holds a text. -/
def Reading.isText : Reading → Bool
  | number _ => false
  | text _ => true

namespace Record

/-- The number that a field holds. -/
def number? (r : Record Reading) (f : Field) : Option Int :=
  match r.get? f with
  | some (.number n) => some n
  | _ => none

/-- The text that a field holds. -/
def text? (r : Record Reading) (f : Field) : Option String :=
  match r.get? f with
  | some (.text s) => some s
  | _ => none

/-- Every field holds what it is meant to hold, a text or a number. -/
def IsPrepared (r : Record Reading) : Prop :=
  ∀ f v, r.get? f = some v → v.isText = f.isText

theorem get?_eq_number? {r : Record Reading} (h : r.IsPrepared) {f : Field}
    (hf : f.isText = false) : r.get? f = (r.number? f).map .number := by
  have hv := h f
  unfold number?
  cases hg : r.get? f with
  | none => rfl
  | some v =>
    have := hv v hg
    cases v <;> simp_all [Reading.isText]

theorem get?_eq_text? {r : Record Reading} (h : r.IsPrepared) {f : Field} (hf : f.isText = true) :
    r.get? f = (r.text? f).map .text := by
  have hv := h f
  unfold text?
  cases hg : r.get? f with
  | none => rfl
  | some v =>
    have := hv v hg
    cases v <;> simp_all [Reading.isText]

end Record

namespace Calendar

/-- The wanted fields in canonical order; in a calendar with eras the year brings its era along. -/
def fieldsFor (c : Calendar) (wanted : List Field) : List Field :=
  Field.sort (if c.hasEras && Field.year ∈ wanted then wanted ++ [.era, .eraYear] else wanted)

/-- The value of a field of a date. -/
def fieldOf? (c : Calendar) (d : YearMonthDay) : Field → Option Reading
  | .day => some (.number d.day)
  | .era => (c.eraOf d.year).map fun e => .text e.1
  | .eraYear => (c.eraOf d.year).map fun e => .number e.2
  | .month => some (.number d.month)
  | .monthCode => some (.text (c.monthCode d.year d.month).text)
  | .year => some (.number d.year)

/-- The wanted fields of a date, in canonical order. -/
def fieldsOf (c : Calendar) (d : YearMonthDay) (wanted : List Field) : Record Reading :=
  .ofList ((Field.sort wanted).filterMap fun f => (c.fieldOf? d f).map fun v => (f, v))

end Calendar

end Almanac
