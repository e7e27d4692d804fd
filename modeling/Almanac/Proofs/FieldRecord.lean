import Almanac.Calendar.Resolve
import Almanac.Proofs.MonthCode

/-!
# What the fields of a record say

A record describes a month when its year, its era, its month and its month code, as far as it has
them, are those of the month, and it has enough of them. Such a record is resolved to that month,
whatever becomes of an overflow.

* `Record.get?_ofList`, `Calendar.get?_fieldsOf`: what a read finds in the fields of a date.
* `Record.get?_merge_of_kept`, `Record.get?_merge_of_shadowed`: and in two records that are merged.
* `Calendar.yearOfEra_eraOf`: the era of a year leads back to the year.
* `Calendar.NamesYear`, `Calendar.Describes`: a record names a year, or describes a month;
  `Calendar.NamesYear.resolveYear` and `Calendar.Describes.resolveMonth` find them.
* `Calendar.describes_fieldsOf`: the fields of a date describe its month.
-/

namespace Almanac

namespace Record

variable {α : Type}

/-- A value set while a list is gone through, or the value that was there before. -/
theorem get?_foldl_set {entries : List (Field × α)} (h : (entries.map Prod.fst).Nodup)
    (r : Record α) (f : Field) :
    (entries.foldl (fun r e => r.set e.1 e.2) r).get? f =
      ((entries.find? fun e => e.1 = f).map Prod.snd).or (r.get? f) := by
  induction entries generalizing r with
  | nil => rfl
  | cons e rest ih =>
    rw [List.map_cons, List.nodup_cons] at h
    rw [List.foldl_cons, ih h.2, get?_set, List.find?_cons]
    by_cases hf : e.1 = f
    · have hnone : (rest.find? fun e => e.1 = f) = none := by
        rw [List.find?_eq_none]
        intro e' he' hf'
        exact h.1 (List.mem_map.2 ⟨e', he', (of_decide_eq_true hf').trans hf.symm⟩)
      simp [hf, hnone]
    · simp [hf, Ne.symm hf]

/-- **What is listed once** is read back. -/
theorem get?_ofList {entries : List (Field × α)} (h : (entries.map Prod.fst).Nodup) (f : Field) :
    (ofList entries).get? f = (entries.find? fun e => e.1 = f).map Prod.snd := by
  rw [ofList, get?_foldl_set h]
  exact Option.or_none

theorem number?_set_self (r : Record Reading) (f : Field) (n : Int) :
    (r.set f (.number n)).number? f = some n := by
  rw [number?, get?_set, if_pos rfl]

theorem number?_set_of_ne (r : Record Reading) {f g : Field} (h : g ≠ f) (v : Reading) :
    (r.set f v).number? g = r.number? g := by
  rw [number?, get?_set, if_neg h, number?]

theorem text?_set_of_ne (r : Record Reading) {f g : Field} (h : g ≠ f) (v : Reading) :
    (r.set f v).text? g = r.text? g := by
  rw [text?, get?_set, if_neg h, text?]

/-- **What a read finds in two records that are merged**: a value of the first that is not shadowed,
or a value of the second. -/
theorem get?_merge (hasEras : Bool) (base patch : Record α) (f : Field) :
    (merge hasEras base patch).get? f =
      (if patch.fields.all fun g => f ∉ shadowed hasEras g then base.get? f else none).or
        (patch.get? f) := by
  have hbase := get?_filter base (fun f => patch.fields.all fun g => f ∉ shadowed hasEras g) f
  rw [get?, merge, List.find?_append, Option.map_or]
  exact congrArg (fun v => v.or (patch.get? f)) hbase

theorem mem_shadowed_self (hasEras : Bool) (f : Field) : f ∈ shadowed hasEras f := by
  cases f <;> cases hasEras <;> decide

theorem mem_fields_iff {r : Record α} {f : Field} : f ∈ r.fields ↔ r.get? f ≠ none := by
  rw [← Option.isSome_iff_ne_none, ← contains_eq_isSome, contains, decide_eq_true_iff]

/-- A value of the first record stays if nothing in the second shadows it. -/
theorem get?_merge_of_kept {hasEras : Bool} {base patch : Record α} {f : Field}
    (h : ∀ g, f ∈ shadowed hasEras g → patch.get? g = none) :
    (merge hasEras base patch).get? f = base.get? f := by
  have hall : (patch.fields.all fun g => f ∉ shadowed hasEras g) = true := by
    rw [List.all_eq_true]
    intro g hg
    exact decide_eq_true fun hf => mem_fields_iff.1 hg (h g hf)
  rw [get?_merge, if_pos hall, h f (mem_shadowed_self hasEras f), Option.or_none]

/-- A value of the first record goes if anything in the second shadows it. -/
theorem get?_merge_of_shadowed {hasEras : Bool} {base patch : Record α} {f g : Field}
    (hf : f ∈ shadowed hasEras g) (hg : patch.get? g ≠ none) :
    (merge hasEras base patch).get? f = patch.get? f := by
  have hall : ¬ (patch.fields.all fun g => f ∉ shadowed hasEras g) = true := by
    rw [List.all_eq_true]
    intro hall
    exact of_decide_eq_true (hall g (mem_fields_iff.2 hg)) hf
  rw [get?_merge, if_neg hall, Option.none_or]

end Record

/-- The fields of a list that have a value, with it. -/
theorem Field.map_fst_filterMap {α : Type} (v : Field → Option α) (fs : List Field) :
    (fs.filterMap fun g => (v g).map fun x => (g, x)).map Prod.fst = fs.filter fun g =>
      (v g).isSome := by
  induction fs with
  | nil => rfl
  | cons g rest ih =>
    cases hg : v g with
    | none => simpa [hg] using ih
    | some x => simpa [hg] using ih

theorem Field.find?_filterMap {α : Type} (v : Field → Option α) (fs : List Field) (f : Field) :
    ((fs.filterMap fun g => (v g).map fun x => (g, x)).find? fun e => e.1 = f).map Prod.snd =
      if f ∈ fs then v f else none := by
  induction fs with
  | nil => rfl
  | cons g rest ih =>
    by_cases hgf : g = f
    · subst hgf
      cases hg : v g with
      | none =>
        rw [hg] at ih
        simpa [hg] using ih
      | some x => simp [hg]
    · cases hg : v g with
      | none => simpa [hg, Ne.symm hgf] using ih
      | some x => simpa [hg, hgf, Ne.symm hgf] using ih

theorem Field.nodup_sort (wanted : List Field) : (Field.sort wanted).Nodup :=
  List.Nodup.sublist List.filter_sublist (by decide)

theorem Field.mem_sort {wanted : List Field} {f : Field} : f ∈ Field.sort wanted ↔ f ∈ wanted := by
  have hall : f ∈ Field.all := by cases f <;> decide
  simp [Field.sort, hall]

namespace Calendar

variable {c : Calendar}

/-- **What a read finds in the fields of a date.** -/
theorem get?_fieldsOf (c : Calendar) (d : YearMonthDay) (wanted : List Field) (f : Field) :
    (c.fieldsOf d wanted).get? f = if f ∈ wanted then c.fieldOf? d f else none := by
  have hnodup : (((Field.sort wanted).filterMap fun f =>
      (c.fieldOf? d f).map fun v => (f, v)).map Prod.fst).Nodup := by
    rw [Field.map_fst_filterMap]
    exact (Field.nodup_sort wanted).sublist List.filter_sublist
  rw [fieldsOf, Record.get?_ofList hnodup, Field.find?_filterMap]
  simp only [Field.mem_sort]

/-- In a calendar with eras the year brings its era along. -/
theorem mem_fieldsFor {wanted : List Field} {f : Field} :
    f ∈ c.fieldsFor wanted ↔
      f ∈ wanted ∨ (c.hasEras = true ∧ Field.year ∈ wanted) ∧ (f = .era ∨ f = .eraYear) := by
  rw [fieldsFor, Field.mem_sort]
  by_cases h : c.hasEras = true ∧ Field.year ∈ wanted
  · rw [if_pos (by simpa using h), List.mem_append, List.mem_cons, List.mem_singleton]
    simp only [h, and_self, true_and]
  · rw [if_neg (by simpa using h)]
    simp only [h, false_and, or_false]

/-- **The era of a year** and the year in it lead back to the year. -/
theorem yearOfEra_eraOf {year : Int} {e : String × Int} (h : c.eraOf year = some e) :
    c.yearOfEra e.1 e.2 = .ok year := by
  cases c <;> simp only [eraOf, reduceCtorEq, Option.some.injEq] at h
  case buddhist | coptic | hebrew => subst h; rfl
  case ethiopic =>
    subst h
    split
    · rfl
    · simp only [yearOfEra, eraCount?, EraCount.year, Int.add_sub_cancel]
  all_goals
    subst h
    split
    · rfl
    · simp only [yearOfEra, eraCount?, EraCount.year, Int.sub_sub_self]

theorem eraOf_isSome_iff (c : Calendar) (year : Int) : (c.eraOf year).isSome = c.hasEras := by
  cases c <;> rfl

/-- A record names a year: the year itself and, in both its fields or in none, its era. -/
structure NamesYear (c : Calendar) (fields : Record Reading) (year : Int) : Prop where
  year_eq : fields.number? .year = some year
  era_eq : fields.text? .era = none ∧ fields.number? .eraYear = none ∨
    ∃ e, c.eraOf year = some e ∧ fields.text? .era = some e.1 ∧ fields.number? .eraYear = some e.2

/-- A record describes a month: it names the year and has the code of the month, and the place of
the month if it has one. -/
structure Describes (c : Calendar) (fields : Record Reading) (year month : Int) : Prop
    extends c.NamesYear fields year where
  hasMonth : c.HasMonth year month
  code_eq : fields.text? .monthCode = some (c.monthCode year month).text
  month_eq : fields.number? .month = none ∨ fields.number? .month = some month

/-- **The year that a record names** is the one that is found in it. -/
theorem NamesYear.resolveYear {fields : Record Reading} {year : Int} (h : c.NamesYear fields year) :
    c.resolveYear fields = .ok year := by
  have hera : c.yearFromEra fields = .ok none ∨ c.yearFromEra fields = .ok (some year) := by
    unfold yearFromEra
    split
    · exact .inl rfl
    · rcases h.era_eq with ⟨he, hy⟩ | ⟨e, heq, he, hy⟩
      · rw [he, hy]
        exact .inl rfl
      · rw [he, hy]
        simp only [yearOfEra_eraOf heq, Except.map]
        exact .inr trivial
  unfold Calendar.resolveYear
  rw [h.year_eq]
  rcases hera with he | he
  · rw [he]
    rfl
  · rw [he]
    simp only [bind, Except.bind, if_true, pure, Except.pure]

namespace Describes

variable {fields : Record Reading} {year month : Int}

/-- **The month of a record** that describes a month. -/
theorem resolveMonth (h : c.Describes fields year month) (overflow : Overflow) :
    c.resolveMonth year fields overflow = .ok month := by
  unfold Calendar.resolveMonth
  rw [h.code_eq]
  rcases h.month_eq with hm | hm
  · rw [hm]
    exact monthOfText_monthCode h.hasMonth overflow
  · rw [hm]
    simp only [bind, Except.bind, pure, Except.pure]
    rw [monthOfText_monthCode h.hasMonth overflow]
    simp only [if_true]

theorem set_day (h : c.Describes fields year month) (v : Reading) :
    c.Describes (fields.set .day v) year month where
  hasMonth := h.hasMonth
  year_eq := by rw [Record.number?_set_of_ne _ (by decide), h.year_eq]
  era_eq := by
    rw [Record.text?_set_of_ne _ (by decide), Record.number?_set_of_ne _ (by decide)]
    exact h.era_eq
  code_eq := by rw [Record.text?_set_of_ne _ (by decide), h.code_eq]
  month_eq := by
    rw [Record.number?_set_of_ne _ (by decide)]
    exact h.month_eq

end Describes

/-- **The fields of a date describe its month**, with its place or without. -/
theorem describes_fieldsOf {d : YearMonthDay} (h : c.HasMonth d.year d.month) {wanted : List Field}
    (hy : .year ∈ wanted) (hc : .monthCode ∈ wanted) :
    c.Describes (c.fieldsOf d (c.fieldsFor wanted)) d.year d.month where
  hasMonth := h
  year_eq := by
    rw [Record.number?, get?_fieldsOf, if_pos (mem_fieldsFor.2 (.inl hy))]
    rfl
  era_eq := by
    rw [Record.text?, Record.number?, get?_fieldsOf, get?_fieldsOf]
    by_cases he : c.hasEras
    · obtain ⟨e, heq⟩ := Option.isSome_iff_exists.1 ((c.eraOf_isSome_iff d.year).trans he)
      rw [if_pos (mem_fieldsFor.2 (.inr ⟨⟨he, hy⟩, .inl rfl⟩)),
        if_pos (mem_fieldsFor.2 (.inr ⟨⟨he, hy⟩, .inr rfl⟩))]
      refine .inr ⟨e, heq, ?_⟩
      simp only [fieldOf?, heq, Option.map_some, and_self]
    · have hnone : c.eraOf d.year = none := by
        rw [← Option.not_isSome_iff_eq_none, eraOf_isSome_iff]
        exact he
      simp only [fieldOf?, hnone, Option.map_none, ite_self]
      exact .inl ⟨trivial, trivial⟩
  code_eq := by
    rw [Record.text?, get?_fieldsOf, if_pos (mem_fieldsFor.2 (.inl hc))]
    rfl
  month_eq := by
    rw [Record.number?, get?_fieldsOf]
    by_cases hm : .month ∈ c.fieldsFor wanted
    · rw [if_pos hm]
      exact .inr rfl
    · rw [if_neg hm]
      exact .inl rfl

end Calendar

end Almanac
