import Almanac.Proofs.FieldRecord

/-!
# Merged records

The fields fall into groups that say one thing in several ways: the month and its code, and in a
calendar with eras the year, its era and the year of the era. A record that is merged into another
one takes the place of all fields of the groups that it touches. The fields of a group need not all
survive a merge, but the group is touched by the result if it is touched by one of the two records.
So of three records it makes no difference which two are merged first.

* `Field.SharesGroup`: the groups, which are those of `Record.shadowed`.
* `Record.Touches`: a record has a field of the group; `Record.touches_merge`: **a merged record
  touches what the two records touch**.
* `Record.entries_merge`: the fields of a merged record and their order.
* `Record.merge_assoc`, `Record.merge_empty`, `Record.empty_merge`, `Record.merge_self`: the laws of
  a monoid.
* `Record.merge_right_biased`: **merging is a monoid in which the second record wins**.
-/

namespace Almanac

/-- Two fields are the same or of one group: the month and its code, and in a calendar with eras the
year, its era and the year of the era. -/
def Field.SharesGroup (hasEras : Bool) (f g : Field) : Prop :=
  f = g ∨ f ∈ [month, monthCode] ∧ g ∈ [month, monthCode] ∨
    hasEras = true ∧ f ∈ [year, era, eraYear] ∧ g ∈ [year, era, eraYear]

instance (hasEras : Bool) (f g : Field) : Decidable (Field.SharesGroup hasEras f g) := by
  unfold Field.SharesGroup; infer_instance

namespace Record

variable {α : Type} {hasEras : Bool} {a b d : Record α} {f g h : Field}

/-- What a field shadows is its group. -/
theorem mem_shadowed_iff : f ∈ shadowed hasEras g ↔ f.SharesGroup hasEras g := by
  cases f <;> cases g <;> cases hasEras <;> decide

/-- Fields of one group shadow the same fields. -/
theorem sharesGroup_iff : f.SharesGroup hasEras g ↔ shadowed hasEras f = shadowed hasEras g := by
  cases f <;> cases g <;> cases hasEras <;> decide

theorem sharesGroup_trans (h₁ : f.SharesGroup hasEras g) (h₂ : g.SharesGroup hasEras h) :
    f.SharesGroup hasEras h := by
  rw [sharesGroup_iff] at h₁ h₂ ⊢
  exact h₁.trans h₂

/-- A record has a field of the group of a field. -/
def Touches (hasEras : Bool) (r : Record α) (f : Field) : Prop :=
  ∃ g ∈ r.fields, f.SharesGroup hasEras g

instance (hasEras : Bool) (r : Record α) (f : Field) : Decidable (r.Touches hasEras f) := by
  unfold Touches; infer_instance

theorem touches_of_mem (hf : f ∈ b.fields) : b.Touches hasEras f := ⟨f, hf, .inl rfl⟩

/-- **The fields of a merged record**: those of the first whose groups the second does not touch,
then the second. -/
theorem entries_merge (hasEras : Bool) (a b : Record α) :
    (a.merge hasEras b).entries = a.entries.filter (fun e => ¬ b.Touches hasEras e.1) ++
      b.entries := by
  refine congrArg (· ++ b.entries) (List.filter_congr fun e _ => ?_)
  rw [Bool.eq_iff_iff, List.all_eq_true, decide_eq_true_iff]
  simp only [decide_eq_true_eq, mem_shadowed_iff, Touches, not_exists, not_and]

theorem mem_fields_merge :
    f ∈ (a.merge hasEras b).fields ↔ f ∈ a.fields ∧ ¬ b.Touches hasEras f ∨ f ∈ b.fields := by
  simp only [fields, entries_merge, List.map_append, List.mem_append, List.mem_map, List.mem_filter,
    decide_eq_true_eq]
  refine or_congr_left ⟨?_, ?_⟩
  · rintro ⟨e, ⟨he, hkept⟩, rfl⟩
    exact ⟨⟨e, he, rfl⟩, hkept⟩
  · rintro ⟨⟨e, he, rfl⟩, hkept⟩
    exact ⟨e, ⟨he, hkept⟩, rfl⟩

/-- **A merged record touches what the two records touch**: a field that gives way does so to one of
its group. -/
theorem touches_merge :
    (a.merge hasEras b).Touches hasEras f ↔ a.Touches hasEras f ∨ b.Touches hasEras f := by
  constructor
  · rintro ⟨g, hg, hfg⟩
    rcases mem_fields_merge.1 hg with ⟨hga, -⟩ | hgb
    · exact .inl ⟨g, hga, hfg⟩
    · exact .inr ⟨g, hgb, hfg⟩
  · rintro (⟨g, hg, hfg⟩ | ⟨g, hg, hfg⟩)
    · by_cases hgone : b.Touches hasEras g
      · obtain ⟨h, hh, hgh⟩ := hgone
        exact ⟨h, mem_fields_merge.2 (.inr hh), sharesGroup_trans hfg hgh⟩
      · exact ⟨g, mem_fields_merge.2 (.inl ⟨hg, hgone⟩), hfg⟩
    · exact ⟨g, mem_fields_merge.2 (.inr hg), hfg⟩

/-- **Three records are merged in one way.** A field of the first is kept if neither of the others
touches its group, whichever two are merged first. -/
theorem merge_assoc (hasEras : Bool) (a b d : Record α) :
    (a.merge hasEras b).merge hasEras d = a.merge hasEras (b.merge hasEras d) := by
  apply ext
  simp only [entries_merge, List.filter_append, List.filter_filter, List.append_assoc]
  congr 1
  apply List.filter_congr
  intro e _
  simp only [touches_merge, not_or, Bool.decide_and, Bool.and_comm]

theorem merge_empty (hasEras : Bool) (a : Record α) : a.merge hasEras {} = a := by
  apply ext
  rw [entries_merge, List.append_nil, List.filter_eq_self]
  rintro e -
  simp only [decide_eq_true_eq]
  rintro ⟨g, hg, -⟩
  cases hg

theorem empty_merge (hasEras : Bool) (a : Record α) : merge hasEras {} a = a :=
  ext (entries_merge hasEras {} a)

theorem merge_self (hasEras : Bool) (a : Record α) : a.merge hasEras a = a := by
  apply ext
  rw [entries_merge, List.append_left_eq_self, List.filter_eq_nil_iff]
  intro e he
  simp only [decide_eq_true_eq, not_not]
  exact touches_of_mem (List.mem_map_of_mem he)

/-- **Merging is a monoid in which the second record wins**, for every calendar and whatever the
values. Three records are merged in one way, with their order; the empty record changes nothing on
either side, nor does a record that is merged into itself. A merged record ends with the fields of
the second, as they are, and begins with those fields of the first, in their order, whose group the
second has no field of. -/
theorem merge_right_biased (c : Calendar) (a b d : Record α) :
    (a.merge c.hasEras b).merge c.hasEras d = a.merge c.hasEras (b.merge c.hasEras d) ∧
    merge c.hasEras {} a = a ∧ a.merge c.hasEras {} = a ∧ a.merge c.hasEras a = a ∧
    ∃ kept, (a.merge c.hasEras b).entries = kept ++ b.entries ∧ kept.Sublist a.entries ∧
      ∀ e, e ∈ kept ↔ e ∈ a.entries ∧ ∀ g ∈ b.fields, ¬ e.1.SharesGroup c.hasEras g := by
  refine ⟨merge_assoc _ a b d, empty_merge _ a, merge_empty _ a, merge_self _ a, _,
    entries_merge _ a b, List.filter_sublist, ?_⟩
  intro e
  simp only [List.mem_filter, decide_eq_true_eq, Touches, not_exists, not_and]

/-- An era that has given way to a year does not come back when the year gives way to the year of an
era. -/
example :
    let era : Record Int := .ofList [(.era, 1)]
    let year : Record Int := .ofList [(.month, 2), (.year, 3)]
    let eraYear : Record Int := .ofList [(.eraYear, 4)]
    (era.merge true (year.merge true eraYear)).entries = [(.month, 2), (.eraYear, 4)] := by decide

end Record

end Almanac
