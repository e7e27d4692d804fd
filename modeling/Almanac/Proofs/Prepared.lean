import Almanac.Field.Prepare
import Almanac.Proofs.FieldRecord
import Almanac.Proofs.Reading

/-!
# Records that are read from mappings

A mapping is read field by field, each wanted field once. Where all entries can be converted a
record is read; and from a record that has been read it is known what the entries are.

* `Record.HoldsEntries`: each field holds what an entry of a mapping is converted to.
* `Record.Reads`: a record has been read from a mapping; `Record.reads_prepare`,
  `Record.reads_preparePartial`: so it is by preparing, and `Record.Reads.holdsEntries`: it holds
  the entries.
* `Record.Gives`: what the entries of a mapping are converted to; `Record.Gives.prepare`: the record
  that is read from them.
-/

namespace Almanac

theorem Value.one_le_of_positive {v : Value} {name : String} {n : Int}
    (h : v.positive name = .ok n) :
    1 ≤ n := by
  obtain ⟨m, -, h⟩ := bind_eq_ok h
  split at h
  · cases h
  · next hm =>
    obtain rfl := Except.ok.inj h
    omega

/-- A text that is converted. -/
theorem Value.eq_text_of_string {v : Value} {name s : String} (h : v.string name = .ok s) :
    v = .text s := by
  unfold Value.string at h
  split at h
  · obtain rfl := Except.ok.inj h
    rfl
  · cases h

theorem Field.name_injective {f g : Field} (h : f.name = g.name) : f = g := by
  have hof := congrArg ofName? h
  rwa [ofName?_name, ofName?_name, Option.some.injEq] at hof

namespace Record

variable {source : List (String × Value)} {wanted : List Field} {r r₀ : Record Reading}

theorem number?_eq_some_iff {f : Field} {n : Int} :
    r.number? f = some n ↔ r.get? f = some (.number n) := by
  unfold number?
  split
  · next m hm => simp [hm]
  · next hm =>
    constructor
    · intro h
      cases h
    · intro h
      exact absurd h (hm n)

theorem text?_eq_some_iff {f : Field} {s : String} :
    r.text? f = some s ↔ r.get? f = some (.text s) := by
  unfold text?
  split
  · next t ht => simp [ht]
  · next ht =>
    constructor
    · intro h
      cases h
    · intro h
      exact absurd h (ht s)

/-- A value of two records that are merged is that of one of them. -/
theorem eq_or_of_get?_merge {hasEras : Bool} {base patch : Record Reading} {f : Field} {v : Reading}
    (h : (merge hasEras base patch).get? f = some v) : base.get? f = some v ∨
    patch.get? f = some v := by
  rw [get?_merge, Option.or_eq_some_iff] at h
  rcases h with h | ⟨-, h⟩
  · split at h
    · exact .inl h
    · cases h
  · exact .inr h

/-- Each field of a record holds what its entry in a mapping is converted to. -/
def HoldsEntries (source : List (String × Value)) (r : Record Reading) : Prop :=
  ∀ f v, r.get? f = some v → f.convert (Value.lookup source f.name) = .ok v

/-- The wanted fields of a record have been read from a mapping: each that the mapping has is
converted, and there are no others. -/
structure Reads (source : List (String × Value)) (wanted : List Field) (r : Record Reading) :
    Prop where
  present : ∀ f ∈ wanted, (Value.lookup source f.name).isNull = false →
    ∃ v, f.convert (Value.lookup source f.name) = .ok v ∧ r.get? f = some v
  absent : ∀ f, (f ∈ wanted → (Value.lookup source f.name).isNull = true) → r.get? f = none

/-- **One field** that has been read. -/
theorem eq_of_readField {f : Field} (h : readField source [] r₀ f.name = .ok r) :
    (Value.lookup source f.name).isNull = true ∧ r = r₀ ∨
      (Value.lookup source f.name).isNull = false ∧
        ∃ v, f.convert (Value.lookup source f.name) = .ok v ∧ r = r₀.set f v := by
  unfold readField at h
  dsimp only at h
  split at h
  · next hnull =>
    rw [if_neg List.not_mem_nil] at h
    exact .inl ⟨hnull, (Except.ok.inj h).symm⟩
  · next hpresent =>
    rw [Field.ofName?_name] at h
    obtain ⟨v, hv, h⟩ := bind_eq_ok h
    exact .inr ⟨Bool.eq_false_iff.2 hpresent, v, hv, (Except.ok.inj h).symm⟩

/-- The fields that have been read one after the other: those that the mapping has are converted,
and the others are as they were. -/
theorem get?_of_foldlM_readField
    (h : (wanted.map Field.name).foldlM (readField source []) r₀ = .ok r) (f : Field) :
    (f ∈ wanted → (Value.lookup source f.name).isNull = false →
      ∃ v, f.convert (Value.lookup source f.name) = .ok v ∧ r.get? f = some v) ∧
    ((f ∈ wanted → (Value.lookup source f.name).isNull = true) → r.get? f = r₀.get? f) := by
  induction wanted generalizing r₀ with
  | nil =>
    obtain rfl := Except.ok.inj h
    exact ⟨fun hf => absurd hf List.not_mem_nil, fun _ => rfl⟩
  | cons g rest ih =>
    obtain ⟨r₁, hr₁, h⟩ := bind_eq_ok h
    obtain ⟨hpresent, habsent⟩ := ih h
    have hstep := eq_of_readField hr₁
    constructor
    · intro hf hgiven
      by_cases hrest : f ∈ rest
      · exact hpresent hrest hgiven
      · -- the field is read first, and not again
        obtain rfl := (List.mem_cons.1 hf).resolve_right hrest
        rcases hstep with ⟨hnull, -⟩ | ⟨-, v, hv, rfl⟩
        · rw [hgiven] at hnull
          cases hnull
        · refine ⟨v, hv, ?_⟩
          rw [habsent fun hf => absurd hf hrest, get?_set, if_pos rfl]
    · intro hnull
      rw [habsent fun hf => hnull (List.mem_cons_of_mem g hf)]
      rcases hstep with ⟨-, rfl⟩ | ⟨hgiven, v, -, rfl⟩
      · rfl
      · rw [get?_set, if_neg]
        rintro rfl
        rw [hnull List.mem_cons_self] at hgiven
        cases hgiven

/-- **A record that has been read from a mapping.** -/
theorem reads_prepare (h : prepare source (wanted.map Field.name) [] = .ok r) :
    r.Reads source wanted where
  present f hf hgiven := (get?_of_foldlM_readField h f).1 hf hgiven
  absent f hnull := (get?_of_foldlM_readField h f).2 hnull

theorem reads_preparePartial (h : preparePartial source (wanted.map Field.name) = .ok r) :
    r.Reads source wanted := by
  obtain ⟨read, hread, h⟩ := bind_eq_ok h
  split at h
  · cases h
  · obtain rfl := Except.ok.inj h
    exact reads_prepare hread

/-- What such a record has is what the entries of the mapping are converted to. -/
theorem Reads.holdsEntries (h : r.Reads source wanted) : r.HoldsEntries source := by
  intro f v hv
  by_cases hgiven : f ∈ wanted ∧ (Value.lookup source f.name).isNull = false
  · obtain ⟨w, hw, hget⟩ := h.present f hgiven.1 hgiven.2
    rw [hw, ← Option.some.inj (hget.symm.trans hv)]
  · have hnone := h.absent f fun hf => by simpa [hf] using hgiven
    rw [hnone] at hv
    cases hv

/-- The entries of a mapping give values for fields: an entry is absent, or is converted to the
value. -/
structure Gives (source : List (String × Value)) (value : Field → Option Reading) : Prop where
  absent : ∀ f, value f = none → (Value.lookup source f.name).isNull = true
  present : ∀ f v, value f = some v →
    (Value.lookup source f.name).isNull = false ∧ f.convert (Value.lookup source f.name) = .ok v

namespace Gives

variable {value : Field → Option Reading}

/-- **One field that is read** holds its value, and no other field changes. -/
theorem readField (h : Gives source value) (r : Record Reading) (f : Field) :
    ∃ r', Record.readField source [] r f.name = .ok r' ∧
      ∀ g, r'.get? g = if g = f then (value f).or (r.get? f) else r.get? g := by
  cases hf : value f with
  | none =>
    refine ⟨r, ?_, fun g => ?_⟩
    · simp only [Record.readField, h.absent f hf, if_true, List.not_mem_nil, if_false]
    · split
      · next hg => rw [hg, Option.none_or]
      · rfl
  | some v =>
    obtain ⟨hnull, hv⟩ := h.present f v hf
    refine ⟨r.set f v, ?_, fun g => ?_⟩
    · simp only [Record.readField, hnull, Bool.false_eq_true, if_false, Field.ofName?_name, hv]
      rfl
    · rw [get?_set, Option.some_or]

/-- The fields that are read one after the other. -/
theorem foldlM_readField (h : Gives source value) (wanted : List Field) (r₀ : Record Reading) :
    ∃ r, (wanted.map Field.name).foldlM (Record.readField source []) r₀ = .ok r ∧
      ∀ f, r.get? f = if f ∈ wanted then (value f).or (r₀.get? f) else r₀.get? f := by
  induction wanted generalizing r₀ with
  | nil => exact ⟨r₀, rfl, fun f => rfl⟩
  | cons g rest ih =>
    obtain ⟨r₁, hr₁, hget₁⟩ := h.readField r₀ g
    obtain ⟨r, hr, hget⟩ := ih r₁
    refine ⟨r, ?_, fun f => ?_⟩
    · rw [List.map_cons, List.foldlM_cons, hr₁]
      exact hr
    -- a field that is wanted twice has its value from the first time
    · rw [hget, hget₁]
      by_cases hfg : f = g
      · subst hfg
        cases value f <;> simp
      · simp [hfg]

/-- **The record that is read from a mapping** holds the values of the wanted fields. -/
theorem prepare (h : Gives source value) (wanted : List Field) :
    ∃ r, Record.prepare source (wanted.map Field.name) [] = .ok r ∧
      ∀ f, r.get? f = if f ∈ wanted then value f else none := by
  obtain ⟨r, hr, hget⟩ := h.foldlM_readField wanted {}
  refine ⟨r, hr, fun f => ?_⟩
  rw [hget]
  cases value f <;> rfl

end Gives

end Record

end Almanac
