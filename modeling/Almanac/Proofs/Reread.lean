import Almanac.Proofs.EntryPaths
import Almanac.Proofs.Replaced

/-!
# Fields that are read once more

What has been read from a mapping is read as it is if it is read again, and so are the fields of a
date. Whether the fields of a month are read once more, after those of a patch or a day have been
laid over them, makes no difference.

* `Field.convert_ofReading`: a value that has been read is read as it is.
* `Record.Readable`: so are all values of a record; `Record.HoldsEntries.readable`,
  `Record.Readable.merge`, `YearMonth.readable_fields`: the records of which this is known.
* `Record.prepare_shown`: a readable record is read as it is.
* `Calendar.monthOfFields_congr`, `Calendar.dateOfFields_congr`: records that hold the same lead to
  the same dates.
* `YearMonth.patchRereading`, `YearMonth.onDayRereading`: a patch and a day of a month, all fields
  read once more.
* `YearMonth.patchEntries_eq_rereading`, `YearMonth.onDayFrom_eq_rereading`: **the second reading
  changes nothing**.
-/

namespace Almanac

/-- **A value that has been read** is read as it is. -/
theorem Field.convert_ofReading {f : Field} {given : Value} {v : Reading}
    (h : f.convert given = .ok v) :
    f.convert (.ofReading v) = .ok v := by
  cases f with
  | day | month =>
    obtain ⟨n, hn, rfl⟩ := map_eq_ok h
    simp only [convert, Value.ofReading, Value.positive_whole (Value.one_le_of_positive hn),
      Except.map]
  | year | eraYear =>
    obtain ⟨n, -, rfl⟩ := map_eq_ok h
    rfl
  | era | monthCode =>
    obtain ⟨s, -, rfl⟩ := map_eq_ok h
    rfl

namespace Record

variable {source : List (String × Value)} {wanted : List Field} {r s base patch : Record Reading}

/-- All values of a record are read as they are. -/
def Readable (r : Record Reading) : Prop :=
  ∀ f v, r.get? f = some v → f.convert (.ofReading v) = .ok v

theorem HoldsEntries.readable (h : r.HoldsEntries source) : r.Readable :=
  fun f v hv => Field.convert_ofReading (h f v hv)

theorem Readable.merge (hbase : base.Readable) (hpatch : patch.Readable) (hasEras : Bool) :
    (Record.merge hasEras base patch).Readable := by
  intro f v hv
  exact (eq_or_of_get?_merge hv).elim (hbase f v) (hpatch f v)

/-- A record as the entries of a mapping. -/
def shown (r : Record Reading) : List (String × Value) :=
  r.entries.map fun e => (e.1.name, .ofReading e.2)

theorem lookup_shown (r : Record Reading) (f : Field) :
    Value.lookup r.shown f.name = ((r.get? f).map Value.ofReading).getD .null := by
  have hname :
      (fun e : Field × Reading => decide (e.1.name = f.name)) = fun e => decide (e.1 = f) := by
    funext e
    exact decide_eq_decide.2 ⟨Field.name_injective, congrArg Field.name⟩
  rw [Value.lookup, shown, List.find?_map, get?, Option.map_map, Option.map_map]
  simp only [Function.comp_def, hname]

/-- A readable record gives, as a mapping, what it holds. -/
theorem Readable.gives (h : r.Readable) : Gives r.shown r.get? where
  absent f hf := by
    rw [lookup_shown, hf]
    rfl
  present f v hv := by
    rw [lookup_shown, hv]
    exact ⟨by cases v <;> rfl, h f v hv⟩

/-- **A readable record is read as it is**, if all its fields are asked for. -/
theorem prepare_shown (h : r.Readable) (hwanted : ∀ f v, r.get? f = some v → f ∈ wanted) :
    ∃ s, prepare r.shown (wanted.map Field.name) [] = .ok s ∧ ∀ f, s.get? f = r.get? f := by
  obtain ⟨s, hs, hget⟩ := h.gives.prepare wanted
  refine ⟨s, hs, fun f => (hget f).trans ?_⟩
  cases hv : r.get? f with
  | none => exact ite_self none
  | some v => exact if_pos (hwanted f v hv)

theorem number?_congr (h : ∀ f, s.get? f = r.get? f) : s.number? = r.number? := by
  funext f
  rw [number?, number?, h]

theorem text?_congr (h : ∀ f, s.get? f = r.get? f) : s.text? = r.text? := by
  funext f
  rw [text?, text?, h]

end Record

namespace Calendar

variable {r s : Record Reading} (h : ∀ f, s.get? f = r.get? f)
include h

theorem resolveYear_congr (c : Calendar) : c.resolveYear s = c.resolveYear r := by
  simp only [resolveYear, yearFromEra, eraMismatch, Record.number?_congr h, Record.text?_congr h]

theorem resolveMonth_congr (c : Calendar) (year : Int) (overflow : Overflow) :
    c.resolveMonth year s overflow = c.resolveMonth year r overflow := by
  simp only [resolveMonth, Record.number?_congr h, Record.text?_congr h]

/-- Records that hold the same lead to the same month. -/
theorem monthOfFields_congr (c : Calendar) (overflow : Overflow) :
    c.monthOfFields s overflow = c.monthOfFields r overflow := by
  simp only [monthOfFields, resolveYear_congr h, resolveMonth_congr h]

/-- Records that hold the same lead to the same date. -/
theorem dateOfFields_congr (c : Calendar) (overflow : Overflow) :
    c.dateOfFields s overflow = c.dateOfFields r overflow := by
  simp only [dateOfFields, resolveYear_congr h, resolveMonth_congr h, Record.number?_congr h]

end Calendar

namespace YearMonth

variable {ym : YearMonth} {p : Record Reading} {entries : List (String × Value)}

/-- The fields of a month are read as they are. -/
theorem readable_fields (ym : YearMonth) (wanted : List Field) : (ym.fields wanted).Readable := by
  intro f v hv
  rw [fields, Calendar.get?_fieldsOf] at hv
  split at hv
  · exact Calendar.convert_ofReading ym.hasDate_reading hv
  · cases hv

/-- The month with the fields that the entries of a mapping have replaced, all fields read once
more. -/
def patchRereading (ym : YearMonth) (entries : List (String × Value)) (overflow : Value) :
    Except Error YearMonth :=
  match temporalKeys.find? fun k => !(Value.lookup entries k).isNull with
  | some key => .error (.patchNamesTemporal key)
  | none => do
    let overflow ← overflow.toOverflow
    let names := (fieldsOfMonth ym.calendar).map Field.name
    let patch ← Record.preparePartial entries names
    let merged ← Record.prepare (ym.patchedWith patch).shown names []
    ofFields ym.calendar merged overflow

/-- The date of the day that a mapping gives, all fields read once more. -/
def onDayRereading (ym : YearMonth) (fields overflow : Value) : Except Error Date :=
  match fields.entries? with
  | some entries => do
    let overflow ← overflow.toOverflow
    let receiver := ym.fields [.monthCode, .year]
    let given ← Record.prepare entries ["day"] ["day"]
    let merged ← Record.prepare (receiver.merge ym.calendar.hasEras given).shown
      ((receiver.fields ++ given.fields).map Field.name) []
    Date.of (← ym.calendar.dateOfFields merged overflow) ym.calendar
  | none => .error (.dayMappingExpected fields.typeName)

/-- The fields of a patched month, read once more. -/
theorem prepare_patchedWith (hread : p.Reads entries (fieldsOfMonth ym.calendar)) :
    ∃ s, Record.prepare (ym.patchedWith p).shown ((fieldsOfMonth ym.calendar).map Field.name) [] =
      .ok s ∧
      ∀ overflow, ofFields ym.calendar s overflow = ym.patch p overflow := by
  have hreadable : (ym.patchedWith p).Readable :=
    (ym.readable_fields _).merge hread.holdsEntries.readable _
  have hwanted : ∀ f v, (ym.patchedWith p).get? f = some v → f ∈ fieldsOfMonth ym.calendar := by
    intro f v hv
    by_contra hf
    -- neither the patch nor the month has a field that is not asked for
    have hpatch : p.get? f = none := hread.absent f fun hmem => absurd hmem hf
    have hbase : (ym.fields [.month, .monthCode, .year]).get? f = none := by
      rw [fields, Calendar.get?_fieldsOf]
      exact if_neg hf
    rw [patchedWith, Record.get?_merge, hpatch, hbase, ite_self] at hv
    cases hv
  obtain ⟨s, hs, hget⟩ := Record.prepare_shown hreadable hwanted
  refine ⟨s, hs, fun overflow => ?_⟩
  rw [ofFields, Calendar.monthOfFields_congr hget]
  rfl

/-- **A patch** is the same if all fields are read once more. -/
theorem patchEntries_eq_rereading (ym : YearMonth) (entries : List (String × Value))
    (overflow : Value) :
    ym.patchEntries entries overflow = ym.patchRereading entries overflow := by
  unfold patchEntries patchRereading
  cases hkeys : temporalKeys.find? fun k => !(Value.lookup entries k).isNull with
  | some key => rfl
  | none =>
    cases overflow.toOverflow with
    | error e => rfl
    | ok overflow =>
      cases hpartial :
        Record.preparePartial entries ((fieldsOfMonth ym.calendar).map Field.name) with
      | error e => simp only [bind, Except.bind, hpartial]
      | ok p =>
        obtain ⟨s, hs, hof⟩ := prepare_patchedWith (Record.reads_preparePartial hpartial)
        simp only [bind, Except.bind, hpartial, hs, hof]

/-- The record of a single day. -/
def dayRecord (day : Int) : Record Reading := .ofList [(.day, .number day)]

theorem one_le_of_dayOf {day : Int} (h : dayOf entries = .ok day) : 1 ≤ day := by
  simp only [dayOf] at h
  split at h
  · cases h
  · exact Value.one_le_of_positive h

/-- A mapping is read for its day. -/
theorem prepare_day (entries : List (String × Value)) :
    Record.prepare entries ["day"] ["day"] = (dayOf entries).map dayRecord := by
  have hname : Field.ofName? "day" = some .day := Field.ofName?_name .day
  simp only [Record.prepare, dayOf, List.foldlM_cons, List.foldlM_nil, Record.readField,
    List.mem_singleton, if_true]
  split
  · rfl
  · simp only [hname, Field.convert, Field.name]
    cases (Value.lookup entries "day").positive "day" <;> rfl

theorem get?_dayRecord (day : Int) (f : Field) :
    (dayRecord day).get? f = if f = .day then some (.number day) else none := by
  cases f <;> rfl

/-- A day and the fields of a month, laid over each other or set. -/
theorem get?_merge_dayRecord (ym : YearMonth) (day : Int) (f : Field) :
    ((ym.fields [.monthCode, .year]).merge ym.calendar.hasEras (dayRecord day)).get? f =
      ((ym.fields [.monthCode, .year]).set .day (.number day)).get? f := by
  -- a day shadows no field but the day
  have hall : ((dayRecord day).fields.all fun g => f ∉ Record.shadowed ym.calendar.hasEras g) =
      decide (f ≠ .day) := by
    rw [show (dayRecord day).fields = [.day] from rfl, List.all_cons, List.all_nil, Bool.and_true]
    simp only [Record.shadowed, List.mem_singleton]
  rw [Record.get?_merge, Record.get?_set, get?_dayRecord, hall]
  by_cases hf : f = .day <;> simp [hf]

/-- The fields of a month with a day, read once more. -/
theorem prepare_dayRecord (ym : YearMonth) {day : Int} (hday : 1 ≤ day) :
    ∃ s,
      Record.prepare
        ((ym.fields [.monthCode, .year]).merge ym.calendar.hasEras (dayRecord day)).shown
        (((ym.fields [.monthCode, .year]).fields ++ (dayRecord day).fields).map Field.name) [] =
          .ok s ∧
      ∀ overflow, ym.calendar.dateOfFields s overflow =
        ym.calendar.dateOfFields
          ((ym.fields [.monthCode, .year]).set .day (.number day)) overflow := by
  have hreadable : (dayRecord day).Readable := by
    intro f v hv
    rw [get?_dayRecord] at hv
    split at hv
    · next hf =>
      obtain rfl := Option.some.inj hv
      rw [hf, Field.convert, Value.ofReading, Value.positive_whole hday]
      rfl
    · cases hv
  have hmerged := (ym.readable_fields [.monthCode, .year]).merge hreadable ym.calendar.hasEras
  have hwanted : ∀ f v,
      ((ym.fields [.monthCode, .year]).merge ym.calendar.hasEras (dayRecord day)).get? f = some v →
        f ∈ (ym.fields [.monthCode, .year]).fields ++ (dayRecord day).fields := by
    intro f v hv
    rw [List.mem_append, Record.mem_fields_iff, Record.mem_fields_iff]
    by_contra hnone
    rw [not_or, not_not, not_not] at hnone
    rw [Record.get?_merge, hnone.1, hnone.2, ite_self] at hv
    cases hv
  obtain ⟨s, hs, hget⟩ := Record.prepare_shown hmerged hwanted
  have hset : ∀ f, s.get? f = ((ym.fields [.monthCode, .year]).set .day (.number day)).get? f :=
    fun f => (hget f).trans (ym.get?_merge_dayRecord day f)
  exact ⟨s, hs, Calendar.dateOfFields_congr hset ym.calendar⟩

/-- **A day of a month** is the same if all fields are read once more. -/
theorem onDayFrom_eq_rereading (ym : YearMonth) (fields overflow : Value) :
    ym.onDayFrom fields overflow = ym.onDayRereading fields overflow := by
  unfold onDayFrom onDayRereading
  cases hentries : fields.entries? with
  | none => rfl
  | some entries =>
    cases overflow.toOverflow with
    | error e => rfl
    | ok overflow =>
      simp only [prepare_day]
      cases hd : dayOf entries with
      | error e => rfl
      | ok day =>
        obtain ⟨s, hs, hdate⟩ := ym.prepare_dayRecord (one_le_of_dayOf hd)
        simp only [bind, Except.bind, Except.map, hs, hdate, onDay]

end YearMonth

end Almanac
