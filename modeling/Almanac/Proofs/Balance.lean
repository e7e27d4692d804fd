import Almanac.Duration.Balance
import Mathlib.Algebra.Order.BigOperators.Group.List
import Mathlib.Algebra.Order.Ring.Int
import Mathlib.Data.List.Chain
import Mathlib.Tactic.Ring

/-!
# Balanced time

Nanoseconds are counted in units from the largest down, each unit taking what it can of what the
units before it have left. The counts have one sign, none of them fills one of the next larger unit,
and where single nanoseconds are counted at the end nothing is left over. No other counts do all of
this, so balanced time is found from its length alone.

* `DurationParts.spread_nonneg`, `DurationParts.spread_nonpos`, `DurationParts.sign_spread`: the
  sign of the counts.
* `DurationParts.lengthIn`: what counts come to in some units; `DurationParts.lengthIn_spread`:
  **the counts come to the nanoseconds** that were counted.
* `DurationParts.natAbs_spread_mul_lt`: what is counted in a unit does not fill one of the units
  before it.
* `DurationParts.Fits`, `DurationParts.eq_spread`: **no other counts** come to the nanoseconds and
  fill nothing.
* `DurationParts.Balances`: balanced counts, said apart from the counting;
  `DurationParts.balances_iff`: the counts of the nanoseconds are balanced and the only ones that
  are.
* `Duration.exists_balance`: the time of a duration balanced to days is a duration.
* `Duration.balance_exact`: **what is balanced, and what is refused**.
-/

namespace Almanac

namespace DurationParts

variable {units : List TimeUnit} {ns : Int}

theorem spread_self (u : TimeUnit) (rest : List TimeUnit) (ns : Int) :
    spread (u :: rest) ns u = ns.tdiv u.nanoseconds := if_pos rfl

/-- A unit counts what the units before it have left. -/
theorem spread_of_ne {u v : TimeUnit} (h : u ≠ v) (rest : List TimeUnit) (ns : Int) :
    spread (v :: rest) ns u = spread rest (ns.tmod v.nanoseconds) u := if_neg h

theorem spread_of_notMem {u : TimeUnit} (h : u ∉ units) (ns : Int) : spread units ns u = 0 := by
  induction units generalizing ns with
  | nil => rfl
  | cons v rest ih =>
    rw [List.mem_cons, not_or] at h
    rw [spread_of_ne h.1, ih h.2]

theorem spread_nonneg (h : 0 ≤ ns) (u : TimeUnit) : 0 ≤ spread units ns u := by
  induction units generalizing ns with
  | nil => exact le_rfl
  | cons v rest ih =>
    unfold spread
    split
    · exact Int.tdiv_nonneg h (by cases v <;> decide)
    · exact ih (Int.tmod_nonneg _ h)

theorem spread_neg (units : List TimeUnit) (ns : Int) (u : TimeUnit) :
    spread units (-ns) u = -spread units ns u := by
  induction units generalizing ns with
  | nil => rfl
  | cons v rest ih =>
    unfold spread
    split
    · exact Int.neg_tdiv _ _
    · rw [Int.neg_tmod, ih]

theorem spread_nonpos (h : ns ≤ 0) (u : TimeUnit) : spread units ns u ≤ 0 := by
  have hneg : 0 ≤ spread units (-ns) u := spread_nonneg (Int.neg_nonneg_of_nonpos h) u
  rw [spread_neg] at hneg
  omega

/-- The counts have the sign of what is counted, unless they are zero. -/
theorem sign_spread {u : TimeUnit} (h : spread units ns u ≠ 0) :
    (spread units ns u).sign = ns.sign := by
  rcases lt_trichotomy ns 0 with hns | rfl | hns
  · have hle : spread units ns u ≤ 0 := spread_nonpos hns.le u
    rw [Int.sign_eq_neg_one_of_neg hns, Int.sign_eq_neg_one_of_neg (by omega)]
  · have hle : spread units 0 u ≤ 0 := spread_nonpos le_rfl u
    have hge : 0 ≤ spread units 0 u := spread_nonneg le_rfl u
    exact absurd (le_antisymm hle hge) h
  · have hge : 0 ≤ spread units ns u := spread_nonneg hns.le u
    rw [Int.sign_eq_one_of_pos hns, Int.sign_eq_one_of_pos (by omega)]

/-- The nanoseconds that counts come to in some units. -/
def lengthIn (units : List TimeUnit) (count : TimeUnit → Int) : Int :=
  (units.map fun u => count u * u.nanoseconds).sum

theorem lengthIn_cons (u : TimeUnit) (rest : List TimeUnit) (count : TimeUnit → Int) :
    lengthIn (u :: rest) count = count u * u.nanoseconds + lengthIn rest count := List.sum_cons

theorem lengthIn_congr {count count' : TimeUnit → Int} (h : ∀ u ∈ units, count u = count' u) :
    lengthIn units count = lengthIn units count' :=
  congrArg List.sum (List.map_congr_left fun u hu => by rw [h u hu])

/-- **Nothing is left over** where single nanoseconds are counted at the end. -/
theorem lengthIn_spread (units : List TimeUnit) (ns : Int)
    (hn : (units ++ [TimeUnit.nanosecond]).Nodup) :
    lengthIn (units ++ [TimeUnit.nanosecond]) (spread (units ++ [TimeUnit.nanosecond]) ns) =
      ns := by
  induction units generalizing ns with
  | nil => simp [lengthIn, spread, TimeUnit.nanoseconds]
  | cons v rest ih =>
    rw [List.cons_append, List.nodup_cons] at hn
    -- the units below `v` take what it leaves
    have hbelow :
      lengthIn (rest ++ [TimeUnit.nanosecond]) (spread (v :: (rest ++ [TimeUnit.nanosecond])) ns) =
        lengthIn (rest ++ [TimeUnit.nanosecond])
          (spread (rest ++ [TimeUnit.nanosecond]) (ns.tmod v.nanoseconds)) :=
      lengthIn_congr fun u hu => spread_of_ne (ne_of_mem_of_not_mem hu hn.1) _ _
    rw [List.cons_append, lengthIn_cons, hbelow, ih _ hn.2, spread_self]
    exact Int.tdiv_mul_add_tmod ns _

/-- What is counted in a unit is not more than there is. -/
theorem natAbs_spread_mul_le (units : List TimeUnit) (ns : Int) (u : TimeUnit) :
    (spread units ns u * u.nanoseconds).natAbs ≤ ns.natAbs := by
  induction units generalizing ns with
  | nil => simp [spread]
  | cons v rest ih =>
    by_cases h : u = v
    · rw [h, spread_self, Int.natAbs_mul, Int.natAbs_tdiv]
      exact Nat.div_mul_le_self _ _
    · rw [spread_of_ne h]
      refine (ih _).trans ?_
      rw [Int.natAbs_tmod]
      exact Nat.mod_le _ _

/-- **What is counted in a unit** does not fill one of the units before it, which would have counted
it. -/
theorem natAbs_spread_mul_lt {u v : TimeUnit} (h : [u, v].Sublist units) (hn : units.Nodup)
    (hu : 0 < u.nanoseconds) :
    (spread units ns v * v.nanoseconds).natAbs < u.nanoseconds := by
  induction units generalizing ns with
  | nil => cases h
  | cons w rest ih =>
    rw [List.nodup_cons] at hn
    rcases List.cons_sublist_cons'.1 h with hrest | ⟨rfl, hv⟩
    · have hmem : v ∈ rest := hrest.subset (List.mem_cons_of_mem _ List.mem_cons_self)
      rw [spread_of_ne (ne_of_mem_of_not_mem hmem hn.1)]
      exact ih hrest hn.2
    · have hmem : v ∈ rest := List.singleton_sublist.1 hv
      rw [spread_of_ne (ne_of_mem_of_not_mem hmem hn.1)]
      have hle := natAbs_spread_mul_le rest (ns.tmod u.nanoseconds) v
      have hlt : (ns.tmod u.nanoseconds).natAbs < u.nanoseconds.natAbs := by
        rw [Int.natAbs_tmod]
        exact Nat.mod_lt _ (by omega)
      omega

/-- A unit is a whole number of times the next one, and what is counted in the next one does not
fill it. -/
def Fits (count : TimeUnit → Int) (u v : TimeUnit) : Prop :=
  v.nanoseconds ∣ u.nanoseconds ∧ count v * v.nanoseconds < u.nanoseconds

variable {count : TimeUnit → Int}

/-- Counts that fit come to less than one of the unit before them. -/
theorem lengthIn_lt {v : TimeUnit} {rest : List TimeUnit}
    (hpos : ∀ u ∈ v :: rest, 0 < u.nanoseconds) (h : (v :: rest).IsChain (Fits count)) :
    lengthIn rest count < v.nanoseconds := by
  induction rest generalizing v with
  | nil => exact hpos v List.mem_cons_self
  | cons w rest ih =>
    obtain ⟨⟨hdvd, hlt⟩, hchain⟩ := List.isChain_cons_cons.1 h
    have hrest := ih (fun u hu => hpos u (List.mem_cons_of_mem _ hu)) hchain
    -- one more of the unit `w` still fits
    have hfits : w.nanoseconds ≤ v.nanoseconds - count w * w.nanoseconds :=
      Int.le_of_dvd (by omega) (Int.dvd_sub hdvd (Int.dvd_mul_left _ _))
    rw [lengthIn_cons]
    omega

theorem lengthIn_nonneg (hnonneg : ∀ u, 0 ≤ count u) (hpos : ∀ u ∈ units, 0 < u.nanoseconds) :
    0 ≤ lengthIn units count :=
  List.sum_nonneg (List.forall_mem_map.2 fun u hu => mul_nonneg (hnonneg u) (hpos u hu).le)

/-- **No other counts** that fit and are not negative come to the same nanoseconds: the smaller
units count what a unit leaves. -/
theorem eq_spread (hnonneg : ∀ u, 0 ≤ count u) (hpos : ∀ u ∈ units, 0 < u.nanoseconds)
    (h : units.IsChain (Fits count)) :
    ∀ u ∈ units, count u = spread units (lengthIn units count) u := by
  induction units with
  | nil => exact fun u hu => nomatch hu
  | cons v rest ih =>
    intro u hu
    have hpos' : ∀ u ∈ rest, 0 < u.nanoseconds := fun u hu => hpos u (List.mem_cons_of_mem _ hu)
    have hrest := lengthIn_nonneg hnonneg hpos'
    have hall := lengthIn_nonneg hnonneg hpos
    have hsum := lengthIn_cons v rest count
    obtain ⟨hquotient, hremainder⟩ := (Int.ediv_emod_unique (hpos v List.mem_cons_self)
      (a := lengthIn (v :: rest) count) (q := count v)).2
        ⟨by rw [hsum]; ring, hrest, lengthIn_lt hpos h⟩
    -- the unit `v` counts the quotient, and the rest of the units come to the remainder
    by_cases huv : u = v
    · rw [huv, spread_self, Int.tdiv_eq_ediv_of_nonneg hall, hquotient]
    · rw [spread_of_ne huv, Int.tmod_eq_emod_of_nonneg hall, hremainder]
      exact ih hpos' h.of_cons u (List.mem_of_ne_of_mem huv hu)

variable {largest : TimeUnit}

theorem mem_all (u : TimeUnit) : u ∈ TimeUnit.all := by cases u <;> decide

/-- Time is counted in a unit that is no larger than the largest one, and no larger than the day. -/
def IsCounted (largest u : TimeUnit) : Prop := largest.rank ≤ u.rank ∧ TimeUnit.day.rank ≤ u.rank

theorem mem_unitsBelow {u : TimeUnit} : u ∈ unitsBelow largest ↔ IsCounted largest u := by
  simp only [unitsBelow, List.mem_filter, mem_all, decide_eq_true_eq, true_and, max_le_iff,
    IsCounted]

/-- Single nanoseconds are counted at the end. -/
theorem exists_unitsBelow (largest : TimeUnit) :
    ∃ units, unitsBelow largest = units ++ [TimeUnit.nanosecond] ∧
      (units ++ [TimeUnit.nanosecond]).Nodup := by
  refine ⟨(unitsBelow largest).dropLast, ?_⟩
  cases largest <;> decide

theorem nodup_unitsBelow (largest : TimeUnit) : (unitsBelow largest).Nodup := by
  obtain ⟨units, hunits, hn⟩ := exists_unitsBelow largest
  rwa [hunits]

/-- The units come one after the other, largest first. -/
theorem isChain_unitsBelow (largest : TimeUnit) :
    (unitsBelow largest).IsChain fun u v => v.rank = u.rank + 1 := by
  cases largest <;> decide

theorem nanoseconds_pos {u : TimeUnit} (h : u ∈ unitsBelow largest) : 0 < u.nanoseconds := by
  have hrank := (mem_unitsBelow.1 h).2
  revert hrank
  cases u <;> decide

/-- A unit of fixed length is a whole number of times the next one. -/
theorem nanoseconds_dvd {u v : TimeUnit} (h : v.rank = u.rank + 1) :
    v.nanoseconds ∣ u.nanoseconds := by
  revert h
  cases u <;> cases v <;> decide

/-- A unit that is counted stands before the next one. -/
theorem sublist_unitsBelow {u v : TimeUnit} (hu : IsCounted largest u) (h : v.rank = u.rank + 1) :
    [u, v].Sublist (unitsBelow largest) := by
  have hall : [u, v].Sublist TimeUnit.all := by
    clear hu
    revert h
    cases u <;> cases v <;> decide
  have hv : IsCounted largest v := ⟨by have := hu.1; omega, by have := hu.2; omega⟩
  have hpair : [u, v].filter (fun w => max largest.rank TimeUnit.day.rank ≤ w.rank) = [u, v] :=
    List.filter_eq_self.2 (List.forall_mem_cons.2
      ⟨decide_eq_true (max_le hu.1 hu.2),
      List.forall_mem_singleton.2 (decide_eq_true (max_le hv.1 hv.2))⟩)
  rw [← hpair]
  exact hall.filter _

variable {p : DurationParts}

theorem totalNanoseconds_eq_lengthIn (p : DurationParts) :
    p.totalNanoseconds = lengthIn TimeUnit.all p.count := by
  simp only [totalNanoseconds, timeNanoseconds, lengthIn, TimeUnit.all, List.map_cons, List.map_nil,
    List.sum_cons, List.sum_nil, DurationParts.count, TimeUnit.nanoseconds]
  omega

/-- The length of counts of which there is none above the largest unit. -/
theorem totalNanoseconds_of_above (h : ∀ u, ¬ IsCounted largest u → p.count u = 0) :
    p.totalNanoseconds = lengthIn (unitsBelow largest) p.count := by
  have hsplit := List.sum_map_filter_add_sum_map_filter_not
    (fun u : TimeUnit => max largest.rank TimeUnit.day.rank ≤ u.rank)
    (fun u => p.count u * u.nanoseconds) TimeUnit.all
  have habove : ((TimeUnit.all.filter fun u => ¬ max largest.rank TimeUnit.day.rank ≤ u.rank).map
      fun u => p.count u * u.nanoseconds).sum = 0 := by
    refine List.sum_eq_zero (List.forall_mem_map.2 fun u hu => ?_)
    have hrank := of_decide_eq_true (List.mem_filter.1 hu).2
    rw [h u (fun hc => hrank (max_le hc.1 hc.2)), zero_mul]
  rw [habove, add_zero] at hsplit
  exact (totalNanoseconds_eq_lengthIn p).trans hsplit.symm

theorem count_ofNanoseconds (ns : Int) (largest u : TimeUnit) :
    (ofNanoseconds ns largest).count u = spread (unitsBelow largest) ns u := by
  cases u <;> rfl

/-- No unit above the largest one is counted. -/
theorem count_ofNanoseconds_eq_zero {u : TimeUnit} (h : ¬ IsCounted largest u) (ns : Int) :
    (ofNanoseconds ns largest).count u = 0 := by
  rw [count_ofNanoseconds]
  exact spread_of_notMem (mt mem_unitsBelow.1 h) ns

theorem totalNanoseconds_ofNanoseconds (ns : Int) (largest : TimeUnit) :
    (ofNanoseconds ns largest).totalNanoseconds = ns := by
  obtain ⟨units, hunits, hn⟩ := exists_unitsBelow largest
  rw [totalNanoseconds_of_above fun u hu => count_ofNanoseconds_eq_zero hu ns,
    lengthIn_congr fun u _ => count_ofNanoseconds ns largest u, hunits]
  exact lengthIn_spread units ns hn

theorem mem_toList_ofCounts {x : Int} (h : x ∈ (ofCounts count).toList) :
    ∃ u, x = count u := by
  simp only [toList, ofCounts, List.mem_cons, List.not_mem_nil, or_false] at h
  rcases h with h | h | h | h | h | h | h | h | h | h
  all_goals exact ⟨_, h⟩

/-- The counts of nanoseconds have one sign. -/
theorem uniform_ofNanoseconds (ns : Int) (largest : TimeUnit) :
    (ofNanoseconds ns largest).Uniform := by
  rcases le_total 0 ns with h | h
  · left
    intro x hx
    obtain ⟨u, rfl⟩ := mem_toList_ofCounts hx
    exact spread_nonneg h u
  · right
    intro x hx
    obtain ⟨u, rfl⟩ := mem_toList_ofCounts hx
    exact spread_nonpos h u

/-- The counts that a number of nanoseconds balances to. They come to the nanoseconds and have their
sign; nothing is counted in units above the largest, in years, months or weeks; and below the
largest no count fills one of the next larger unit. A largest unit above the day counts as the
day. -/
structure Balances (ns : Int) (largest : TimeUnit) (p : DurationParts) : Prop where
  total_eq : p.totalNanoseconds = ns
  sign_eq : ∀ u, p.count u ≠ 0 → (p.count u).sign = ns.sign
  above_eq : ∀ u, ¬ IsCounted largest u → p.count u = 0
  below_lt : ∀ u v, IsCounted largest u → v.rank = u.rank + 1 →
    (p.count v * v.nanoseconds).natAbs < u.nanoseconds

theorem Balances.neg {ns : Int} (h : Balances ns largest p) : Balances (-ns) largest p.neg := by
  constructor
  · rw [totalNanoseconds_neg, h.total_eq]
  · intro u hu
    rw [count_neg, neg_ne_zero] at hu
    rw [count_neg, Int.sign_neg, Int.sign_neg, h.sign_eq u hu]
  · intro u hu
    rw [count_neg, h.above_eq u hu, neg_zero]
  · intro u v hu hv
    rw [count_neg, neg_mul, Int.natAbs_neg]
    exact h.below_lt u v hu hv

/-- The counts of nanoseconds are balanced. -/
theorem balances_ofNanoseconds (ns : Int) (largest : TimeUnit) :
    Balances ns largest (ofNanoseconds ns largest) := by
  constructor
  · exact totalNanoseconds_ofNanoseconds ns largest
  · intro u hu
    rw [count_ofNanoseconds] at hu ⊢
    exact sign_spread hu
  · exact fun u hu => count_ofNanoseconds_eq_zero hu ns
  · intro u v hu hv
    rw [count_ofNanoseconds]
    exact natAbs_spread_mul_lt (sublist_unitsBelow hu hv) (nodup_unitsBelow largest)
      (nanoseconds_pos (mem_unitsBelow.2 hu))

/-- Balanced counts that are not negative are those of their length. -/
theorem Balances.eq_of_nonneg {ns : Int} (h : Balances ns largest p) (hns : 0 ≤ ns) (u : TimeUnit) :
    p.count u = (ofNanoseconds ns largest).count u := by
  by_cases hu : u ∈ unitsBelow largest
  · -- a count of the other sign would have to be zero
    have hnonneg : ∀ u, 0 ≤ p.count u := by
      intro u
      by_contra hneg
      have hsign := h.sign_eq u (by omega)
      rw [Int.sign_eq_neg_one_of_neg (by omega)] at hsign
      have := Int.sign_nonneg_iff.2 hns
      omega
    have hchain : (unitsBelow largest).IsChain (Fits p.count) := by
      refine (isChain_unitsBelow largest).imp_of_mem_imp fun u w hu _ hw => ⟨nanoseconds_dvd hw, ?_⟩
      have hlt := h.below_lt u w (mem_unitsBelow.1 hu) hw
      omega
    have hsum := totalNanoseconds_of_above h.above_eq
    rw [h.total_eq] at hsum
    rw [count_ofNanoseconds, hsum]
    exact eq_spread hnonneg (fun u hu => nanoseconds_pos hu) hchain u hu
  · have hcounted := mt mem_unitsBelow.2 hu
    rw [h.above_eq u hcounted, count_ofNanoseconds_eq_zero hcounted]

theorem ext_count {q : DurationParts} (h : ∀ u, p.count u = q.count u) : p = q := by
  rw [DurationParts.mk.injEq]
  exact ⟨h .year, h .month, h .week, h .day, h .hour, h .minute, h .second, h .millisecond,
    h .microsecond, h .nanosecond⟩

/-- **Balanced counts are found from their length**: those of the nanoseconds and no others. -/
theorem balances_iff {ns : Int} : Balances ns largest p ↔ p = ofNanoseconds ns largest := by
  constructor
  · intro h
    refine ext_count fun u => ?_
    rcases le_total 0 ns with hns | hns
    · exact h.eq_of_nonneg hns u
    · -- reversed, the counts are not negative
      have hneg := h.neg.eq_of_nonneg (by omega) u
      rw [count_neg, count_ofNanoseconds, spread_neg, neg_inj] at hneg
      rw [hneg, count_ofNanoseconds]
  · rintro rfl
    exact balances_ofNanoseconds ns largest

/-- There are no years, months or weeks in balanced time. -/
theorem natAbs_ofNanoseconds_lt (ns : Int) (largest : TimeUnit) {u : TimeUnit}
    (h : u.rank < TimeUnit.day.rank) :
    ((ofNanoseconds ns largest).count u).natAbs < maxCount := by
  rw [count_ofNanoseconds_eq_zero (fun hu => absurd hu.2 (not_le.2 h))]
  decide

/-- Balanced counts are within the limits exactly if their length is. -/
theorem inLimits_ofNanoseconds {ns : Int} :
    (ofNanoseconds ns largest).InLimits ↔ ns.natAbs < maxNanoseconds := by
  constructor
  · rintro ⟨-, -, -, htotal⟩
    rwa [totalNanoseconds_ofNanoseconds] at htotal
  · intro h
    refine ⟨natAbs_ofNanoseconds_lt ns largest (u := .year) (by decide),
      natAbs_ofNanoseconds_lt ns largest (u := .month) (by decide),
      natAbs_ofNanoseconds_lt ns largest (u := .week) (by decide), ?_⟩
    rwa [totalNanoseconds_ofNanoseconds]

/-- Only the time of balanced counts can be wrong. -/
theorem fault_ofNanoseconds (ns : Int) (largest : TimeUnit) :
    (ofNanoseconds ns largest).fault = .durationTimeBeyond := by
  have hyears := not_le.2 (natAbs_ofNanoseconds_lt ns largest (u := .year) (by decide))
  have hmonths := not_le.2 (natAbs_ofNanoseconds_lt ns largest (u := .month) (by decide))
  have hweeks := not_le.2 (natAbs_ofNanoseconds_lt ns largest (u := .week) (by decide))
  simp only [count] at hyears hmonths hweeks
  rw [fault, if_neg (not_not.2 (uniform_ofNanoseconds ns largest)), if_neg hyears, if_neg hmonths,
    if_neg hweeks]

end DurationParts

namespace Duration

variable {d : Duration}

theorem natAbs_timeNanoseconds_le (d : Duration) :
    d.timeNanoseconds.natAbs ≤ d.totalNanoseconds.natAbs := by
  have huniform := d.uniform
  simp only [DurationParts.Uniform, DurationParts.toList, List.forall_mem_cons, List.not_mem_nil,
    false_implies, implies_true, and_true] at huniform
  simp only [DurationParts.totalNanoseconds, DurationParts.timeNanoseconds]
  omega

/-- **The time of a duration is balanced to days**, hours and smaller units, whatever the
duration. -/
theorem exists_balance (d : Duration) :
    ∃ b, balance d.timeNanoseconds .day = .ok b ∧
      b.days = d.timeNanoseconds.tdiv (TimeUnit.nanoseconds .day) := by
  have hlimits : (DurationParts.ofNanoseconds d.timeNanoseconds .day).InLimits :=
    DurationParts.inLimits_ofNanoseconds.2
      (Nat.lt_of_le_of_lt d.natAbs_timeNanoseconds_le d.inLimits.2.2.2)
  exact ⟨_, dif_pos ⟨DurationParts.uniform_ofNanoseconds _ _, hlimits⟩, rfl⟩

/-- Nanoseconds within the limit are balanced. -/
theorem balance_of_lt {ns : Int} (largest : TimeUnit)
    (h : ns.natAbs < DurationParts.maxNanoseconds) :
    ∃ d, balance ns largest = .ok d ∧ d.toDurationParts = .ofNanoseconds ns largest :=
  ⟨_, dif_pos ⟨DurationParts.uniform_ofNanoseconds _ _, DurationParts.inLimits_ofNanoseconds.2 h⟩,
    rfl⟩

/-- Nanoseconds beyond the limit are refused. -/
theorem balance_of_le {ns : Int} (largest : TimeUnit)
    (h : DurationParts.maxNanoseconds ≤ ns.natAbs) :
    balance ns largest = .error .durationTimeBeyond := by
  have hlimits : ¬ (DurationParts.ofNanoseconds ns largest).InLimits :=
    mt DurationParts.inLimits_ofNanoseconds.1 (not_lt.2 h)
  rw [balance, ofParts, dif_neg (fun hparts => hlimits hparts.2), DurationParts.fault_ofNanoseconds]

/-- **What is balanced and what is refused.** Nanoseconds are refused exactly from `2 ^ 53` seconds
on, in either direction. All others balance to a duration, whatever the largest unit, and no other
counts are balanced. -/
theorem balance_exact (ns : Int) (largest : TimeUnit) :
    (balance ns largest = .error .durationTimeBeyond ↔ 2 ^ 53 * 10 ^ 9 ≤ ns.natAbs) ∧
      (ns.natAbs < 2 ^ 53 * 10 ^ 9 →
        ∃ d, balance ns largest = .ok d ∧ DurationParts.Balances ns largest d.toDurationParts ∧
          ∀ p, DurationParts.Balances ns largest p → p = d.toDurationParts) := by
  have hmax : 2 ^ 53 * 10 ^ 9 = DurationParts.maxNanoseconds := by decide
  rw [hmax]
  refine ⟨⟨fun h => ?_, balance_of_le largest⟩, fun h => ?_⟩
  · by_contra hlt
    obtain ⟨d, hd, -⟩ := balance_of_lt largest (not_le.1 hlt)
    rw [hd] at h
    cases h
  · obtain ⟨d, hd, hparts⟩ := balance_of_lt largest h
    refine ⟨d, hd, ?_, fun p hp => ?_⟩
    · rw [hparts]
      exact DurationParts.balances_ofNanoseconds ns largest
    · rw [hparts]
      exact DurationParts.balances_iff.1 hp

/-- One nanosecond less than a day, backwards and with hours as the largest unit. -/
theorem balance_exact_short_of_day :
    (-86399999999999 : Int).natAbs < 2 ^ 53 * 10 ^ 9 ∧
      ∃ d, balance (-86399999999999) .hour = .ok d ∧
        DurationParts.Balances (-86399999999999) .hour d.toDurationParts ∧
          ∀ p, DurationParts.Balances (-86399999999999) .hour p → p = d.toDurationParts :=
  have h : (-86399999999999 : Int).natAbs < 2 ^ 53 * 10 ^ 9 := by decide
  ⟨h, (balance_exact (-86399999999999) .hour).2 h⟩

end Duration
end Almanac
