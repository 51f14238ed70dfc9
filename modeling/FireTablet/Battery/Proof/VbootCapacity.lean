import FireTablet.Battery.Vboot
import FireTablet.Battery.Proof.ProfileByTemp
import Mathlib.Tactic.SplitIfs

/-!
# Percentages that fit

The loops of the two constructions run over a hundred rows whatever the size of the table is, and
a capacity out of range is announced and then used as it is. What the construction at a voltage
needs is a full table, a capacity in range, and a last row that is below 6.5536 capacities
(`built_iff`).
-/

namespace Battery

open CInt

/-! ## The capacity at a voltage -/

/-- The line between two rows, on 32 bits. -/
theorem tryInterpolation_eq {i1 i2 : Int} (h : IsI32 (i2 - i1)) (hne : i1 ≠ i2) (b1 b2 i : Int) :
    tryInterpolation i1 b1 i2 b2 i = some (interpolation i1 b1 i2 b2 i) := by
  have hwrap (x : Int) : i32 (i32 x + b1) = i32 (x + b1) := by unfold i32; omega
  rw [tryInterpolation, i32_eq h, div, if_neg (by omega), Option.map_some, hwrap]
  rfl

/-- The capacity that the table has at a voltage: that of its first row if this is below it, that
of its last row if none is, and on the line to the first row below it otherwise. -/
def capacityOn (rows : Nat → Row) (vboot : Int) : Int :=
  match (List.range rowsMax).find? fun j => (rows j).voltage < vboot with
  | none => i32 (rows 99).mah
  | some 0 => i32 (rows 0).mah
  | some (j + 1) => interpolation (rows (j + 1)).voltage (i32 (rows (j + 1)).mah) (rows j).voltage
      (i32 (rows j).mah) vboot

section
variable (rows : Nat → Row) (vboot : Int)

theorem firstBelow_le : firstBelow rows vboot ≤ rowsMax := by
  unfold firstBelow
  cases h : (List.range rowsMax).find? fun j => (rows j).voltage < vboot with
  | none => exact Nat.le_refl _
  | some j => exact Nat.le_of_lt (List.mem_range.1 (List.mem_of_find?_eq_some h))

/-- The first row below the voltage is a row. -/
theorem firstBelow_lt_iff : firstBelow rows vboot < rowsMax ↔
    ∃ j < rowsMax, ((rows j).voltage : Int) < vboot := by
  unfold firstBelow
  cases h : (List.range rowsMax).find? fun j => (rows j).voltage < vboot with
  | none =>
    constructor
    · intro hlt
      exact absurd hlt (Nat.lt_irrefl _)
    · rintro ⟨j, hj, hv⟩
      exact absurd hv (by simpa using List.find?_eq_none.1 h j (List.mem_range.2 hj))
  | some j =>
    have hj := List.mem_range.1 (List.mem_of_find?_eq_some h)
    have hv := List.find?_some h
    exact ⟨fun _ => ⟨j, hj, by simpa using hv⟩, fun _ => hj⟩

/-- No division by zero: the row before the first one below the voltage is not below it. -/
theorem qmaxAt_spec : ∃ reads, (∀ i ∈ reads, i < rowsMax) ∧
    qmaxAt rows vboot (firstBelow rows vboot) = some (capacityOn rows vboot, reads) := by
  unfold firstBelow capacityOn
  cases h : (List.range rowsMax).find? fun j => (rows j).voltage < vboot with
  | none => exact ⟨[99], by simp [rowsMax], rfl⟩
  | some j =>
    obtain ⟨hv, hmem, hbefore⟩ := List.find?_range_eq_some.1 h
    have hj := List.mem_range.1 hmem
    cases j with
    | zero => exact ⟨[0], by simp [rowsMax], rfl⟩
    | succ j =>
      have hbefore := hbefore j (Nat.lt_succ_self j)
      simp only [Bool.not_eq_true', decide_eq_true_eq, decide_eq_false_iff_not] at hv hbefore
      refine ⟨[j + 1, j], ?_, ?_⟩
      · intro i hi
        simp only [List.mem_cons, List.not_mem_nil, or_false] at hi
        omega
      · rw [Option.getD_some, qmaxAt, if_neg (Nat.succ_ne_zero j), if_neg (by omega),
          Nat.add_sub_cancel, tryInterpolation_eq (by unfold IsI32; omega) (by omega)]
        rfl

end

/-! ## Percentages -/

section
variable {m q : Int}

/-- A share that fits 16 bits is stored as it is, and one that does not is not. -/
theorem share_iff (hm : 0 ≤ m) (hq : 0 < q) (hq' : q ≤ 50000) :
    u16 (u32 (m * 10000) / u32 q) = m * 10000 / q ↔ m * 10000 < 65536 * q := by
  have hdiv := Int.lt_ediv_add_one_mul_self (m * 10000) hq
  have hge := Int.ediv_mul_le (m * 10000) (Int.ne_of_gt hq)
  rw [u32_eq (x := q) (by omega) (by omega)]
  constructor
  · intro h
    have hlt : m * 10000 / q < 65536 := by rw [← h]; unfold u16; omega
    exact (Int.ediv_lt_iff_lt_mul hq).1 hlt
  · intro h
    have hlt : m * 10000 / q < 65536 := (Int.ediv_lt_iff_lt_mul hq).2 h
    have hnonneg : 0 ≤ m * 10000 / q := Int.ediv_nonneg (by omega) (by omega)
    rw [u32_eq (by omega) (by omega), u16, Int.emod_eq_of_lt hnonneg hlt]

end

theorem setPercentages_spec (rows : Nat → Row) {q : Int} (hq : 0 < q) (hq' : q ≤ 50000) :
    ∃ rows', setPercentages q rows = some rows' ∧ ∀ i < rowsMax,
      ((rows' i).percentage : Int) = u16 (u32 ((rows i).mah * 10000) / u32 q) := by
  refine ⟨_, if_neg (by rw [u32_eq] <;> omega), ?_⟩
  intro i hi
  rw [if_pos hi]
  exact coe_toShort _

/-- The percentages of the first `n` rows are the exact shares of the capacity, and they rise. -/
structure Percents (d : TableData) (idx : Int) (rows : Nat → Row) (n : Nat) (qmax : Int) :
    Prop where
  exact : ∀ i < n, (d.table idx i).map (fun r => ((r.percentage : Nat) : Int)) =
    some ((rows i).mah * 10000 / qmax)
  rising : ∀ i j, i ≤ j → j < n → ∀ r ∈ d.table idx i, ∀ r' ∈ d.table idx j,
    r.percentage ≤ r'.percentage

/-- A profile as it should be: the capacity drawn rises and the voltage falls, row by row. -/
structure Drawn (rows : Nat → Row) (n : Nat) : Prop where
  mah : ∀ i j, i ≤ j → j < n → (rows i).mah ≤ (rows j).mah
  voltage : ∀ i j, i ≤ j → j < n → (rows j).voltage ≤ (rows i).voltage

/-- The capacity of the table that was constructed. -/
def CapacityAlgo.qmax (a : CapacityAlgo) (d : TableData) (idx : Int) : Int :=
  if idx = d.temperatureTb0 then a.qmaxT0ma else a.qmaxT0maTb1

theorem mem_printed {b : Prop} [Decidable b] {i j : Nat} (h : i ∈ if b then [j] else []) :
    b ∧ i = j := by
  split_ifs at h with hb
  · exact ⟨hb, List.mem_singleton.1 h⟩
  · cases h

/-- The rows that are read: all of them, and with the messages also the row that the loop over the
voltages ended with. -/
structure AllRead (level : Int) (j : Nat) (reads : List Nat) : Prop where
  all : ∀ i < rowsMax, i ∈ reads
  debug : bmlogDebugLevel ≤ level → j ∈ reads
  only : ∀ i ∈ reads, i < rowsMax ∨ i = j

section
variable {d : TableData} {idx : Int} {loc : Loc} (hloc : d.fgGetProfile idx = some loc)
include hloc

theorem percents_iff {n : Nat} (hd : Drawn (d.rowsAt loc) n) (hn0 : 0 < n) (hn : n ≤ rowsMax)
    {q : Int} (hq : 0 < q) (hq' : q ≤ 50000) {rows' : Nat → Row}
    (hrows : ∀ i < rowsMax, ((rows' i).percentage : Int) =
      u16 (u32 ((d.rowsAt loc i).mah * 10000) / u32 q)) :
    Percents (d.setRows rows' loc) idx (d.rowsAt loc) n q ↔
      ((d.rowsAt loc (n - 1)).mah : Int) * 10000 < 65536 * q := by
  have hshare (i : Nat) (hi : i < rowsMax) := share_iff (m := (d.rowsAt loc i).mah) (q := q)
    (by omega) hq hq'
  constructor
  · intro h
    have hlast := h.exact (n - 1) (by omega)
    rw [table_setRows hloc, Option.map_some, Option.some_inj, hrows _ (by omega)] at hlast
    exact (hshare (n - 1) (by omega)).1 hlast
  · intro hlast
    have hexact : ∀ i < n, ((rows' i).percentage : Int) = (d.rowsAt loc i).mah * 10000 / q := by
      intro i hi
      have hle := hd.mah i (n - 1) (by omega) (by omega)
      rw [hrows i (by omega)]
      exact (hshare i (by omega)).2 (by omega)
    constructor
    · intro i hi
      rw [table_setRows hloc, Option.map_some, hexact i hi]
    · intro i j hij hj r hr r' hr'
      rw [table_setRows hloc, Option.mem_some_iff] at hr hr'
      subst hr hr'
      have hle := hd.mah i j hij hj
      have hdiv : ((d.rowsAt loc i).mah : Int) * 10000 / q ≤ (d.rowsAt loc j).mah * 10000 / q :=
        Int.ediv_le_ediv hq (by omega)
      rw [← hexact i (by omega), ← hexact j hj] at hdiv
      omega

/-! ## The two constructions -/

/-- What the construction for a capacity leaves. -/
theorem byQmax_spec (hidx : idx = d.temperatureTb0 ∨ idx = d.temperatureTb1) (a : CapacityAlgo)
    {q : Int} (hq : 0 < q) (hq' : q ≤ 50000) :
    ∃ rows' a', fgConstructBatteryProfileByQmax d a q idx =
        some ⟨d.setRows rows' loc, a', List.range rowsMax⟩ ∧
      ∀ i < rowsMax, ((rows' i).percentage : Int) =
        u16 (u32 ((d.rowsAt loc i).mah * 10000) / u32 q) := by
  obtain ⟨rows', hset, hrows⟩ := setPercentages_spec (d.rowsAt loc) hq hq'
  rw [fgConstructBatteryProfileByQmax, hloc]
  simp only [hset]
  by_cases h0 : idx = d.temperatureTb0
  · rw [if_pos h0]
    exact ⟨rows', _, rfl, hrows⟩
  · rw [if_neg h0, if_pos (hidx.resolve_left h0)]
    exact ⟨rows', _, rfl, hrows⟩

variable (level vboot : Int)

/-- A construction at a voltage is one for the capacity there. -/
theorem byVboot_eq (hidx : idx = d.temperatureTb0 ∨ idx = d.temperatureTb1) (a : CapacityAlgo) :
    ∃ a' reads, fgConstructBatteryProfileByVboot level d a vboot idx =
        (setPercentages (capacityOn (d.rowsAt loc) vboot) (d.rowsAt loc)).map
          (fun rows' => ⟨d.setRows rows' loc, a', reads⟩) ∧
      a'.qmax d idx = capacityOn (d.rowsAt loc) vboot ∧
      AllRead level (firstBelow (d.rowsAt loc) vboot) reads ∧
      (3000 ≤ capacityOn (d.rowsAt loc) vboot → capacityOn (d.rowsAt loc) vboot ≤ 50000 →
        ¬ bmlogDebugLevel ≤ level → ∀ i ∈ reads, i < rowsMax) := by
  obtain ⟨read, hread, hq⟩ := qmaxAt_spec (d.rowsAt loc) vboot
  have hle := firstBelow_le (d.rowsAt loc) vboot
  let j := firstBelow (d.rowsAt loc) vboot
  let cap := capacityOn (d.rowsAt loc) vboot
  let said := if bmlogErrorLevel ≤ level ∧ (cap < 3000 ∨ 50000 < cap) then [j] else []
  let debug := if bmlogDebugLevel ≤ level then [j] else []
  let reads := List.range (min (j + 1) rowsMax) ++ (read ++ said ++ List.range rowsMax) ++ debug
  have hreads : AllRead level j reads := by
    constructor
    · intro i hi
      simp [reads, hi]
    · intro hl
      simp [reads, debug, hl]
    · intro i hi
      simp only [reads, List.mem_append, List.mem_range] at hi
      rcases hi with (hi | (hi | hi) | hi) | hi
      · exact .inl (by omega)
      · exact .inl (hread i hi)
      · exact .inr (mem_printed hi).2
      · exact .inl hi
      · exact .inr (mem_printed hi).2
  have hquiet : 3000 ≤ cap → cap ≤ 50000 → ¬ bmlogDebugLevel ≤ level →
      ∀ i ∈ reads, i < rowsMax := by
    intro h1 h2 hl i hi
    simp only [reads, List.mem_append, List.mem_range] at hi
    rcases hi with (hi | (hi | hi) | hi) | hi
    · omega
    · exact hread i hi
    · exact absurd (mem_printed hi).1.2 (by omega)
    · exact hi
    · exact absurd (mem_printed hi).1 hl
  by_cases h0 : idx = d.temperatureTb0
  · refine ⟨{ a with qmaxT0ma := cap }, reads, ?_, if_pos h0, hreads, hquiet⟩
    rw [fgConstructBatteryProfileByVboot, hloc]
    simp only [Option.bind_eq_bind, Option.bind_some, constructByVboot, hq, if_pos h0]
    cases setPercentages cap (d.rowsAt loc) <;> rfl
  · refine ⟨{ a with qmaxT0maTb1 := cap }, reads, ?_, if_neg h0, hreads, hquiet⟩
    rw [fgConstructBatteryProfileByVboot, hloc]
    simp only [Option.bind_eq_bind, Option.bind_some, constructByVboot, hq, if_neg h0,
      if_pos (hidx.resolve_left h0)]
    cases setPercentages cap (d.rowsAt loc) <;> rfl

end

/-- The percentage table is built at `vboot`, and would be for the capacity `q`: rows of the
profile are read and no others, the capacity is in range, and the percentages fit. -/
def Built (level : Int) (d : TableData) (a : CapacityAlgo) (vboot idx q : Int)
    (rows : Nat → Row) : Prop :=
  (∃ c, fgConstructBatteryProfileByVboot level d a vboot idx = some c ∧
    (∀ i ∈ c.reads, i < d.fgGetSaddles) ∧
    3000 ≤ c.algo.qmax d idx ∧ c.algo.qmax d idx ≤ 50000 ∧
    Percents c.data idx rows d.fgGetSaddles (c.algo.qmax d idx)) ∧
  ∃ c, fgConstructBatteryProfileByQmax d a q idx = some c ∧
    Percents c.data idx rows d.fgGetSaddles q

/-- The percentages are right when the table has a hundred rows, its capacity at the voltage is in
range, its last row is below 6.5536 times either capacity, and, if messages are printed, its last
row is below the voltage. -/
theorem built_iff (d : TableData) (idx vboot level q : Int) (loc : Loc) (a : CapacityAlgo)
    (hloc : d.fgGetProfile idx = some loc)
    (hidx : idx = d.temperatureTb0 ∨ idx = d.temperatureTb1)
    (hn0 : 0 < d.fgGetSaddles) (hn : d.fgGetSaddles ≤ rowsMax)
    (hd : Drawn (d.rowsAt loc) d.fgGetSaddles) (hq : 3000 ≤ q) (hq' : q ≤ 50000) :
    Built level d a vboot idx q (d.rowsAt loc) ↔
      d.fgGetSaddles = rowsMax ∧
      3000 ≤ capacityOn (d.rowsAt loc) vboot ∧ capacityOn (d.rowsAt loc) vboot ≤ 50000 ∧
      ((d.rowsAt loc 99).mah : Int) * 10000 < 65536 * capacityOn (d.rowsAt loc) vboot ∧
      ((d.rowsAt loc 99).mah : Int) * 10000 < 65536 * q ∧
      (bmlogDebugLevel ≤ level → ((d.rowsAt loc 99).voltage : Int) < vboot) := by
  obtain ⟨a', reads, heq, hqmax, hreads, hquiet⟩ := byVboot_eq hloc level vboot hidx a
  obtain ⟨qrows, qa, hqeq, hqrows⟩ := byQmax_spec hloc hidx a (q := q) (by omega) hq'
  have hqiff := percents_iff hloc hd hn0 hn (by omega) hq' hqrows
  constructor
  · rintro ⟨⟨c, hc, hrd, h3, h5, hp⟩, c', hc', hp'⟩
    obtain ⟨rows', hset, rfl⟩ := Option.map_eq_some_iff.1 (heq.symm.trans hc)
    obtain rfl := Option.some.inj (hqeq.symm.trans hc')
    simp only [hqmax] at h3 h5 hp
    have hfull : d.fgGetSaddles = rowsMax := by
      have := hrd 99 (hreads.all 99 (by decide))
      simp only [rowsMax] at hn ⊢
      omega
    rw [hfull] at hqiff
    obtain ⟨rows'', hset', hrows⟩ := setPercentages_spec (d.rowsAt loc)
      (q := capacityOn (d.rowsAt loc) vboot) (by omega) h5
    obtain rfl := Option.some.inj (hset'.symm.trans hset)
    have hiff := percents_iff hloc hd hn0 hn (by omega) h5 hrows
    rw [hfull] at hiff
    rw [hfull] at hp hp' hrd hd
    refine ⟨hfull, h3, h5, hiff.1 hp, hqiff.1 hp', ?_⟩
    intro hl
    obtain ⟨j, hj, hv⟩ := (firstBelow_lt_iff _ _).1 (hrd _ (hreads.debug hl))
    have := hd.voltage j 99 (by unfold rowsMax at hj; omega) (by decide)
    omega
  · rintro ⟨hfull, h3, h5, hlast, hlastq, hl⟩
    obtain ⟨rows', hset, hrows⟩ := setPercentages_spec (d.rowsAt loc)
      (q := capacityOn (d.rowsAt loc) vboot) (by omega) h5
    have hiff := percents_iff hloc hd hn0 hn (by omega) h5 hrows
    rw [hfull] at hiff hqiff
    refine ⟨⟨_, by rw [heq, hset]; rfl, ?_, ?_, ?_, ?_⟩, _, hqeq, ?_⟩
    · intro i hi
      rw [hfull]
      by_cases hdebug : bmlogDebugLevel ≤ level
      · rcases hreads.only i hi with h | rfl
        · exact h
        · exact (firstBelow_lt_iff _ _).2 ⟨99, by decide, hl hdebug⟩
      · exact hquiet h3 h5 hdebug i hi
    · rw [hqmax]
      exact h3
    · rw [hqmax]
      exact h5
    · rw [hqmax, hfull]
      exact hiff.2 hlast
    · rw [hfull]
      exact hqiff.2 hlastq

/-! ## A small battery -/

/-- A hundred rows, with `step` drawn from one to the next. -/
def evenRow (step i : Nat) : Row where
  mah := Fin.ofNat 4294967296 (step * i)
  voltage := Fin.ofNat 65536 (43000 - 100 * i)
  resistance := 1000
  resistance2 := 0
  percentage := 0

/-- The first constructed profile, filled with these rows. -/
def evenData (step : Nat) : TableData where
  profiles := [{
    temperature := 25
    qMax := 30000
    qMaxHCurrent := 30000
    pseudo1 := 0
    pseudo100 := 0
    shutdownHlZcv := 0
    size := 100
    rows := evenRow step
    temperature_int := by decide }]
  temperatureTb0 := 255
  temperatureTb1 := 254
  rowsTb0 := evenRow step
  rowsTb1 := evenRow step

theorem drawn_even (step : Nat) (h : step ≤ 1000000) : Drawn (evenRow step) 100 := by
  constructor
  · intro i j hij hj
    have hle : step * i ≤ step * j := Nat.mul_le_mul_left step hij
    have hmax : step * j ≤ 1000000 * 100 := Nat.mul_le_mul h (by omega)
    simp only [evenRow, Fin.le_def, Fin.val_ofNat]
    omega
  · intro i j hij hj
    simp only [evenRow, Fin.le_def, Fin.val_ofNat]
    rw [Nat.mod_eq_of_lt (by omega), Nat.mod_eq_of_lt (by omega)]
    omega

/-- A table that drains 30 mAh from row to row meets the conditions at 3.4 V. -/
theorem built_even : Built bmlogDebugLevel (evenData 300) ⟨0, 0⟩ 34000 255 20000 (evenRow 300) := by
  have hcap : capacityOn (evenRow 300) 34000 = 27000 := by decide +kernel
  have hrows : (evenData 300).rowsAt .tb0 = evenRow 300 := rfl
  have hiff := built_iff (evenData 300) 255 34000 bmlogDebugLevel 20000 .tb0 ⟨0, 0⟩ rfl (.inl rfl)
    (by decide) (by decide) (drawn_even 300 (by decide)) (by decide) (by decide)
  rw [hrows, hcap] at hiff
  exact hiff.2 (by decide)

/-- With 2.5 mAh from row to row, the capacity at 3.4 V is announced as 3000 and kept as 2250. -/
theorem small_battery : Drawn (evenRow 25) 100 ∧
    (∃ c, fgConstructBatteryProfileByVboot bmlogDebugLevel (evenData 25) ⟨0, 0⟩ 34000 255 = some c ∧
      c.algo.qmaxT0ma = 2250) ∧
    ¬ Built bmlogDebugLevel (evenData 25) ⟨0, 0⟩ 34000 255 20000 (evenRow 25) := by
  have hcap : capacityOn (evenRow 25) 34000 = 2250 := by decide +kernel
  obtain ⟨a', reads, heq, hqmax, -⟩ := byVboot_eq (d := evenData 25)
    (show (evenData 25).fgGetProfile 255 = some .tb0 from rfl) bmlogDebugLevel 34000 (.inl rfl)
    ⟨0, 0⟩
  obtain ⟨rows', hset, -⟩ := setPercentages_spec (evenRow 25) (q := 2250) (by decide) (by decide)
  have hrows : (evenData 25).rowsAt .tb0 = evenRow 25 := rfl
  rw [hrows, hcap] at hqmax
  rw [hrows, hcap, hset] at heq
  refine ⟨drawn_even 25 (by decide), ⟨_, heq, hqmax⟩, ?_⟩
  rintro ⟨⟨c, hc, -, h3, -⟩, -⟩
  obtain rfl := Option.some.inj (heq.symm.trans hc)
  rw [hqmax] at h3
  exact absurd h3 (by decide)

end Battery
