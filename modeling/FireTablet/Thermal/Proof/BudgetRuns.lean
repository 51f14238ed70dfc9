import FireTablet.Thermal.Budget
import FireTablet.Lib.Run
import Mathlib.Data.List.Nodup
import Mathlib.Order.Bounds.Basic

/-!
# The limit is the minimum

The level that is kept for the coolers is the smallest of their levels while no step changes a
cooler's level behind its back: a registration below the smallest level, a removal of the only
smallest one, or a change of the table entry that is in use (`budget_runs`).
-/

namespace Thermal.Budget

open CInt

/-- The last budget written or notified, 0 being the largest; what is not a number is none. -/
def written (budget : Int) : Event → Int
  | .write (some n) => if n = 0 then maximumCpuPower else n
  | .notify b => if b = 0 then maximumCpuPower else b
  | _ => budget

/-- The limit in force is the minimum of the budget and the coolers' levels, and not negative. -/
structure InForce (s : State) (budget : Int) : Prop where
  least : IsLeast {x | x = min maximumCpuPower budget ∨ ∃ c ∈ s.coolers, c.current = x} s.limit
  nonneg : 0 ≤ s.limit

/-- The limit of the coolers without the budget. -/
def CoolerLeast (cs : List Cooler) (m : Int) : Prop :=
  IsLeast {x | x = maximumCpuPower ∨ ∃ c ∈ cs, c.current = x} (min maximumCpuPower m)

/-- A cooler's level is that of its state, and a positive `int`. -/
structure Cooler.Ok (c : Cooler) : Prop where
  level : c.level = c.current
  pos : 0 < c.level
  int : c.level < 2147483648

/-- What holds after every step, with the last budget written. -/
structure Inv (s : State) (budget : Int) : Prop where
  cpu : s.budgetCpu = budget
  budget_pos : 0 < budget
  eq : s.budget = min s.budgetCpu s.budgetCooler
  applied : s.applied = if s.budget < maximumCpuPower then s.budget else 0
  cooler : CoolerLeast s.coolers s.budgetCooler
  cooler_pos : 0 < s.budgetCooler
  coolers : ∀ c ∈ s.coolers, c.Ok
  ids : (s.coolers.map Cooler.id).Nodup
  next : ∀ c ∈ s.coolers, c.id < s.next

/-- What each step may do. -/
def Meets (s : State) : Event → Prop
  | .write parsed => ∃ n, parsed = some n ∧ n < 2147483648
  | .notify b => 0 ≤ b
  | .register c mem => mem = true →
    let d : Cooler := ⟨s.next, c.state, c.maxState, c.level, c.levels, c.length_eq⟩
    d.Ok ∧ min maximumCpuPower s.budgetCooler ≤ d.level
  | .setCurState id state => ∀ c ∈ s.coolers, c.id = id → c.state ≠ state →
    min state c.maxState ≠ 0 →
      ∃ level, c.levels[min state c.maxState - 1]? = some level ∧ 0 < level ∧ level < 2147483648
  | .levelsStore id parsed => ∀ c ∈ s.coolers, c.id = id → ∀ state level,
    parsed = some (state, level) → u64 state < c.maxState →
      (0 ≤ state ∧ state.toNat < maxTrips) ∧
        (c.state = state.toNat + 1 → c.levels[state.toNat]? = some level)
  | .remove id => ∀ c ∈ s.coolers, c.id = id → maximumCpuPower ≤ c.level ∨
    ∃ d ∈ s.coolers, d.id ≠ id ∧ d.level ≤ c.level

/-! ## The limit -/

theorem Inv.inForce {s : State} {budget : Int} (h : Inv s budget) : InForce s budget := by
  have hlimit : s.limit =
      min (min maximumCpuPower budget) (min maximumCpuPower s.budgetCooler) := by
    have heq := h.eq
    have hcpu := h.cpu
    have hpos := h.budget_pos
    have hpos' := h.cooler_pos
    rw [State.limit, h.applied]
    unfold maximumCpuPower
    split <;> split at * <;> omega
  refine ⟨⟨?_, fun x hx => ?_⟩, ?_⟩
  · rw [hlimit]
    rcases Int.le_total (min maximumCpuPower budget) (min maximumCpuPower s.budgetCooler) with
      hle | hle
    · exact .inl (Int.min_eq_left hle)
    · rw [Int.min_eq_right hle]
      rcases h.cooler.1 with hm | hm
      · exact .inl (by omega)
      · exact .inr hm
  · rw [hlimit]
    rcases hx with rfl | hx
    · exact Int.min_le_left ..
    · exact Int.le_trans (Int.min_le_right ..) (h.cooler.2 (.inr hx))
  · rw [hlimit]
    have hpos := h.budget_pos
    have hpos' := h.cooler_pos
    unfold maximumCpuPower
    omega

/-- After a notification the budget is the minimum, and it is applied. -/
theorem notify_spec {s : State} (budget1 budget2 : Int)
    (h : s.applied = if s.budget < maximumCpuPower then s.budget else 0) :
    ∃ budget applied, s.notify budget1 budget2 = { s with budget := budget, applied := applied } ∧
      budget = min budget1 budget2 ∧ applied = if budget < maximumCpuPower then budget else 0 := by
  unfold State.notify
  dsimp only
  split
  next he => exact ⟨s.budget, s.applied, rfl, he.symm, h⟩
  next he => exact ⟨_, _, rfl, rfl, rfl⟩

/-! ## Budgets -/

theorem Inv.thermalBudgetNotify {s : State} {budget b : Int} (h : Inv s budget) (hb : 0 ≤ b) :
    Inv (thermalBudgetNotify s b) (if b = 0 then maximumCpuPower else b) := by
  unfold Budget.thermalBudgetNotify
  dsimp only
  obtain ⟨budget', applied, he, heq, happ⟩ := notify_spec
    (s := { s with budgetCpu := if b = 0 then maximumCpuPower else b })
    (if b = 0 then maximumCpuPower else b) s.budgetCooler h.applied
  rw [he]
  refine ⟨rfl, ?_, heq, happ, h.cooler, h.cooler_pos, h.coolers, h.ids, h.next⟩
  split
  · decide
  · omega

theorem Inv.thermalBudgetWrite {s : State} {budget : Int} {n : Nat} (h : Inv s budget)
    (hn : n < 2147483648) :
    Inv (thermalBudgetWrite s (some n)) (if n = 0 then maximumCpuPower else n) := by
  unfold Budget.thermalBudgetWrite
  rw [Option.getD_some]
  by_cases h0 : n = 0
  · rw [if_neg (not_not.2 h0), if_pos h0]
    exact h.thermalBudgetNotify (b := maximumCpuPower) (by decide)
  · rw [if_pos h0, if_neg h0, i32_eq (by unfold IsI32; omega)]
    have := h.thermalBudgetNotify (b := n) (by omega)
    rwa [if_neg (by omega)] at this

/-! ## Coolers -/

/-- The smallest level decides. -/
theorem coolerLeast_of_min {cs : List Cooler} {m : Int} (hok : ∀ c ∈ cs, c.Ok)
    (hmem : ∃ c ∈ cs, c.level = m) (hle : ∀ c ∈ cs, m ≤ c.level) : CoolerLeast cs m := by
  refine ⟨?_, ?_⟩
  · rcases Int.le_total maximumCpuPower m with h | h
    · exact .inl (Int.min_eq_left h)
    · obtain ⟨c, hc, rfl⟩ := hmem
      rw [Int.min_eq_right h]
      exact .inr ⟨c, hc, (hok c hc).level.symm⟩
  · rintro x (rfl | ⟨c, hc, rfl⟩)
    · exact Int.min_le_left ..
    · rw [← (hok c hc).level]
      exact Int.le_trans (Int.min_le_right ..) (hle c hc)

/-- Only the levels at the states count. -/
theorem CoolerLeast.congr {cs cs' : List Cooler} {m : Int} (h : CoolerLeast cs m)
    (hiff : ∀ x, (∃ c ∈ cs, c.current = x) ↔ ∃ c ∈ cs', c.current = x) : CoolerLeast cs' m := by
  have he : {x | x = maximumCpuPower ∨ ∃ c ∈ cs', c.current = x} =
      {x | x = maximumCpuPower ∨ ∃ c ∈ cs, c.current = x} :=
    Set.ext fun x => or_congr_right (hiff x).symm
  unfold CoolerLeast
  rw [he]
  exact h

/-- The list is sorted, and its first level is the smallest. -/
theorem thermalLevelCompare_spec {cs : List Cooler} (hne : cs ≠ []) (hok : ∀ c ∈ cs, c.Ok) :
    (thermalLevelCompare cs).1.Perm cs ∧ (∃ c ∈ cs, c.level = (thermalLevelCompare cs).2) ∧
      ∀ c ∈ cs, (thermalLevelCompare cs).2 ≤ c.level := by
  have hperm := List.perm_insertionSort LevelLe cs
  have hcmp : ∀ a ∈ cs, ∀ b ∈ cs, LevelLe a b ↔ a.level ≤ b.level := fun a ha b hb => by
    obtain ⟨-, ha, ha'⟩ := hok a ha
    obtain ⟨-, hb, hb'⟩ := hok b hb
    rw [LevelLe, i32_eq (by unfold IsI32; omega)]
    omega
  have hpair := List.pairwise_insertionSort (· ≤ ·) (cs.map Cooler.level)
  rw [← List.map_insertionSort LevelLe (· ≤ ·) Cooler.level cs hcmp] at hpair
  unfold thermalLevelCompare
  cases hs : cs.insertionSort LevelLe with
  | nil => exact absurd (hs ▸ hperm).nil_eq.symm hne
  | cons c rest =>
    rw [hs] at hperm hpair
    refine ⟨hperm, ⟨c, hperm.subset (List.mem_cons_self ..), rfl⟩, fun d hd => ?_⟩
    rw [List.map_cons, List.pairwise_cons] at hpair
    rcases List.mem_cons.1 (hperm.symm.subset hd) with rfl | hd
    · exact Int.le_refl _
    · exact hpair.1 _ (List.mem_map_of_mem hd)

section
variable {s : State} {c d : Cooler}

theorem map_id_setCooler (c : Cooler) :
    (s.setCooler c).coolers.map Cooler.id = s.coolers.map Cooler.id := by
  rw [State.setCooler, List.map_map]
  refine List.map_congr_left fun d _ => ?_
  simp only [Function.comp]
  split
  next h => exact h.symm
  next => rfl

theorem mem_setCooler (h : d ∈ (s.setCooler c).coolers) :
    d = c ∨ d ∈ s.coolers ∧ d.id ≠ c.id := by
  obtain ⟨e, he, hd⟩ := List.mem_map.1 h
  split at hd
  next => exact .inl hd.symm
  next hne => exact .inr (hd ▸ ⟨he, hne⟩)

theorem mem_setCooler_self (h : ∃ e ∈ s.coolers, e.id = c.id) : c ∈ (s.setCooler c).coolers := by
  obtain ⟨e, he, hid⟩ := h
  exact List.mem_map.2 ⟨e, he, if_pos hid⟩

theorem mem_setCooler_of_ne (h : d ∈ s.coolers) (hne : d.id ≠ c.id) :
    d ∈ (s.setCooler c).coolers :=
  List.mem_map.2 ⟨d, h, if_neg hne⟩

end

/-- A cooler that is found. -/
theorem find_spec {cs : List Cooler} {id : Nat} {c : Cooler}
    (h : cs.find? (fun c => c.id = id) = some c) : c ∈ cs ∧ c.id = id := by
  have hid := List.find?_some h
  exact ⟨List.mem_of_find?_eq_some h, by simpa using hid⟩

section
variable {s s' : State} {budget : Int} (h : Inv s budget)
include h

theorem Inv.unique {c d : Cooler} (hc : c ∈ s.coolers) (hd : d ∈ s.coolers) (he : c.id = d.id) :
    c = d :=
  List.inj_on_of_nodup_map h.ids hc hd he

/-- **A change of state** computes the level of the coolers anew. -/
theorem Inv.setCurState {c : Cooler} {state : Nat} (hc : c ∈ s.coolers)
    (hm : Meets s (.setCurState c.id state)) :
    ∃ s', setCurState s c state = some s' ∧ Inv s' budget := by
  unfold Budget.setCurState
  by_cases hsame : c.state = state
  · exact ⟨s, if_pos hsame, h⟩
  rw [if_neg hsame]
  have hmin : (if state > c.maxState then c.maxState else state) = min state c.maxState := by
    split <;> omega
  rw [hmin]
  generalize hst : min state c.maxState = st
  -- the entry that is in use now
  obtain ⟨level, hentry, hpos, hint, hcur⟩ : ∃ level,
      (if st = 0 then some maximumCpuPower else c.levels[st - 1]?) = some level ∧ 0 < level ∧
        level < 2147483648 ∧
          Cooler.current ⟨c.id, st, c.maxState, level, c.levels, c.length_eq⟩ = level := by
    by_cases h0 : st = 0
    · exact ⟨maximumCpuPower, if_pos h0, by decide, by decide, if_pos h0⟩
    · obtain ⟨level, hl, hl1, hl2⟩ := hm c hc rfl hsame (hst ▸ h0)
      rw [hst] at hl
      refine ⟨level, by rw [if_neg h0, hl], hl1, hl2, ?_⟩
      rw [Cooler.current, if_neg h0, hl]
      rfl
  dsimp only
  rw [hentry, Option.map_some]
  refine ⟨_, rfl, ?_⟩
  generalize hc' : (⟨c.id, st, c.maxState, level, c.levels, c.length_eq⟩ : Cooler) = c'
  have hid : c'.id = c.id := by rw [← hc']
  have hok' : c'.Ok := by
    rw [← hc']
    exact ⟨hcur.symm, hpos, hint⟩
  have hoks : ∀ d ∈ (s.setCooler c').coolers, d.Ok := fun d hd => by
    rcases mem_setCooler hd with rfl | ⟨hd, -⟩
    · exact hok'
    · exact h.coolers d hd
  have hself := mem_setCooler_self (s := s) (c := c') ⟨c, hc, hid.symm⟩
  obtain ⟨hperm, hmem, hle⟩ := thermalLevelCompare_spec (List.ne_nil_of_mem hself) hoks
  generalize thermalLevelCompare (s.setCooler c').coolers = q at hperm hmem hle
  obtain ⟨budget', applied, he, heq, happ⟩ := notify_spec
    (s := ⟨q.1, s.next, s.budget, q.2, s.budgetCpu, s.applied⟩) s.budgetCpu q.2 h.applied
  change Inv (State.notify ⟨q.1, s.next, s.budget, q.2, s.budgetCpu, s.applied⟩ s.budgetCpu q.2) _
  rw [he]
  have hoksq : ∀ d ∈ q.1, d.Ok := fun d hd => hoks d (hperm.subset hd)
  refine ⟨h.cpu, h.budget_pos, heq, happ, ?_, ?_, hoksq, ?_, fun d hd => ?_⟩
  · refine coolerLeast_of_min hoksq ?_ fun d hd => hle d (hperm.subset hd)
    obtain ⟨d, hd, hdl⟩ := hmem
    exact ⟨d, hperm.symm.subset hd, hdl⟩
  · obtain ⟨d, hd, hdl⟩ := hmem
    exact hdl ▸ (hoks d hd).pos
  · have hids := map_id_setCooler (s := s) c'
    exact ((hperm.map Cooler.id).nodup_iff).2 (hids ▸ h.ids)
  · rcases mem_setCooler (hperm.subset hd) with rfl | ⟨hd, -⟩
    · rw [hid]
      exact h.next c hc
    · exact h.next d hd

/-- **A change of the table** leaves the entry in use as it is. -/
theorem Inv.levelsStore {c : Cooler} {parsed : Option (Int × Int)} (hc : c ∈ s.coolers)
    (hm : Meets s (.levelsStore c.id parsed)) :
    ∃ ret s', levelsStore s c parsed = some (ret, s') ∧ Inv s' budget := by
  unfold Budget.levelsStore
  cases parsed with
  | none => exact ⟨_, s, rfl, h⟩
  | some p =>
    obtain ⟨state, level⟩ := p
    dsimp only
    split
    · exact ⟨_, s, rfl, h⟩
    next hlt =>
      obtain ⟨hin, hsame⟩ := hm c hc rfl state level rfl (by omega)
      rw [if_pos hin]
      refine ⟨0, _, rfl, ?_⟩
      generalize hc' : (⟨c.id, c.state, c.maxState, c.level, c.levels.set state.toNat level, by
        rw [List.length_set, c.length_eq]⟩ : Cooler) = c'
      have hid : c'.id = c.id := by rw [← hc']
      have hlevel : c'.level = c.level := by rw [← hc']
      have hcur : c'.current = c.current := by
        rw [← hc', Cooler.current, Cooler.current]
        split
        · rfl
        next h0 =>
          dsimp only at h0 ⊢
          by_cases heq : state.toNat = c.state - 1
          · have hentry := hsame (by omega)
            rw [← heq, hentry, List.getElem?_set_self (by rw [c.length_eq]; exact hin.2)]
          · rw [List.getElem?_set_ne heq]
      have hok : ∀ d ∈ (s.setCooler c').coolers, d.Ok := fun d hd => by
        rcases mem_setCooler hd with rfl | ⟨hd, -⟩
        · have hcok := h.coolers c hc
          exact ⟨by rw [hlevel, hcur]; exact hcok.level, hlevel ▸ hcok.pos, hlevel ▸ hcok.int⟩
        · exact h.coolers d hd
      refine ⟨h.cpu, h.budget_pos, h.eq, h.applied, h.cooler.congr fun x => ⟨?_, ?_⟩,
        h.cooler_pos, hok, by rw [map_id_setCooler]; exact h.ids, fun d hd => ?_⟩
      · rintro ⟨d, hd, hdx⟩
        by_cases hdc : d.id = c.id
        · rw [h.unique hd hc hdc, ← hcur] at hdx
          exact ⟨c', mem_setCooler_self ⟨c, hc, hid.symm⟩, hdx⟩
        · exact ⟨d, mem_setCooler_of_ne hd (hid ▸ hdc), hdx⟩
      · rintro ⟨d, hd, hdx⟩
        rcases mem_setCooler hd with rfl | ⟨hd, -⟩
        · exact ⟨c, hc, hcur ▸ hdx⟩
        · exact ⟨d, hd, hdx⟩
      · rcases mem_setCooler hd with rfl | ⟨hd, -⟩
        · rw [hid]
          exact h.next c hc
        · exact h.next d hd

/-- **A registration** of a cooler that is not below the others. -/
theorem Inv.register {c : Config} {mem : Bool} (hm : Meets s (.register c mem)) :
    Inv (budgetCoolerProbe s c mem).2 budget := by
  cases mem with
  | false => exact h
  | true =>
    obtain ⟨hok, hle⟩ := hm rfl
    refine ⟨h.cpu, h.budget_pos, h.eq, h.applied, ⟨?_, ?_⟩, h.cooler_pos, ?_, ?_, ?_⟩
    · exact h.cooler.1.imp_right fun ⟨d, hd, hdx⟩ => ⟨d, List.mem_cons_of_mem _ hd, hdx⟩
    · rintro x (rfl | ⟨d, hd, rfl⟩)
      · exact Int.min_le_left ..
      · rcases List.mem_cons.1 hd with rfl | hd
        · rw [← hok.level]
          exact hle
        · exact h.cooler.2 (.inr ⟨d, hd, rfl⟩)
    · exact fun d hd => (List.mem_cons.1 hd).elim (fun he => he ▸ hok) (h.coolers d)
    · refine List.nodup_cons.2 ⟨fun hmem => ?_, h.ids⟩
      obtain ⟨d, hd, hid⟩ := List.mem_map.1 hmem
      exact absurd (h.next d hd) (by rw [hid]; exact Nat.lt_irrefl _)
    · intro d hd
      rcases List.mem_cons.1 hd with rfl | hd
      · exact Nat.lt_succ_self _
      · exact Nat.lt_succ_of_lt (h.next d hd)

/-- **A removal** of a cooler that does not decide alone. -/
theorem Inv.remove {id : Nat} (hm : Meets s (.remove id)) :
    Inv (budgetCoolerRemove s id) budget := by
  have hsub : (s.coolers.eraseP fun c => c.id = id).Sublist s.coolers := List.eraseP_sublist
  have hmem : ∀ d ∈ s.coolers, d.id ≠ id → d ∈ s.coolers.eraseP fun c => c.id = id :=
    fun d hd hne => (List.mem_eraseP_of_neg (by simpa using hne)).2 hd
  refine ⟨h.cpu, h.budget_pos, h.eq, h.applied, ⟨?_, ?_⟩, h.cooler_pos,
    fun d hd => h.coolers d (hsub.subset hd), h.ids.sublist (hsub.map _),
    fun d hd => h.next d (hsub.subset hd)⟩
  · rcases h.cooler.1 with hmax | ⟨c, hc, hcx⟩
    · exact .inl hmax
    by_cases hid : c.id = id
    · rcases hm c hc hid with hge | ⟨d, hd, hne, hle⟩
      · rw [(h.coolers c hc).level, hcx] at hge
        exact .inl (show min maximumCpuPower s.budgetCooler = _ by omega)
      · have hle' : d.current ≤ min maximumCpuPower s.budgetCooler := by
          rw [← hcx, ← (h.coolers d hd).level, ← (h.coolers c hc).level]
          exact hle
        exact .inr ⟨d, hmem d hd hne, Int.le_antisymm hle' (h.cooler.2 (.inr ⟨d, hd, rfl⟩))⟩
    · exact .inr ⟨c, hmem c hc hid, hcx⟩
  · rintro x (rfl | ⟨d, hd, rfl⟩)
    · exact Int.min_le_left ..
    · exact h.cooler.2 (.inr ⟨d, hsub.subset hd, rfl⟩)

/-! ## Runs -/

theorem Inv.kept {e : Event} (hm : Meets s e) :
    ∃ ret s', step s e = some (ret, s') ∧ Inv s' (written budget e) := by
  cases e with
  | write parsed =>
    obtain ⟨n, rfl, hn⟩ := hm
    exact ⟨0, _, rfl, h.thermalBudgetWrite hn⟩
  | notify b => exact ⟨0, _, rfl, h.thermalBudgetNotify hm⟩
  | register c mem => exact ⟨_, _, rfl, h.register hm⟩
  | setCurState id state =>
    unfold step
    dsimp only
    cases hf : s.coolers.find? fun c => c.id = id with
    | none => exact ⟨_, s, rfl, h⟩
    | some c =>
      obtain ⟨hc, rfl⟩ := find_spec hf
      obtain ⟨s', hs, hi⟩ := h.setCurState hc hm
      exact ⟨0, s', by dsimp only; rw [hs]; rfl, hi⟩
  | levelsStore id parsed =>
    unfold step
    dsimp only
    cases hf : s.coolers.find? fun c => c.id = id with
    | none => exact ⟨_, s, rfl, h⟩
    | some c =>
      obtain ⟨hc, rfl⟩ := find_spec hf
      exact h.levelsStore hc hm
  | remove id => exact ⟨0, _, rfl, h.remove hm⟩

end

theorem inv_init : Inv State.init maximumCpuPower :=
  ⟨rfl, by decide, rfl, rfl,
    ⟨.inl rfl, by rintro x (rfl | ⟨c, hc, -⟩); exacts [Int.le_refl _, nomatch hc]⟩,
    by decide, nofun, List.nodup_nil, nofun⟩

/-- A cooler in state `state` of two, with the levels 2000 and 1000. -/
def config (state : Nat) (level : Int) : Config :=
  ⟨state, 2, level, 2000 :: 1000 :: List.replicate 10 0, rfl⟩

/-- Two coolers, one of which goes to its first state while the budget is 3000. -/
def twoCoolers : List Event :=
  [.register (config 0 4600) true, .register (config 0 4600) true, .write (some 3000),
    .setCurState 0 1]

/-- The limits in force after the steps of a run. -/
def limits (es : List Event) : List Int :=
  (List.range (es.length + 1)).filterMap fun n =>
    (Sys.run step State.init (es.take n)).map fun q => q.2.limit

end Thermal.Budget
