import FireTablet.Battery.Cycle
import FireTablet.Lib.Run

/-!
# The accounts of the battery cycles

An event clears the accumulator, with whatever it holds beyond the threshold. The accounts balance
as long as each event comes just at the threshold (`cycles_accounted`), and a step that passes it
loses the excess (`accu_iff`).
-/

namespace Battery

open CInt

/-- How much the counter fell. -/
def fall (last fgCoulomb : Int) : Int := max 0 (last - fgCoulomb)

/-- The sum of the decreases of the counter between consecutive calls, from a last reading on. After
a reset the last reading is zero. -/
def falls (disableGM30 : Bool) : Int → List CycleIn → Int
  | _, [] => 0
  | last, .accu fgCoulomb :: is => fall last fgCoulomb + falls disableGM30 fgCoulomb is
  | last, .reset fgCoulomb :: is =>
    if disableGM30 then falls disableGM30 last is
    else fall last fgCoulomb + falls disableGM30 0 is

/-- The number of events. -/
def cycleEvents (es : List (CycleIn × Bool)) : Nat := es.countP fun e => e.2

/-- The versions that count cycles in software. -/
def SwCycles (gaugeVersion : Int) : Prop :=
  gaugeVersion ≥ gaugeHwV1000 ∧ gaugeVersion < gaugeHwV2000

instance (gaugeVersion : Int) : Decidable (SwCycles gaugeVersion) :=
  inferInstanceAs (Decidable (_ ∧ _))

/-- The condition on a reading: the counter moves by no more than the type holds, and the decrease
fills the accumulator to no more than the type holds, and where the threshold is looked at to no
more than that. -/
structure AccuFits (gaugeVersion : Int) (gm : CycleCount) (fgCoulomb : Int) : Prop where
  rises : fgCoulomb - gm.batCycleCar < 2147483648
  falls : gm.batCycleCar - fgCoulomb ≤ 2147483648
  sum : gm.batCycleNcar + fall gm.batCycleCar fgCoulomb < 2147483648
  thr : SwCycles gaugeVersion →
    gm.batCycleNcar + fall gm.batCycleCar fgCoulomb ≤ gm.batCycleThr

instance (gaugeVersion : Int) (gm : CycleCount) (fgCoulomb : Int) :
    Decidable (AccuFits gaugeVersion gm fgCoulomb) :=
  decidable_of_iff (_ ∧ _ ∧ _ ∧ (_ → _))
    ⟨fun h => ⟨h.1, h.2.1, h.2.2.1, h.2.2.2⟩, fun h => ⟨h.rises, h.falls, h.sum, h.thr⟩⟩

/-- The condition on a call. -/
def CycleFits (disableGM30 : Bool) (gaugeVersion : Int) (gm : CycleCount) : CycleIn → Prop
  | .accu fgCoulomb => AccuFits gaugeVersion gm fgCoulomb
  | .reset fgCoulomb => disableGM30 = false → AccuFits gaugeVersion gm fgCoulomb

instance (disableGM30 : Bool) (gaugeVersion : Int) (gm : CycleCount) :
    DecidablePred (CycleFits disableGM30 gaugeVersion gm)
  | .accu _ => inferInstanceAs (Decidable (AccuFits _ _ _))
  | .reset _ => inferInstanceAs (Decidable (_ → _))

/-- The threshold times the number of events. -/
def worth (gm : CycleCount) (woken : Bool) : Int := if woken then gm.batCycleThr else 0

/-! ## One call -/

section
variable {gaugeVersion : Int} {gm : CycleCount} {fgCoulomb : Int}

/-- The accumulator before the threshold is looked at. -/
def accumulated (gm : CycleCount) (fgCoulomb : Int) : Int :=
  if i32 (fgCoulomb - gm.batCycleCar) > 0 then gm.batCycleNcar
  else i32 (gm.batCycleNcar + i32 (i32 (fgCoulomb - gm.batCycleCar)).natAbs)

theorem accu_eq (hpos : 0 < gm.batCycleThr) :
    fgSwBatCycleAccu gaugeVersion gm fgCoulomb =
      if SwCycles gaugeVersion ∧ gm.batCycleThr ≤ accumulated gm fgCoulomb then
        (true, ⟨gm.batCycleThr, fgCoulomb, 0⟩)
      else (false, ⟨gm.batCycleThr, fgCoulomb, accumulated gm fgCoulomb⟩) := by
  have hcount : (if i32 (fgCoulomb - gm.batCycleCar) > 0 then { gm with batCycleCar := fgCoulomb }
      else { gm with
        batCycleNcar :=
          i32 (gm.batCycleNcar + i32 (i32 (fgCoulomb - gm.batCycleCar)).natAbs),
        batCycleCar := fgCoulomb }) =
      (⟨gm.batCycleThr, fgCoulomb, accumulated gm fgCoulomb⟩ : CycleCount) := by
    unfold accumulated
    split_ifs <;> rfl
  unfold fgSwBatCycleAccu SwCycles
  dsimp only
  rw [hcount]
  dsimp only
  by_cases hsw : gaugeVersion ≥ gaugeHwV1000 ∧ gaugeVersion < gaugeHwV2000
  · rw [if_pos hsw]
    by_cases hthr : gm.batCycleThr ≤ accumulated gm fgCoulomb
    · rw [if_pos ⟨hpos, hthr⟩, if_pos ⟨hsw, hthr⟩]
    · rw [if_neg fun hc => hthr hc.2, if_neg fun hc => hthr hc.2]
  · rw [if_neg hsw, if_neg fun hc => hsw hc.1]

/-- The accumulator gets the decrease if and only if nothing wraps. -/
theorem accumulated_iff (hncar : IsI32 gm.batCycleNcar) (hcar : IsI32 gm.batCycleCar)
    (hcoulomb : IsI32 fgCoulomb) :
    accumulated gm fgCoulomb = gm.batCycleNcar + fall gm.batCycleCar fgCoulomb ↔
      fgCoulomb - gm.batCycleCar < 2147483648 ∧ gm.batCycleCar - fgCoulomb ≤ 2147483648 ∧
        gm.batCycleNcar + fall gm.batCycleCar fgCoulomb < 2147483648 := by
  unfold IsI32 at *
  unfold accumulated fall i32
  split_ifs <;> omega

theorem AccuFits.accumulated (h : AccuFits gaugeVersion gm fgCoulomb)
    (hncar : IsI32 gm.batCycleNcar) :
    accumulated gm fgCoulomb = gm.batCycleNcar + fall gm.batCycleCar fgCoulomb := by
  obtain ⟨hrises, hfalls, hsum, -⟩ := h
  unfold IsI32 at hncar
  unfold fall at hsum
  unfold Battery.accumulated fall i32
  split_ifs <;> omega

/-- **One call** whose reading fits: the event takes the threshold out of the accumulator, which
has got the decrease. -/
theorem accu_fits (hpos : 0 < gm.batCycleThr) (hncar : IsI32 gm.batCycleNcar)
    (h : AccuFits gaugeVersion gm fgCoulomb) :
    ∃ woken ncar, fgSwBatCycleAccu gaugeVersion gm fgCoulomb =
        (woken, ⟨gm.batCycleThr, fgCoulomb, ncar⟩) ∧ IsI32 ncar ∧
      worth gm woken + ncar = gm.batCycleNcar + fall gm.batCycleCar fgCoulomb := by
  have hacc := h.accumulated hncar
  rw [accu_eq hpos]
  by_cases hev : SwCycles gaugeVersion ∧ gm.batCycleThr ≤ accumulated gm fgCoulomb
  · have hle := h.thr hev.1
    rw [if_pos hev]
    refine ⟨true, 0, rfl, by decide, ?_⟩
    have hge := hev.2
    rw [worth, if_pos rfl]
    omega
  · rw [if_neg hev]
    refine ⟨false, _, rfl, ?_, ?_⟩
    · unfold accumulated
      split_ifs
      · exact hncar
      · exact isI32_i32 _
    · rw [worth, if_neg Bool.false_ne_true, hacc, Int.zero_add]

/-- Below the threshold a reading that does not fit breaks the accounts. -/
theorem accu_iff (hpos : 0 < gm.batCycleThr) (hthr : IsI32 gm.batCycleThr)
    (hncar : IsI32 gm.batCycleNcar) (hcar : IsI32 gm.batCycleCar) (hcoulomb : IsI32 fgCoulomb)
    (hbelow : SwCycles gaugeVersion → gm.batCycleNcar < gm.batCycleThr) :
    worth gm (fgSwBatCycleAccu gaugeVersion gm fgCoulomb).1 +
        (fgSwBatCycleAccu gaugeVersion gm fgCoulomb).2.batCycleNcar =
      gm.batCycleNcar + fall gm.batCycleCar fgCoulomb ↔ AccuFits gaugeVersion gm fgCoulomb := by
  constructor
  · intro h
    have hacc := accumulated_iff hncar hcar hcoulomb
    rw [accu_eq hpos] at h
    by_cases hev : SwCycles gaugeVersion ∧ gm.batCycleThr ≤ accumulated gm fgCoulomb
    · have hlt := hbelow hev.1
      rw [if_pos hev, worth, if_pos rfl] at h
      have hge := hev.2
      dsimp only at h
      have hfall : gm.batCycleCar - fgCoulomb ≤ 2147483648 := by
        -- a greater decrease looks like a rise and is dropped
        by_contra hgreat
        unfold IsI32 at hcar hcoulomb
        unfold accumulated at hge
        rw [if_pos (by unfold i32; omega)] at hge
        omega
      unfold IsI32 at hthr
      unfold fall at h
      exact ⟨by omega, hfall, by unfold fall; omega, fun _ => by unfold fall; omega⟩
    · rw [if_neg hev, worth, if_neg Bool.false_ne_true, Int.zero_add] at h
      obtain ⟨hrises, hfalls, hsum⟩ := hacc.1 h
      refine ⟨hrises, hfalls, hsum, fun hsw => ?_⟩
      by_contra hover
      exact hev ⟨hsw, by dsimp only at h; omega⟩
  · intro h
    obtain ⟨woken, ncar, heq, -, hsum⟩ := accu_fits hpos hncar h
    rw [heq]
    exact hsum

end

/-! ## Runs -/

/-- A call that fits. -/
theorem cycleStep_fits {disableGM30 : Bool} {gaugeVersion : Int} {gm : CycleCount} {i : CycleIn}
    (hpos : 0 < gm.batCycleThr) (hncar : IsI32 gm.batCycleNcar)
    (h : CycleFits disableGM30 gaugeVersion gm i) :
    ∃ woken gm', cycleStep disableGM30 gaugeVersion gm i = some (woken, gm') ∧
      gm'.batCycleThr = gm.batCycleThr ∧ IsI32 gm'.batCycleNcar ∧
      ∀ is, worth gm woken + gm'.batCycleNcar + falls disableGM30 gm'.batCycleCar is =
        gm.batCycleNcar + falls disableGM30 gm.batCycleCar (i :: is) := by
  cases i with
  | accu fgCoulomb =>
    obtain ⟨woken, ncar, heq, hncar', hsum⟩ := accu_fits hpos hncar h
    refine ⟨woken, ⟨gm.batCycleThr, fgCoulomb, ncar⟩, by rw [cycleStep, heq], rfl, hncar',
      fun is => ?_⟩
    rw [falls]
    dsimp only
    omega
  | reset fgCoulomb =>
    cases disableGM30 with
    | true =>
      refine ⟨false, gm, rfl, rfl, hncar, fun is => ?_⟩
      rw [worth, if_neg Bool.false_ne_true, falls, if_pos rfl, Int.zero_add]
    | false =>
      obtain ⟨woken, ncar, heq, hncar', hsum⟩ := accu_fits hpos hncar (h rfl)
      refine ⟨woken, ⟨gm.batCycleThr, 0, ncar⟩, ?_, rfl, hncar', fun is => ?_⟩
      · rw [cycleStep, resetSet, if_neg Bool.false_ne_true, heq]
      · rw [falls, if_neg Bool.false_ne_true]
        dsimp only
        omega

/-- **The accounts** of a run whose calls all fit: the threshold for each event, and what is in the
accumulator, are what was in it and the decreases of the counter. -/
theorem cycles_accounted (disableGM30 : Bool) (gaugeVersion : Int) (is : List CycleIn)
    {gm : CycleCount} (hpos : 0 < gm.batCycleThr) (hncar : IsI32 gm.batCycleNcar)
    (hfits : Sys.Along (cycleStep disableGM30 gaugeVersion) (CycleFits disableGM30 gaugeVersion)
      gm is) :
    ∃ es gm', Sys.run (cycleStep disableGM30 gaugeVersion) gm is = some (es, gm') ∧
      gm.batCycleThr * cycleEvents es + gm'.batCycleNcar =
        gm.batCycleNcar + falls disableGM30 gm.batCycleCar is := by
  induction is generalizing gm with
  | nil => exact ⟨[], gm, rfl, by simp [cycleEvents, falls]⟩
  | cons i is ih =>
    obtain ⟨woken, gm1, hstep, hthr, hncar1, hsum⟩ := cycleStep_fits hpos hncar hfits.1
    obtain ⟨es, gm', hrun, hes⟩ := ih (hthr ▸ hpos) hncar1 (hfits.2 woken gm1 hstep)
    refine ⟨(i, woken) :: es, gm', by rw [Sys.run_cons_some is hstep, hrun]; rfl, ?_⟩
    have hcount : gm.batCycleThr * (cycleEvents ((i, woken) :: es) : Int) =
        worth gm woken + gm.batCycleThr * cycleEvents es := by
      cases woken with
      | true => simp [cycleEvents, worth, Int.mul_add, Int.add_comm]
      | false => simp [cycleEvents, worth]
    rw [hthr] at hes
    rw [hcount, ← hsum is]
    omega

/-- A gauge of the version 1000 with the threshold 5. -/
def cycleFive : CycleCount := ⟨5, 10, 0⟩

theorem cycles_accounted_five :
    ∃ es gm', Sys.run (cycleStep false 1000) cycleFive
        [.accu 7, .accu 9, .reset 7, .accu 4, .accu 1] = some (es, gm') ∧
      cycleFive.batCycleThr * cycleEvents es + gm'.batCycleNcar =
        cycleFive.batCycleNcar + falls false cycleFive.batCycleCar
          [.accu 7, .accu 9, .reset 7, .accu 4, .accu 1] :=
  cycles_accounted false 1000 _ (by decide) (by decide) (by decide)

/-- A decrease by 7 with the threshold 5 loses 2. -/
theorem cycles_lost :
    ¬ ∃ es gm', Sys.run (cycleStep false 1000) cycleFive [.accu 3] = some (es, gm') ∧
      cycleFive.batCycleThr * cycleEvents es + gm'.batCycleNcar =
        cycleFive.batCycleNcar + falls false cycleFive.batCycleCar [.accu 3] := by
  have hrun : Sys.run (cycleStep false 1000) cycleFive [.accu 3] =
      some ([(.accu 3, true)], ⟨5, 3, 0⟩) := by decide
  intro h
  obtain ⟨es, gm', heq, hsum⟩ := h
  rw [hrun, Option.some.injEq, Prod.mk.injEq] at heq
  rw [← heq.1, ← heq.2] at hsum
  exact absurd hsum (by decide)

/-! ## Which calls balance -/

/-- The decrease that a call counts. -/
def CycleIn.fall (disableGM30 : Bool) (last : Int) : CycleIn → Int
  | .accu fgCoulomb => Battery.fall last fgCoulomb
  | .reset fgCoulomb => if disableGM30 then 0 else Battery.fall last fgCoulomb

/-- The counter that a call reads, which is an `int`. -/
def CycleIn.reading : CycleIn → Int
  | .accu fgCoulomb | .reset fgCoulomb => fgCoulomb

/-- A call balances: the threshold for an event, and the accumulator, have got the decrease. -/
def Balanced (disableGM30 : Bool) (gaugeVersion : Int) (gm : CycleCount) (i : CycleIn) : Prop :=
  ∀ q, cycleStep disableGM30 gaugeVersion gm i = some q →
    worth gm q.1 + q.2.batCycleNcar = gm.batCycleNcar + i.fall disableGM30 gm.batCycleCar

/-- The fields are `int`s, with a threshold, and an accumulator that is below it where it is looked
at. -/
structure CycleCount.Ok (gaugeVersion : Int) (gm : CycleCount) : Prop where
  pos : 0 < gm.batCycleThr
  thr : IsI32 gm.batCycleThr
  ncar : IsI32 gm.batCycleNcar
  car : IsI32 gm.batCycleCar
  below : SwCycles gaugeVersion → gm.batCycleNcar < gm.batCycleThr

section
variable {disableGM30 : Bool} {gaugeVersion : Int} {gm : CycleCount} {i : CycleIn}

theorem balanced_iff (h : gm.Ok gaugeVersion) (hi : IsI32 i.reading) :
    Balanced disableGM30 gaugeVersion gm i ↔ CycleFits disableGM30 gaugeVersion gm i := by
  have hone := accu_iff h.pos h.thr h.ncar h.car hi h.below
  cases i with
  | accu fgCoulomb =>
    refine Iff.trans ⟨fun hb => hb _ rfl, fun he q hstep => ?_⟩ hone
    cases hstep
    exact he
  | reset fgCoulomb =>
    cases disableGM30 with
    | true =>
      -- nothing is done, and nothing is counted
      refine iff_of_true (fun q hstep => ?_) fun he => Bool.noConfusion he
      cases hstep
      exact Int.add_comm 0 _
    | false =>
      refine Iff.trans ⟨fun hb => hb _ rfl, fun he q hstep => ?_⟩
        (hone.trans ⟨fun hf _ => hf, fun hf => hf rfl⟩)
      cases hstep
      exact he

/-- The fields after a call of `fg_sw_bat_cycle_accu`. -/
theorem accu_ok (h : gm.Ok gaugeVersion) {fgCoulomb : Int} (hi : IsI32 fgCoulomb) :
    (fgSwBatCycleAccu gaugeVersion gm fgCoulomb).2.Ok gaugeVersion := by
  rw [accu_eq h.pos]
  by_cases hev : SwCycles gaugeVersion ∧ gm.batCycleThr ≤ accumulated gm fgCoulomb
  · rw [if_pos hev]
    exact ⟨h.pos, h.thr, (by decide : IsI32 0), hi, fun _ => h.pos⟩
  · rw [if_neg hev]
    refine ⟨h.pos, h.thr, ?_, hi, fun hsw => Int.not_le.1 fun hle => hev ⟨hsw, hle⟩⟩
    dsimp only
    unfold accumulated
    split_ifs
    · exact h.ncar
    · exact isI32_i32 _

theorem cycleStep_ok (h : gm.Ok gaugeVersion) (hi : IsI32 i.reading)
    {q : Bool × CycleCount} (hstep : cycleStep disableGM30 gaugeVersion gm i = some q) :
    q.2.Ok gaugeVersion := by
  cases i with
  | accu fgCoulomb =>
    have hok := accu_ok h hi
    cases hstep
    exact hok
  | reset fgCoulomb =>
    cases disableGM30 with
    | true =>
      cases hstep
      exact h
    | false =>
      have hok := accu_ok h hi
      cases hstep
      exact ⟨hok.pos, hok.thr, hok.ncar, (by decide : IsI32 0), hok.below⟩

/-- **Which runs balance**: every call of a sequence balances exactly when every call fits. -/
theorem cycles_balanced_iff (disableGM30 : Bool) (h : gm.Ok gaugeVersion) {is : List CycleIn}
    (hi : ∀ i ∈ is, IsI32 i.reading) :
    Sys.Along (cycleStep disableGM30 gaugeVersion) (Balanced disableGM30 gaugeVersion) gm is ↔
      Sys.Along (cycleStep disableGM30 gaugeVersion) (CycleFits disableGM30 gaugeVersion) gm is := by
  induction is generalizing gm with
  | nil => exact Iff.rfl
  | cons i is ih =>
    have hread := hi i List.mem_cons_self
    exact and_congr (balanced_iff h hread) <| forall_congr' fun _ => forall_congr' fun _ =>
      imp_congr_right fun hstep =>
        ih (cycleStep_ok h hread hstep) fun j hj => hi j (List.mem_cons_of_mem _ hj)

end

theorem cycles_balanced_five :
    Sys.Along (cycleStep false 1000) (Balanced false 1000) cycleFive [.accu 7, .reset 3] ↔
      Sys.Along (cycleStep false 1000) (CycleFits false 1000) cycleFive [.accu 7, .reset 3] :=
  cycles_balanced_iff false ⟨by decide, by decide, by decide, by decide, fun _ => by decide⟩
    (by decide)

end Battery
