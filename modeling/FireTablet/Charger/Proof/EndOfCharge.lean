import FireTablet.Charger.Proof.Steps

/-!
# The end-of-charge protections over a run

What sets and what clears the two protections (`EocKept`), for every event of a run
(`end_of_charge`). A charge that
could not be read is negative and should count for nothing; the code logs it and goes on, so it is
below every recharge level, and above the configured one when it is compared as an unsigned number
(`EocOk` has the events where that does not matter). Times are in nanoseconds.
-/

namespace Charger

/-! ## The history -/

/-- The last `n` of a list satisfy `P`. -/
def LastAll {α : Type} (P : α → Prop) (n : Nat) (l : List α) : Prop :=
  ∃ l' sfx, l = l' ++ sfx ∧ sfx.length = n ∧ ∀ a ∈ sfx, P a

theorem LastAll.zero {α : Type} (P : α → Prop) (l : List α) : LastAll P 0 l :=
  ⟨l, [], (List.append_nil l).symm, rfl, by simp⟩

theorem LastAll.snoc {α : Type} {P : α → Prop} {n : Nat} {l : List α} {a : α}
    (h : LastAll P n l) (ha : P a) : LastAll P (n + 1) (l ++ [a]) := by
  obtain ⟨l', sfx, rfl, rfl, hall⟩ := h
  exact ⟨l', sfx ++ [a], List.append_assoc .., by simp,
    List.forall_mem_append.2 ⟨hall, List.forall_mem_singleton.2 ha⟩⟩

/-- The passes of a history. -/
def passesOf (pre : List (Ev × Seen)) : List PassReading :=
  pre.filterMap fun e => match e.1 with
    | .pass r => some r
    | _ => none

/-- Since when the cable is unplugged: at the start it has been for the reset time. -/
def lastOut (c : Conf) (pre : List (Ev × Seen)) : Int :=
  ((pre.filterMap fun e => match e.1 with
    | .plugOut now => some now
    | _ => none).getLast?).getD (-(c.eoc.batEocProtectResetTime * 1000000000))

/-- The passes after one more event. -/
def Ev.passes (e : Ev) : List PassReading :=
  match e with
  | .pass r => [r]
  | _ => []

theorem passesOf_snoc (pre : List (Ev × Seen)) (e : Ev) (q : Seen) :
    passesOf (pre ++ [(e, q)]) = passesOf pre ++ e.passes := by
  unfold passesOf Ev.passes
  rw [List.filterMap_append]
  cases e <;> rfl

theorem lastOut_plugOut (c : Conf) (pre : List (Ev × Seen)) (now : Int) (q : Seen) :
    lastOut c (pre ++ [(.plugOut now, q)]) = now := by
  unfold lastOut
  rw [List.filterMap_append]
  simp

theorem lastOut_other (c : Conf) (pre : List (Ev × Seen)) {e : Ev} (q : Seen)
    (h : ∀ now, e ≠ .plugOut now) : lastOut c (pre ++ [(e, q)]) = lastOut c pre := by
  unfold lastOut
  rw [List.filterMap_append]
  cases e with
  | plugOut now => exact absurd rfl (h now)
  | _ => simp

/-! ## What sets and clears a protection -/

/-- The conditions of the end of charge in a pass, by the driver in it. -/
def eocEntry (c : Conf) (r : EocReading) (i : Info) : Prop :=
  r.chgDone = true ∧ r.uiSoc = 100 ∧ i.customChargingCv = -1 ∧ i.set.customChargingMode = false ∧
    swJeitaCv (mtkGetBatteryCv c.cv r.stage) i.set.enableSwJeita i.swJeita.cv =
      mtkGetBatteryCv c.cv r.stage

/-- A lower voltage is charged to. -/
def lowerMode (c : Conf) (r : EocReading) (i : Info) : Prop :=
  0 < i.customChargingCv ∨
    swJeitaCv (mtkGetBatteryCv c.cv r.stage) i.set.enableSwJeita i.swJeita.cv <
      mtkGetBatteryCv c.cv r.stage ∨ i.set.customChargingMode = true

/-- A charge that could be read is below a level. -/
def below (soc level : Int) : Prop := 0 ≤ soc ∧ soc < level

/-- The exits of `bat_eoc_protect` in a pass. -/
def eocExit (c : Conf) (r : EocReading) (i : Info) (e : Eoc) : Prop :=
  below r.soc e.rechargeSoc ∨ r.uiSoc < 100 ∨ lowerMode c r i

/-- The exits of `dpm_disable_charging` in a pass. -/
def dpmExit (r : EocReading) (e : Eoc) : Prop :=
  r.curCv ≠ e.cvEnterDpmEoc ∨ below r.dpmSoc e.socExitDpmEoc

instance (c : Conf) (r : EocReading) (i : Info) : Decidable (eocEntry c r i) :=
  inferInstanceAs (Decidable (_ ∧ _))

instance (c : Conf) (r : EocReading) (i : Info) : Decidable (lowerMode c r i) :=
  inferInstanceAs (Decidable (_ ∨ _))

instance (soc level : Int) : Decidable (below soc level) := inferInstanceAs (Decidable (_ ∧ _))

instance (c : Conf) (r : EocReading) (i : Info) (e : Eoc) : Decidable (eocExit c r i e) :=
  inferInstanceAs (Decidable (_ ∨ _))

instance (r : EocReading) (e : Eoc) : Decidable (dpmExit r e) :=
  inferInstanceAs (Decidable (_ ∨ _))

/-- The cable has been unplugged for the reset time when it is plugged in. -/
def longOut (c : Conf) (pre : List (Ev × Seen)) : Ev → Prop
  | .plugIn now => c.eoc.batEocProtectResetTime * 1000000000 ≤ now - lastOut c pre
  | _ => False

/-- What an event does to the protections, after the events `pre`. -/
structure EocKept (c : Conf) (pre : List (Ev × Seen)) (x : Ctl) (e : Ev) (x' : Ctl) : Prop where
  bat_set : x.info.eoc.batEocProtect = false → x'.info.eoc.batEocProtect = true →
    ∃ r, e = .pass r ∧ r.chrType ≠ .unknown ∧ 0 ≤ r.eoc.soc ∧ eocEntry c r.eoc x'.info
  bat_cleared : x.info.eoc.batEocProtect = true → (x'.info.eoc.batEocProtect = false ↔
    (∃ r, e = .pass r ∧ eocExit c r.eoc x'.info x.info.eoc) ∨ longOut c pre e)
  bat_level : x.info.eoc.batEocProtect = true → x'.info.eoc.batEocProtect = true →
    x'.info.eoc.rechargeSoc = x.info.eoc.rechargeSoc
  dpm_set : x.info.eoc.dpmDisableCharging = false → x'.info.eoc.dpmDisableCharging = true →
    ∃ r, e = .pass r ∧ 0 ≤ r.eoc.dpmSoc ∧ ∃ n : Nat, c.eoc.dpmStateCountMax ≤ n ∧
      LastAll (fun p : PassReading => dpmState c p.eoc) n (passesOf pre ++ [r])
  dpm_cleared : x.info.eoc.dpmDisableCharging = true → (x'.info.eoc.dpmDisableCharging = false ↔
    (∃ r, e = .pass r ∧ dpmExit r.eoc x.info.eoc) ∨ longOut c pre e)
  dpm_level : x.info.eoc.dpmDisableCharging = true → x'.info.eoc.dpmDisableCharging = true →
    x'.info.eoc.socExitDpmEoc = x.info.eoc.socExitDpmEoc ∧
      x'.info.eoc.cvEnterDpmEoc = x.info.eoc.cvEnterDpmEoc

/-- A charge that could not be read does not matter to `bat_eoc_protect` in a pass, and a pass
without a charger finds none of its exits; `i` is the driver that the pass gives it. -/
def batOk (c : Conf) (r : EocReading) (i : Info) (e : Eoc) : Prop :=
  if i.chrType = .unknown then e.batEocProtect = true → ¬ eocExit c r i e
  else r.soc < 0 →
    if e.batEocProtect = true then e.rechargeSoc ≤ r.soc ∨ r.uiSoc < 100 ∨ lowerMode c r i
    else ¬ eocEntry c r i

/-- It does not matter to `dpm_disable_charging`. -/
def dpmOk (c : Conf) (r : EocReading) (e : Eoc) : Prop :=
  c.eoc.indpm = true → r.dpmSoc < 0 →
    if e.dpmDisableCharging = true then r.curCv ≠ e.cvEnterDpmEoc ∨ e.socExitDpmEoc ≤ r.dpmSoc
    else ¬ (dpmState c r ∧ c.eoc.dpmStateCountMax ≤ e.dpmStateCount + 1)

instance (c : Conf) (r : EocReading) (i : Info) (e : Eoc) : Decidable (batOk c r i e) := by
  unfold batOk
  infer_instance

instance (c : Conf) (r : EocReading) (e : Eoc) : Decidable (dpmOk c r e) := by
  unfold dpmOk
  infer_instance

/-- The condition on an event. -/
def EocOk (c : Conf) (x : Ctl) : Ev → Prop
  | .pass r => batOk c r.eoc (x.info.protectedBy c r) x.info.eoc ∧ dpmOk c r.eoc x.info.eoc
  | _ => True

instance (c : Conf) (x : Ctl) (e : Ev) : Decidable (EocOk c x e) := by
  unfold EocOk
  split <;> infer_instance

/-! ## The two functions -/

/-- What is not `bat_eoc_protect`'s. -/
theorem batteryProtectAlgo_frame (c : Conf) (r : EocReading) (s : Settings) (chrType : ChrType)
    (jeitaCv customCv : Int) (e : Eoc) : ∃ bat soc dur,
    batteryProtectAlgo c r s chrType jeitaCv customCv e =
      { e with batEocProtect := bat, rechargeSoc := soc, disconnectDuration := dur } := by
  unfold batteryProtectAlgo
  simp only
  split_ifs <;> exact ⟨_, _, _, rfl⟩

/-- What is not `dpm_disable_charging`'s. -/
theorem checkDpmEocState_frame (c : Conf) (r : EocReading) (e : Eoc) : ∃ dpm soc cv count,
    checkDpmEocState c r e = { e with
      dpmDisableCharging := dpm, socExitDpmEoc := soc, cvEnterDpmEoc := cv,
      dpmStateCount := count } := by
  unfold checkDpmEocState
  simp only
  split_ifs <;> exact ⟨_, _, _, _, rfl⟩

section
variable {c : Conf} (hen : c.eoc.enableBatEocProtect = true) (r : EocReading) (i : Info) (e : Eoc)
include hen

/-- The protection is set in a pass with a charger that meets the conditions. -/
theorem batteryProtectAlgo_off (he : e.batEocProtect = false) :
    (batteryProtectAlgo c r i.set i.chrType i.swJeita.cv i.customChargingCv e).batEocProtect =
      decide (i.chrType ≠ .unknown ∧ eocEntry c r i) := by
  unfold batteryProtectAlgo eocEntry
  by_cases hc : i.chrType = .unknown
  · rw [if_pos (Or.inr hc)]
    simp [he, hc]
  · rw [if_neg (by simp [hen, hc]), if_pos (by simp [he])]
    simp only [ne_eq, hc, not_false_eq_true, true_and, Bool.not_eq_true]
    by_cases hd : r.chgDone = true ∧ r.uiSoc = 100 ∧ i.customChargingCv = -1 ∧
        i.set.customChargingMode = false ∧
        swJeitaCv (mtkGetBatteryCv c.cv r.stage) i.set.enableSwJeita i.swJeita.cv =
          mtkGetBatteryCv c.cv r.stage
    · simp [hd]
    · rw [if_neg hd, decide_eq_false hd]
      exact he

/-- In a pass with a charger it is cleared by its exits, where every charge counts. -/
theorem batteryProtectAlgo_on (he : e.batEocProtect = true) :
    let e' := batteryProtectAlgo c r i.set i.chrType i.swJeita.cv i.customChargingCv e
    (e'.batEocProtect = false ↔ i.chrType ≠ .unknown ∧
      (r.soc < e.rechargeSoc ∨ r.uiSoc < 100 ∨ lowerMode c r i)) ∧
    e'.rechargeSoc = e.rechargeSoc := by
  unfold batteryProtectAlgo lowerMode
  by_cases hc : i.chrType = .unknown
  · rw [if_pos (Or.inr hc)]
    simp [he, hc]
  · rw [if_neg (by simp [hen, hc]), if_neg (by simp [he])]
    simp only [hc, not_false_eq_true, ne_eq, true_and]
    by_cases hs : r.soc < e.rechargeSoc ∨ r.uiSoc < 100
    · rw [if_pos hs]
      have hs' : r.soc < e.rechargeSoc ∨ r.uiSoc < 100 ∨ lowerMode c r i := by
        rcases hs with h | h
        · exact Or.inl h
        · exact Or.inr (Or.inl h)
      unfold lowerMode at hs'
      simp only [hs', iff_true]
      split_ifs <;> exact ⟨rfl, rfl⟩
    · rw [if_neg hs]
      have hs' := not_or.1 hs
      simp only [hs'.1, hs'.2, false_or]
      split_ifs with hm
      · exact ⟨by simp [resetBatEocProtectState, hm], rfl⟩
      · simp [he, hm]

/-- The count of passes grows in a valid DPM state and begins again otherwise; the protection is set
when the count is reached. -/
theorem checkDpmEocState_off (he : e.dpmDisableCharging = false) (hin : c.eoc.indpm = true) :
    let e' := checkDpmEocState c r e
    (e'.dpmDisableCharging = true ↔
      dpmState c r ∧ c.eoc.dpmStateCountMax ≤ e.dpmStateCount + 1) ∧
    (e'.dpmStateCount = 0 ∨
      dpmState c r ∧ e'.dpmDisableCharging = false ∧ e'.dpmStateCount = e.dpmStateCount + 1) := by
  unfold checkDpmEocState
  rw [if_neg (by simp [hen, hin]), if_neg (by simp [he])]
  by_cases hd : dpmState c r
  · rw [if_neg (not_not.2 hd)]
    simp only [hd, true_and]
    by_cases hm : c.eoc.dpmStateCountMax ≤ e.dpmStateCount + 1
    · rw [if_pos hm]
      exact ⟨iff_of_true rfl hm, Or.inl rfl⟩
    · rw [if_neg hm]
      exact ⟨iff_of_false (by simp [he]) hm, Or.inr ⟨he, rfl⟩⟩
  · rw [if_pos hd]
    exact ⟨iff_of_false (by simp [resetDpmEocState]) fun h => hd h.1, Or.inl rfl⟩

/-- It is cleared by its exits, where every charge counts. -/
theorem checkDpmEocState_on (he : e.dpmDisableCharging = true) (hin : c.eoc.indpm = true) :
    let e' := checkDpmEocState c r e
    (e'.dpmDisableCharging = false ↔
      r.curCv ≠ e.cvEnterDpmEoc ∨ r.dpmSoc < e.socExitDpmEoc) ∧
    (e'.dpmDisableCharging = true → e' = e) ∧
    (e'.dpmStateCount = 0 ∨ e'.dpmStateCount = e.dpmStateCount) := by
  unfold checkDpmEocState
  rw [if_neg (by simp [hen, hin]), if_pos he]
  by_cases hcv : r.curCv ≠ e.cvEnterDpmEoc
  · simp only [if_pos hcv]
    split_ifs <;> simp [resetDpmEocState, hcv]
  · simp only [if_neg hcv]
    split_ifs with hs
    · simp [resetDpmEocState, hs]
    · simp [he, hcv, hs]

end

/-! ## A pass -/

/-- Where a pass gives the driver to the protections, the power supply has reported a type if the
driver has one. -/
theorem protectedBy_frame (c : Conf) (r : PassReading) (i : Info) :
    (i.protectedBy c r).eoc = checkDpmEocState c r.eoc
      (batteryProtectAlgo c r.eoc (i.protectedBy c r).set (i.protectedBy c r).chrType
        (i.protectedBy c r).swJeita.cv (i.protectedBy c r).customChargingCv i.eoc) ∧
    ((i.protectedBy c r).chrType ≠ .unknown → r.chrType ≠ .unknown) := by
  obtain ⟨t, n, l, can, st, ov, en, ha, -⟩ := atCheck_frame r i
  have hdec : (i.decided c r).eoc = i.eoc ∧ (i.decided c r).chrType = (i.atCheck r).chrType := by
    obtain ⟨_, _, _, _, hm, -⟩ := mayCharge_frame c r.status (i.atCheck r)
    unfold Info.decided
    rcases chargerCheckStatus_cases c r.status r.chrType (i.atCheck r) with
      ⟨-, he⟩ | ⟨-, -, he⟩ | ⟨-, -, he⟩
    · rw [he, ha]
      exact ⟨rfl, rfl⟩
    all_goals
      rw [he, hm, ha]
      exact ⟨rfl, rfl⟩
  obtain ⟨k, htop, -⟩ := chargerTopOffMode_frame c r.status (i.decided c r)
  unfold Info.protectedBy
  simp only [htop]
  refine ⟨by rw [hdec.1], fun hc hr => hc ?_⟩
  rw [hdec.2]
  unfold Info.atCheck
  rcases mtkIsChargerOn_cases r.chrType i with
    ⟨-, -, h⟩ | ⟨-, hi, h⟩ | ⟨h, -⟩ | ⟨h, -⟩ | ⟨h, -⟩
  · rw [h]
    rfl
  · rw [h]
    exact hi
  all_goals exact absurd hr h

/-- The rest of a pass leaves the protections and what they look at. -/
theorem pass_eoc (c : Conf) (r : PassReading) (i : Info) :
    (pass c r i).2.eoc = (i.protectedBy c r).eoc ∧
    (eocEntry c r.eoc (pass c r i).2 ↔ eocEntry c r.eoc (i.protectedBy c r)) ∧
    (lowerMode c r.eoc (pass c r i).2 ↔ lowerMode c r.eoc (i.protectedBy c r)) := by
  rcases pass_cases c r i with ⟨-, he⟩ | ⟨-, he⟩
  · obtain ⟨_, _, ha, -⟩ := doAlgorithm_frame c r.alg (i.protectedBy c r)
    rw [he, ha]
    exact ⟨rfl, Iff.rfl, Iff.rfl⟩
  · rw [he]
    exact ⟨rfl, Iff.rfl, Iff.rfl⟩

/-- The cable's part is not written. -/
theorem pass_cable (c : Conf) (r : PassReading) (i : Info) :
    (pass c r i).2.eoc.plugged = i.eoc.plugged ∧
      (pass c r i).2.eoc.disconnectTime = i.eoc.disconnectTime := by
  rw [(pass_eoc c r i).1, (protectedBy_frame c r i).1]
  generalize i.protectedBy c r = i1
  obtain ⟨_, _, _, hbat⟩ := batteryProtectAlgo_frame c r.eoc i1.set i1.chrType i1.swJeita.cv
    i1.customChargingCv i.eoc
  obtain ⟨_, _, _, _, hdpm⟩ := checkDpmEocState_frame c r.eoc
    (batteryProtectAlgo c r.eoc i1.set i1.chrType i1.swJeita.cv i1.customChargingCv i.eoc)
  rw [hdpm, hbat]
  exact ⟨rfl, rfl⟩

/-- The count is that of the last passes, which all were in a valid DPM state. Nothing is counted
while the protection is set, or by a charger that cannot report the state. -/
structure Counted (c : Conf) (passes : List PassReading) (e : Eoc) : Prop where
  indpm : c.eoc.indpm = false → e.dpmDisableCharging = false ∧ e.dpmStateCount = 0
  set : e.dpmDisableCharging = true → e.dpmStateCount = 0
  count : ∃ n : Nat, e.dpmStateCount = n ∧
    LastAll (fun p : PassReading => dpmState c p.eoc) n passes

/-- Only what belongs to the cable may differ. -/
structure Eoc.Same (e e' : Eoc) : Prop where
  bat : e'.batEocProtect = e.batEocProtect
  level : e'.rechargeSoc = e.rechargeSoc
  dpm : e'.dpmDisableCharging = e.dpmDisableCharging
  dpmLevel : e'.socExitDpmEoc = e.socExitDpmEoc
  dpmCv : e'.cvEnterDpmEoc = e.cvEnterDpmEoc
  count : e'.dpmStateCount = e.dpmStateCount

theorem Eoc.Same.of_eq {e e' : Eoc} {plugged : Bool} {time dur : Int}
    (h : e' = { e with plugged := plugged, disconnectTime := time, disconnectDuration := dur }) :
    e.Same e' := by
  rw [h]
  exact ⟨rfl, rfl, rfl, rfl, rfl, rfl⟩

theorem Counted.same {c : Conf} {passes : List PassReading} {e e' : Eoc} (h : Counted c passes e)
    (hs : e.Same e') : Counted c passes e' := by
  refine ⟨fun hin => ?_, fun hset => ?_, ?_⟩
  · rw [hs.dpm, hs.count]
    exact h.indpm hin
  · rw [hs.count]
    exact h.set (hs.dpm ▸ hset)
  · rw [hs.count]
    exact h.count

/-- A count of 0 says nothing of the passes. -/
theorem Counted.of_zero {c : Conf} {passes : List PassReading} {e : Eoc}
    (hin : c.eoc.indpm = false → e.dpmDisableCharging = false) (h : e.dpmStateCount = 0) :
    Counted c passes e :=
  ⟨fun hi => ⟨hin hi, h⟩, fun _ => h, 0, h, LastAll.zero _ _⟩

/-- The invariant of a history. -/
structure Guarded (c : Conf) (pre : List (Ev × Seen)) (x : Ctl) : Prop where
  plugged : x.info.eoc.plugged = x.online
  since : x.info.eoc.disconnectTime = lastOut c pre
  past : lastOut c pre ≤ x.clock
  counted : Counted c (passesOf pre) x.info.eoc

section
variable {c : Conf} (hen : c.eoc.enableBatEocProtect = true)
include hen

/-- What a pass does to `bat_eoc_protect`. -/
theorem pass_bat {r : PassReading} {i : Info}
    (hok : batOk c r.eoc (i.protectedBy c r) i.eoc) :
    (i.eoc.batEocProtect = false → (pass c r i).2.eoc.batEocProtect = true →
      r.chrType ≠ .unknown ∧ 0 ≤ r.eoc.soc ∧ eocEntry c r.eoc (pass c r i).2) ∧
    (i.eoc.batEocProtect = true → ((pass c r i).2.eoc.batEocProtect = false ↔
      eocExit c r.eoc (pass c r i).2 i.eoc)) ∧
    (i.eoc.batEocProtect = true → (pass c r i).2.eoc.rechargeSoc = i.eoc.rechargeSoc) := by
  obtain ⟨hprot, htype⟩ := protectedBy_frame c r i
  obtain ⟨heoc, hentry, hmode⟩ := pass_eoc c r i
  have hexit : eocExit c r.eoc (pass c r i).2 i.eoc ↔
      eocExit c r.eoc (i.protectedBy c r) i.eoc := by
    unfold eocExit
    rw [hmode]
  rw [heoc, hprot, hentry, hexit]
  generalize i.protectedBy c r = i1 at hok htype
  obtain ⟨_, _, _, _, hdpm⟩ := checkDpmEocState_frame c r.eoc
    (batteryProtectAlgo c r.eoc i1.set i1.chrType i1.swJeita.cv i1.customChargingCv i.eoc)
  rw [hdpm]
  simp only
  unfold batOk at hok
  refine ⟨fun hoff hset => ?_, fun hon => ?_, fun hon => ?_⟩
  · rw [batteryProtectAlgo_off hen r.eoc i1 i.eoc hoff, decide_eq_true_eq] at hset
    rw [if_neg hset.1] at hok
    refine ⟨htype hset.1, ?_, hset.2⟩
    by_contra hneg
    have hno := hok (by omega)
    rw [if_neg (by simp [hoff])] at hno
    exact hno hset.2
  · rw [(batteryProtectAlgo_on hen r.eoc i1 i.eoc hon).1]
    unfold eocExit below
    by_cases hc : i1.chrType = .unknown
    · rw [if_pos hc] at hok
      exact iff_of_false (fun h => h.1 hc) (hok hon)
    · rw [if_neg hc, if_pos hon] at hok
      refine ⟨fun h => ?_, fun h => ⟨hc, ?_⟩⟩
      · rcases h.2 with h | h
        · by_cases hneg : r.eoc.soc < 0
          · rcases hok hneg with hle | hx
            · omega
            · exact Or.inr hx
          · exact Or.inl ⟨by omega, h⟩
        · exact Or.inr h
      · exact h.imp_left And.right
  · exact (batteryProtectAlgo_on hen r.eoc i1 i.eoc hon).2

/-- What a pass does to `dpm_disable_charging` and its count. -/
theorem pass_dpm {r : PassReading} {i : Info} {passes : List PassReading}
    (hok : dpmOk c r.eoc i.eoc) (hcount : Counted c passes i.eoc) :
    (i.eoc.dpmDisableCharging = false → (pass c r i).2.eoc.dpmDisableCharging = true →
      0 ≤ r.eoc.dpmSoc ∧ ∃ n : Nat, c.eoc.dpmStateCountMax ≤ n ∧
        LastAll (fun p : PassReading => dpmState c p.eoc) n (passes ++ [r])) ∧
    (i.eoc.dpmDisableCharging = true → ((pass c r i).2.eoc.dpmDisableCharging = false ↔
      dpmExit r.eoc i.eoc)) ∧
    (i.eoc.dpmDisableCharging = true → (pass c r i).2.eoc.dpmDisableCharging = true →
      (pass c r i).2.eoc.socExitDpmEoc = i.eoc.socExitDpmEoc ∧
        (pass c r i).2.eoc.cvEnterDpmEoc = i.eoc.cvEnterDpmEoc) ∧
    Counted c (passes ++ [r]) (pass c r i).2.eoc := by
  rw [(pass_eoc c r i).1, (protectedBy_frame c r i).1]
  obtain ⟨_, _, _, hbat⟩ := batteryProtectAlgo_frame c r.eoc (i.protectedBy c r).set
    (i.protectedBy c r).chrType (i.protectedBy c r).swJeita.cv
    (i.protectedBy c r).customChargingCv i.eoc
  generalize batteryProtectAlgo c r.eoc (i.protectedBy c r).set (i.protectedBy c r).chrType
    (i.protectedBy c r).swJeita.cv (i.protectedBy c r).customChargingCv i.eoc = e at hbat
  have hd : e.dpmDisableCharging = i.eoc.dpmDisableCharging := by rw [hbat]
  have hs : e.socExitDpmEoc = i.eoc.socExitDpmEoc := by rw [hbat]
  have hv : e.cvEnterDpmEoc = i.eoc.cvEnterDpmEoc := by rw [hbat]
  have hn : e.dpmStateCount = i.eoc.dpmStateCount := by rw [hbat]
  clear hbat
  by_cases hin : c.eoc.indpm = true
  · have hin' : c.eoc.indpm = false → ∀ b : Bool, b = false := by simp [hin]
    cases hdpm : i.eoc.dpmDisableCharging with
    | false =>
      obtain ⟨hset, hcnt⟩ := checkDpmEocState_off hen r.eoc e (hd.trans hdpm) hin
      obtain ⟨n, hin_n, hlast⟩ := hcount.count
      rw [hn] at hset hcnt
      refine ⟨fun _ h => ?_, nofun, nofun, ?_⟩
      · obtain ⟨hst, hmax⟩ := hset.1 h
        refine ⟨?_, n + 1, by omega, hlast.snoc hst⟩
        by_contra hneg
        have hno := hok hin (by omega)
        rw [if_neg (by simp [hdpm])] at hno
        exact hno ⟨hst, hmax⟩
      · rcases hcnt with h0 | ⟨hst, hoff, hc⟩
        · exact .of_zero (fun h => hin' h _) h0
        · exact ⟨fun h => absurd hin (by simp [h]), fun h => absurd hoff (by simp [h]), n + 1,
            by omega, hlast.snoc hst⟩
    | true =>
      obtain ⟨hclear, hsame, hcnt⟩ := checkDpmEocState_on hen r.eoc e (hd.trans hdpm) hin
      have h0 := hcount.set hdpm
      rw [hs, hv] at hclear
      rw [hn, h0] at hcnt
      refine ⟨nofun, fun _ => ?_, fun _ h => ?_, .of_zero (fun h => hin' h _) (by tauto)⟩
      · rw [hclear]
        unfold dpmExit below
        refine ⟨fun h => ?_, fun h => h.imp_right And.right⟩
        by_cases hneg : r.eoc.dpmSoc < 0
        · have hno := hok hin hneg
          rw [if_pos hdpm] at hno
          rcases hno with hcv | hle
          · exact Or.inl hcv
          · rcases h with h | h
            · exact Or.inl h
            · omega
        · exact h.imp_right fun h => ⟨by omega, h⟩
      · rw [hsame h]
        exact ⟨hs, hv⟩
  · have hin : c.eoc.indpm = false := by simpa using hin
    have he : checkDpmEocState c r.eoc e = e := if_pos (Or.inr (by simp [hin]))
    obtain ⟨hdpm, h0⟩ := hcount.indpm hin
    rw [he, hd, hdpm]
    exact ⟨nofun, nofun, nofun, .of_zero (fun _ => hd.trans hdpm) (hn.trans h0)⟩

end

/-! ## The cable -/

theorem duration_iff {d : Int} (hd : 0 ≤ d) (secs : Int) :
    secs ≤ (d.tdiv 1000000).tdiv 1000 ↔ secs * 1000000000 ≤ d := by
  rw [Int.tdiv_eq_ediv_of_nonneg hd, Int.tdiv_eq_ediv_of_nonneg (by omega)]
  omega

/-- Plugging in clears both protections after the reset time and changes nothing else of them. -/
theorem handlePlugState_in {c : EocConf} (hen : c.enableBatEocProtect = true) {e : Eoc}
    (hp : e.plugged = false) (now : Int) (hnow : e.disconnectTime ≤ now) :
    let e' := (handlePlugState c true now e).1
    e'.plugged = true ∧ e'.disconnectTime = e.disconnectTime ∧
    ((c.batEocProtectResetTime * 1000000000 ≤ now - e.disconnectTime ∧
        e'.batEocProtect = false ∧ e'.dpmDisableCharging = false ∧
        (e'.dpmStateCount = 0 ∨ e'.dpmStateCount = e.dpmStateCount ∧
          e.dpmDisableCharging = false)) ∨
      (¬ c.batEocProtectResetTime * 1000000000 ≤ now - e.disconnectTime ∧ e.Same e')) := by
  have hdur := duration_iff (d := now - e.disconnectTime) (by omega) c.batEocProtectResetTime
  unfold handlePlugState
  rw [if_neg (by simp [hen, hp])]
  simp only [if_true]
  by_cases hlong : c.batEocProtectResetTime * 1000000000 ≤ now - e.disconnectTime
  · by_cases hset : e.batEocProtect = true ∨ e.dpmDisableCharging = true
    · rw [if_pos ⟨hset, hdur.2 hlong⟩]
      exact ⟨rfl, rfl, Or.inl ⟨hlong, rfl, rfl, Or.inl rfl⟩⟩
    · rw [if_neg fun h => hset h.1]
      simp only [not_or, Bool.not_eq_true] at hset
      exact ⟨rfl, rfl, Or.inl ⟨hlong, hset.1, hset.2, Or.inr ⟨rfl, hset.2⟩⟩⟩
  · rw [if_neg fun h => hlong (hdur.1 h.2)]
    exact ⟨rfl, rfl, Or.inr ⟨hlong, .of_eq rfl⟩⟩

/-- Unplugging notes the time. -/
theorem handlePlugState_out {c : EocConf} (hen : c.enableBatEocProtect = true) {e : Eoc}
    (hp : e.plugged = true) (now : Int) : (handlePlugState c false now e).1 =
      { e with plugged := false, disconnectTime := now, disconnectDuration := 0 } := by
  unfold handlePlugState
  rw [if_neg (by simp [hen, hp])]
  rfl

/-- The same state again is not looked at. -/
theorem handlePlugState_same {c : EocConf} {e : Eoc} {online : Bool} (hp : e.plugged = online)
    (now : Int) : (handlePlugState c online now e).1 = e := by
  unfold handlePlugState
  rw [if_pos (Or.inr hp)]

/-! ## One event -/

/-- An event that does not touch the protections. -/
theorem kept_same {c : Conf} {pre : List (Ev × Seen)} {x x' : Ctl} {e : Ev}
    (he : ∀ r, e ≠ .pass r) (hout : ¬ longOut c pre e) (hs : x.info.eoc.Same x'.info.eoc) :
    EocKept c pre x e x' where
  bat_set h h' := by
    rw [hs.bat, h] at h'
    cases h'
  bat_cleared h := by
    rw [hs.bat, h]
    refine iff_of_false (by decide) ?_
    rintro (⟨r, hr, -⟩ | h)
    · exact he r hr
    · exact hout h
  bat_level _ _ := hs.level
  dpm_set h h' := by
    rw [hs.dpm, h] at h'
    cases h'
  dpm_cleared h := by
    rw [hs.dpm, h]
    refine iff_of_false (by decide) ?_
    rintro (⟨r, hr, -⟩ | h)
    · exact he r hr
    · exact hout h
  dpm_level _ _ := ⟨hs.dpmLevel, hs.dpmCv⟩

theorem passesOf_other (pre : List (Ev × Seen)) {e : Ev} (q : Seen) (he : ∀ r, e ≠ .pass r) :
    passesOf (pre ++ [(e, q)]) = passesOf pre := by
  rw [passesOf_snoc]
  cases e with
  | pass r => exact absurd rfl (he r)
  | _ => exact List.append_nil _

/-- The invariant after an event that does not touch the protections. -/
theorem Guarded.same {c : Conf} {pre : List (Ev × Seen)} {x x' : Ctl} {e : Ev} {q : Seen}
    (h : Guarded c pre x) (he : ∀ r, e ≠ .pass r) (hne : ∀ now, e ≠ .plugOut now)
    (heoc : x'.info.eoc = x.info.eoc) (hon : x'.online = x.online) (hclock : x.clock ≤ x'.clock) :
    Guarded c (pre ++ [(e, q)]) x' where
  plugged := by rw [heoc, hon, h.plugged]
  since := by rw [heoc, lastOut_other c pre q hne, h.since]
  past := by
    rw [lastOut_other c pre q hne]
    exact Int.le_trans h.past hclock
  counted := by
    rw [heoc, passesOf_other pre q he]
    exact h.counted

/-- **One event** that meets the condition does to the protections what it may. -/
theorem step_eoc {c : Conf} (hen : c.eoc.enableBatEocProtect = true) {pre : List (Ev × Seen)}
    {x x' : Ctl} {e : Ev} {q : Seen} (h : Guarded c pre x) (hok : EocOk c x e)
    (hs : step c x e = some (q, x')) :
    EocKept c pre x e x' ∧ Guarded c (pre ++ [(e, q)]) x' := by
  have hst := stepped hs
  generalize hout : (q, x') = out at hst
  cases hst with
  | pass r hon =>
    obtain ⟨hset, hclear, hlevel⟩ := pass_bat hen hok.1
    obtain ⟨hset', hclear', hlevel', hcount⟩ := pass_dpm hen hok.2 h.counted
    cases hout
    refine ⟨⟨fun h0 h1 => ⟨r, rfl, hset h0 h1⟩, fun h1 => (hclear h1).trans ?_,
      fun h1 _ => hlevel h1, fun h0 h1 => ⟨r, rfl, hset' h0 h1⟩, fun h1 => (hclear' h1).trans ?_,
      fun h1 h1' => hlevel' h1 h1'⟩, ?_⟩
    · refine ⟨fun hx => Or.inl ⟨r, rfl, hx⟩, ?_⟩
      rintro (⟨r', hr, hx⟩ | hx)
      · cases hr
        exact hx
      · exact hx.elim
    · refine ⟨fun hx => Or.inl ⟨r, rfl, hx⟩, ?_⟩
      rintro (⟨r', hr, hx⟩ | hx)
      · cases hr
        exact hx
      · exact hx.elim
    · obtain ⟨hp, hd⟩ := pass_cable c r x.info
      refine ⟨hp.trans h.plugged, ?_, ?_, ?_⟩
      · rw [lastOut_other c pre _ (by simp)]
        exact hd.trans h.since
      · rw [lastOut_other c pre _ (by simp)]
        exact h.past
      · rw [passesOf_snoc]
        exact hcount
  | plugIn now hoff hnow =>
    have hp : x.info.eoc.plugged = false := h.plugged.trans hoff
    have hlast : ∀ q, lastOut c (pre ++ [(Ev.plugIn now, q)]) = lastOut c pre := fun q =>
      lastOut_other c pre q (by simp)
    have hpast := h.past
    have hcases := handlePlugState_in hen hp now (by rw [h.since]; omega)
    have heoc : (externalPowerChanged c true now x.info).eoc =
        (handlePlugState c.eoc true now x.info.eoc).1 := rfl
    rw [← heoc, h.since] at hcases
    cases hout
    generalize externalPowerChanged c true now x.info = i at hcases
    obtain ⟨hpl, hdt, hcases⟩ := hcases
    have hguard : Counted c (passesOf pre) i.eoc →
        ∀ q, Guarded c (pre ++ [(Ev.plugIn now, q)]) { x.noted i with
          online := true, clock := now, charger := x.charger + 1 } := fun hcount q => by
      refine ⟨hpl, by rw [hlast]; exact hdt, by rw [hlast]; exact Int.le_trans hpast hnow, ?_⟩
      rw [passesOf_other pre q (by simp)]
      exact hcount
    rcases hcases with ⟨hlong, hb, hd, hcnt⟩ | ⟨hlong, hs⟩
    · refine ⟨⟨fun _ h1 => ?_, fun _ => iff_of_true hb (Or.inr hlong), fun _ h1 => ?_,
        fun _ h1 => ?_, fun _ => iff_of_true hd (Or.inr hlong), fun _ h1 => ?_⟩, hguard ?_ _⟩
      · exact absurd (hb.symm.trans h1) (by decide)
      · exact absurd (hb.symm.trans h1) (by decide)
      · exact absurd (hd.symm.trans h1) (by decide)
      · exact absurd (hd.symm.trans h1) (by decide)
      · rcases hcnt with h0 | ⟨hsame, -⟩
        · exact .of_zero (fun _ => hd) h0
        · obtain ⟨n, hn, hl⟩ := h.counted.count
          exact ⟨fun hin => ⟨hd, hsame.trans (h.counted.indpm hin).2⟩,
            fun h1 => absurd (hd.symm.trans h1) (by decide), n, hsame.trans hn, hl⟩
    · exact ⟨kept_same (by simp) hlong hs, hguard (h.counted.same hs) _⟩
  | plugOut now hon hnow =>
    have hp : x.info.eoc.plugged = true := h.plugged.trans hon
    have he : (externalPowerChanged c false now x.info).eoc = _ := handlePlugState_out hen hp now
    cases hout
    generalize externalPowerChanged c false now x.info = i at he
    have hs : x.info.eoc.Same i.eoc := .of_eq he
    refine ⟨kept_same (by simp) id hs, ⟨congrArg Eoc.plugged he, ?_, ?_, ?_⟩⟩
    · rw [lastOut_plugOut]
      exact congrArg Eoc.disconnectTime he
    · rw [lastOut_plugOut]
    · rw [passesOf_other pre _ (by simp)]
      exact h.counted.same hs
  | changed now hnow =>
    have he : (externalPowerChanged c x.online now x.info).eoc = x.info.eoc :=
      handlePlugState_same (c := c.eoc) h.plugged now
    cases hout
    generalize externalPowerChanged c x.online now x.info = i at he
    exact ⟨kept_same (by simp) id (.of_eq he), h.same (by simp) (by simp) he rfl hnow⟩
  | currentCmd u d =>
    have he : (mtkChgCurrentCmdWrite u d x.info).eoc = x.info.eoc := by
      unfold mtkChgCurrentCmdWrite
      simp only
      split_ifs <;> rfl
    cases hout
    exact ⟨kept_same (by simp) id (.of_eq he), h.same (by simp) (by simp) he rfl (Int.le_refl _)⟩
  | safetyTimeout | vbusOvp | wakeUp | settings | limits | changeSetting =>
    cases hout
    exact ⟨kept_same (by simp) id (.of_eq rfl),
      h.same (by simp) (by simp) rfl rfl (Int.le_refl _)⟩

/-! ## Every run -/

/-- **Every event of every run** whose events meet the condition does to the protections what it
may, with the feature enabled. -/
theorem end_of_charge (c : Conf) (hen : c.eoc.enableBatEocProtect = true)
    (hreset : 0 ≤ c.eoc.batEocProtectResetTime) (s : Settings) (evs : List Ev)
    (hok : Sys.Along (step c) (EocOk c) (Ctl.start c s) evs) (es : List (Ev × Seen)) (x : Ctl)
    (hrun : Sys.run (step c) (Ctl.start c s) evs = some (es, x)) (e : Ev) (he : EocOk c x e)
    (q : Seen) (x' : Ctl) (hs : step c x e = some (q, x')) : EocKept c es x e x' := by
  have hstart : Guarded c [] (Ctl.start c s) := by
    refine ⟨rfl, rfl, ?_, .of_zero (fun _ => rfl) rfl⟩
    show -(c.eoc.batEocProtectResetTime * 1000000000) ≤ 0
    omega
  have hinv := (Sys.run_events (I := fun pre x => Guarded c pre x) (P := EocOk c)
    (G := fun _ _ => True) (fun _ _ _ _ _ hi ho hs => ⟨trivial, (step_eoc hen hi ho hs).2⟩) evs []
    es (Ctl.start c s) x hstart hok hrun).2
  exact (step_eoc hen hinv he hs).1

/-- The defaults with the feature enabled. -/
def eocConf : Conf :=
  { Conf.defaults with eoc := { Conf.defaults.eoc with enableBatEocProtect := true } }

/-- A pass with a charger, or without, at the end of charge. -/
def fullPass (chrType : ChrType) (soc : Int) : PassReading :=
  let r := PassReading.plain chrType 25
  { r with eoc := { r.eoc with uiSoc := 100, soc := soc, chgDone := true } }

/-- The end of charge, and a short unplugging. -/
def fullRun : List Ev :=
  [.plugIn 1, .pass (fullPass .usbDcp 99), .plugOut 2, .pass (fullPass .unknown 99), .plugIn 3]

/-- The state after a run with a following event. -/
def eocAfter (evs : List Ev) (e : Ev) : Option (Ctl × Ctl) :=
  (Sys.run (step eocConf) (Ctl.start eocConf (.defaults false)) evs).bind fun p =>
    (step eocConf p.2 e).map fun p' => (p.2, p'.2)

theorem eocAfter_some (evs : List Ev) (e : Ev) (p : Ctl × Ctl → Bool)
    (h : (eocAfter evs e).map p = some true) :
    ∃ es x q x', Sys.run (step eocConf) (Ctl.start eocConf (.defaults false)) evs = some (es, x) ∧
      step eocConf x e = some (q, x') ∧ p (x, x') = true := by
  obtain ⟨⟨x, x'⟩, hx, hp⟩ := Option.map_eq_some_iff.1 h
  obtain ⟨⟨es, y⟩, hrun, hy⟩ := Option.bind_eq_some_iff.1 hx
  obtain ⟨⟨q, y'⟩, hs, he⟩ := Option.map_eq_some_iff.1 hy
  cases he
  exact ⟨es, y, q, y', hrun, hs, hp⟩

theorem end_of_charge_full :
    Sys.Along (step eocConf) (EocOk eocConf) (Ctl.start eocConf (.defaults false)) fullRun ∧
    ∃ es x q x', Sys.run (step eocConf) (Ctl.start eocConf (.defaults false)) fullRun =
        some (es, x) ∧ step eocConf x (.pass (fullPass .usbDcp 95)) = some (q, x') ∧
      EocKept eocConf es x (.pass (fullPass .usbDcp 95)) x' := by
  have hok : Sys.Along (step eocConf) (EocOk eocConf) (Ctl.start eocConf (.defaults false))
      fullRun := by decide +kernel
  obtain ⟨es, x, q, x', hrun, hs, hp⟩ := eocAfter_some fullRun
    (.pass (fullPass .usbDcp 95))
    (fun p => decide (EocOk eocConf p.1 (.pass (fullPass .usbDcp 95)))) (by decide +kernel)
  exact ⟨hok, es, x, q, x', hrun, hs, end_of_charge eocConf rfl (by decide) _ fullRun hok es x hrun
    _ (of_decide_eq_true hp) q x' hs⟩

/-- A charge that cannot be read sets the protection, and clears it. -/
theorem end_of_charge_unread :
    (∃ es x q x', Sys.run (step eocConf) (Ctl.start eocConf (.defaults false)) [.plugIn 1] =
        some (es, x) ∧ step eocConf x (.pass (fullPass .usbDcp (-1))) = some (q, x') ∧
      ¬ EocKept eocConf es x (.pass (fullPass .usbDcp (-1))) x') ∧
    ∃ es x q x', Sys.run (step eocConf) (Ctl.start eocConf (.defaults false)) fullRun =
        some (es, x) ∧ step eocConf x (.pass (fullPass .usbDcp (-1))) = some (q, x') ∧
      ¬ EocKept eocConf es x (.pass (fullPass .usbDcp (-1))) x' := by
  obtain ⟨es, x, q, x', hrun, hs, hp⟩ := eocAfter_some [.plugIn 1]
    (.pass (fullPass .usbDcp (-1)))
    (fun p => !p.1.info.eoc.batEocProtect && p.2.info.eoc.batEocProtect) (by decide +kernel)
  obtain ⟨es', y, q', y', hrun', hs', hp'⟩ := eocAfter_some fullRun
    (.pass (fullPass .usbDcp (-1)))
    (fun p => p.1.info.eoc.batEocProtect && !p.2.info.eoc.batEocProtect &&
      decide (¬ eocExit eocConf (fullPass .usbDcp (-1)).eoc p.2.info p.1.info.eoc))
    (by decide +kernel)
  simp only [Bool.and_eq_true, Bool.not_eq_true', decide_eq_true_eq] at hp hp'
  refine ⟨⟨es, x, q, x', hrun, hs, fun hk => ?_⟩, es', y, q', y', hrun', hs', fun hk => ?_⟩
  · obtain ⟨r, he, -, hread, -⟩ := hk.bat_set hp.1 hp.2
    cases he
    exact absurd hread (by decide)
  · rcases (hk.bat_cleared hp'.1.1).1 hp'.1.2 with ⟨r, he, hx⟩ | hx
    · cases he
      exact hp'.2 hx
    · exact hx

end Charger
