import FireTablet.Pd.Proof.Indices

/-!
# The programmed currents

A start step that succeeds programs each current as the smaller of the configured one and the limit
in force. The second charger is programmed while the algorithm runs, and keeps its current while it
is tuned (`pd_currents`).
-/

namespace Pd

open CInt

/-- The smaller of a configured current and a limit, where -1 is none. -/
def smaller (configured limit : Int) : Int :=
  if limit ≠ -1 ∧ limit < configured then limit else configured

/-- A needed current is zero, or its limit is below the charger's smallest current. -/
def TooSmall (configured limit smallest : Int) : Prop :=
  smaller configured limit = 0 ∨ (limit ≠ -1 ∧ limit < smallest)

/-- A limited current is zero exactly when it is too small, where a limit below the smallest
current is below the configured one. -/
theorem limited_eq_zero {c l m : Int} (hm : l ≠ -1 → l < m → l < c) :
    limited c l m = 0 ↔ TooSmall c l m := by
  unfold limited TooSmall smaller
  split_ifs with h1 h2
  · exact ⟨fun _ => .inr ⟨h1.1, h2⟩, fun _ => rfl⟩
  · refine ⟨.inl, ?_⟩
    rintro (h | ⟨-, h⟩)
    · exact h
    · exact absurd h h2
  · refine ⟨.inl, ?_⟩
    rintro (h | ⟨hl, h⟩)
    · exact h
    · exact absurd ⟨hl, hm hl h⟩ h1

theorem limited_of_ne_zero {c l m : Int} (h : limited c l m ≠ 0) : limited c l m = smaller c l := by
  unfold limited smaller at *
  split_ifs at h ⊢ <;> first | rfl | exact absurd rfl h

/-- A limit of zero is too small. -/
theorem tooSmall_zero {c : Int} (hc : 0 ≤ c) (m : Int) : TooSmall c 0 m := by
  refine .inl ?_
  unfold smaller
  split_ifs with h <;> omega

/-! ## What the choice of a capability leaves -/

/-- The limits, the state and the second charger's currents. -/
structure Same (d d' : Dev) : Prop where
  state : d'.state = d.state
  icl1 : d'.inputCurrentLimit1 = d.inputCurrentLimit1
  cc1 : d'.chargingCurrentLimit1 = d.chargingCurrentLimit1
  cc2 : d'.chargingCurrentLimit2 = d.chargingCurrentLimit2
  current2 : d'.chargingCurrent2 = d.chargingCurrent2
  charging2 : d'.chg2.chargingCurrent = d.chg2.chargingCurrent
  input2 : d'.chg2.inputCurrent = d.chg2.inputCurrent

theorem Same.refl (d : Dev) : Same d d := ⟨rfl, rfl, rfl, rfl, rfl, rfl, rfl⟩

theorem Same.trans {d d1 d2 : Dev} (h : Same d d1) (h' : Same d1 d2) : Same d d2 :=
  ⟨h'.state.trans h.state, h'.icl1.trans h.icl1, h'.cc1.trans h.cc1, h'.cc2.trans h.cc2,
    h'.current2.trans h.current2, h'.charging2.trans h.charging2, h'.input2.trans h.input2⟩

section
variable (dt : Dt)

theorem setMivr_same (d : Dev) (chip2 : Bool) (uv : Int) : Same d (setMivr dt d chip2 uv) := by
  unfold setMivr
  split_ifs <;> exact ⟨rfl, rfl, rfl, rfl, rfl, rfl, rfl⟩

theorem input1_same (d : Dev) (c : Prop) [Decidable c] (ua : Int) :
    Same d (if c then setInputCurrent1 d ua else d) := by
  split_ifs <;> exact ⟨rfl, rfl, rfl, rfl, rfl, rfl, rfl⟩

theorem accept_same (d : Dev) (idx : Int) : Same d (accept d idx) :=
  ⟨rfl, rfl, rfl, rfl, rfl, rfl, rfl⟩

theorem requestCap_same (d : Dev) (idx : Int) (p : Probe) : Same d (requestCap dt d idx p) := by
  have h1 := (setMivr_same dt d p.chip2 dt.minChargerVoltage).trans
    (input1_same _ (p.inputCurrent / 1000 > u32 (d.cap.entry idx).ma) ((d.cap.entry idx).ma * 1000))
  simp only [requestCap]
  by_cases hret : p.ret = 0
  · simp only [if_pos hret]
    exact ((h1.trans (accept_same _ idx)).trans (input1_same _ _ _)).trans (setMivr_same dt _ _ _)
  · simp only [if_neg hret]
    exact (h1.trans (input1_same _ _ _)).trans (setMivr_same dt _ _ _)

theorem setup_same (d : Dev) (idx : Int) (p : Probe) : Same d (mtkPdcSetup dt d idx p).1 := by
  have h := requestCap_same dt d idx p
  simp only [mtkPdcSetup, mtkPdcGetIdx]
  split_ifs
  · exact h.trans ⟨rfl, rfl, rfl, rfl, rfl, rfl, rfl⟩
  · exact h.trans ⟨rfl, rfl, rfl, rfl, rfl, rfl, rfl⟩
  · exact ⟨rfl, rfl, rfl, rfl, rfl, rfl, rfl⟩

theorem initTable_same (d : Dev) (env : Env) : Same d (mtkPdcInitTable d env) := by
  unfold mtkPdcInitTable
  split <;> exact ⟨rfl, rfl, rfl, rfl, rfl, rfl, rfl⟩

theorem resetIdx_same (d : Dev) : Same d (mtkPdcGetResetIdx dt d) := by
  unfold mtkPdcGetResetIdx
  split_ifs <;> exact ⟨rfl, rfl, rfl, rfl, rfl, rfl, rfl⟩

theorem capMaxWatt_same (d : Dev) : Same d (mtkPdcGetCapMaxWatt dt d) := by
  unfold mtkPdcGetCapMaxWatt
  split_ifs <;> exact ⟨rfl, rfl, rfl, rfl, rfl, rfl, rfl⟩

theorem reset_same (d : Dev) (env : Env) : Same d (mtkPdcReset dt d env).1 :=
  ((initTable_same d env).trans (resetIdx_same dt _)).trans (setup_same dt _ _ _)

theorem getSetting_same (d : Dev) (env : Env) : Same d (mtkPdcGetSetting dt d env).1.2 := by
  have h := ((initTable_same d env).trans (resetIdx_same dt _)).trans (capMaxWatt_same dt _)
  simp only [mtkPdcGetSetting]
  generalize mtkPdcGetCapMaxWatt dt (mtkPdcGetResetIdx dt (mtkPdcInitTable d env)) = d1 at h
  by_cases hnr : d1.cap.nr = 0
  · simp only [if_pos hnr]
    exact h
  · simp only [if_neg hnr]
    cases env.ibus with
    | none => exact h
    | some ibus =>
      simp only
      generalize (if ibus.tdiv 1000 = 0 then 1000 else ibus.tdiv 1000) = ib
      split_ifs
      · exact h.trans (reset_same dt d1 env)
      · exact h

/-- A choice has the current of its capability. -/
theorem getSetting_cur (d : Dev) (env : Env) {s : Setting}
    (h : (mtkPdcGetSetting dt d env).1.1 = some s) :
    s.cur = ((mtkPdcGetSetting dt d env).1.2.cap.entry s.idx).ma := by
  simp only [mtkPdcGetSetting] at h ⊢
  generalize mtkPdcGetCapMaxWatt dt (mtkPdcGetResetIdx dt (mtkPdcInitTable d env)) = d1 at h ⊢
  by_cases hnr : d1.cap.nr = 0
  · simp only [if_pos hnr] at h
    cases h
  · simp only [if_neg hnr] at h ⊢
    cases hib : env.ibus with
    | none =>
      rw [hib] at h
      cases h
    | some ibus =>
      simp only [hib] at h ⊢
      generalize (if ibus.tdiv 1000 = 0 then 1000 else ibus.tdiv 1000) = ib at h ⊢
      split_ifs at h ⊢
      · cases h
        rfl
      · cases h
        rfl

theorem requestCap_cap (d : Dev) (idx : Int) (p : Probe) : (requestCap dt d idx p).cap = d.cap := by
  have hm : ∀ d chip2 uv, (setMivr dt d chip2 uv).cap = d.cap := by
    intro d chip2 uv
    unfold setMivr
    split_ifs <;> rfl
  have hi : ∀ (d : Dev) (c : Prop) [Decidable c] ua,
      (if c then setInputCurrent1 d ua else d).cap = d.cap := by
    intro d c _ ua
    split_ifs <;> rfl
  simp only [requestCap]
  by_cases hret : p.ret = 0
  · simp only [if_pos hret, hm, hi, accept]
  · simp only [if_neg hret, hm, hi]

theorem setup_cap (d : Dev) (idx : Int) (p : Probe) :
    (mtkPdcSetup dt d idx p).1.cap = d.cap ∧ (mtkPdcSetup dt d idx p).1.pdIdx = idx := by
  have h := requestCap_cap dt d idx p
  simp only [mtkPdcSetup, mtkPdcGetIdx]
  split_ifs
  · exact ⟨h, trivial⟩
  · exact ⟨h, trivial⟩
  · exact ⟨rfl, trivial⟩

/-! ## Programming the chargers -/

/-- What programming the chargers leaves. -/
structure SameLimits (d d' : Dev) : Prop where
  state : d'.state = d.state
  icl1 : d'.inputCurrentLimit1 = d.inputCurrentLimit1
  cc1 : d'.chargingCurrentLimit1 = d.chargingCurrentLimit1
  cc2 : d'.chargingCurrentLimit2 = d.chargingCurrentLimit2
  cap : d'.cap = d.cap
  idx : d'.pdIdx = d.pdIdx

theorem setCharger_limits (d : Dev) (env : Env) : SameLimits d (setCharger dt d env).2 := by
  unfold setCharger
  by_cases hdual : dt.dualChargersInSeries = true
  · rw [if_pos hdual]
    simp only [pdDcsSetCharger]
    cases hst : d.state <;> split_ifs <;>
      first | exact ⟨rfl, rfl, rfl, rfl, rfl, rfl⟩ | exact ⟨hst.symm, rfl, rfl, rfl, rfl, rfl⟩
  · rw [if_neg hdual]
    simp only [pdScSetCharger]
    split_ifs <;> exact ⟨rfl, rfl, rfl, rfl, rfl, rfl⟩

/-- The limit sets the single charger's charging current anew. -/
def ScSet (d : Dev) : Prop :=
  d.chargingCurrentLimit1 = -1 ∨ d.chargingCurrentLimit1 < dt.scChargerCurrent

/-- The single charger's charging current. -/
def scCurrent (d : Dev) (env : Env) : Int :=
  if d.chargingCurrentLimit1 = -1 then dt.scChargerCurrent
  else if d.chargingCurrentLimit1 < env.minChargingCurrent1 then 0
  else if d.chargingCurrentLimit1 < dt.scChargerCurrent then d.chargingCurrentLimit1
  else d.chargingCurrent1

theorem scCurrent_of_set {d : Dev} (env : Env) (h : ScSet dt d) :
    scCurrent dt d env =
      limited dt.scChargerCurrent d.chargingCurrentLimit1 env.minChargingCurrent1 := by
  unfold scCurrent limited
  obtain h | h := h
  · rw [if_pos h, if_neg (fun hn => hn.1 h)]
  · by_cases hl : d.chargingCurrentLimit1 = -1
    · rw [if_pos hl, if_neg (fun hn => hn.1 hl)]
    · have hset : d.chargingCurrentLimit1 ≠ -1 ∧ d.chargingCurrentLimit1 < dt.scChargerCurrent :=
        ⟨hl, h⟩
      rw [if_neg hl, if_pos h, if_pos hset]

/-- The currents of the single charger. -/
def scCurrents (d : Dev) (env : Env) : Dev :=
  { d with
    chargingCurrent1 := scCurrent dt d env
    inputCurrent1 := limited dt.scInputCurrent d.inputCurrentLimit1 env.minInputCurrent1 }

theorem pdScSetCharger_eq (d : Dev) (env : Env) :
    pdScSetCharger dt d env =
      if d.inputCurrentLimit1 = 0 ∨ d.chargingCurrentLimit1 = 0 then (false, d)
      else if (scCurrents dt d env).inputCurrent1 = 0 ∨ (scCurrents dt d env).chargingCurrent1 = 0
        then (false, scCurrents dt d env)
      else (true, setInputCurrent1 (setChargingCurrent1 (scCurrents dt d env)
        (scCurrents dt d env).chargingCurrent1) (scCurrents dt d env).inputCurrent1) := by
  have he : (if d.chargingCurrentLimit1 ≠ -1 then
      let d := if d.chargingCurrentLimit1 < dt.scChargerCurrent then
        { d with chargingCurrent1 := d.chargingCurrentLimit1 } else d
      if d.chargingCurrentLimit1 < env.minChargingCurrent1 then { d with chargingCurrent1 := 0 }
      else d
    else { d with chargingCurrent1 := dt.scChargerCurrent }) =
      { d with chargingCurrent1 := scCurrent dt d env } := by
    unfold scCurrent
    by_cases h1 : d.chargingCurrentLimit1 = -1
    · simp only [if_pos h1, if_neg (not_not.2 h1)]
    · by_cases h2 : d.chargingCurrentLimit1 < dt.scChargerCurrent <;>
        by_cases h3 : d.chargingCurrentLimit1 < env.minChargingCurrent1 <;>
        simp only [ne_eq, h1, h2, h3, not_false_eq_true, if_true, if_false]
  unfold pdScSetCharger
  rw [he]
  rfl

/-- The single charger's currents after a success. -/
theorem sc_programmed {d : Dev} {env : Env} (h : (pdScSetCharger dt d env).1 = true) :
    (pdScSetCharger dt d env).2.chg1.inputCurrent =
        smaller dt.scInputCurrent d.inputCurrentLimit1 ∧
      (ScSet dt d → (pdScSetCharger dt d env).2.chg1.chargingCurrent =
        smaller dt.scChargerCurrent d.chargingCurrentLimit1) := by
  rw [pdScSetCharger_eq] at h ⊢
  by_cases h0 : d.inputCurrentLimit1 = 0 ∨ d.chargingCurrentLimit1 = 0
  · rw [if_pos h0] at h
    cases h
  · rw [if_neg h0] at h ⊢
    by_cases hz : (scCurrents dt d env).inputCurrent1 = 0 ∨
        (scCurrents dt d env).chargingCurrent1 = 0
    · rw [if_pos hz] at h
      cases h
    · rw [if_neg hz]
      obtain ⟨hi, hc⟩ := not_or.1 hz
      refine ⟨limited_of_ne_zero hi, ?_⟩
      intro hset
      have hcur : (scCurrents dt d env).chargingCurrent1 =
          limited dt.scChargerCurrent d.chargingCurrentLimit1 env.minChargingCurrent1 :=
        scCurrent_of_set dt env hset
      rw [hcur] at hc
      exact hcur.trans (limited_of_ne_zero hc)

/-- When the single charger is not programmed. -/
theorem sc_done {d : Dev} {env : Env} (hi : d.inputCurrentLimit1 ≠ -1 →
      d.inputCurrentLimit1 < env.minInputCurrent1 → d.inputCurrentLimit1 < dt.scInputCurrent)
    (hi0 : 0 ≤ dt.scInputCurrent) (hset : ScSet dt d) (hc0 : 0 ≤ dt.scChargerCurrent) :
    (pdScSetCharger dt d env).1 = false ↔
      TooSmall dt.scInputCurrent d.inputCurrentLimit1 env.minInputCurrent1 ∨
        TooSmall dt.scChargerCurrent d.chargingCurrentLimit1 env.minChargingCurrent1 := by
  have hc : d.chargingCurrentLimit1 ≠ -1 → d.chargingCurrentLimit1 < env.minChargingCurrent1 →
      d.chargingCurrentLimit1 < dt.scChargerCurrent := fun hne _ => hset.resolve_left hne
  have hcur : (scCurrents dt d env).chargingCurrent1 =
      limited dt.scChargerCurrent d.chargingCurrentLimit1 env.minChargingCurrent1 :=
    scCurrent_of_set dt env hset
  rw [pdScSetCharger_eq, ← limited_eq_zero hi, ← limited_eq_zero hc, ← hcur]
  by_cases h0 : d.inputCurrentLimit1 = 0 ∨ d.chargingCurrentLimit1 = 0
  · rw [if_pos h0, hcur, limited_eq_zero hi, limited_eq_zero hc]
    refine ⟨fun _ => ?_, fun _ => rfl⟩
    obtain h0 | h0 := h0
    · rw [h0]
      exact .inl (tooSmall_zero hi0 _)
    · rw [h0]
      exact .inr (tooSmall_zero hc0 _)
  · rw [if_neg h0]
    by_cases hz : (scCurrents dt d env).inputCurrent1 = 0 ∨
        (scCurrents dt d env).chargingCurrent1 = 0
    · rw [if_pos hz]
      exact ⟨fun _ => hz, fun _ => rfl⟩
    · rw [if_neg hz]
      exact ⟨(fun h => nomatch h), fun h => absurd h hz⟩

/-- The second charger's configured current: the one it was tuned to, unless the algorithm runs. -/
def current2 (d : Dev) : Int :=
  if d.state = .run then dt.dcsChg2ChargerCurrent else d.chargingCurrent2

/-- The currents of two chargers. -/
def dcsCurrents (d : Dev) (env : Env) : Dev :=
  { d with
    inputCurrent1 := limited dt.dcsInputCurrent d.inputCurrentLimit1 env.minInputCurrent1
    chargingCurrent1 :=
      limited dt.dcsChg1ChargerCurrent d.chargingCurrentLimit1 env.minChargingCurrent1
    chargingCurrent2 := limited (current2 dt d) d.chargingCurrentLimit2 env.minChargingCurrent2 }

/-- One of two chargers' currents is zero. -/
def dcsZero (d : Dev) : Prop :=
  d.inputCurrent1 = 0 ∨ d.chargingCurrent1 = 0 ∨ d.chargingCurrent2 = 0

instance (d : Dev) : Decidable (dcsZero d) := inferInstanceAs (Decidable (_ ∨ _))

/-- The second charger is switched on. -/
def switchOn2 (env : Env) (d : Dev) : Dev :=
  enableCharger2 (if env.chip2 then d else chargerEnableChip2 d true) true

/-- The second charger's part. -/
def second (d : Dev) (env : Env) : Dev :=
  match d.state with
  | .run => setChargingCurrent2 (setInputCurrent2 (switchOn2 env d) d.chargingCurrent2)
      d.chargingCurrent2
  | .tuning => switchOn2 env d
  | _ => d

theorem pdDcsSetCharger_eq (d : Dev) (env : Env) :
    pdDcsSetCharger dt d env =
      if d.inputCurrentLimit1 = 0 ∨ d.chargingCurrentLimit1 = 0 ∨ d.chargingCurrentLimit2 = 0 then
        (false, d)
      else if dcsZero (dcsCurrents dt d env) then
        (false, chargerEnableChip2 (enableCharger2 (dcsCurrents dt d env) false) false)
      else (true, setInputCurrent1 (setChargingCurrent1 (second (dcsCurrents dt d env) env)
        (second (dcsCurrents dt d env) env).chargingCurrent1)
          (second (dcsCurrents dt d env) env).inputCurrent1) := rfl

theorem switchOn2_currents (env : Env) (d : Dev) :
    (switchOn2 env d).chg2.chargingCurrent = d.chg2.chargingCurrent ∧
      (switchOn2 env d).chg2.inputCurrent = d.chg2.inputCurrent ∧
      (switchOn2 env d).inputCurrent1 = d.inputCurrent1 ∧
      (switchOn2 env d).chargingCurrent1 = d.chargingCurrent1 := by
  unfold switchOn2
  split_ifs <;> exact ⟨rfl, rfl, rfl, rfl⟩

/-- The second charger's part leaves the first one's currents to be set. -/
theorem second_first (d : Dev) (env : Env) :
    (second d env).inputCurrent1 = d.inputCurrent1 ∧
      (second d env).chargingCurrent1 = d.chargingCurrent1 := by
  obtain ⟨-, -, hi, hc⟩ := switchOn2_currents env d
  unfold second
  cases d.state with
  | run | tuning => exact ⟨hi, hc⟩
  | hwUninit | hwFail | hwReady | taNotSupport | postcc => exact ⟨rfl, rfl⟩

/-- The second charger is programmed while the algorithm runs, and else keeps its currents. -/
theorem second_second (d : Dev) (env : Env) :
    (d.state = .run → (second d env).chg2.chargingCurrent = d.chargingCurrent2 ∧
      (second d env).chg2.inputCurrent = d.chargingCurrent2) ∧
    (d.state ≠ .run → (second d env).chg2.chargingCurrent = d.chg2.chargingCurrent ∧
      (second d env).chg2.inputCurrent = d.chg2.inputCurrent) := by
  obtain ⟨hc, hi, -⟩ := switchOn2_currents env d
  unfold second
  cases d.state with
  | run => exact ⟨fun _ => ⟨rfl, rfl⟩, fun h => absurd rfl h⟩
  | tuning => exact ⟨(fun h => nomatch h), fun _ => ⟨hc, hi⟩⟩
  | hwUninit | hwFail | hwReady | taNotSupport | postcc =>
    exact ⟨(fun h => nomatch h), fun _ => ⟨rfl, rfl⟩⟩

/-- The currents of two chargers after a success. -/
theorem dcs_programmed {d : Dev} {env : Env} (h : (pdDcsSetCharger dt d env).1 = true) :
    (pdDcsSetCharger dt d env).2.chg1.inputCurrent =
        smaller dt.dcsInputCurrent d.inputCurrentLimit1 ∧
      (pdDcsSetCharger dt d env).2.chg1.chargingCurrent =
        smaller dt.dcsChg1ChargerCurrent d.chargingCurrentLimit1 ∧
      (d.state = .run →
        (pdDcsSetCharger dt d env).2.chg2.chargingCurrent =
            smaller dt.dcsChg2ChargerCurrent d.chargingCurrentLimit2 ∧
          (pdDcsSetCharger dt d env).2.chg2.inputCurrent =
            smaller dt.dcsChg2ChargerCurrent d.chargingCurrentLimit2) ∧
      (d.state ≠ .run →
        (pdDcsSetCharger dt d env).2.chg2.chargingCurrent = d.chg2.chargingCurrent ∧
          (pdDcsSetCharger dt d env).2.chg2.inputCurrent = d.chg2.inputCurrent) := by
  rw [pdDcsSetCharger_eq] at h ⊢
  by_cases h0 : d.inputCurrentLimit1 = 0 ∨ d.chargingCurrentLimit1 = 0 ∨ d.chargingCurrentLimit2 = 0
  · rw [if_pos h0] at h
    cases h
  · rw [if_neg h0] at h ⊢
    by_cases hz : dcsZero (dcsCurrents dt d env)
    · rw [if_pos hz] at h
      cases h
    · rw [if_neg hz]
      obtain ⟨hi, hcz⟩ := not_or.1 hz
      obtain ⟨hc1, hc2⟩ := not_or.1 hcz
      obtain ⟨hsi, hsc⟩ := second_first (dcsCurrents dt d env) env
      obtain ⟨hrun, helse⟩ := second_second (dcsCurrents dt d env) env
      refine ⟨hsi.trans (limited_of_ne_zero hi), hsc.trans (limited_of_ne_zero hc1), ?_, helse⟩
      intro hst
      have h2 : (dcsCurrents dt d env).chargingCurrent2 =
          smaller dt.dcsChg2ChargerCurrent d.chargingCurrentLimit2 := by
        have hl := limited_of_ne_zero hc2
        rw [current2, if_pos hst] at hl
        exact Eq.trans (by simp only [dcsCurrents, current2, if_pos hst]) hl
      obtain ⟨hr1, hr2⟩ := hrun hst
      exact ⟨hr1.trans h2, hr2.trans h2⟩

/-- When two chargers are not programmed. -/
theorem dcs_done {d : Dev} {env : Env} (hi : d.inputCurrentLimit1 ≠ -1 →
      d.inputCurrentLimit1 < env.minInputCurrent1 → d.inputCurrentLimit1 < dt.dcsInputCurrent)
    (hc1 : d.chargingCurrentLimit1 ≠ -1 → d.chargingCurrentLimit1 < env.minChargingCurrent1 →
      d.chargingCurrentLimit1 < dt.dcsChg1ChargerCurrent)
    (hc2 : d.chargingCurrentLimit2 ≠ -1 → d.chargingCurrentLimit2 < env.minChargingCurrent2 →
      d.chargingCurrentLimit2 < current2 dt d)
    (hi0 : 0 ≤ dt.dcsInputCurrent) (hc10 : 0 ≤ dt.dcsChg1ChargerCurrent)
    (hc20 : 0 ≤ current2 dt d) :
    (pdDcsSetCharger dt d env).1 = false ↔
      TooSmall dt.dcsInputCurrent d.inputCurrentLimit1 env.minInputCurrent1 ∨
        TooSmall dt.dcsChg1ChargerCurrent d.chargingCurrentLimit1 env.minChargingCurrent1 ∨
        TooSmall (current2 dt d) d.chargingCurrentLimit2 env.minChargingCurrent2 := by
  rw [pdDcsSetCharger_eq, ← limited_eq_zero hi, ← limited_eq_zero hc1, ← limited_eq_zero hc2]
  by_cases h0 : d.inputCurrentLimit1 = 0 ∨ d.chargingCurrentLimit1 = 0 ∨ d.chargingCurrentLimit2 = 0
  · rw [if_pos h0, limited_eq_zero hi, limited_eq_zero hc1, limited_eq_zero hc2]
    refine ⟨fun _ => ?_, fun _ => rfl⟩
    obtain h0 | h0 | h0 := h0
    · rw [h0]
      exact .inl (tooSmall_zero hi0 _)
    · rw [h0]
      exact .inr (.inl (tooSmall_zero hc10 _))
    · rw [h0]
      exact .inr (.inr (tooSmall_zero hc20 _))
  · rw [if_neg h0]
    by_cases hz : dcsZero (dcsCurrents dt d env)
    · rw [if_pos hz]
      exact ⟨fun _ => hz, fun _ => rfl⟩
    · rw [if_neg hz]
      exact ⟨(fun h => nomatch h), fun h => absurd h hz⟩

/-! ## A start step -/

/-- A current that a charger needs: the configured one, its limit, and the charger's smallest. -/
structure Needed where
  configured : Int
  limit : Int
  smallest : Int

/-- A limit below the charger's smallest current is below the configured one. -/
def Needed.Regular (n : Needed) : Prop :=
  0 ≤ n.configured ∧ (n.limit ≠ -1 → n.limit < n.smallest → n.limit < n.configured)

/-- The needed currents of a start step. -/
def needed (d d' : Dev) (env : Env) : List Needed :=
  if dt.dualChargersInSeries then
    [⟨dt.dcsInputCurrent, d'.inputCurrentLimit1, env.minInputCurrent1⟩,
      ⟨dt.dcsChg1ChargerCurrent, d'.chargingCurrentLimit1, env.minChargingCurrent1⟩,
      ⟨if d'.state = .run then dt.dcsChg2ChargerCurrent else d.chargingCurrent2,
        d'.chargingCurrentLimit2, env.minChargingCurrent2⟩]
  else
    [⟨dt.scInputCurrent, d'.inputCurrentLimit1, env.minInputCurrent1⟩,
      ⟨dt.scChargerCurrent, d'.chargingCurrentLimit1, env.minChargingCurrent1⟩]

/-- The limits in force: those that were set, the first charger's input being limited by the current
of the capability in use, too, or the current of a failure where no capability could be chosen. -/
def LimitsInForce (d d' : Dev) : Prop :=
  d'.chargingCurrentLimit2 = d.chargingCurrentLimit2 ∧
    (d'.chargingCurrentLimit1 = d.chargingCurrentLimit1 ∧ d'.inputCurrentLimit1 =
        smaller ((d'.cap.entry d'.pdIdx).ma * 1000) d.inputCurrentLimit1 ∨
      d'.chargingCurrentLimit1 = pdFailCurrent ∧ d'.inputCurrentLimit1 = pdFailCurrent)

/-- The currents after a start step that succeeds. -/
structure Started (d d' : Dev) : Prop where
  limits : LimitsInForce d d'
  input : d'.chg1.inputCurrent = smaller
    (if dt.dualChargersInSeries then dt.dcsInputCurrent else dt.scInputCurrent)
    d'.inputCurrentLimit1
  charging : dt.dualChargersInSeries = true ∨ ScSet dt d' → d'.chg1.chargingCurrent = smaller
    (if dt.dualChargersInSeries then dt.dcsChg1ChargerCurrent else dt.scChargerCurrent)
    d'.chargingCurrentLimit1
  second : dt.dualChargersInSeries = true → d'.state = .run →
    d'.chg2.chargingCurrent = smaller dt.dcsChg2ChargerCurrent d'.chargingCurrentLimit2 ∧
      d'.chg2.inputCurrent = smaller dt.dcsChg2ChargerCurrent d'.chargingCurrentLimit2
  tuned : dt.dualChargersInSeries = true → d'.state ≠ .run →
    d'.chg2.chargingCurrent = d.chg2.chargingCurrent ∧ d'.chg2.inputCurrent = d.chg2.inputCurrent

/-- The step is done exactly when a needed current is too small. -/
def DoneWhen (ret : Alg) (d d' : Dev) (env : Env) : Prop :=
  (∀ n ∈ needed dt d d' env, n.Regular) → (dt.dualChargersInSeries = true ∨ ScSet dt d') →
    (ret = .done ↔ ∃ n ∈ needed dt d d' env, TooSmall n.configured n.limit n.smallest)

/-- Programming the chargers, from limits in force. -/
theorem setCharger_started {d d1 : Dev} (env : Env) (hl : LimitsInForce d d1)
    (h2 : d1.chargingCurrent2 = d.chargingCurrent2)
    (hc2 : d1.chg2.chargingCurrent = d.chg2.chargingCurrent)
    (hi2 : d1.chg2.inputCurrent = d.chg2.inputCurrent) :
    ((setCharger dt d1 env).1 = true → Started dt d (setCharger dt d1 env).2) ∧
      DoneWhen dt (if (setCharger dt d1 env).1 then .running else .done) d (setCharger dt d1 env).2
        env := by
  obtain ⟨s1, s2, s3, s4, s5, s6⟩ := setCharger_limits dt d1 env
  have hdone : (if (setCharger dt d1 env).1 = true then Alg.running else .done) = .done ↔
      (setCharger dt d1 env).1 = false := by
    cases (setCharger dt d1 env).1 <;> simp
  have hlim : LimitsInForce d (setCharger dt d1 env).2 := by
    unfold LimitsInForce
    rw [s2, s3, s4, s5, s6]
    exact hl
  unfold DoneWhen needed ScSet
  rw [hdone, s1, s2, s3, s4]
  by_cases hdual : dt.dualChargersInSeries = true
  · have he : setCharger dt d1 env = pdDcsSetCharger dt d1 env := if_pos hdual
    constructor
    · intro hok
      rw [he] at hok
      obtain ⟨p1, p2, p3, p4⟩ := dcs_programmed dt hok
      constructor
      · exact hlim
      · rw [if_pos hdual, s2, he]
        exact p1
      · intro _
        rw [if_pos hdual, s3, he]
        exact p2
      · intro _ hst
        rw [s4, he]
        exact p3 (s1 ▸ hst)
      · intro _ hst
        rw [he, ← hc2, ← hi2]
        exact p4 (s1 ▸ hst)
    · intro hreg _
      rw [if_pos hdual, ← h2] at hreg ⊢
      have r1 := hreg _ (.head _)
      have r2 := hreg _ (.tail _ (.head _))
      have r3 := hreg _ (.tail _ (.tail _ (.head _)))
      rw [he]
      simp only [List.exists_mem_cons_iff, List.not_mem_nil, false_and, exists_false, or_false]
      exact dcs_done dt r1.2 r2.2 r3.2 r1.1 r2.1 r3.1
  · have he : setCharger dt d1 env = pdScSetCharger dt d1 env := if_neg hdual
    constructor
    · intro hok
      rw [he] at hok
      obtain ⟨p1, p2⟩ := sc_programmed dt hok
      constructor
      · exact hlim
      · rw [if_neg hdual, s2, he]
        exact p1
      · intro hset
        unfold ScSet at hset p2
        rw [s3] at hset
        rw [if_neg hdual, s3, he]
        exact p2 (hset.resolve_left hdual)
      · exact fun h => absurd h hdual
      · exact fun h => absurd h hdual
    · intro hreg hset
      rw [if_neg hdual] at hreg ⊢
      have r1 := hreg _ (.head _)
      have r2 := hreg _ (.tail _ (.head _))
      rw [he]
      simp only [List.exists_mem_cons_iff, List.not_mem_nil, false_and, exists_false, or_false]
      exact sc_done dt r1.2 r1.1 (hset.resolve_left hdual) r2.1

theorem limitBy_some (d : Dev) (s : Setting) :
    (limitBy d (some s)).inputCurrentLimit1 = smaller (s.cur * 1000) d.inputCurrentLimit1 ∧
      (limitBy d (some s)).cap = d.cap ∧
      Same { d with inputCurrentLimit1 := smaller (s.cur * 1000) d.inputCurrentLimit1 }
        (limitBy d (some s)) := by
  have he : limitBy d (some s) =
      { d with inputCurrentLimit1 := smaller (s.cur * 1000) d.inputCurrentLimit1 } := by
    simp only [limitBy, smaller]
    split_ifs <;> rfl
  rw [he]
  exact ⟨rfl, rfl, Same.refl _⟩

/-- **A run step.** -/
theorem pdRun_started (d : Dev) (env : Env) :
    ((pdRun dt d env).1.1 = .running → Started dt d (pdRun dt d env).1.2) ∧
      DoneWhen dt (pdRun dt d env).1.1 d (pdRun dt d env).1.2 env := by
  have hg := getSetting_same dt d env
  have hcur : ∀ s, (mtkPdcGetSetting dt d env).1.1 = some s →
      s.cur = ((mtkPdcGetSetting dt d env).1.2.cap.entry s.idx).ma :=
    fun s => getSetting_cur dt d env
  have hret : ∀ b : Bool, (if b = true then Alg.running else .done) = .running → b = true := by
    intro b hb
    cases b with
    | true => rfl
    | false => cases hb
  simp only [pdRun]
  generalize mtkPdcGetSetting dt d env = r at hg hcur
  generalize hsetting : r.1.1.filter (fun s => decide (s.idx ≠ -1)) = setting
  cases setting with
  | none =>
    have hl : LimitsInForce d (limitBy r.1.2 none) := ⟨hg.cc2, .inr ⟨rfl, rfl⟩⟩
    obtain ⟨hs, hd⟩ := setCharger_started dt env hl hg.current2 hg.charging2 hg.input2
    exact ⟨fun hr => hs (hret _ hr), hd⟩
  | some s =>
    have hmem : r.1.1 = some s := (Option.filter_eq_some_iff.1 hsetting).1
    obtain ⟨hicl, hcap1, h1⟩ := limitBy_some r.1.2 s
    have h2 := setup_same dt (limitBy r.1.2 (some s)) s.idx env.probe
    obtain ⟨hcap2, hidx⟩ := setup_cap dt (limitBy r.1.2 (some s)) s.idx env.probe
    have hl : LimitsInForce d (mtkPdcSetup dt (limitBy r.1.2 (some s)) s.idx env.probe).1 := by
      refine ⟨(h2.cc2.trans h1.cc2).trans hg.cc2, .inl ⟨(h2.cc1.trans h1.cc1).trans hg.cc1, ?_⟩⟩
      rw [h2.icl1, hicl, hcap2, hcap1, hidx, hg.icl1, ← hcur s hmem]
    obtain ⟨hs, hd⟩ := setCharger_started dt env hl
      ((h2.current2.trans h1.current2).trans hg.current2)
      ((h2.charging2.trans h1.charging2).trans hg.charging2)
      ((h2.input2.trans h1.input2).trans hg.input2)
    exact ⟨fun hr => hs (hret _ hr), hd⟩

/-! ## Events -/

/-- A start step runs, or neither runs nor is done. -/
theorem startAlgo_cases (d : Dev) (env : Env) :
    (∃ st, pdStartAlgo dt d env = pdRun dt { d with state := st } env) ∨
      (pdStartAlgo dt d env).1.1 ≠ .running ∧ (pdStartAlgo dt d env).1.1 ≠ .done := by
  unfold pdStartAlgo
  cases hst : d.state with
  | hwUninit | hwFail | taNotSupport => exact .inr ⟨by simp, by simp⟩
  | hwReady =>
    simp only [pdHalIsPdAdapterReady]
    split
    · exact .inr ⟨by simp, by simp⟩
    · split_ifs
      · exact .inl ⟨_, rfl⟩
      · exact .inr ⟨by simp, by simp⟩
    · split <;> exact .inr ⟨by simp, by simp⟩
  | run | tuning | postcc => exact .inl ⟨d.state, rfl⟩

/-- What an event programs. -/
def Programmed (d : Dev) (e : Event) (o : Out) (d' : Dev) : Prop :=
  match e with
  | .startAlgo env => (o.ret = some .running → Started dt d d') ∧
      (o.ret = some .running ∨ o.ret = some .done →
        ∃ r, o.ret = some r ∧ DoneWhen dt r d d' env)
  | .full _ =>
      (d'.chg1.inputCurrent = d.chg1.inputCurrent ∧ d'.chg2.inputCurrent = d.chg2.inputCurrent) ∧
        (d'.state ≠ .tuning → d'.chg1.chargingCurrent = d.chg1.chargingCurrent ∧
          d'.chg2.chargingCurrent = d.chg2.chargingCurrent) ∧
        (dt.dualChargersInSeries = true → d'.state = .tuning →
          d'.chg2.chargingCurrent = d'.chargingCurrent2)
  | .plugIn _ _ | .isAlgoReady _ | .setSetting _ => d'.chg1 = d.chg1 ∧ d'.chg2 = d.chg2
  | .stopAlgo _ | .plugOut => True

theorem start_programmed (d : Dev) (env : Env) :
    Programmed dt d (.startAlgo env) ⟨some (pdStartAlgo dt d env).1.1, (pdStartAlgo dt d env).2⟩
      (pdStartAlgo dt d env).1.2 := by
  obtain ⟨st, he⟩ | ⟨hr, hd⟩ := startAlgo_cases dt d env
  · rw [he]
    obtain ⟨hs, hd⟩ := pdRun_started dt { d with state := st } env
    refine ⟨?_, fun _ => ⟨_, rfl, hd⟩⟩
    intro hret
    obtain ⟨h1, h2, h3, h4, h5⟩ := hs (Option.some.inj hret)
    exact ⟨h1, h2, h3, h4, h5⟩
  · refine ⟨fun h => absurd (Option.some.inj h) hr, ?_⟩
    rintro (h | h)
    · exact absurd (Option.some.inj h) hr
    · exact absurd (Option.some.inj h) hd

theorem full_programmed (d : Dev) (env : Env) (o : Out) :
    Programmed dt d (.full env) o (pdFullEvt dt d env) := by
  unfold pdFullEvt
  cases hst : d.state with
  | hwUninit | hwFail | hwReady | taNotSupport =>
    refine ⟨⟨rfl, rfl⟩, fun _ => ⟨rfl, rfl⟩, ?_⟩
    intro _ ht
    simp only at ht
    rw [hst] at ht
    cases ht
  | run | tuning | postcc =>
    simp only
    by_cases hdual : dt.dualChargersInSeries = true
    · rw [if_pos hdual]
      split_ifs
      · exact ⟨⟨rfl, rfl⟩, fun _ => ⟨rfl, rfl⟩, fun _ h => nomatch h⟩
      · exact ⟨⟨rfl, rfl⟩, fun _ => ⟨rfl, rfl⟩, fun _ h => nomatch h⟩
      · exact ⟨⟨rfl, rfl⟩, fun h => absurd rfl h, fun _ _ => rfl⟩
      · exact ⟨⟨rfl, rfl⟩, fun h => absurd rfl h, fun _ _ => rfl⟩
    · rw [if_neg hdual]
      refine ⟨?_, ?_, fun h => absurd h hdual⟩
      · split_ifs <;> exact ⟨rfl, rfl⟩
      · intro _
        split_ifs <;> exact ⟨rfl, rfl⟩

/-- **One event.** -/
theorem step_programmed (d : Dev) (e : Event) :
    ∃ o d', step dt d e = some (o, d') ∧ Programmed dt d e o d' := by
  cases e with
  | plugIn caps le =>
    refine ⟨_, _, rfl, ?_⟩
    unfold Programmed
    split_ifs <;> exact ⟨rfl, rfl⟩
  | isAlgoReady env =>
    refine ⟨_, _, rfl, ?_⟩
    unfold Programmed pdIsAlgoReady
    cases d.state with
    | hwReady => cases pdHalIsPdAdapterReady d env <;> exact ⟨rfl, rfl⟩
    | hwUninit | hwFail | taNotSupport | run | tuning | postcc => exact ⟨rfl, rfl⟩
  | startAlgo env => exact ⟨_, _, rfl, start_programmed dt d env⟩
  | stopAlgo env => exact ⟨_, _, rfl, trivial⟩
  | full env => exact ⟨_, _, rfl, full_programmed dt d env _⟩
  | plugOut => exact ⟨_, _, rfl, trivial⟩
  | setSetting s => exact ⟨_, _, rfl, rfl, rfl⟩

end

/-- **The programmed currents.** In every run, each start step that succeeds leaves each charger
with the smaller of the configured current and the limit in force, the second charger while it is
not tuned, and a start step is done exactly when a needed current is too small. -/
theorem pd_currents (dt : Dt) (chg1 chg2 : Charger) (es : List Event) :
    ∃ os d', Sys.run (step dt) (initAlgo chg1 chg2) es = some (os, d') ∧
      Sys.Trace (Programmed dt) (initAlgo chg1 chg2) os d' := by
  obtain ⟨os, d', hrun, -, htrace⟩ := Sys.run_sim (P := fun _ _ => True) (I := fun _ => True) id
    (fun d e _ _ => by
      obtain ⟨o, d', hs, hp⟩ := step_programmed dt d e
      exact ⟨o, d', hs, trivial, hp⟩) es (initAlgo chg1 chg2) trivial
    (Sys.along_of_forall (fun _ _ => trivial) es _)
  exact ⟨os, d', hrun, htrace⟩

/-- Two chargers in series, else with the default settings. -/
def dtDual : Dt := { dtDefault with dualChargersInSeries := true }

/-- The second charger is on and draws 1.5 A. -/
def envDual : Env := { envAt 500 with enabled2 := true, chip2 := true, ichg2 := 1500000 }

/-- After a tuning the second charger keeps 1 A in a start step that succeeds, where 1.5 A are
configured and there is no limit. -/
theorem pd_currents_tuned :
    (Sys.run (step dtDual) (initAlgo chargerOff chargerOff)
      [noLimit, plugTwo, .startAlgo envDual, .full envDual, .startAlgo envDual]).map (fun q =>
        (q.1.getLast?.map fun e => e.2.ret, q.2.chg2.chargingCurrent,
          smaller dtDual.dcsChg2ChargerCurrent q.2.chargingCurrentLimit2)) =
      some (some (some .running), 1000000, 1500000) := by
  decide

end Pd
