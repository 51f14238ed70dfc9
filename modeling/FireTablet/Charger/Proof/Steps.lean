import FireTablet.Charger.Thread

/-!
# What the parts of a pass do

Each part of a pass changes a few fields of the driver. The lemmas here say which, once for each
part, so that an invariant about a field only has to look at the parts that write it (`pass_cases`,
`stepped`).
-/

namespace Charger

/-! ## The cable -/

theorem mtkIsChargerOn_cases (chrType : ChrType) (i : Info) :
    (chrType = .unknown ∧ i.chrType ≠ .unknown ∧
      mtkIsChargerOn chrType i = { mtkChargerPlugOut i with cableOutCnt := 0 }) ∨
    (chrType = .unknown ∧ i.chrType = .unknown ∧ mtkIsChargerOn chrType i = i) ∨
    (chrType ≠ .unknown ∧ i.cableOutCnt ≤ 0 ∧ i.chrType = .unknown ∧
      mtkIsChargerOn chrType i = mtkChargerPlugIn chrType i) ∨
    (chrType ≠ .unknown ∧ i.cableOutCnt ≤ 0 ∧ i.chrType ≠ .unknown ∧
      mtkIsChargerOn chrType i = { i with chrType := chrType }) ∨
    (chrType ≠ .unknown ∧ 0 < i.cableOutCnt ∧ mtkIsChargerOn chrType i =
      { mtkChargerPlugIn chrType
          (mtkChargerPlugOut (if i.chrType = .unknown then mtkChargerPlugIn chrType i
            else { i with chrType := chrType })) with cableOutCnt := 0 }) := by
  unfold mtkIsChargerOn
  by_cases hc : chrType = .unknown
  · rw [if_pos hc]
    by_cases hi : i.chrType = .unknown
    · exact Or.inr (Or.inl ⟨hc, hi, if_neg fun h => h hi⟩)
    · exact Or.inl ⟨hc, hi, if_pos hi⟩
  · rw [if_neg hc]
    by_cases hi : i.chrType = .unknown
    · simp only [if_pos hi]
      by_cases hn : 0 < i.cableOutCnt
      · exact Or.inr (Or.inr (Or.inr (Or.inr ⟨hc, hn, if_pos hn⟩)))
      · exact Or.inr (Or.inr (Or.inl ⟨hc, Int.not_lt.1 hn, hi, if_neg hn⟩))
    · simp only [if_neg hi]
      by_cases hn : 0 < i.cableOutCnt
      · exact Or.inr (Or.inr (Or.inr (Or.inr ⟨hc, hn, if_pos hn⟩)))
      · exact Or.inr (Or.inr (Or.inr (Or.inl ⟨hc, Int.not_lt.1 hn, hi, if_neg hn⟩)))

/-- Looking at the cable changes what belongs to a charger, not the verdict on it. -/
theorem atCheck_frame (r : PassReading) (i : Info) : ∃ t n l can st ov en,
    i.atCheck r = { i with
      chrType := t
      cableOutCnt := n
      lim := l
      canCharging := can
      safetyTimeout := st
      vbusovStat := ov
      enabled := en } ∧
    l.invalidChargerDetWeak = i.lim.invalidChargerDetWeak := by
  unfold Info.atCheck
  rcases mtkIsChargerOn_cases r.chrType i with
    ⟨-, -, h⟩ | ⟨-, -, h⟩ | ⟨-, -, -, h⟩ | ⟨-, -, -, h⟩ | ⟨-, -, h⟩
  · exact ⟨_, _, _, _, _, _, _, h, rfl⟩
  · exact ⟨_, _, _, _, _, _, _, h, rfl⟩
  · exact ⟨_, _, _, _, _, _, _, h, rfl⟩
  · exact ⟨_, _, _, _, _, _, _, h, rfl⟩
  · by_cases hi : i.chrType = .unknown
    · rw [if_pos hi] at h
      exact ⟨_, _, _, _, _, _, _, h, rfl⟩
    · rw [if_neg hi] at h
      exact ⟨_, _, _, _, _, _, _, h, rfl⟩

/-! ## The decision -/

/-- The checks move the state machine and note the input voltage. -/
theorem mayCharge_frame (c : Conf) (r : StatusReading) (i : Info) : ∃ j t v b,
    (mayCharge c r i).2 = { i with
      swJeita := j
      thermalSm := t
      vbusState := v
      lim := { i.lim with vbusRecoveryFromUvlo := b } } ∧
    (j = i.swJeita ∨ j = doSwJeitaStateMachine c.thres c.cv r.stage r.batteryTemp i.swJeita) := by
  have htemp : ∃ j t, (temperatureCheck c r i).2 = { i with swJeita := j, thermalSm := t } ∧
      (j = i.swJeita ∨ j = doSwJeitaStateMachine c.thres c.cv r.stage r.batteryTemp i.swJeita) := by
    unfold temperatureCheck
    by_cases hj : i.set.enableSwJeita
    · rw [if_pos hj]
      exact ⟨_, _, rfl, Or.inr rfl⟩
    · rw [if_neg hj]
      exact ⟨_, _, rfl, Or.inl rfl⟩
  have hvbus : ∀ i : Info, ∃ v b, (mtkChgCheckVbus c r i).2 =
      { i with vbusState := v, lim := { i.lim with vbusRecoveryFromUvlo := b } } := by
    intro i
    unfold mtkChgCheckVbus
    by_cases hw : i.lim.invalidChargerDetWeak
    · rw [if_pos hw]
      exact ⟨_, _, rfl⟩
    · rw [if_neg hw]
      exact ⟨_, _, rfl⟩
  unfold mayCharge
  by_cases hb : i.set.bcmFlag
  · rw [if_pos hb]
    exact ⟨_, _, _, _, rfl, Or.inl rfl⟩
  rw [if_neg hb]
  obtain ⟨j, t, hti, hj⟩ := htemp
  obtain ⟨v, b, hv⟩ := hvbus (temperatureCheck c r i).2
  simp only
  by_cases hok : (temperatureCheck c r i).1 = true
  · rw [if_neg (by simp [hok])]
    have he : (mtkChgCheckVbus c r (temperatureCheck c r i).2).2 = { i with
        swJeita := j
        thermalSm := t
        vbusState := v
        lim := { i.lim with vbusRecoveryFromUvlo := b } } := by
      rw [hv, hti]
    by_cases hvb : (mtkChgCheckVbus c r (temperatureCheck c r i).2).1 = true
    · rw [if_neg (by simp [hvb])]
      by_cases hid : r.batteryId = true
      · rw [if_neg (by simp [hid])]
        exact ⟨_, _, _, _, he, hj⟩
      · rw [if_pos (by simp [hid])]
        exact ⟨_, _, _, _, he, hj⟩
    · rw [if_pos (by simp [hvb])]
      exact ⟨_, _, _, _, he, hj⟩
  · rw [if_pos (by simp [hok])]
    exact ⟨_, _, _, _, hti, hj⟩

/-- The enable bit is written when the decision differs from the one before. -/
def enabledBy (charging : Bool) (i : Info) : Bool :=
  if charging ≠ i.canCharging then charging else i.enabled

theorem chargerCheckStatus_cases (c : Conf) (r : StatusReading) (chrType : ChrType) (i : Info) :
    (chrType = .unknown ∧ chargerCheckStatus c r chrType i = ([], i)) ∨
    (chrType ≠ .unknown ∧ (mayCharge c r i).1 = true ∧ chargerCheckStatus c r chrType i =
      ([], { (mayCharge c r i).2 with
        canCharging := true
        enabled := enabledBy true (mayCharge c r i).2 })) ∨
    (chrType ≠ .unknown ∧ (mayCharge c r i).1 = false ∧ chargerCheckStatus c r chrType i =
      ([(mayCharge c r i).2.cvWrite .checkStatus ((mayCharge c r i).2.selectCv c r.stage) r.stage],
        { (mayCharge c r i).2 with
          canCharging := false
          enabled := enabledBy false (mayCharge c r i).2
          lim := { (mayCharge c r i).2.lim with
            setting := { (mayCharge c r i).2.lim.setting with
              cv := (mayCharge c r i).2.selectCv c r.stage } } })) := by
  unfold chargerCheckStatus
  by_cases hc : chrType = .unknown
  · exact Or.inl ⟨hc, if_pos hc⟩
  rw [if_neg hc]
  generalize mayCharge c r i = m
  obtain ⟨charging, i'⟩ := m
  refine Or.inr ?_
  simp only [enabledBy, enableCharging]
  cases charging with
  | true =>
    refine Or.inl ⟨hc, rfl, ?_⟩
    rw [if_pos rfl]
    by_cases hne : true ≠ i'.canCharging
    · simp only [if_pos hne]
    · simp only [if_neg hne]
  | false =>
    refine Or.inr ⟨hc, rfl, ?_⟩
    rw [if_neg (by decide)]
    by_cases hne : false ≠ i'.canCharging
    · simp only [if_pos hne]
      rfl
    · simp only [if_neg hne]

/-- The top-off voltages. -/
def Conf.topOffCvs (c : Conf) : List Int :=
  [c.topOffModeCv, c.topOffModeCvAging1, c.topOffModeCvAging2]

theorem chargerTopOffMode_frame (c : Conf) (r : StatusReading) (i : Info) : ∃ k,
    chargerTopOffMode c r i = { i with customChargingCv := k } ∧
    (k = i.customChargingCv ∨ k = -1 ∨ k ∈ c.topOffCvs) := by
  unfold chargerTopOffMode
  generalize hcv : (if c.agingZcv = true ∧ r.stage = some 1 then c.topOffModeCvAging1
    else if c.agingZcv = true ∧ r.stage = some 2 then c.topOffModeCvAging2 else c.topOffModeCv) = cv
  have hmem : cv ∈ c.topOffCvs := by
    unfold Conf.topOffCvs
    rw [← hcv]
    split
    · simp
    · split <;> simp
  simp only
  by_cases h0 : c.agingZcv = true ∧ cv = 0
  · exact ⟨_, if_pos h0, Or.inl rfl⟩
  rw [if_neg h0]
  by_cases hlow : i.set.topOffModeEnable = true ∧ r.uiSoc < 100
  · exact ⟨_, if_pos hlow, Or.inl rfl⟩
  rw [if_neg hlow]
  refine ⟨_, rfl, Or.inr ?_⟩
  by_cases hen : i.set.topOffModeEnable = true
  · exact Or.inr (by rwa [if_pos hen])
  · exact Or.inl (if_neg hen)

/-! ## The voltage that the limits carry -/

section
variable (c : Conf) (r : CurrentReading) (chrType : ChrType) (l : Limits)

@[simp] theorem typeLimits_cv : (typeLimits c chrType l).setting.cv = l.setting.cv := by
  unfold typeLimits
  split
  · rfl
  · simp only
    split <;> rfl

@[simp] theorem basicLimits_cv : (basicLimits c r chrType l).setting.cv = l.setting.cv := by
  unfold basicLimits
  simp only
  split <;> rfl

@[simp] theorem checkInvalidCharger_cv :
    (checkInvalidCharger c r l).setting.cv = l.setting.cv := by
  unfold checkInvalidCharger
  simp only
  split_ifs <;> rfl

@[simp] theorem adapterPowerDetection_cv :
    (adapterPowerDetection c r chrType l).1.setting.cv = l.setting.cv := by
  have hocp : (adapterPowerDetectionByOcp r l).2.setting.cv = l.setting.cv := by
    unfold adapterPowerDetectionByOcp
    split_ifs <;> rfl
  unfold adapterPowerDetection
  simp only
  split_ifs <;> first | rfl | exact hocp

@[simp] theorem applyAicl_cv (fast : Bool) : (applyAicl fast l).setting.cv = l.setting.cv := by
  unfold applyAicl
  split_ifs <;> rfl

@[simp] theorem jeitaLimits_cv (s : Settings) (sm : JeitaZone) :
    (jeitaLimits c s chrType sm l).setting.cv = l.setting.cv := by
  unfold jeitaLimits
  split_ifs
  · split <;> rfl
  · rfl

@[simp] theorem thermalLimits_cv : (thermalLimits l).setting.cv = l.setting.cv := rfl

@[simp] theorem selectDone_cv (isBasic byOcp : Bool) :
    (selectDone r isBasic byOcp l).lim.setting.cv = l.setting.cv := rfl

theorem selectChargingCurrentLimit_cv (s : Settings) (j : SwJeita) (k : Int) :
    (selectChargingCurrentLimit c r s chrType j k l).lim.setting.cv = selectCv c r.stage s j k := by
  unfold selectChargingCurrentLimit
  simp only
  split
  · simp
  · split_ifs <;> simp

end

/-! ## The algorithm -/

/-- The limits that an algorithm pass chooses. -/
def AlgReading.select (c : Conf) (r : AlgReading) (i : Info) : Selected :=
  selectChargingCurrentLimit c
    { r.current with fastCharging := supportFastCharging r.algs } i.set i.chrType i.swJeita
    i.customChargingCv i.lim

theorem doAlgorithm_frame (c : Conf) (r : AlgReading) (i : Info) : ∃ en ws,
    doAlgorithm c r i = (ocpWrites c r.current i (r.select c i).byOcp ++ ws,
      { i with lim := (r.select c i).lim, isChgDone := r.chgDone, enabled := en }) ∧
    (ws = [] ∨ ws = [i.cvWrite .doAlgorithm (r.select c i).lim.setting.cv r.current.stage]) := by
  have hocp : ∀ b, ocpWrites c { r.current with fastCharging := supportFastCharging r.algs } i b =
      ocpWrites c r.current i b := fun _ => rfl
  have hsel : selectChargingCurrentLimit c
      { r.current with fastCharging := supportFastCharging r.algs } i.set i.chrType i.swJeita
      i.customChargingCv i.lim = r.select c i := rfl
  unfold doAlgorithm
  simp only [hsel, hocp]
  generalize r.select c i = sel
  generalize (if sel.isBasic = true then (true, i.enabled)
    else algLoop (!i.set.enableHvCharging || decide (sel.lim.pdata.chargingCurrentLimit = 0 ∨
      sel.lim.pdata.inputCurrentLimit = 0)) r.algs i.enabled) = loop
  obtain ⟨isBasic, enabled⟩ := loop
  cases isBasic with
  | true => exact ⟨_, _, rfl, Or.inr rfl⟩
  | false => exact ⟨_, [], by rw [List.append_nil]; rfl, Or.inl rfl⟩

/-! ## A pass -/

/-- The driver after the decision of a pass. -/
def Info.decided (c : Conf) (r : PassReading) (i : Info) : Info :=
  (chargerCheckStatus c r.status r.chrType (i.atCheck r)).2

/-- The driver before the algorithm of a pass. -/
def Info.protectedBy (c : Conf) (r : PassReading) (i : Info) : Info :=
  let i := chargerTopOffMode c r.status (i.decided c r)
  { i with
    eoc := checkDpmEocState c r.eoc
      (batteryProtectAlgo c r.eoc i.set i.chrType i.swJeita.cv i.customChargingCv i.eoc) }

/-- Whether a pass runs the algorithm. -/
def Info.charges (c : Conf) (r : PassReading) (i : Info) : Prop :=
  ¬ c.disableCharger ∧ r.chrType ≠ .unknown ∧ (i.protectedBy c r).canCharging

theorem pass_cases (c : Conf) (r : PassReading) (i : Info) :
    (i.charges c r ∧ pass c r i =
      ((chargerCheckStatus c r.status r.chrType (i.atCheck r)).1 ++
          (doAlgorithm c r.alg (i.protectedBy c r)).1,
        (doAlgorithm c r.alg (i.protectedBy c r)).2)) ∨
    (¬ i.charges c r ∧ pass c r i =
      ((chargerCheckStatus c r.status r.chrType (i.atCheck r)).1, i.protectedBy c r)) := by
  by_cases h : i.charges c r
  · exact Or.inl ⟨h, if_pos h⟩
  · exact Or.inr ⟨h, if_neg h⟩

/-! ## An event -/

/-- What an event does, with the conditions under which it can come. -/
inductive Stepped (c : Conf) (x : Ctl) : Ev → Seen × Ctl → Prop
  | pass (r : PassReading) : (x.online = false → r.chrType = .unknown) →
      Stepped c x (.pass r) (⟨(Charger.pass c r x.info).1,
        some (r, x.info.atCheck r, (Charger.pass c r x.info).2)⟩,
        x.noted (Charger.pass c r x.info).2)
  | plugIn (now : Int) : x.online = false → x.clock ≤ now →
      Stepped c x (.plugIn now) (⟨[], none⟩,
        { x.noted (externalPowerChanged c true now x.info) with
          online := true, clock := now, charger := x.charger + 1 })
  | plugOut (now : Int) : x.online = true → x.clock ≤ now →
      Stepped c x (.plugOut now) (⟨[], none⟩,
        { x.noted (externalPowerChanged c false now x.info) with
          online := false, clock := now })
  | changed (now : Int) : x.clock ≤ now →
      Stepped c x (.changed now) (⟨[], none⟩,
        { x.noted (externalPowerChanged c x.online now x.info) with clock := now })
  | currentCmd (u d : Int) :
      Stepped c x (.currentCmd u d) (⟨[], none⟩, x.noted (mtkChgCurrentCmdWrite u d x.info))
  | safetyTimeout :
      Stepped c x .safetyTimeout (⟨[], none⟩,
        { x.noted { x.info with safetyTimeout := true } with safetyOf := x.charger })
  | vbusOvp (stat : Bool) :
      Stepped c x (.vbusOvp stat) (⟨[], none⟩,
        { x.noted { x.info with vbusovStat := stat } with vbusovOf := x.charger })
  | wakeUp : Stepped c x .wakeUp (⟨[], none⟩, x)
  | settings (s : Settings) :
      Stepped c x (.settings s) (⟨[], none⟩,
        x.noted { x.info with set := { s with usbUnlimited := x.info.set.usbUnlimited } })
  | limits (o1 o2 : OuterLimits) :
      Stepped c x (.limits o1 o2) (⟨[], none⟩, x.noted { x.info with
        lim := { x.info.lim with
          pdata := x.info.lim.pdata.store o1
          pdata2 := x.info.lim.pdata2.store o2 } })
  | changeSetting (r : CurrentReading) :
      Stepped c x (.changeSetting r) (⟨(mtkBasicChargingCurrent c r x.info).1, none⟩,
        x.noted (mtkBasicChargingCurrent c r x.info).2)

theorem stepped {c : Conf} {x : Ctl} {e : Ev} {out : Seen × Ctl} (hs : step c x e = some out) :
    Stepped c x e out := by
  cases e with
  | pass r =>
    by_cases hon : x.online = false ∧ r.chrType ≠ .unknown
    · rw [show step c x (.pass r) = none from if_pos hon] at hs
      cases hs
    · rw [show step c x (.pass r) = some _ from if_neg hon] at hs
      cases hs
      exact .pass r fun h => by simpa [h] using hon
  | plugIn now =>
    by_cases hon : x.online = true ∨ now < x.clock
    · rw [show step c x (.plugIn now) = none from if_pos hon] at hs
      cases hs
    · rw [show step c x (.plugIn now) = some _ from if_neg hon] at hs
      cases hs
      exact .plugIn now (by simpa using fun h => hon (Or.inl h))
        (Int.not_lt.1 fun h => hon (Or.inr h))
  | plugOut now =>
    by_cases hon : ¬ x.online = true ∨ now < x.clock
    · rw [show step c x (.plugOut now) = none from if_pos hon] at hs
      cases hs
    · rw [show step c x (.plugOut now) = some _ from if_neg hon] at hs
      cases hs
      exact .plugOut now (by simpa using fun h => hon (Or.inl h))
        (Int.not_lt.1 fun h => hon (Or.inr h))
  | changed now =>
    by_cases hon : now < x.clock
    · rw [show step c x (.changed now) = none from if_pos hon] at hs
      cases hs
    · rw [show step c x (.changed now) = some _ from if_neg hon] at hs
      cases hs
      exact .changed now (Int.not_lt.1 hon)
  | currentCmd u d => cases hs; exact .currentCmd u d
  | safetyTimeout => cases hs; exact .safetyTimeout
  | vbusOvp stat => cases hs; exact .vbusOvp stat
  | wakeUp => cases hs; exact .wakeUp
  | settings s => cases hs; exact .settings s
  | limits o1 o2 => cases hs; exact .limits o1 o2
  | changeSetting r => cases hs; exact .changeSetting r

/-! ## A plain pass, for the runs that follow -/

/-- Nothing is detected or measured. -/
def CurrentReading.plain : CurrentReading where
  stage := none
  wpcOnline := false
  fastCharging := false
  aicl := none
  tcpcFound := false
  rpCurr := 0
  rpLevel := 500
  typecOnlySnk := false
  invWaitOut := false
  vdpm := false
  vbusUv := 5000000
  invOut := false
  bakCvUv := 0
  ocpWaitOut := false
  ocpAicl := none
  ocpOut := false
  ichgMin := none
  aicrMin := none

/-- A charger in order, at a battery temperature. -/
def StatusReading.plain (batteryTemp : Int) : StatusReading where
  stage := none
  batteryTemp := batteryTemp
  vbusUv := 5000000
  wpcOnline := false
  batteryId := true
  uiSoc := 50

/-- A battery that is half full. -/
def EocReading.plain : EocReading where
  stage := none
  uiSoc := 50
  soc := 50
  chgDone := false
  dpmSoc := 50
  vdpm := false
  idpm := false
  curCv := 4400000
  vbatUv := 3800000
  ibat := 1000
  enChg := true
  dpmChgDone := false
  inputCurrentLimit := 2000000
  chgCurrentLimit := 2000000

/-- A pass with a charger at a battery temperature, without fast charging. -/
def PassReading.plain (chrType : ChrType) (batteryTemp : Int) : PassReading where
  chrType := chrType
  status := .plain batteryTemp
  eoc := .plain
  alg := ⟨false, .plain, []⟩

end Charger
