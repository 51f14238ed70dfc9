import FireTablet.Charger.Proof.Steps

/-!
# What the current limits keep to

In the normal mode every part of `select_charging_current_limit` after the charger type's currents
lowers them (`Lowered`), except detection, which sets the input current to what it has found. So the
result is at most each limit in turn, and below the charger's minimum it is 0. A mode with limits of
its own goes past all of them (`current_limits`). The copies for the fast-charge algorithms are
written last, from the forced values alone.
-/

namespace Charger

/-! ## What the result must keep to -/

/-- `adapter_power_detection_parse_dt` enables detection only with a limit for each class. -/
def PowerDetection.Parsed (d : PowerDetection) : Prop :=
  d.en = true → d.adapter5wIusbLim ≠ 0 ∧ d.adapter7p5wIusbLim ≠ 0 ∧ d.adapter9wIusbLim ≠ 0 ∧
    d.adapter12wIusbLim ≠ 0 ∧ d.adapter15wIusbLim ≠ 0

/-- The JEITA current in force, if there is one. -/
def jeitaInForce (c : Conf) (s : Settings) (chrType : ChrType) (sm : JeitaZone) (limit : Int) :
    Prop :=
  s.enableSwJeita = true ∧ ¬ (c.usbifCompliance = true ∧ chrType = .usb) ∧
    jeitaCurrent c.currents sm = some limit ∧ limit ≠ -1

/-- Whether detection measures by overcurrent in this call. -/
def measuresByOcp (c : Conf) (r : CurrentReading) (chrType : ChrType) (iusbUa : Int) : Bool :=
  c.det.en && iusbUa == 0 && r.tcpcFound && r.rpCurr != 3000 && r.rpCurr != 1500 &&
    chrType == .usbDcp

/-- The AICL result in force after a call: the measurement of this call (or, where it failed, the
one before) with the cap of the dynamic regulation, and in its place that of detection, which none
is left of when the charger goes away. -/
def aiclInForce (c : Conf) (r : CurrentReading) (chrType : ChrType) (l : Limits) : Int :=
  let before := l.pdata.inputCurrentLimitByAicl
  if r.wpcOnline then before
  else
    let aicl := r.aicl.getD before
    let aicl := if r.fastCharging then before
      else if c.enableDynamicMivr ∧ c.currents.maxDmivrChargerCurrent < aicl then
        c.currents.maxDmivrChargerCurrent
      else aicl
    if measuresByOcp c r chrType l.iusbUa then
      if r.ocpWaitOut ∨ r.ocpOut then -1 else r.ocpAicl.getD aicl
    else aicl

/-- What the input current keeps to before it is compared with the charger's minimum: `l` are the
limits before the call and `l'` after it, `input` and `volts` those of the charger type. -/
structure InputKept (c : Conf) (r : CurrentReading) (l l' : Limits) (input : Int)
    (volts : Option Int) (v : Int) : Prop where
  thermal : l.pdata.thermalInputCurrentLimit ≠ -1 → v ≤ l.pdata.thermalInputCurrentLimit
  /-- no class: the type's current, and the power limit at the wireless voltage -/
  unclassified : c.det.Parsed →
    c.det.en = false ∨ r.wpcOnline = true ∨ l.iusbUa = 0 ∧ l'.iusbUa = 0 →
    v ≤ input ∧ ∀ n, volts = some n → l.pdata.thermalInputPowerLimit ≠ -1 →
      v ≤ powerToCurrent l.pdata.thermalInputPowerLimit n
  /-- the class of an earlier pass -/
  classified : c.det.en = true → r.wpcOnline = false → l.iusbUa ≠ 0 → v ≤ l.iusbUa
  /-- a class that is found in this pass: by measurement, or by the current that is offered -/
  found : c.det.en = true → r.wpcOnline = false → l.iusbUa = 0 → l'.iusbUa ≠ 0 →
    v ≤ l'.iusbUa ∨ r.rpCurr = 3000 ∧ v ≤ 3000000 ∨ r.rpCurr = 1500 ∧ v ≤ 1500000
  aicl : r.wpcOnline = false → r.fastCharging = false → l.vbusRecoveryFromUvlo = false →
    l'.pdata.inputCurrentLimitByAicl ≠ -1 → v ≤ l'.pdata.inputCurrentLimitByAicl

/-- What the charging current keeps to. -/
structure ChargingKept (c : Conf) (s : Settings) (chrType : ChrType) (sm : JeitaZone) (l : Limits)
    (charging v : Int) : Prop where
  type : v ≤ charging
  thermal : l.pdata.thermalChargingCurrentLimit ≠ -1 → v ≤ l.pdata.thermalChargingCurrentLimit
  jeita : ∀ limit, jeitaInForce c s chrType sm limit → v ≤ limit

/-- Two states of the driver with the same limits from outside and the same detection, and the same
measurement unless this call measures. -/
structure SameInputs (r : CurrentReading) (l l' : Limits) : Prop where
  force_charging : l'.pdata.forceChargingCurrent = l.pdata.forceChargingCurrent
  force_input : l'.pdata.forceInputCurrentLimit = l.pdata.forceInputCurrentLimit
  thermal_input : l'.pdata.thermalInputCurrentLimit = l.pdata.thermalInputCurrentLimit
  thermal_power : l'.pdata.thermalInputPowerLimit = l.pdata.thermalInputPowerLimit
  thermal_charging : l'.pdata.thermalChargingCurrentLimit = l.pdata.thermalChargingCurrentLimit
  aicl : l'.pdata.inputCurrentLimitByAicl = l.pdata.inputCurrentLimitByAicl ∨
    r.wpcOnline = false ∧ r.fastCharging = false ∧ r.aicl.isSome = true
  iusb : l'.iusbUa = l.iusbUa
  recovery : l'.vbusRecoveryFromUvlo = l.vbusRecoveryFromUvlo

/-- The results are the same. -/
structure SameResults (o o' : Selected) : Prop where
  input : o'.lim.pdata.inputCurrentLimit = o.lim.pdata.inputCurrentLimit
  charging : o'.lim.pdata.chargingCurrentLimit = o.lim.pdata.chargingCurrentLimit
  setting : o'.lim.setting = o.lim.setting
  isBasic : o'.isBasic = o.isBasic

/-- What a call keeps to; `o` is what it leaves. -/
structure LimitsKept (c : Conf) (r : CurrentReading) (s : Settings) (chrType : ChrType)
    (sm : JeitaZone) (l : Limits) (o : Selected) : Prop where
  /-- a mode with limits of its own -/
  mode_input : ∀ input charging, specialMode c s chrType = some (input, charging) →
    l.pdata.forceInputCurrentLimit = -1 →
    o.lim.pdata.inputCurrentLimit = dropBelow r.aicrMin input
  mode_charging : ∀ input charging, specialMode c s chrType = some (input, some charging) →
    l.pdata.forceChargingCurrent = -1 →
    o.lim.pdata.chargingCurrentLimit = dropBelow r.ichgMin charging
  input : ∀ input charging volts, specialMode c s chrType = none →
    typeCurrents c.currents chrType = some (input, charging, volts) →
    l.pdata.forceInputCurrentLimit = -1 →
    ∃ v, o.lim.pdata.inputCurrentLimit = dropBelow r.aicrMin v ∧
      InputKept c r l o.lim input volts v
  charging : ∀ input charging volts, specialMode c s chrType = none →
    typeCurrents c.currents chrType = some (input, charging, volts) →
    l.pdata.forceChargingCurrent = -1 →
    ∃ v, o.lim.pdata.chargingCurrentLimit = dropBelow r.ichgMin v ∧
      ChargingKept c s chrType sm l charging v
  /-- the AICL result that the input current is compared with -/
  measured : specialMode c s chrType = none →
    o.lim.pdata.inputCurrentLimitByAicl = aiclInForce c r chrType l
  /-- the charger's minimum -/
  min_input : ∀ m, r.aicrMin = some m →
    o.lim.pdata.inputCurrentLimit = 0 ∨ m ≤ CInt.u32 o.lim.pdata.inputCurrentLimit
  min_charging : ∀ m, r.ichgMin = some m →
    o.lim.pdata.chargingCurrentLimit = 0 ∨ m ≤ CInt.u32 o.lim.pdata.chargingCurrentLimit
  /-- forced values -/
  forced_input : l.pdata.forceInputCurrentLimit ≠ -1 →
    o.lim.pdata.inputCurrentLimit = dropBelow r.aicrMin l.pdata.forceInputCurrentLimit ∧
      o.lim.setting.inputCurrentLimit1 = l.pdata.forceInputCurrentLimit ∧
      o.lim.setting.inputCurrentLimit2 = l.pdata.forceInputCurrentLimit
  forced_charging : l.pdata.forceChargingCurrent ≠ -1 →
    o.lim.pdata.chargingCurrentLimit = dropBelow r.ichgMin l.pdata.forceChargingCurrent ∧
      o.lim.setting.chargingCurrentLimit1 = l.pdata.forceChargingCurrent ∧
      o.lim.setting.chargingCurrentLimit2 = l.pdata.forceChargingCurrent
  /-- nothing is handed to the algorithms where there is no limit -/
  no_input : l.pdata.forceInputCurrentLimit = -1 → l.pdata.thermalInputCurrentLimit = -1 →
    l.pdata2.thermalInputCurrentLimit = -1 →
    o.lim.setting.inputCurrentLimit1 = -1 ∧ o.lim.setting.inputCurrentLimit2 = -1
  no_charging : l.pdata.forceChargingCurrent = -1 → l.pdata.thermalChargingCurrentLimit = -1 →
    l.pdata2.thermalChargingCurrentLimit = -1 →
    (∀ limit, ¬ jeitaInForce c s chrType sm limit) →
    o.lim.setting.chargingCurrentLimit1 = -1 ∧ o.lim.setting.chargingCurrentLimit2 = -1

/-- The currents are set anew: a known type, or a mode with both limits. -/
def Renewed (c : Conf) (s : Settings) (chrType : ChrType) : Prop :=
  match specialMode c s chrType with
  | some (_, charging) => charging.isSome = true
  | none => (typeCurrents c.currents chrType).isSome = true

/-! ## Lowering -/

/-- The currents are at most what they were, and what decides about them is the same. -/
structure Lowered (l l' : Limits) : Prop where
  input : l'.pdata.inputCurrentLimit ≤ l.pdata.inputCurrentLimit
  charging : l'.pdata.chargingCurrentLimit ≤ l.pdata.chargingCurrentLimit
  force_charging : l'.pdata.forceChargingCurrent = l.pdata.forceChargingCurrent
  force_input : l'.pdata.forceInputCurrentLimit = l.pdata.forceInputCurrentLimit
  thermal_input : l'.pdata.thermalInputCurrentLimit = l.pdata.thermalInputCurrentLimit
  thermal_charging : l'.pdata.thermalChargingCurrentLimit = l.pdata.thermalChargingCurrentLimit
  iusb : l'.iusbUa = l.iusbUa

theorem Lowered.refl (l : Limits) : Lowered l l :=
  ⟨Int.le_refl _, Int.le_refl _, rfl, rfl, rfl, rfl, rfl⟩

theorem Lowered.trans {l l' l'' : Limits} (h : Lowered l l') (h' : Lowered l' l'') :
    Lowered l l'' :=
  ⟨Int.le_trans h'.input h.input, Int.le_trans h'.charging h.charging,
    h'.force_charging.trans h.force_charging, h'.force_input.trans h.force_input,
    h'.thermal_input.trans h.thermal_input, h'.thermal_charging.trans h.thermal_charging,
    h'.iusb.trans h.iusb⟩

theorem lower_le (limit current copy : Int) :
    (lower limit current copy).1 ≤ current ∧
      (limit ≠ -1 → (lower limit current copy).1 ≤ limit) := by
  unfold lower
  by_cases h : limit ≠ -1
  · rw [if_pos h]
    by_cases hlt : limit < current
    · rw [if_pos hlt]
      exact ⟨Int.le_of_lt hlt, fun _ => Int.le_refl _⟩
    · rw [if_neg hlt]
      exact ⟨Int.le_refl _, fun _ => Int.not_lt.1 hlt⟩
  · rw [if_neg h]
    exact ⟨Int.le_refl _, fun hn => absurd hn h⟩

section
variable (c : Conf) (r : CurrentReading) (s : Settings) (chrType : ChrType) (l : Limits)

theorem basicLimits_lowered : Lowered l (basicLimits c r chrType l) := by
  unfold basicLimits
  simp only
  by_cases hc : isTypecAdapter c r chrType = true
  · rw [if_pos hc]
    exact ⟨Int.min_le_right .., Int.min_le_right .., rfl, rfl, rfl, rfl, rfl⟩
  · rw [if_neg hc]
    exact ⟨Int.le_refl _, Int.le_refl _, rfl, rfl, rfl, rfl, rfl⟩

/-- Only the verdict is written. -/
theorem checkInvalidCharger_frame : ∃ done weak, checkInvalidCharger c r l =
    { l with invalidChargerDetDone := done, invalidChargerDetWeak := weak } := by
  unfold checkInvalidCharger
  simp only
  split_ifs <;> exact ⟨_, _, rfl⟩

theorem applyAicl_lowered (fast : Bool) : Lowered l (applyAicl fast l) ∧
    (applyAicl fast l).pdata.inputCurrentLimitByAicl = l.pdata.inputCurrentLimitByAicl ∧
    (fast = false → l.vbusRecoveryFromUvlo = false → l.pdata.inputCurrentLimitByAicl ≠ -1 →
      (applyAicl fast l).pdata.inputCurrentLimit ≤ l.pdata.inputCurrentLimitByAicl) := by
  unfold applyAicl
  by_cases ha : ¬ fast = true ∧ l.pdata.inputCurrentLimitByAicl ≠ -1
  · rw [if_pos ha]
    by_cases hv : l.vbusRecoveryFromUvlo = true
    · rw [if_pos hv]
      exact ⟨⟨Int.le_refl _, Int.le_refl _, rfl, rfl, rfl, rfl, rfl⟩, rfl,
        fun _ hn => absurd hv (by simp [hn])⟩
    · rw [if_neg hv]
      exact ⟨⟨Int.min_le_right .., Int.le_refl _, rfl, rfl, rfl, rfl, rfl⟩, rfl,
        fun _ _ _ => Int.min_le_left ..⟩
  · rw [if_neg ha]
    exact ⟨.refl l, rfl, fun hf _ hn => absurd ⟨by simp [hf], hn⟩ ha⟩

theorem jeitaLimits_lowered (sm : JeitaZone) : Lowered l (jeitaLimits c s chrType sm l) ∧
    (jeitaLimits c s chrType sm l).pdata.inputCurrentLimitByAicl =
      l.pdata.inputCurrentLimitByAicl ∧
    ∀ limit, jeitaInForce c s chrType sm limit →
      (jeitaLimits c s chrType sm l).pdata.chargingCurrentLimit ≤ limit := by
  unfold jeitaLimits jeitaInForce
  by_cases hj : s.enableSwJeita = true ∧ ¬ (c.usbifCompliance = true ∧ chrType = .usb)
  · rw [if_pos hj]
    cases hz : jeitaCurrent c.currents sm with
    | none =>
      exact ⟨.refl l, rfl, fun limit h => by simp at h⟩
    | some limit =>
      obtain ⟨hle, hlim⟩ := lower_le limit l.pdata.chargingCurrentLimit
        l.setting.chargingCurrentLimit1
      refine ⟨⟨Int.le_refl _, hle, rfl, rfl, rfl, rfl, rfl⟩, rfl, fun limit' h => ?_⟩
      obtain ⟨-, -, he, hne⟩ := h
      cases he
      exact hlim hne
  · rw [if_neg hj]
    exact ⟨.refl l, rfl, fun limit h => absurd ⟨h.1, h.2.1⟩ hj⟩

theorem thermalLimits_lowered : Lowered l (thermalLimits l) ∧
    (thermalLimits l).pdata.inputCurrentLimitByAicl = l.pdata.inputCurrentLimitByAicl ∧
    (l.pdata.thermalInputCurrentLimit ≠ -1 →
      (thermalLimits l).pdata.inputCurrentLimit ≤ l.pdata.thermalInputCurrentLimit) ∧
    (l.pdata.thermalChargingCurrentLimit ≠ -1 →
      (thermalLimits l).pdata.chargingCurrentLimit ≤ l.pdata.thermalChargingCurrentLimit) :=
  ⟨⟨(lower_le _ _ _).1, (lower_le _ _ _).1, rfl, rfl, rfl, rfl, rfl⟩, rfl, (lower_le _ _ _).2,
    (lower_le _ _ _).2⟩

/-! ## The type and the adapter -/

/-- The currents of a known type, whatever they were. -/
theorem typeLimits_spec {input charging : Int} {volts : Option Int}
    (ht : typeCurrents c.currents chrType = some (input, charging, volts)) : ∃ v d2,
    typeLimits c chrType l = { l with
      pdata := { l.pdata with inputCurrentLimit := v, chargingCurrentLimit := charging }
      pdata2 := d2 } ∧
    v ≤ input ∧ ∀ n, volts = some n → l.pdata.thermalInputPowerLimit ≠ -1 →
      v ≤ powerToCurrent l.pdata.thermalInputPowerLimit n := by
  unfold typeLimits
  cases volts with
  | none =>
    simp only [ht]
    split_ifs <;> exact ⟨input, _, rfl, Int.le_refl _, nofun⟩
  | some n =>
    simp only [ht]
    by_cases hp : l.pdata.thermalInputPowerLimit ≠ -1 ∧
        powerToCurrent l.pdata.thermalInputPowerLimit n < input
    · have hpow : ∀ m, some n = some m → l.pdata.thermalInputPowerLimit ≠ -1 →
          powerToCurrent l.pdata.thermalInputPowerLimit n ≤
            powerToCurrent l.pdata.thermalInputPowerLimit m := fun m hm _ => by
        cases hm
        exact Int.le_refl _
      simp only [if_pos hp]
      split_ifs <;> exact ⟨_, _, rfl, Int.le_of_lt hp.2, hpow⟩
    · have hpow : ∀ m, some n = some m → l.pdata.thermalInputPowerLimit ≠ -1 →
          input ≤ powerToCurrent l.pdata.thermalInputPowerLimit m := fun m hm hne => by
        cases hm
        exact Int.not_lt.1 fun hlt => hp ⟨hne, hlt⟩
      simp only [if_neg hp]
      split_ifs <;> exact ⟨input, _, rfl, Int.le_refl _, hpow⟩

/-- The class by measurement is one of three. -/
theorem adapterClass_ne_zero {d : PowerDetection} (hp : d.Parsed) (hen : d.en = true) (aicl : Int) :
    (adapterClass d aicl).2 ≠ 0 := by
  obtain ⟨h5, -, h9, h12, -⟩ := hp hen
  unfold adapterClass
  split_ifs <;> assumption

/-- What detection does to the input current and the class. -/
inductive Detected (c : Conf) (r : CurrentReading) (l l' : Limits) : Prop
  | off : c.det.en = false → l' = l → Detected c r l l'
  | before : c.det.en = true → l.iusbUa ≠ 0 → l'.iusbUa = l.iusbUa →
      l'.pdata.inputCurrentLimit = l.iusbUa ∨ (l.pdata.thermalInputCurrentLimit ≠ -1 ∧
        l.pdata.thermalInputCurrentLimit < l.iusbUa) → Detected c r l l'
  | none : c.det.en = true → l.iusbUa = 0 → l'.iusbUa = 0 →
      l'.pdata.inputCurrentLimit = l.pdata.inputCurrentLimit → Detected c r l l'
  | found : c.det.en = true → l.iusbUa = 0 → (c.det.Parsed → l'.iusbUa ≠ 0) →
      l'.pdata.inputCurrentLimit = l'.iusbUa ∨
        r.rpCurr = 3000 ∧ l'.pdata.inputCurrentLimit = 3000000 ∨
        r.rpCurr = 1500 ∧ l'.pdata.inputCurrentLimit = 1500000 → Detected c r l l'

theorem adapterPowerDetection_detected :
    Detected c r l (adapterPowerDetection c r chrType l).1 := by
  unfold adapterPowerDetection
  by_cases hen : c.det.en = true
  · rw [if_neg (by simp [hen])]
    by_cases hi : l.iusbUa ≠ 0
    · rw [if_pos hi]
      by_cases ht : l.pdata.thermalInputCurrentLimit ≠ -1 ∧
          l.pdata.thermalInputCurrentLimit < l.iusbUa
      · rw [if_pos ht]
        exact .before hen hi rfl (Or.inr ht)
      · rw [if_neg ht]
        exact .before hen hi rfl (Or.inl rfl)
    · rw [if_neg hi]
      have hi : l.iusbUa = 0 := not_not.1 hi
      by_cases htc : ¬ r.tcpcFound = true
      · rw [if_pos htc]
        exact .none hen hi hi rfl
      rw [if_neg htc]
      by_cases h3 : r.rpCurr = 3000
      · rw [if_pos h3]
        exact .found hen hi (fun hp => (hp hen).2.2.2.2) (Or.inr (Or.inl ⟨h3, rfl⟩))
      rw [if_neg h3]
      by_cases h15 : r.rpCurr = 1500
      · rw [if_pos h15]
        exact .found hen hi (fun hp => (hp hen).2.1) (Or.inr (Or.inr ⟨h15, rfl⟩))
      rw [if_neg h15]
      by_cases hd : chrType ≠ .usbDcp
      · rw [if_pos hd]
        exact .none hen hi hi rfl
      rw [if_neg hd]
      have hinput : (adapterPowerDetectionByOcp r l).2.pdata.inputCurrentLimit =
          l.pdata.inputCurrentLimit := by
        unfold adapterPowerDetectionByOcp
        split_ifs <;> rfl
      generalize adapterPowerDetectionByOcp r l = out at hinput
      obtain ⟨checked, l'⟩ := out
      cases checked with
      | false => exact .none hen hi rfl hinput
      | true =>
        exact .found hen hi (fun hp => adapterClass_ne_zero hp hen _) (Or.inl rfl)
  · rw [if_pos (by simpa using hen)]
    exact .off (by simpa using hen) rfl

/-- The measurement that detection leaves. -/
theorem adapterPowerDetection_aicl :
    (adapterPowerDetection c r chrType l).1.pdata.inputCurrentLimitByAicl =
      if measuresByOcp c r chrType l.iusbUa then
        if r.ocpWaitOut ∨ r.ocpOut then -1 else r.ocpAicl.getD l.pdata.inputCurrentLimitByAicl
      else l.pdata.inputCurrentLimitByAicl := by
  by_cases hm : measuresByOcp c r chrType l.iusbUa = true
  · rw [if_pos hm]
    simp only [measuresByOcp, Bool.and_eq_true, beq_iff_eq, bne_iff_ne] at hm
    obtain ⟨⟨⟨⟨⟨hen, hi⟩, htc⟩, h3⟩, h15⟩, hd⟩ := hm
    unfold adapterPowerDetection adapterPowerDetectionByOcp Limits.classify
    simp only [hen, hi, htc, h3, h15, hd]
    by_cases hw : r.ocpWaitOut = true
    · simp [hw]
    · by_cases ho : r.ocpOut = true <;> simp [hw, ho]
  · rw [if_neg hm]
    simp only [measuresByOcp, Bool.and_eq_true, beq_iff_eq, bne_iff_ne] at hm
    unfold adapterPowerDetection Limits.classify
    by_cases hen : c.det.en = true
    · rw [if_neg (not_not.2 hen)]
      by_cases hi : l.iusbUa = 0
      · rw [if_neg (not_not.2 hi)]
        by_cases htc : r.tcpcFound = true
        · rw [if_neg (not_not.2 htc)]
          by_cases h3 : r.rpCurr = 3000
          · rw [if_pos h3]
          rw [if_neg h3]
          by_cases h15 : r.rpCurr = 1500
          · rw [if_pos h15]
          rw [if_neg h15, if_pos fun hd => hm ⟨⟨⟨⟨⟨hen, hi⟩, htc⟩, h3⟩, h15⟩, hd⟩]
        · rw [if_pos htc]
      · rw [if_pos hi]
        split_ifs <;> rfl
    · rw [if_pos hen]

/-- What detection leaves alone. -/
theorem adapterPowerDetection_frame : ∃ input aicl iusb adapter,
    (adapterPowerDetection c r chrType l).1 = { l with
      pdata := { l.pdata with inputCurrentLimit := input, inputCurrentLimitByAicl := aicl }
      iusbUa := iusb
      adapter := adapter } := by
  have hocp : ∃ aicl, (adapterPowerDetectionByOcp r l).2 =
      { l with pdata := { l.pdata with inputCurrentLimitByAicl := aicl } } := by
    unfold adapterPowerDetectionByOcp
    split_ifs
    · exact ⟨_, rfl⟩
    · exact ⟨_, rfl⟩
  obtain ⟨aicl, hocp⟩ := hocp
  unfold adapterPowerDetection Limits.classify
  simp only [hocp]
  split_ifs <;> exact ⟨_, _, _, _, rfl⟩

end

/-! ## The normal mode -/

/-- The limits without a mode of their own, up to the forced values: what the type, the adapter and
the measurement give. -/
def beforeJeita (c : Conf) (r : CurrentReading) (chrType : ChrType) (l : Limits) : Limits :=
  let l := typeLimits c chrType l
  if r.wpcOnline then l
  else
    let l := if r.fastCharging then l else basicLimits c r chrType l
    applyAicl r.fastCharging (adapterPowerDetection c r chrType (checkInvalidCharger c r l)).1

/-- The limits before the forced values. -/
def beforeForce (c : Conf) (r : CurrentReading) (s : Settings) (chrType : ChrType) (sm : JeitaZone)
    (l : Limits) : Limits :=
  thermalLimits (jeitaLimits c s chrType sm (beforeJeita c r chrType l))

/-- The voltage is stored first. -/
def Limits.withCv (l : Limits) (cv : Int) : Limits :=
  { l with setting := { l.setting with cv := cv } }

theorem select_normal {c : Conf} {r : CurrentReading} {s : Settings} {chrType : ChrType}
    (hm : specialMode c s chrType = none) (j : SwJeita) (k : Int) (l : Limits) :
    ∃ byOcp, selectChargingCurrentLimit c r s chrType j k l =
      selectDone r (if r.wpcOnline then typeIsBasic chrType else !r.fastCharging) byOcp
        (beforeForce c r s chrType j.sm (l.withCv (selectCv c r.stage s j k))) := by
  unfold selectChargingCurrentLimit beforeForce beforeJeita Limits.withCv
  simp only [hm]
  by_cases hw : r.wpcOnline = true
  · simp only [if_pos hw]
    exact ⟨_, rfl⟩
  · simp only [if_neg hw]
    exact ⟨_, rfl⟩

theorem select_special {c : Conf} {r : CurrentReading} {s : Settings} {chrType : ChrType}
    {input : Int} {charging : Option Int}
    (hm : specialMode c s chrType = some (input, charging)) (j : SwJeita) (k : Int) (l : Limits) :
    selectChargingCurrentLimit c r s chrType j k l = selectDone r true false
      { l.withCv (selectCv c r.stage s j k) with
        pdata := { l.pdata with
          inputCurrentLimit := input
          chargingCurrentLimit := charging.getD l.pdata.chargingCurrentLimit } } := by
  unfold selectChargingCurrentLimit Limits.withCv
  simp only [hm]

/-- What is set from outside is the same. -/
structure SameOuter (l l' : Limits) : Prop where
  force_charging : l'.pdata.forceChargingCurrent = l.pdata.forceChargingCurrent
  force_input : l'.pdata.forceInputCurrentLimit = l.pdata.forceInputCurrentLimit
  thermal_input : l'.pdata.thermalInputCurrentLimit = l.pdata.thermalInputCurrentLimit
  thermal_charging : l'.pdata.thermalChargingCurrentLimit = l.pdata.thermalChargingCurrentLimit

theorem SameOuter.trans {l l' l'' : Limits} (h : SameOuter l l') (h' : SameOuter l' l'') :
    SameOuter l l'' :=
  ⟨h'.force_charging.trans h.force_charging, h'.force_input.trans h.force_input,
    h'.thermal_input.trans h.thermal_input, h'.thermal_charging.trans h.thermal_charging⟩

theorem Lowered.outer {l l' : Limits} (h : Lowered l l') : SameOuter l l' :=
  ⟨h.force_charging, h.force_input, h.thermal_input, h.thermal_charging⟩

/-- Nothing before JEITA changes it, whatever the type. -/
theorem beforeJeita_outer (c : Conf) (r : CurrentReading) (chrType : ChrType) (l : Limits) :
    SameOuter l (beforeJeita c r chrType l) := by
  have htype : SameOuter l (typeLimits c chrType l) := by
    unfold typeLimits
    split
    · exact ⟨rfl, rfl, rfl, rfl⟩
    · simp only
      split_ifs <;> exact ⟨rfl, rfl, rfl, rfl⟩
  refine htype.trans ?_
  unfold beforeJeita
  generalize typeLimits c chrType l = l1
  simp only
  by_cases hw : r.wpcOnline = true
  · rw [if_pos hw]
    exact (Lowered.refl l1).outer
  rw [if_neg hw]
  have hbasic : SameOuter l1
      (if r.fastCharging = true then l1 else basicLimits c r chrType l1) := by
    split
    · exact (Lowered.refl l1).outer
    · exact (basicLimits_lowered c r chrType l1).outer
  refine hbasic.trans ?_
  generalize (if r.fastCharging = true then l1 else basicLimits c r chrType l1) = l2
  obtain ⟨_, _, hinv⟩ := checkInvalidCharger_frame c r l2
  obtain ⟨_, _, _, _, hdet⟩ := adapterPowerDetection_frame c r chrType (checkInvalidCharger c r l2)
  have hdet : SameOuter l2
      (adapterPowerDetection c r chrType (checkInvalidCharger c r l2)).1 := by
    rw [hdet, hinv]
    exact ⟨rfl, rfl, rfl, rfl⟩
  exact hdet.trans (applyAicl_lowered _ r.fastCharging).1.outer

/-- Nothing before the forced values changes it. -/
theorem beforeForce_outer (c : Conf) (r : CurrentReading) (s : Settings) (chrType : ChrType)
    (sm : JeitaZone) (l : Limits) : SameOuter l (beforeForce c r s chrType sm l) :=
  (beforeJeita_outer c r chrType l).trans
    ((jeitaLimits_lowered c s chrType _ sm).1.trans (thermalLimits_lowered _).1).outer

/-- What the type, the adapter and the measurement leave: as in `InputKept`, except that a class of
an earlier pass is left to a thermal limit below it. -/
structure AdapterKept (c : Conf) (r : CurrentReading) (l l' : Limits) (input charging : Int)
    (volts : Option Int) : Prop where
  charging : l'.pdata.chargingCurrentLimit ≤ charging
  unclassified : c.det.Parsed →
    c.det.en = false ∨ r.wpcOnline = true ∨ l.iusbUa = 0 ∧ l'.iusbUa = 0 →
    l'.pdata.inputCurrentLimit ≤ input ∧
      ∀ n, volts = some n → l.pdata.thermalInputPowerLimit ≠ -1 →
        l'.pdata.inputCurrentLimit ≤ powerToCurrent l.pdata.thermalInputPowerLimit n
  classified : c.det.en = true → r.wpcOnline = false → l.iusbUa ≠ 0 →
    l'.pdata.inputCurrentLimit ≤ l.iusbUa ∨ (l.pdata.thermalInputCurrentLimit ≠ -1 ∧
      l.pdata.thermalInputCurrentLimit < l.iusbUa)
  found : c.det.en = true → r.wpcOnline = false → l.iusbUa = 0 → l'.iusbUa ≠ 0 →
    l'.pdata.inputCurrentLimit ≤ l'.iusbUa ∨
      r.rpCurr = 3000 ∧ l'.pdata.inputCurrentLimit ≤ 3000000 ∨
      r.rpCurr = 1500 ∧ l'.pdata.inputCurrentLimit ≤ 1500000
  aicl : r.wpcOnline = false → r.fastCharging = false → l.vbusRecoveryFromUvlo = false →
    l'.pdata.inputCurrentLimitByAicl ≠ -1 →
    l'.pdata.inputCurrentLimit ≤ l'.pdata.inputCurrentLimitByAicl

/-- The part that does not look at the input voltage's recovery keeps it. -/
theorem basicLimits_recovery (c : Conf) (r : CurrentReading) (chrType : ChrType) (l : Limits) :
    (basicLimits c r chrType l).vbusRecoveryFromUvlo = l.vbusRecoveryFromUvlo := by
  unfold basicLimits
  simp only
  split_ifs <;> rfl

theorem typeLimits_measured (c : Conf) (chrType : ChrType) (l : Limits) :
    (typeLimits c chrType l).pdata.inputCurrentLimitByAicl = l.pdata.inputCurrentLimitByAicl ∧
      (typeLimits c chrType l).iusbUa = l.iusbUa := by
  unfold typeLimits
  split
  · exact ⟨rfl, rfl⟩
  · simp only
    split_ifs <;> exact ⟨rfl, rfl⟩

theorem basicLimits_measured (c : Conf) (r : CurrentReading) (chrType : ChrType) (l : Limits) :
    (basicLimits c r chrType l).pdata.inputCurrentLimitByAicl =
      if c.enableDynamicMivr ∧ c.currents.maxDmivrChargerCurrent <
          r.aicl.getD l.pdata.inputCurrentLimitByAicl then c.currents.maxDmivrChargerCurrent
      else r.aicl.getD l.pdata.inputCurrentLimitByAicl := by
  unfold basicLimits
  simp only
  split_ifs <;> rfl

/-- The measurement that is left before the forced values. -/
theorem beforeForce_measured (c : Conf) (r : CurrentReading) (s : Settings) (chrType : ChrType)
    (sm : JeitaZone) (l : Limits) :
    (beforeForce c r s chrType sm l).pdata.inputCurrentLimitByAicl =
      aiclInForce c r chrType l := by
  obtain ⟨haicl, hiusb⟩ := typeLimits_measured c chrType l
  unfold beforeForce
  rw [(thermalLimits_lowered _).2.1, (jeitaLimits_lowered c s chrType _ sm).2.1]
  unfold beforeJeita aiclInForce
  simp only
  by_cases hw : r.wpcOnline = true
  · rw [if_pos hw, if_pos hw, haicl]
  rw [if_neg hw, if_neg hw, (applyAicl_lowered _ r.fastCharging).2.1, adapterPowerDetection_aicl]
  by_cases hf : r.fastCharging = true
  · rw [if_pos hf, if_pos hf]
    obtain ⟨_, _, hinv⟩ := checkInvalidCharger_frame c r (typeLimits c chrType l)
    rw [hinv, haicl, hiusb]
  · rw [if_neg hf, if_neg hf]
    obtain ⟨_, _, hinv⟩ :=
      checkInvalidCharger_frame c r (basicLimits c r chrType (typeLimits c chrType l))
    rw [hinv, basicLimits_measured, (basicLimits_lowered c r chrType _).iusb, haicl, hiusb]

section
variable {c : Conf} {r : CurrentReading} {s : Settings} {chrType : ChrType} {input charging : Int}
  {volts : Option Int} (ht : typeCurrents c.currents chrType = some (input, charging, volts))
  (sm : JeitaZone) (l : Limits)
include ht

/-- What the adapter and the measurement leave. -/
theorem beforeJeita_kept : AdapterKept c r l (beforeJeita c r chrType l) input charging volts := by
  obtain ⟨v, d2, htype, hle, hpow⟩ := typeLimits_spec c chrType l ht
  unfold beforeJeita
  simp only
  by_cases hw : r.wpcOnline = true
  · rw [if_pos hw, htype]
    exact ⟨Int.le_refl _, fun _ _ => ⟨hle, hpow⟩,
      fun _ h => absurd hw (by simp [h]), fun _ h => absurd hw (by simp [h]),
      fun h => absurd hw (by simp [h])⟩
  rw [if_neg hw]
  -- the limits that detection gets: at most those of the type
  have hbasic : ∃ l2, (if r.fastCharging = true then typeLimits c chrType l
        else basicLimits c r chrType (typeLimits c chrType l)) = l2 ∧
      Lowered (typeLimits c chrType l) l2 ∧
      l2.vbusRecoveryFromUvlo = l.vbusRecoveryFromUvlo := by
    by_cases hf : r.fastCharging = true
    · rw [if_pos hf, htype]
      exact ⟨_, rfl, .refl _, rfl⟩
    · rw [if_neg hf]
      exact ⟨_, rfl, basicLimits_lowered c r chrType _, by rw [basicLimits_recovery, htype]⟩
  obtain ⟨l2, hl2, hlow2, hrec2⟩ := hbasic
  rw [hl2]
  rw [htype] at hlow2
  obtain ⟨done, weak, hinv⟩ := checkInvalidCharger_frame c r l2
  have hdet := adapterPowerDetection_detected c r chrType (checkInvalidCharger c r l2)
  obtain ⟨inp, aicl, iusb, adapter, hframe⟩ :=
    adapterPowerDetection_frame c r chrType (checkInvalidCharger c r l2)
  generalize (adapterPowerDetection c r chrType (checkInvalidCharger c r l2)).1 = l4 at hdet hframe
  rw [hinv] at hdet hframe
  obtain ⟨hlow5, haicl5, hcap5⟩ := applyAicl_lowered l4 r.fastCharging
  have hin5 := hlow5.input
  have hiusb5 := hlow5.iusb
  generalize applyAicl r.fastCharging l4 = l5 at *
  have hrec4 : l4.vbusRecoveryFromUvlo = l.vbusRecoveryFromUvlo := by
    rw [hframe]
    exact hrec2
  have hin2 : l2.pdata.inputCurrentLimit ≤ v := hlow2.input
  have hiusb2 : l2.iusbUa = l.iusbUa := hlow2.iusb
  have hth2 : l2.pdata.thermalInputCurrentLimit = l.pdata.thermalInputCurrentLimit :=
    hlow2.thermal_input
  refine ⟨?_, fun hp hcond => ?_, fun hen hw' hne => ?_, fun hen hw' h0 hne => ?_,
    fun _ hf hrec => ?_⟩
  · refine Int.le_trans hlow5.charging ?_
    rw [hframe]
    exact hlow2.charging
  · -- without a class detection has not raised the current
    have hin4 : l4.pdata.inputCurrentLimit ≤ v := by
      cases hdet with
      | off hen he =>
        rw [he]
        exact hin2
      | before hen hne hsame hcase =>
        rcases hcond with h | h | h
        · rw [hen] at h
          cases h
        · exact absurd h hw
        · exact absurd (hiusb2.trans h.1) hne
      | none hen h0 hsame hinp =>
        rw [hinp]
        exact hin2
      | found hen h0 hne hinp =>
        rcases hcond with h | h | h
        · rw [hen] at h
          cases h
        · exact absurd h hw
        · exact absurd (hiusb5.symm.trans h.2) (hne hp)
    have hv := Int.le_trans hin5 hin4
    exact ⟨Int.le_trans hv hle, fun n hn hpw => Int.le_trans hv (hpow n hn hpw)⟩
  · cases hdet with
    | off hoff he =>
      rw [hen] at hoff
      cases hoff
    | before hen' hne' hsame hcase =>
      rcases hcase with hinp | hth
      · refine Or.inl (Int.le_trans hin5 ?_)
        rw [hinp]
        exact Int.le_of_eq hiusb2
      · have hth : l2.pdata.thermalInputCurrentLimit ≠ -1 ∧
            l2.pdata.thermalInputCurrentLimit < l2.iusbUa := hth
        rw [hth2, hiusb2] at hth
        exact Or.inr hth
    | none hen' h0 hsame hinp => exact absurd (hiusb2.symm.trans h0) hne
    | found hen' h0 hne' hinp => exact absurd (hiusb2.symm.trans h0) hne
  · rw [hiusb5] at hne ⊢
    cases hdet with
    | off hoff he =>
      rw [hen] at hoff
      cases hoff
    | before hen' hne' hsame hcase => exact absurd (hiusb2.trans h0) hne'
    | none hen' h0' hsame hinp => exact absurd hsame hne
    | found hen' h0' hne' hinp =>
      rcases hinp with hinp | ⟨hr, hinp⟩ | ⟨hr, hinp⟩
      · exact Or.inl (hinp ▸ hin5)
      · exact Or.inr (Or.inl ⟨hr, hinp ▸ hin5⟩)
      · exact Or.inr (Or.inr ⟨hr, hinp ▸ hin5⟩)
  · rw [haicl5]
    exact hcap5 hf (hrec4.trans hrec)

/-- The limits before the forced values keep to everything. -/
theorem beforeForce_kept :
    let l' := beforeForce c r s chrType sm l
    InputKept c r l l' input volts l'.pdata.inputCurrentLimit ∧
      ChargingKept c s chrType sm l charging l'.pdata.chargingCurrentLimit := by
  have h := beforeJeita_kept (r := r) ht l
  have houter := beforeJeita_outer c r chrType l
  unfold beforeForce
  generalize beforeJeita c r chrType l = l5 at h houter
  obtain ⟨hlow6, haicl6, hjeita⟩ := jeitaLimits_lowered c s chrType l5 sm
  generalize jeitaLimits c s chrType sm l5 = l6 at hlow6 haicl6 hjeita
  obtain ⟨hlow7, haicl7, hthin, hthch⟩ := thermalLimits_lowered l6
  generalize thermalLimits l6 = l7 at *
  have hlow := hlow6.trans hlow7
  have hin := hlow.input
  rw [hlow6.thermal_input, houter.thermal_input] at hthin
  rw [hlow6.thermal_charging, houter.thermal_charging] at hthch
  refine ⟨⟨hthin, fun hp hcond => ?_, fun hen hw hne => ?_, fun hen hw h0 hne => ?_,
    fun hw hf hrec hne => ?_⟩, Int.le_trans hlow.charging h.charging, hthch, fun limit hl => ?_⟩
  · rw [hlow.iusb] at hcond
    obtain ⟨hle, hpow⟩ := h.unclassified hp hcond
    exact ⟨Int.le_trans hin hle, fun n hn hpw => Int.le_trans hin (hpow n hn hpw)⟩
  · rcases h.classified hen hw hne with hle | ⟨hset, hlt⟩
    · exact Int.le_trans hin hle
    · exact Int.le_trans (hthin hset) (Int.le_of_lt hlt)
  · rw [hlow.iusb] at hne ⊢
    rcases h.found hen hw h0 hne with hle | ⟨hr, hle⟩ | ⟨hr, hle⟩
    · exact Or.inl (Int.le_trans hin hle)
    · exact Or.inr (Or.inl ⟨hr, Int.le_trans hin hle⟩)
    · exact Or.inr (Or.inr ⟨hr, Int.le_trans hin hle⟩)
  · rw [haicl7, haicl6] at hne ⊢
    exact Int.le_trans hin (h.aicl hw hf hrec hne)
  · exact Int.le_trans hlow7.charging (hjeita limit hl)

end

/-! ## The end of a call -/

theorem dropBelow_min {low : Option Int} {v m : Int} (h : low = some m) :
    dropBelow low v = 0 ∨ m ≤ CInt.u32 (dropBelow low v) := by
  subst h
  unfold dropBelow
  by_cases hlt : CInt.u32 v < m
  · simp only [if_pos hlt]
    exact Or.inl trivial
  · simp only [if_neg hlt]
    exact Or.inr (Int.not_lt.1 hlt)

/-- What `selectDone` makes of the limits `l`. -/
structure Done (r : CurrentReading) (l : Limits) (o : Selected) : Prop where
  input : o.lim.pdata.inputCurrentLimit = dropBelow r.aicrMin
    (if l.pdata.forceInputCurrentLimit ≠ -1 then l.pdata.forceInputCurrentLimit
      else l.pdata.inputCurrentLimit)
  charging : o.lim.pdata.chargingCurrentLimit = dropBelow r.ichgMin
    (if l.pdata.forceChargingCurrent ≠ -1 then l.pdata.forceChargingCurrent
      else l.pdata.chargingCurrentLimit)
  input_copies : o.lim.setting.inputCurrentLimit1 = l.pdata.forceInputCurrentLimit ∧
    o.lim.setting.inputCurrentLimit2 = l.pdata.forceInputCurrentLimit
  charging_copies : o.lim.setting.chargingCurrentLimit1 = l.pdata.forceChargingCurrent ∧
    o.lim.setting.chargingCurrentLimit2 = l.pdata.forceChargingCurrent
  iusb : o.lim.iusbUa = l.iusbUa
  aicl : o.lim.pdata.inputCurrentLimitByAicl = l.pdata.inputCurrentLimitByAicl

theorem selectDone_done (r : CurrentReading) (isBasic byOcp : Bool) (l : Limits) :
    Done r l (selectDone r isBasic byOcp l) :=
  ⟨rfl, rfl, ⟨rfl, rfl⟩, ⟨rfl, rfl⟩, rfl, rfl⟩

/-- A call that ends with limits which keep to what they must, forced values apart. -/
theorem Done.kept {c : Conf} {r : CurrentReading} {s : Settings} {chrType : ChrType}
    {sm : JeitaZone} {l l1 : Limits} {o : Selected} (h : Done r l1 o)
    (hfi : l1.pdata.forceInputCurrentLimit = l.pdata.forceInputCurrentLimit)
    (hfc : l1.pdata.forceChargingCurrent = l.pdata.forceChargingCurrent)
    (hmode : ∀ input charging, specialMode c s chrType = some (input, charging) →
      l1.pdata.inputCurrentLimit = input ∧
        ∀ v, charging = some v → l1.pdata.chargingCurrentLimit = v)
    (hnormal : ∀ input charging volts, specialMode c s chrType = none →
      typeCurrents c.currents chrType = some (input, charging, volts) →
      InputKept c r l o.lim input volts l1.pdata.inputCurrentLimit ∧
        ChargingKept c s chrType sm l charging l1.pdata.chargingCurrentLimit)
    (haicl : specialMode c s chrType = none →
      l1.pdata.inputCurrentLimitByAicl = aiclInForce c r chrType l) :
    LimitsKept c r s chrType sm l o := by
  have hin := h.input
  have hch := h.charging
  have hic := h.input_copies
  have hcc := h.charging_copies
  rw [hfi] at hin hic
  rw [hfc] at hch hcc
  refine ⟨fun input charging hm hf => ?_, fun input charging hm hf => ?_,
    fun input charging volts hm ht hf => ?_, fun input charging volts hm ht hf => ?_,
    fun hm => h.aicl.trans (haicl hm), fun m hm => ?_, fun m hm => ?_, fun hf => ?_,
    fun hf => ?_, fun hf _ _ => ?_, fun hf _ _ _ => ?_⟩
  · rw [hin, if_neg (not_not.2 hf), (hmode _ _ hm).1]
  · rw [hch, if_neg (not_not.2 hf), (hmode _ _ hm).2 charging rfl]
  · exact ⟨_, by rw [hin, if_neg (not_not.2 hf)], (hnormal _ _ _ hm ht).1⟩
  · exact ⟨_, by rw [hch, if_neg (not_not.2 hf)], (hnormal _ _ _ hm ht).2⟩
  · rw [hin]
    exact dropBelow_min hm
  · rw [hch]
    exact dropBelow_min hm
  · exact ⟨by rw [hin, if_pos hf], hic⟩
  · exact ⟨by rw [hch, if_pos hf], hcc⟩
  · rwa [hf] at hic
  · rwa [hf] at hcc

/-- **One call** keeps to the limits. -/
theorem select_kept (c : Conf) (r : CurrentReading) (s : Settings) (chrType : ChrType) (j : SwJeita)
    (k : Int) (l : Limits) : LimitsKept c r s chrType j.sm l
      (selectChargingCurrentLimit c r s chrType j k l) := by
  cases hm : specialMode c s chrType with
  | some mode =>
    obtain ⟨input, charging⟩ := mode
    rw [select_special hm]
    refine (selectDone_done r true false _).kept rfl rfl (fun input' charging' hm' => ?_)
      (fun _ _ _ hn => by simp [hm] at hn) (fun hn => by simp [hm] at hn)
    rw [hm] at hm'
    cases hm'
    refine ⟨rfl, fun v hv => ?_⟩
    rw [hv]
    rfl
  | none =>
    obtain ⟨byOcp, he⟩ := select_normal (r := r) hm j k l
    rw [he]
    have hdone := selectDone_done r
      (if r.wpcOnline then typeIsBasic chrType else !r.fastCharging) byOcp
      (beforeForce c r s chrType j.sm (l.withCv (selectCv c r.stage s j k)))
    have houter := beforeForce_outer c r s chrType j.sm (l.withCv (selectCv c r.stage s j k))
    refine hdone.kept houter.force_input houter.force_charging
      (fun _ _ hn => by simp [hm] at hn) (fun input charging volts _ ht => ?_)
      (fun _ => beforeForce_measured c r s chrType j.sm (l.withCv (selectCv c r.stage s j k)))
    obtain ⟨hin, hch⟩ := beforeForce_kept (r := r) (s := s) ht j.sm
      (l.withCv (selectCv c r.stage s j k))
    exact ⟨⟨hin.thermal, hin.unclassified, hin.classified, hin.found, hin.aicl⟩,
      hch.type, hch.thermal, hch.jeita⟩

/-! ## What an earlier pass leaves -/

/-- What the parts of a call read is the same. -/
structure Agree (l l' : Limits) : Prop where
  pdata : l'.pdata = l.pdata
  iusb : l'.iusbUa = l.iusbUa
  recovery : l'.vbusRecoveryFromUvlo = l.vbusRecoveryFromUvlo

/-- The same up to the measurement. -/
structure AgreeButAicl (l l' : Limits) : Prop where
  pdata : l'.pdata =
    { l.pdata with inputCurrentLimitByAicl := l'.pdata.inputCurrentLimitByAicl }
  iusb : l'.iusbUa = l.iusbUa
  recovery : l'.vbusRecoveryFromUvlo = l.vbusRecoveryFromUvlo

theorem AgreeButAicl.agree {l l' : Limits} (h : AgreeButAicl l l')
    (ha : l'.pdata.inputCurrentLimitByAicl = l.pdata.inputCurrentLimitByAicl) : Agree l l' :=
  ⟨by rw [h.pdata, ha], h.iusb, h.recovery⟩

section
variable {c : Conf} {r : CurrentReading} {s : Settings} {chrType : ChrType} {l l' : Limits}

theorem typeLimits_agree (h : SameInputs r l l')
    (ht : (typeCurrents c.currents chrType).isSome = true) :
    AgreeButAicl (typeLimits c chrType l) (typeLimits c chrType l') ∧
      (typeLimits c chrType l).pdata.inputCurrentLimitByAicl = l.pdata.inputCurrentLimitByAicl ∧
      (typeLimits c chrType l').pdata.inputCurrentLimitByAicl =
        l'.pdata.inputCurrentLimitByAicl := by
  obtain ⟨⟨input, charging, volts⟩, ht⟩ := Option.isSome_iff_exists.1 ht
  unfold typeLimits
  simp only [ht, h.thermal_power]
  split_ifs
  · refine ⟨⟨?_, h.iusb, h.recovery⟩, rfl, rfl⟩
    simp only [h.force_charging, h.force_input, h.thermal_input, h.thermal_charging]
  · refine ⟨⟨?_, h.iusb, h.recovery⟩, rfl, rfl⟩
    simp only [h.force_charging, h.force_input, h.thermal_input, h.thermal_charging]

/-- A measurement replaces the one before. -/
theorem basicLimits_agree (h : AgreeButAicl l l')
    (ha : l'.pdata.inputCurrentLimitByAicl = l.pdata.inputCurrentLimitByAicl ∨
      r.aicl.isSome = true) :
    Agree (basicLimits c r chrType l) (basicLimits c r chrType l') := by
  have hget : r.aicl.getD l'.pdata.inputCurrentLimitByAicl =
      r.aicl.getD l.pdata.inputCurrentLimitByAicl := by
    rcases ha with ha | ha
    · rw [ha]
    · obtain ⟨v, hv⟩ := Option.isSome_iff_exists.1 ha
      rw [hv]
      rfl
  unfold basicLimits
  simp only [hget]
  rw [h.pdata]
  split_ifs <;> exact ⟨rfl, h.iusb, h.recovery⟩

theorem checkInvalidCharger_agree (h : Agree l l') :
    Agree (checkInvalidCharger c r l) (checkInvalidCharger c r l') := by
  obtain ⟨_, _, he⟩ := checkInvalidCharger_frame c r l
  obtain ⟨_, _, he'⟩ := checkInvalidCharger_frame c r l'
  rw [he, he']
  exact ⟨h.pdata, h.iusb, h.recovery⟩

theorem adapterPowerDetection_agree (h : Agree l l') :
    Agree (adapterPowerDetection c r chrType l).1 (adapterPowerDetection c r chrType l').1 := by
  have hocp : (adapterPowerDetectionByOcp r l').1 = (adapterPowerDetectionByOcp r l).1 ∧
      Agree (adapterPowerDetectionByOcp r l).2 (adapterPowerDetectionByOcp r l').2 := by
    unfold adapterPowerDetectionByOcp
    rw [h.pdata]
    split_ifs
    · exact ⟨rfl, h⟩
    · exact ⟨rfl, rfl, h.iusb, h.recovery⟩
  unfold adapterPowerDetection Limits.classify
  generalize adapterPowerDetectionByOcp r l = out at hocp
  generalize adapterPowerDetectionByOcp r l' = out' at hocp
  obtain ⟨checked, l2⟩ := out
  obtain ⟨checked', l2'⟩ := out'
  have hchecked : checked' = checked := hocp.1
  have h2 : Agree l2 l2' := hocp.2
  subst hchecked
  simp only [h.pdata, h.iusb, h2.pdata]
  split_ifs
  all_goals first
    | exact h
    | exact ⟨rfl, h.iusb, h.recovery⟩
    | exact ⟨rfl, rfl, h.recovery⟩
    | exact ⟨rfl, rfl, h2.recovery⟩

theorem applyAicl_agree (fast : Bool) (h : Agree l l') :
    Agree (applyAicl fast l) (applyAicl fast l') := by
  unfold applyAicl
  rw [h.pdata, h.recovery]
  split_ifs
  · exact ⟨rfl, h.iusb, rfl⟩
  · exact ⟨rfl, h.iusb, rfl⟩
  · exact h

/-- The currents before the forced values. -/
theorem beforeForce_agree (sm : JeitaZone)
    (h : Agree (beforeJeita c r chrType l) (beforeJeita c r chrType l')) :
    (beforeForce c r s chrType sm l').pdata = (beforeForce c r s chrType sm l).pdata := by
  unfold beforeForce
  generalize beforeJeita c r chrType l = l5 at h
  generalize beforeJeita c r chrType l' = l5' at h
  have hcur : ∀ limit cur copy copy', (lower limit cur copy).1 = (lower limit cur copy').1 := by
    intro limit cur copy copy'
    unfold lower
    split_ifs <;> rfl
  have hjeita : (jeitaLimits c s chrType sm l5').pdata = (jeitaLimits c s chrType sm l5).pdata := by
    unfold jeitaLimits
    split_ifs
    · split
      · exact h.pdata
      · simp only [h.pdata, hcur _ _ l5'.setting.chargingCurrentLimit1
          l5.setting.chargingCurrentLimit1]
    · exact h.pdata
  generalize jeitaLimits c s chrType sm l5 = l6 at hjeita
  generalize jeitaLimits c s chrType sm l5' = l6' at hjeita
  unfold thermalLimits
  simp only [hjeita, hcur _ _ l6'.setting.chargingCurrentLimit1 l6.setting.chargingCurrentLimit1,
    hcur _ _ l6'.setting.inputCurrentLimit1 l6.setting.inputCurrentLimit1]

/-- What the type, the adapter and the measurement give does not depend on an earlier result. -/
theorem beforeJeita_agree (h : SameInputs r l l')
    (ht : (typeCurrents c.currents chrType).isSome = true) :
    Agree (beforeJeita c r chrType l) (beforeJeita c r chrType l') := by
  obtain ⟨hagree, ha, ha'⟩ := typeLimits_agree h ht
  unfold beforeJeita
  simp only
  by_cases hw : r.wpcOnline = true
  · rw [if_pos hw, if_pos hw]
    refine hagree.agree ?_
    rw [ha, ha']
    exact h.aicl.resolve_right fun hn => absurd hw (by simp [hn.1])
  rw [if_neg hw, if_neg hw]
  refine applyAicl_agree _ (adapterPowerDetection_agree (checkInvalidCharger_agree ?_))
  by_cases hf : r.fastCharging = true
  · rw [if_pos hf, if_pos hf]
    refine hagree.agree ?_
    rw [ha, ha']
    exact h.aicl.resolve_right fun hn => absurd hf (by simp [hn.2.1])
  · rw [if_neg hf, if_neg hf]
    refine basicLimits_agree hagree ?_
    rw [ha, ha']
    exact h.aicl.imp_right fun hn => hn.2.2

end

/-- Calls that end with the same currents and the same forced values. -/
theorem selectDone_same {r : CurrentReading} {isBasic byOcp byOcp' : Bool} {l l' : Limits}
    (hin : l'.pdata.inputCurrentLimit = l.pdata.inputCurrentLimit)
    (hch : l'.pdata.chargingCurrentLimit = l.pdata.chargingCurrentLimit)
    (hfi : l'.pdata.forceInputCurrentLimit = l.pdata.forceInputCurrentLimit)
    (hfc : l'.pdata.forceChargingCurrent = l.pdata.forceChargingCurrent)
    (hcv : l'.setting.cv = l.setting.cv) :
    SameResults (selectDone r isBasic byOcp l) (selectDone r isBasic byOcp' l') := by
  unfold selectDone forceLimits
  simp only [hin, hch, hfi, hfc, hcv]
  exact ⟨rfl, rfl, rfl, rfl⟩

theorem beforeForce_cv (c : Conf) (r : CurrentReading) (s : Settings) (chrType : ChrType)
    (sm : JeitaZone) (l : Limits) :
    (beforeForce c r s chrType sm l).setting.cv = l.setting.cv := by
  unfold beforeForce beforeJeita
  simp only
  split_ifs <;> simp

theorem SameInputs.withCv {r : CurrentReading} {l l' : Limits} (h : SameInputs r l l') (cv : Int) :
    SameInputs r (l.withCv cv) (l'.withCv cv) :=
  ⟨h.force_charging, h.force_input, h.thermal_input, h.thermal_power, h.thermal_charging, h.aicl,
    h.iusb, h.recovery⟩

/-- **Two calls** with the same inputs have the same results, whatever earlier passes have left. -/
theorem select_same {c : Conf} {r : CurrentReading} {s : Settings} {chrType : ChrType}
    (hr : Renewed c s chrType) (j : SwJeita) (k : Int) {l l' : Limits} (h : SameInputs r l l') :
    SameResults (selectChargingCurrentLimit c r s chrType j k l)
      (selectChargingCurrentLimit c r s chrType j k l') := by
  unfold Renewed at hr
  cases hm : specialMode c s chrType with
  | some mode =>
    obtain ⟨input, charging⟩ := mode
    simp only [hm] at hr
    obtain ⟨charging, rfl⟩ := Option.isSome_iff_exists.1 hr
    rw [select_special hm, select_special hm]
    exact selectDone_same rfl rfl h.force_input h.force_charging rfl
  | none =>
    simp only [hm] at hr
    obtain ⟨byOcp, he⟩ := select_normal (r := r) hm j k l
    obtain ⟨byOcp', he'⟩ := select_normal (r := r) hm j k l'
    rw [he, he']
    have hpdata := beforeForce_agree (s := s) j.sm
      (beforeJeita_agree (h.withCv (selectCv c r.stage s j k)) hr)
    exact selectDone_same (by rw [hpdata]) (by rw [hpdata]) (by rw [hpdata]) (by rw [hpdata])
      (by rw [beforeForce_cv, beforeForce_cv]; rfl)

/-! ## The result -/

/-- **Every call** keeps to the limits, and where it sets both currents its results are the same
after every earlier pass. -/
theorem current_limits (c : Conf) (r : CurrentReading) (s : Settings) (chrType : ChrType)
    (j : SwJeita) (customCv : Int) (l : Limits) :
    LimitsKept c r s chrType j.sm l (selectChargingCurrentLimit c r s chrType j customCv l) ∧
      (Renewed c s chrType → ∀ l', SameInputs r l l' →
        SameResults (selectChargingCurrentLimit c r s chrType j customCv l)
          (selectChargingCurrentLimit c r s chrType j customCv l')) :=
  ⟨select_kept c r s chrType j customCv l, fun hr _ h => select_same hr j customCv h⟩

/-- A USB host with a thermal limit, and the user's setting for an unlimited current. -/
def unlimitedCall : Selected :=
  let l := Limits.initial
  selectChargingCurrentLimit .defaults .plain { Settings.defaults true with usbUnlimited := true }
    .usb ⟨.t0ToT1, .t0ToT1, 4040000, true⟩ (-1)
    { l with pdata := { l.pdata with
      thermalInputCurrentLimit := 300000, thermalChargingCurrentLimit := 300000 } }

/-- With the setting the input current is above the type's current and the thermal limit, and the
charging current above those and the current of the zone. -/
theorem current_limits_unlimited :
    Conf.defaults.currents.usbChargerCurrent < unlimitedCall.lim.pdata.inputCurrentLimit ∧
    300000 < unlimitedCall.lim.pdata.inputCurrentLimit ∧
    Conf.defaults.currents.usbChargerCurrent < unlimitedCall.lim.pdata.chargingCurrentLimit ∧
    Conf.defaults.currents.tempT0ToT1ChargerCurrent <
      unlimitedCall.lim.pdata.chargingCurrentLimit := by
  decide

end Charger
