import FireTablet.Charger.Info

/-!
# The current limits (`mtk_basic_charger.c`)

`select_charging_current_limit` starts from the currents of the charger type, lowers them by what
the adapter, the JEITA zone and the thermal driver allow, lets forced values replace them, and drops
what the charger cannot do. The parts follow the order of the source.
-/

namespace Charger

/-- `DEFAULT_DEMO_CHARGING_CV`. -/
def demoChargingCv : Int := 4100000

/-- `select_cv`. The comparison with the top-off voltage is unsigned. -/
def selectCv (c : Conf) (stage : Option Int) (s : Settings) (j : SwJeita) (customCv : Int) : Int :=
  let cv := CInt.u32 (mtkGetBatteryCv c.cv stage)
  let cv := if s.enableSwJeita ∧ j.cv ≠ 0 then CInt.u32 j.cv else cv
  let cv := if customCv ≠ -1 ∧ CInt.u32 customCv < cv then CInt.u32 customCv else cv
  let cv := if s.customChargingMode ∧ demoChargingCv < cv then demoChargingCv else cv
  CInt.i32 cv

/-- What one call reads. A failing measurement of the input limit (`aicl`) leaves the value of the
measurement before. -/
structure CurrentReading where
  stage : Option Int
  wpcOnline : Bool
  fastCharging : Bool
  aicl : Option Int
  tcpcFound : Bool
  rpCurr : Int
  rpLevel : Int
  typecOnlySnk : Bool
  /-- `check_invalid_charger`: unplugged in the wait, the voltage regulation, the input voltage,
  unplugged after the verdict -/
  invWaitOut : Bool
  vdpm : Bool
  vbusUv : Int
  invOut : Bool
  /-- `adapter_power_detection_by_ocp`: the voltage read back, unplugged in the wait, the
  measurement, unplugged after it -/
  bakCvUv : Int
  ocpWaitOut : Bool
  ocpAicl : Option Int
  ocpOut : Bool
  /-- the smallest currents of the charger, if it can tell -/
  ichgMin : Option Int
  aicrMin : Option Int

/-! ## Detection -/

/-- `is_typec_adapter`. -/
def isTypecAdapter (c : Conf) (r : CurrentReading) (chrType : ChrType) : Bool :=
  r.tcpcFound &&
    ((c.det.en && (r.rpCurr == 3000 || r.rpCurr == 1500)) ||
      (r.typecOnlySnk && r.rpLevel != 500 && chrType != .usb && chrType != .usbCdp))

/-- `check_invalid_charger`. -/
def checkInvalidCharger (c : Conf) (r : CurrentReading) (l : Limits) : Limits :=
  if l.invalidChargerDetDone ∨ r.invWaitOut then l
  else
    let weak := l.invalidChargerDetWeak || (c.eoc.indpm && r.vdpm) ||
      decide (r.vbusUv < c.invchgCheckMivrUv ∧ 0 < r.vbusUv)
    if weak ∧ r.invOut then { l with invalidChargerDetDone := false, invalidChargerDetWeak := false }
    else { l with invalidChargerDetDone := true, invalidChargerDetWeak := weak }

/-- `adapter_power_detection_by_ocp`: whether the measurement counts, and the measured limit. It
programs the voltage of the new battery and then the one read back. -/
def adapterPowerDetectionByOcp (r : CurrentReading) (l : Limits) : Bool × Limits :=
  if r.ocpWaitOut then (false, l)
  else (!r.ocpOut, { l with pdata := { l.pdata with
    inputCurrentLimitByAicl := r.ocpAicl.getD l.pdata.inputCurrentLimitByAicl } })

/-- The class by the measured limit. -/
def adapterClass (d : PowerDetection) (aicl : Int) : AdapterClass × Int :=
  if aicl < 0 then (.adapter12w, d.adapter12wIusbLim)
  else if d.adapter12wAiclMin < aicl then (.adapter12w, d.adapter12wIusbLim)
  else if d.adapter9wAiclMin < aicl then (.adapter9w, d.adapter9wIusbLim)
  else (.adapter5w, d.adapter5wIusbLim)

/-- The input limit, the limit of the class and the class. -/
def Limits.classify (l : Limits) (input iusb : Int) (adapter : AdapterClass) : Limits :=
  { l with
    pdata := { l.pdata with inputCurrentLimit := input }
    iusbUa := iusb
    adapter := adapter }

/-- `adapter_power_detection`, and whether it measured by overcurrent. -/
def adapterPowerDetection (c : Conf) (r : CurrentReading) (chrType : ChrType) (l : Limits) :
    Limits × Bool :=
  if ¬ c.det.en then (l, false)
  else if l.iusbUa ≠ 0 then
    if l.pdata.thermalInputCurrentLimit ≠ -1 ∧ l.pdata.thermalInputCurrentLimit < l.iusbUa then
      (l, false)
    else ({ l with pdata := { l.pdata with inputCurrentLimit := l.iusbUa } }, false)
  else if ¬ r.tcpcFound then (l, false)
  else if r.rpCurr = 3000 then (l.classify 3000000 c.det.adapter15wIusbLim .adapter15w, false)
  else if r.rpCurr = 1500 then (l.classify 1500000 c.det.adapter7p5wIusbLim .adapter7p5w, false)
  else if chrType ≠ .usbDcp then (l, false)
  else
    let (checked, l) := adapterPowerDetectionByOcp r l
    if ¬ checked then
      ({ l with iusbUa := 0, pdata := { l.pdata with inputCurrentLimitByAicl := -1 } }, true)
    else
      let (adapter, iusb) := adapterClass c.det l.pdata.inputCurrentLimitByAicl
      (l.classify iusb iusb adapter, true)

/-! ## The limits one after the other -/

/-- A mode with limits of its own: the input current, the charging current if the mode sets it. -/
def specialMode (c : Conf) (s : Settings) (chrType : ChrType) : Option (Int × Option Int) :=
  if s.usbUnlimited then some (c.currents.acChargerInputCurrent, some c.currents.acChargerCurrent)
  else if s.waterDetected then
    some (c.currents.usbChargerCurrent, some c.currents.usbChargerCurrent)
  else if c.bootmode = 1 ∨ c.bootmode = 5 then some (200000, none)
  else if s.atmEnabled ∧ (chrType = .usb ∨ chrType = .usbCdp) then some (100000, none)
  else none

/-- The currents of a charger type and the voltage at which a power limit is converted. -/
def typeCurrents (c : Currents) : ChrType → Option (Int × Int × Option Int)
  | .usb => some (c.usbChargerCurrent, c.usbChargerCurrent, none)
  | .usbCdp => some (c.chargingHostChargerCurrent, c.chargingHostChargerCurrent, none)
  | .usbDcp => some (c.acChargerInputCurrent, c.acChargerCurrent, none)
  | .usbFloat => some (c.nonStdAcChargerCurrent, c.nonStdAcChargerCurrent, none)
  | .wireless5w => some (c.wireless5wChargerInputCurrent, c.wireless5wChargerCurrent, some 5)
  | .wireless10w => some (c.wireless10wChargerInputCurrent, c.wireless10wChargerCurrent, some 9)
  | .wireless => some (c.wirelessDefaultChargerInputCurrent, c.wirelessDefaultChargerCurrent, some 5)
  | .unknown | .other => none

/-- The thermal power limit in milliwatts as a current at a voltage in volts. -/
def powerToCurrent (limit volts : Int) : Int := (CInt.i32 (limit * 1000)).tdiv volts

/-- The branches over the charger type. -/
def typeLimits (c : Conf) (chrType : ChrType) (l : Limits) : Limits :=
  match typeCurrents c.currents chrType with
  | none => l
  | some (input, charging, volts) =>
    let power := l.pdata.thermalInputPowerLimit
    let input := match volts with
      | none => input
      | some v => if power ≠ -1 ∧ powerToCurrent power v < input then powerToCurrent power v
        else input
    let l := { l with pdata := { l.pdata with
      inputCurrentLimit := input
      chargingCurrentLimit := charging } }
    if chrType = .usbDcp ∧ c.dualInSeries then
      { l with pdata2 := { l.pdata2 with
        inputCurrentLimit := input
        chargingCurrentLimit := 2000000 } }
    else l

/-- Without fast charging: the measured input limit and the current of a Type-C adapter. -/
def basicLimits (c : Conf) (r : CurrentReading) (chrType : ChrType) (l : Limits) : Limits :=
  let aicl := r.aicl.getD l.pdata.inputCurrentLimitByAicl
  let aicl := if c.enableDynamicMivr ∧ c.currents.maxDmivrChargerCurrent < aicl then
      c.currents.maxDmivrChargerCurrent
    else aicl
  let l := { l with pdata := { l.pdata with inputCurrentLimitByAicl := aicl } }
  if isTypecAdapter c r chrType then
    let (input, charging) :=
      if r.rpCurr = 3000 then (3000000, c.currents.acChargerCurrent)
      else if r.rpCurr = 1500 then (1500000, c.currents.acChargerCurrent)
      else (500000, 500000)
    { l with pdata := { l.pdata with
      inputCurrentLimit := min input l.pdata.inputCurrentLimit
      chargingCurrentLimit := min charging l.pdata.chargingCurrentLimit } }
  else l

/-- The measured input limit is applied, unless the input voltage has just recovered. -/
def applyAicl (fastCharging : Bool) (l : Limits) : Limits :=
  if ¬ fastCharging ∧ l.pdata.inputCurrentLimitByAicl ≠ -1 then
    if l.vbusRecoveryFromUvlo then { l with vbusRecoveryFromUvlo := false }
    else { l with pdata := { l.pdata with
      inputCurrentLimit := min l.pdata.inputCurrentLimitByAicl l.pdata.inputCurrentLimit } }
  else l

/-- The charging current of the JEITA zone. -/
def jeitaCurrent (c : Currents) : JeitaZone → Option Int
  | .t0ToT1 => some c.tempT0ToT1ChargerCurrent
  | .t3ToT4 => some c.tempT3ToT4ChargerCurrent
  | _ => none

/-- A limit that is set lowers the current, and then its copy is the limit; one that is not set
clears the copy. -/
def lower (limit current copy : Int) : Int × Int :=
  if limit ≠ -1 then
    if limit < current then (limit, limit) else (current, copy)
  else (current, -1)

/-- The part about JEITA. -/
def jeitaLimits (c : Conf) (s : Settings) (chrType : ChrType) (sm : JeitaZone) (l : Limits) :
    Limits :=
  if s.enableSwJeita ∧ ¬ (c.usbifCompliance ∧ chrType = .usb) then
    match jeitaCurrent c.currents sm with
    | none => l
    | some limit =>
      let (cur, copy) := lower limit l.pdata.chargingCurrentLimit l.setting.chargingCurrentLimit1
      { l with
        pdata := { l.pdata with chargingCurrentLimit := cur }
        setting := { l.setting with chargingCurrentLimit1 := copy } }
  else l

/-- The thermal limits of the two chargers. -/
def thermalLimits (l : Limits) : Limits :=
  let (ichg1, copyIchg1) := lower l.pdata.thermalChargingCurrentLimit l.pdata.chargingCurrentLimit
    l.setting.chargingCurrentLimit1
  let (iusb1, copyIusb1) := lower l.pdata.thermalInputCurrentLimit l.pdata.inputCurrentLimit
    l.setting.inputCurrentLimit1
  let (ichg2, copyIchg2) := lower l.pdata2.thermalChargingCurrentLimit
    l.pdata2.chargingCurrentLimit l.setting.chargingCurrentLimit2
  let (iusb2, copyIusb2) := lower l.pdata2.thermalInputCurrentLimit l.pdata2.inputCurrentLimit
    l.setting.inputCurrentLimit2
  { l with
    pdata := { l.pdata with chargingCurrentLimit := ichg1, inputCurrentLimit := iusb1 }
    pdata2 := { l.pdata2 with chargingCurrentLimit := ichg2, inputCurrentLimit := iusb2 }
    setting := { l.setting with
      chargingCurrentLimit1 := copyIchg1
      inputCurrentLimit1 := copyIusb1
      chargingCurrentLimit2 := copyIchg2
      inputCurrentLimit2 := copyIusb2 } }

/-- A forced value replaces the computed one and its copies; without one the copies are cleared. -/
def forceLimits (l : Limits) : Limits :=
  let iusb := l.pdata.forceInputCurrentLimit
  let ichg := l.pdata.forceChargingCurrent
  { l with
    pdata := { l.pdata with
      inputCurrentLimit := if iusb ≠ -1 then iusb else l.pdata.inputCurrentLimit
      chargingCurrentLimit := if ichg ≠ -1 then ichg else l.pdata.chargingCurrentLimit }
    setting := { l.setting with
      inputCurrentLimit1 := iusb
      inputCurrentLimit2 := iusb
      chargingCurrentLimit1 := ichg
      chargingCurrentLimit2 := ichg } }

/-- Below the charger's minimum a current is 0; the comparison is unsigned. -/
def dropBelow (low : Option Int) (current : Int) : Int :=
  match low with
  | none => current
  | some m => if CInt.u32 current < m then 0 else current

/-- The current is dropped. -/
def isBelow (low : Option Int) (current : Int) : Bool :=
  match low with
  | none => false
  | some m => decide (CInt.u32 current < m)

/-- What a call leaves: the limits, whether basic charging is used, and whether the voltage was
programmed by the detection. -/
structure Selected where
  lim : Limits
  isBasic : Bool
  byOcp : Bool

/-- From the label `done` on. -/
def selectDone (r : CurrentReading) (isBasic byOcp : Bool) (l : Limits) : Selected :=
  let l := forceLimits l
  let ichg := l.pdata.chargingCurrentLimit
  let iusb := l.pdata.inputCurrentLimit
  { lim := { l with pdata := { l.pdata with
      chargingCurrentLimit := dropBelow r.ichgMin ichg
      inputCurrentLimit := dropBelow r.aicrMin iusb } }
    isBasic := isBasic || isBelow r.ichgMin ichg || isBelow r.aicrMin iusb
    byOcp := byOcp }

/-- `is_basic` of the branches over the charger type. -/
def typeIsBasic : ChrType → Bool
  | .usb | .usbCdp | .usbFloat => true
  | _ => false

/-- `select_charging_current_limit`. -/
def selectChargingCurrentLimit (c : Conf) (r : CurrentReading) (s : Settings) (chrType : ChrType)
    (j : SwJeita) (customCv : Int) (l : Limits) : Selected :=
  let l := { l with setting := { l.setting with cv := selectCv c r.stage s j customCv } }
  match specialMode c s chrType with
  | some (input, charging) =>
    selectDone r true false { l with pdata := { l.pdata with
      inputCurrentLimit := input
      chargingCurrentLimit := charging.getD l.pdata.chargingCurrentLimit } }
  | none =>
    let l := typeLimits c chrType l
    if r.wpcOnline then
      selectDone r (typeIsBasic chrType) false (thermalLimits (jeitaLimits c s chrType j.sm l))
    else
      let l := if r.fastCharging then l else basicLimits c r chrType l
      let (l, byOcp) := adapterPowerDetection c r chrType (checkInvalidCharger c r l)
      let l := applyAicl r.fastCharging l
      selectDone r (!r.fastCharging) byOcp (thermalLimits (jeitaLimits c s chrType j.sm l))

end Charger
