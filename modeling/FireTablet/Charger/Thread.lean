import FireTablet.Charger.Current
import FireTablet.Charger.Protect
import FireTablet.Lib.Run

/-!
# The charging thread (`charger_routine_thread`)

One pass of the thread notices a plugged or unplugged cable, decides whether the battery may be
charged (`charger_check_status`), looks at the protections and runs the algorithm. Between passes
notifications of the power supply, of the charger and of the user come in. The charger is that of
`mt6370_pmu_charger.c`, which enables charging when it is plugged in and disables it when it is
unplugged.
-/

namespace Charger

/-! ## What is programmed -/

/-- Who programs a constant voltage. -/
inductive CvSource
  | checkStatus
  | doAlgorithm
  | detection
  deriving DecidableEq

/-- A constant voltage that is programmed, with the ageing stage, the JEITA voltage, the top-off
voltage and the settings at that moment. -/
structure CvWrite where
  source : CvSource
  uV : Int
  stage : Option Int
  jeita : SwJeita
  customCv : Int
  set : Settings

/-! ## The cable -/

/-- `mtk_charger_plug_out`. -/
def mtkChargerPlugOut (i : Info) : Info :=
  { i with
    chrType := .unknown
    lim := { i.lim with
      iusbUa := 0
      pdata := { i.lim.pdata with inputCurrentLimitByAicl := -1, inputCurrentLimit := 500000 } }
    enabled := false }

/-- `mtk_charger_plug_in`. -/
def mtkChargerPlugIn (chrType : ChrType) (i : Info) : Info :=
  { i with
    chrType := chrType
    canCharging := true
    safetyTimeout := false
    vbusovStat := false
    enabled := true }

/-- `mtk_is_charger_on`: the driver learns of the type that the power supply reports. -/
def mtkIsChargerOn (chrType : ChrType) (i : Info) : Info :=
  if chrType = .unknown then
    if i.chrType ≠ .unknown then { mtkChargerPlugOut i with cableOutCnt := 0 } else i
  else
    let i := if i.chrType = .unknown then mtkChargerPlugIn chrType i else { i with chrType := chrType }
    if 0 < i.cableOutCnt then
      { mtkChargerPlugIn chrType (mtkChargerPlugOut i) with cableOutCnt := 0 }
    else i

/-! ## The decision -/

/-- What `charger_check_status` and `charger_top_off_mode` read. -/
structure StatusReading where
  stage : Option Int
  batteryTemp : Int
  vbusUv : Int
  wpcOnline : Bool
  batteryId : Bool
  uiSoc : Int

/-- The temperature limits without JEITA: whether charging may go on, and the state. -/
def thermalCheck (t : ThermalConf) (temp : Int) (sm : BatTemp) : Bool × BatTemp :=
  if t.enableMinChargeTemp ∧ temp < t.minChargeTemp then (false, .low)
  else if t.enableMinChargeTemp ∧ sm = .low ∧ temp < t.minChargeTempPlusXDegree then (false, sm)
  else
    let sm := if t.enableMinChargeTemp ∧ sm = .low then BatTemp.normal else sm
    if t.maxChargeTemp ≤ temp then (false, .high)
    else if sm = .high then
      if temp < t.maxChargeTempMinusXDegree then (true, .normal) else (false, sm)
    else (true, sm)

/-- The state of `mtk_chg_check_vbus`. -/
def vbusCheck (c : Conf) (r : StatusReading) : VbusState :=
  if c.maxChargerVoltage < r.vbusUv ∧ ¬ r.wpcOnline then .ovp
  else if r.vbusUv < c.vbusUvloVoltage ∧ 0 < r.vbusUv then .uvlo
  else .normal

/-- `mtk_chg_check_vbus` for a plugged charger: whether the input voltage is in range. -/
def mtkChgCheckVbus (c : Conf) (r : StatusReading) (i : Info) : Bool × Info :=
  if i.lim.invalidChargerDetWeak then (true, i)
  else
    let state := vbusCheck c r
    let recovered := decide (i.vbusState ≠ state ∧ i.vbusState = .uvlo)
    (decide (state = .normal), { i with
      vbusState := state
      lim := { i.lim with vbusRecoveryFromUvlo := i.lim.vbusRecoveryFromUvlo || recovered } })

/-- The temperature part of `charger_check_status`. -/
def temperatureCheck (c : Conf) (r : StatusReading) (i : Info) : Bool × Info :=
  if i.set.enableSwJeita then
    let j := doSwJeitaStateMachine c.thres c.cv r.stage r.batteryTemp i.swJeita
    (j.charging, { i with swJeita := j })
  else
    let t := thermalCheck c.thermal r.batteryTemp i.thermalSm
    (t.1, { i with thermalSm := t.2 })

/-- The reasons that are only flags. -/
def flagged (c : Conf) (i : Info) : Bool :=
  i.cmdDischarging || i.safetyTimeout || i.vbusovStat ||
    (c.eoc.enableBatEocProtect && (i.eoc.batEocProtect || i.eoc.dpmDisableCharging)) ||
    i.lim.invalidChargerDetWeak

/-- The checks of `charger_check_status` in their order, up to the label `stop_charging`. -/
def mayCharge (c : Conf) (r : StatusReading) (i : Info) : Bool × Info :=
  if i.set.bcmFlag then (false, i)
  else
    let (ok, i) := temperatureCheck c r i
    if ¬ ok then (false, i)
    else
      let (ok, i) := mtkChgCheckVbus c r i
      if ¬ ok then (false, i)
      else if ¬ r.batteryId then (false, i)
      else (!flagged c i, i)

/-- The voltage that `select_cv` stores. -/
def Info.selectCv (c : Conf) (stage : Option Int) (i : Info) : Int :=
  Charger.selectCv c stage i.set i.swJeita i.customChargingCv

/-- A voltage is programmed. -/
def Info.cvWrite (i : Info) (source : CvSource) (uV : Int) (stage : Option Int) : CvWrite :=
  ⟨source, uV, stage, i.swJeita, i.customChargingCv, i.set⟩

/-- `enable_charging`. -/
def enableCharging (en : Bool) (i : Info) : Info := { i with enabled := en }

/-- `charger_check_status` where the power supply reports the type `chrType`. -/
def chargerCheckStatus (c : Conf) (r : StatusReading) (chrType : ChrType) (i : Info) :
    List CvWrite × Info :=
  if chrType = .unknown then ([], i)
  else
    let (charging, i) := mayCharge c r i
    let i := if charging ≠ i.canCharging then enableCharging charging i else i
    if charging then ([], { i with canCharging := charging })
    else
      let cv := i.selectCv c r.stage
      ([i.cvWrite .checkStatus cv r.stage],
        { i with
          canCharging := charging
          lim := { i.lim with setting := { i.lim.setting with cv := cv } } })

/-- `charger_top_off_mode`. -/
def chargerTopOffMode (c : Conf) (r : StatusReading) (i : Info) : Info :=
  let topOffCv :=
    if c.agingZcv ∧ r.stage = some 1 then c.topOffModeCvAging1
    else if c.agingZcv ∧ r.stage = some 2 then c.topOffModeCvAging2
    else c.topOffModeCv
  if c.agingZcv ∧ topOffCv = 0 then i
  else if i.set.topOffModeEnable ∧ r.uiSoc < 100 then i
  else { i with customChargingCv := if i.set.topOffModeEnable then topOffCv else -1 }

/-! ## The algorithm -/

/-- `enum chg_alg_state`. -/
inductive AlgState
  | initFail
  | taChecking
  | taNotSupport
  | notReady
  | ready
  | running
  | done
  | other
  deriving DecidableEq

/-- A fast-charge algorithm in a pass: its state before the limits are chosen and after, and whether
the charger is enabled after it has been stopped or started. -/
structure Alg where
  before : AlgState
  state : AlgState
  leaves : Bool

/-- `support_fast_charging`: one of the algorithms that are there is ready or running. -/
def supportFastCharging (algs : List (Option Alg)) : Bool :=
  algs.any fun a => match a with
    | none => false
    | some a => a.before = .ready || a.before = .running

/-- The loop of `do_algorithm` over the algorithms: whether basic charging is used, and whether the
charger is enabled. Without high voltage or without a current each algorithm is stopped. -/
def algLoop (stop : Bool) : List (Option Alg) → Bool → Bool × Bool
  | [], enabled => (true, enabled)
  | none :: algs, enabled => algLoop stop algs enabled
  | some a :: algs, _ =>
    if stop then algLoop stop algs a.leaves
    else
      match a.state with
      | .taChecking | .done | .notReady => (true, a.leaves)
      | .ready | .running => (false, a.leaves)
      | .initFail | .taNotSupport | .other => algLoop stop algs a.leaves

/-- What `do_algorithm` reads. -/
structure AlgReading where
  chgDone : Bool
  current : CurrentReading
  algs : List (Option Alg)

/-- What detection by overcurrent programs. -/
def ocpWrites (c : Conf) (r : CurrentReading) (i : Info) (byOcp : Bool) : List CvWrite :=
  if byOcp then
    [i.cvWrite .detection c.cv.fresh.batteryCv r.stage, i.cvWrite .detection r.bakCvUv r.stage]
  else []

/-- `do_algorithm`. -/
def doAlgorithm (c : Conf) (r : AlgReading) (i : Info) : List CvWrite × Info :=
  let cur := { r.current with fastCharging := supportFastCharging r.algs }
  let sel := selectChargingCurrentLimit c cur i.set i.chrType i.swJeita i.customChargingCv i.lim
  let writes := ocpWrites c cur i sel.byOcp
  let zero := decide (sel.lim.pdata.chargingCurrentLimit = 0 ∨ sel.lim.pdata.inputCurrentLimit = 0)
  let (isBasic, enabled) :=
    if sel.isBasic then (true, i.enabled)
    else algLoop (!i.set.enableHvCharging || zero) r.algs i.enabled
  let i := { i with lim := sel.lim, isChgDone := r.chgDone }
  if isBasic then
    (writes ++ [i.cvWrite .doAlgorithm sel.lim.setting.cv cur.stage], { i with enabled := !zero })
  else (writes, { i with enabled := enabled })

/-- `mtk_basic_charging_current`. -/
def mtkBasicChargingCurrent (c : Conf) (r : CurrentReading) (i : Info) : List CvWrite × Info :=
  let sel := selectChargingCurrentLimit c r i.set i.chrType i.swJeita i.customChargingCv i.lim
  (ocpWrites c r i sel.byOcp, { i with lim := sel.lim })

/-! ## Passes and notifications -/

/-- What a pass of the thread reads; `chrType` is what `get_charger_type` answers. -/
structure PassReading where
  chrType : ChrType
  status : StatusReading
  eoc : EocReading
  alg : AlgReading

/-- The driver after the part of a pass that looks at the cable. -/
def Info.atCheck (r : PassReading) (i : Info) : Info := mtkIsChargerOn r.chrType i

/-- One pass of `charger_routine_thread`. -/
def pass (c : Conf) (r : PassReading) (i : Info) : List CvWrite × Info :=
  let i := i.atCheck r
  let (writes, i) := chargerCheckStatus c r.status r.chrType i
  let i := chargerTopOffMode c r.status i
  let eoc := batteryProtectAlgo c r.eoc i.set i.chrType i.swJeita.cv i.customChargingCv i.eoc
  let i := { i with eoc := checkDpmEocState c r.eoc eoc }
  if ¬ c.disableCharger ∧ r.chrType ≠ .unknown ∧ i.canCharging then
    let (writes', i) := doAlgorithm c r.alg i
    (writes ++ writes', i)
  else (writes, i)

/-- `mtk_chg_current_cmd_write` with two numbers. -/
def mtkChgCurrentCmdWrite (currentUnlimited cmdDischarging : Int) (i : Info) : Info :=
  let i := { i with set := { i.set with usbUnlimited := decide (currentUnlimited ≠ 0) } }
  if cmdDischarging = 1 then { i with cmdDischarging := true, enabled := false }
  else if cmdDischarging = 0 then { i with cmdDischarging := false, enabled := true }
  else i

/-- `mtk_charger_external_power_changed` at a time. -/
def externalPowerChanged (c : Conf) (online : Bool) (now : Int) (i : Info) : Info :=
  let (eoc, reset) := handlePlugState c.eoc online now i.eoc
  { i with
    eoc := eoc
    lim := if reset then
        { i.lim with invalidChargerDetDone := false, invalidChargerDetWeak := false }
      else i.lim }

/-- The limits that the thermal driver and the user set for a charger. -/
structure OuterLimits where
  forceChargingCurrent : Int
  forceInputCurrentLimit : Int
  thermalInputCurrentLimit : Int
  thermalInputPowerLimit : Int
  thermalChargingCurrentLimit : Int

/-- The limits are stored. -/
def ChargerData.store (o : OuterLimits) (d : ChargerData) : ChargerData :=
  { d with
    forceChargingCurrent := o.forceChargingCurrent
    forceInputCurrentLimit := o.forceInputCurrentLimit
    thermalInputCurrentLimit := o.thermalInputCurrentLimit
    thermalInputPowerLimit := o.thermalInputPowerLimit
    thermalChargingCurrentLimit := o.thermalChargingCurrentLimit }

/-- What happens to the driver. -/
inductive Ev
  | pass (r : PassReading)
  | plugIn (now : Int)
  | plugOut (now : Int)
  | changed (now : Int)
  | currentCmd (currentUnlimited cmdDischarging : Int)
  | safetyTimeout
  | vbusOvp (stat : Bool)
  | wakeUp
  | settings (s : Settings)
  | limits (o1 o2 : OuterLimits)
  | changeSetting (r : CurrentReading)

/-- The driver with what is known outside of it: whether a cable is plugged in and the time of the
last event, which charger it is (counted from 1), and on which charger each verdict was found. -/
structure Ctl where
  info : Info
  online : Bool
  clock : Int
  charger : Nat
  safetyOf : Nat
  vbusovOf : Nat
  weakOf : Nat

/-- What is seen of an event: what is programmed, and of a pass what it read, the driver at its
check and the driver after it. -/
structure Seen where
  writes : List CvWrite
  pass : Option (PassReading × Info × Info)

/-- The notes on the verdicts after a change of the driver. -/
def Ctl.noted (x : Ctl) (i : Info) : Ctl :=
  { x with
    info := i
    weakOf := if i.lim.invalidChargerDetWeak ∧ ¬ x.info.lim.invalidChargerDetWeak then x.charger
      else x.weakOf }

/-- One event. A pass sees a type only with a cable; times do not go back. -/
def step (c : Conf) (x : Ctl) (e : Ev) : Option (Seen × Ctl) :=
  let quiet := Seen.mk [] none
  match e with
  | .pass r =>
    if x.online = false ∧ r.chrType ≠ .unknown then none
    else
      let (writes, i) := pass c r x.info
      some (⟨writes, some (r, x.info.atCheck r, i)⟩, x.noted i)
  | .plugIn now =>
    if x.online ∨ now < x.clock then none
    else some (quiet, { x.noted (externalPowerChanged c true now x.info) with
      online := true, clock := now, charger := x.charger + 1 })
  | .plugOut now =>
    if ¬ x.online ∨ now < x.clock then none
    else some (quiet, { x.noted (externalPowerChanged c false now x.info) with
      online := false, clock := now })
  | .changed now =>
    if now < x.clock then none
    else some (quiet, { x.noted (externalPowerChanged c x.online now x.info) with clock := now })
  | .currentCmd u d => some (quiet, x.noted (mtkChgCurrentCmdWrite u d x.info))
  | .safetyTimeout =>
    some (quiet, { x.noted { x.info with safetyTimeout := true } with safetyOf := x.charger })
  | .vbusOvp stat =>
    some (quiet, { x.noted { x.info with vbusovStat := stat } with vbusovOf := x.charger })
  | .wakeUp => some (quiet, x)
  | .settings s =>
    some (quiet, x.noted { x.info with set := { s with usbUnlimited := x.info.set.usbUnlimited } })
  | .limits o1 o2 =>
    some (quiet, x.noted { x.info with lim := { x.info.lim with
      pdata := x.info.lim.pdata.store o1
      pdata2 := x.info.lim.pdata2.store o2 } })
  | .changeSetting r =>
    let (writes, i) := mtkBasicChargingCurrent c r x.info
    some (⟨writes, none⟩, x.noted i)

/-- The start: no cable has been plugged in. -/
def Ctl.start (c : Conf) (s : Settings) : Ctl where
  info := .probe c s
  online := false
  clock := 0
  charger := 0
  safetyOf := 0
  vbusovOf := 0
  weakOf := 0

end Charger
