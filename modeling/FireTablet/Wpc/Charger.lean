import Mathlib.Data.List.Basic
import FireTablet.Lib.CInt
import Mathlib.Algebra.Ring.Int.Defs

/-!
# The wireless charger (`idtp922x_wireless_power.c`)

The power-good interrupt, the charger's polls and the writes of `power_switch` run under `irq_lock`
and are functions here. The chip interrupt's thread and the delayed works run without it: each is a
thread with program points, and one step goes from one access of the shared state to the next.
-/

namespace Wpc

open CInt

/-- `enum power_supply_type`, as far as the driver tells the types apart. -/
inductive ChrType
  | unknown
  | wireless
  | wireless5w
  | wireless10w
  deriving DecidableEq, Repr

/-- `struct p922x_switch_voltage`. -/
structure SwitchVoltage where
  voltageLow : Int
  voltageTarget : Int
  voltageHigh : Int
  deriving DecidableEq, Repr

/-- The settings of `p922x_parse_dt` and of the charger. -/
structure Cfg where
  useBuck : Bool
  voltage5w : SwitchVoltage
  voltage10w : SwitchVoltage
  startSoc : Int
  margin : Int
  maxCurrentLimit : Int
  minCurrentLimit : Int
  adaptiveStartMa : Int
  stepStartMa : Int
  stepMa : Int
  stepMaxUa : Int
  bpp10wDefaultInputCurrent : Int
  wirelessInputCurrent : Int
  wireless5wInputCurrent : Int
  changeCurrentSetting : Bool

def ibusBufferSize : Nat := 6
def filterThreshold : Int := 200

/-- `struct p922x_dev`, the type of the charger's power supply, and which works are queued. -/
structure Chip where
  online : Bool
  isEnabled : Bool
  txIdAuthenStatus : Bool
  txDevAuthenStatus : Bool
  txAuthenComplete : Bool
  devAuthRetry : Nat
  forceSwitch : Bool
  getStatusDone : Bool
  chrType : ChrType
  psyType : ChrType
  switchVthLow : Int
  switchVthHigh : Int
  switchDetctCount : Nat
  inputCurrent10w : Int
  prevInputCurrent : Int
  onAdaptive : Bool
  currentIndex : Nat
  fillCount : Nat
  ibus : List Int
  avg : Int
  onStepCharging : Bool
  stepLoadEn : Bool
  powerSwitchPending : Bool
  adaptivePending : Bool
  stepPending : Bool
  deriving DecidableEq, Repr

/-- The charger after `p922x_probe`, with the input current of the charger's settings. -/
def probe (inputCurrent10w : Int) : Chip :=
  ⟨false, false, false, false, false, 0, false, false, .unknown, .unknown, 0, 0, 0, inputCurrent10w,
    0, false, 0, 0, List.replicate ibusBufferSize 0, 0, false, true, false, false, false⟩

/-- What is done to the charger and the chip. -/
inductive Effect
  | chargeType (type : ChrType)
  | chargerCurrent
  | inputCurrent10w
  | voltage (mv : Int)
  deriving DecidableEq, Repr

/-- Whether the accesses to the power supply's type succeed. -/
structure Psy where
  get : Bool
  set : Bool

/-- The bits of a chip interrupt about the authentication. -/
structure Irq where
  deviceAuthFail : Bool
  deviceAuthSuccess : Bool
  idAuthFail : Bool
  idAuthSuccess : Bool
  deriving DecidableEq, Repr

/-! ## The charge type and the current -/

/-- `p922x_update_charge_type`. -/
def updateChargeType (c : Chip) (type : ChrType) (psy : Psy) : Chip × List Effect :=
  if ¬ psy.get ∨ c.psyType = type then (c, [])
  else ({ c with chrType := type, psyType := if psy.set then type else c.psyType },
    [.chargeType type])

/-- The input current of a charge type. -/
def inputCurrent (cfg : Cfg) (c : Chip) : Option Int :=
  match c.chrType with
  | .wireless => some cfg.wirelessInputCurrent
  | .wireless5w => some cfg.wireless5wInputCurrent
  | .wireless10w => some c.inputCurrent10w
  | .unknown => none

/-- `p922x_update_current_setting`. -/
def updateCurrentSetting (cfg : Cfg) (c : Chip) : Chip × List Effect :=
  match inputCurrent cfg c with
  | none => (c, [])
  | some ua =>
    if ua = c.prevInputCurrent then (c, [])
    else ({ c with prevInputCurrent := ua },
      if cfg.changeCurrentSetting then [.chargerCurrent] else [])

/-! ## Attaching and detaching -/

/-- `p922x_clear_fast_charge_switch`. -/
def clearFastChargeSwitch (cfg : Cfg) (c : Chip) : Chip :=
  { c with
    powerSwitchPending := false
    adaptivePending := false
    stepPending := false
    txDevAuthenStatus := false
    txIdAuthenStatus := false
    forceSwitch := false
    txAuthenComplete := false
    onAdaptive := false
    prevInputCurrent := -1
    inputCurrent10w := i32 (cfg.bpp10wDefaultInputCurrent * 1000)
    onStepCharging := false
    chrType := .unknown }

/-- `p922x_enable_charge_flow`. -/
def enableChargeFlow (cfg : Cfg) (c : Chip) (en : Bool) (psy : Psy) : Chip × List Effect :=
  if c.isEnabled = en then (c, [])
  else
    let c := { c with isEnabled := en }
    if en then
      let r := updateChargeType c .wireless psy
      let q := updateCurrentSetting cfg r.1
      (q.1, r.2 ++ q.2)
    else updateChargeType { clearFastChargeSwitch cfg c with online := false } .unknown psy

/-- `p922x_attached_vbus`. -/
def attachedVbus (cfg : Cfg) (c : Chip) (voutOk : Bool) (psy : Psy) : Chip × List Effect :=
  enableChargeFlow cfg { c with online := true } (!cfg.useBuck || voutOk) psy

/-- `p922x_detached_vbus`. -/
def detachedVbus (cfg : Cfg) (c : Chip) (psy : Psy) : Chip × List Effect :=
  enableChargeFlow cfg c false psy

/-! ## Switching the power -/

/-- `p922x_fast_charge_enable`. -/
def fastChargeEnable (cfg : Cfg) (c : Chip) (en : Bool) : Chip × List Effect :=
  if ¬ c.online then (c, [])
  else
    let c := { c with powerSwitchPending := false }
    if ¬ c.txIdAuthenStatus ∨ ¬ c.txDevAuthenStatus then (c, [])
    else
      let v := if en then cfg.voltage10w else cfg.voltage5w
      ({ c with
        switchVthLow := v.voltageLow
        switchVthHigh := v.voltageHigh
        chrType := if en then .wireless10w else .wireless5w
        powerSwitchPending := true }, [.voltage v.voltageTarget])

/-- A section under `irq_lock`: what it leaves and does, and whether it releases the lock. -/
structure Section where
  chip : Chip
  effects : List Effect
  released : Bool

/-- `p922x_do_algorithm`; it returns with the lock when the type cannot be read. -/
def doAlgorithm (cfg : Cfg) (c : Chip) (typeRead : Bool) (psy : Psy) : Section :=
  if ¬ c.online ∨ c.forceSwitch ∨ ¬ c.txAuthenComplete then ⟨c, [], true⟩
  else if ¬ typeRead then ⟨c, [], false⟩
  else if c.psyType = .wireless then
    if c.txIdAuthenStatus ∧ c.txDevAuthenStatus then
      let r := fastChargeEnable cfg c true
      ⟨r.1, r.2, true⟩
    else
      let r := updateChargeType c .wireless5w psy
      let q := updateCurrentSetting cfg r.1
      ⟨q.1, r.2 ++ q.2, true⟩
  else ⟨c, [], true⟩

/-- `p922x_power_switch_store` of a number, or of text that is none; it returns with the lock when
the number is not 0, 5 or 10. -/
def powerSwitchStore (cfg : Cfg) (c : Chip) (power : Option Int) : Section :=
  match power with
  | none => ⟨c, [], true⟩
  | some n =>
    if n = 5 ∨ n = 10 ∨ n = 0 then
      let c := { c with forceSwitch := n ≠ 0 }
      if ¬ c.txAuthenComplete then ⟨c, [], true⟩
      else
        let r := fastChargeEnable cfg c (n = 10)
        ⟨r.1, r.2, true⟩
    else ⟨c, [], false⟩

/-! ## The chip interrupt -/

/-- The program points of `p922x_int_thread` once the chip is read. -/
inductive IntPc
  | idle
  | devFail (irq : Irq)
  | devSuccess (irq : Irq)
  | idFail (irq : Irq)
  | idSuccess (irq : Irq)
  deriving DecidableEq, Repr

/-- The bits are read, unless an access fails. -/
def intRead (c : Chip) (irq : Option Irq) : IntPc :=
  match irq with
  | some irq => if c.getStatusDone then .devFail irq else .idle
  | none => .idle

/-- A step of `p922x_int_thread`. -/
def intStep (c : Chip) : IntPc → Chip × IntPc
  | .idle => (c, .idle)
  | .devFail irq =>
    (if irq.deviceAuthFail then
      { c with
        devAuthRetry := (c.devAuthRetry + 1) % 256
        txAuthenComplete := if c.devAuthRetry < 3 then c.txAuthenComplete else true }
    else c, .devSuccess irq)
  | .devSuccess irq =>
    (if irq.deviceAuthSuccess then { c with txDevAuthenStatus := true, txAuthenComplete := true }
    else c, .idFail irq)
  | .idFail irq =>
    (if irq.idAuthFail then { c with txAuthenComplete := true } else c, .idSuccess irq)
  | .idSuccess irq =>
    (if irq.idAuthSuccess then { c with txIdAuthenStatus := true, devAuthRetry := 0 } else c, .idle)

/-! ## The delayed works -/

/-- What a work reads: power-good at its first and at its last look, the output voltage, the charge,
the two readings of the bus current, and the answers of the power supply. -/
structure Env where
  pg : Bool
  pgEnd : Bool
  vout : Int
  uisoc : Int
  ibus : Option Int
  ibus2 : Option Int
  psy : Psy

/-- The program points of `p922x_power_switch_work`. -/
inductive PowerSwitchPc
  | idle
  | check
  | range
  | again
  | volt
  | typed
  | soc
  | stepOn
  | stepSched
  | update
  | psyGet (type : ChrType)
  | chr (type : ChrType)
  | psySet (type : ChrType)
  | current
  | adapt
  deriving DecidableEq, Repr

/-- `p922x_init_adaptive_current_limit_work`. -/
def initAdaptiveCurrentLimitWork (c : Chip) : Chip :=
  { c with
    currentIndex := 0
    fillCount := 0
    ibus := List.replicate ibusBufferSize 0
    adaptivePending := true }

/-- A step of `p922x_power_switch_work`. -/
def powerSwitchStep (cfg : Cfg) (c : Chip) (env : Env) :
    PowerSwitchPc → Chip × PowerSwitchPc × List Effect
  | .idle => (c, .idle, [])
  | .check =>
    let c := { c with powerSwitchPending := false }
    if 2 < c.switchDetctCount then ({ c with switchDetctCount := 0 }, .idle, [])
    else (c, .range, [])
  | .range =>
    if c.switchVthLow ≤ env.vout ∧ env.vout ≤ c.switchVthHigh then
      ({ c with switchDetctCount := 0 }, .typed, [])
    else ({ c with switchDetctCount := c.switchDetctCount + 1 }, .again, [])
  | .again => ({ c with powerSwitchPending := true }, .volt, [])
  | .volt =>
    (c, .idle, [.voltage (if c.chrType = .wireless10w then cfg.voltage10w.voltageTarget
      else cfg.voltage5w.voltageTarget)])
  | .typed => (c, if c.chrType = .wireless10w then .soc else .update, [])
  | .soc =>
    if env.uisoc ≥ cfg.startSoc then
      ({ c with inputCurrent10w := i32 (cfg.adaptiveStartMa * 1000) }, .update, [.inputCurrent10w])
    else if c.stepLoadEn then
      ({ c with inputCurrent10w := i32 (cfg.stepStartMa * 1000) }, .stepOn, [.inputCurrent10w])
    else (c, .update, [])
  | .stepOn => ({ c with onStepCharging := true }, .stepSched, [])
  | .stepSched => ({ c with stepPending := true }, .update, [])
  | .update => (c, .psyGet c.chrType, [])
  | .psyGet type => (c, if ¬ env.psy.get ∨ c.psyType = type then .current else .chr type, [])
  | .chr type => ({ c with chrType := type }, .psySet type, [.chargeType type])
  | .psySet type =>
    ({ c with psyType := if env.psy.set then type else c.psyType }, .current, [])
  | .current =>
    let r := updateCurrentSetting cfg c
    (r.1, .adapt, r.2)
  | .adapt =>
    (if c.chrType = .wireless10w then initAdaptiveCurrentLimitWork c else c, .idle, [])

/-- The program points of `p922x_adaptive_current_limit_work`. -/
inductive AdaptivePc
  | idle
  | need
  | fill
  | skip
  | ibus
  | done (target : Int)
  | current
  | again
  deriving DecidableEq, Repr

/-- A target between the limits. -/
def clamp (cfg : Cfg) (target : Int) : Int :=
  let target := if target > cfg.maxCurrentLimit then cfg.maxCurrentLimit else target
  if target < cfg.minCurrentLimit then cfg.minCurrentLimit else target

/-- The buffer with a reading, in whose place a second one is taken where it is far from the
average. -/
def readings (c : Chip) (env : Env) (ibus : Int) : List Int :=
  match env.ibus2 with
  | some ua =>
    c.ibus.set c.currentIndex
      (if c.avg ≠ 0 ∧ filterThreshold < (ibus - c.avg).natAbs then ua.tdiv 1000 else ibus)
  | none => c.ibus.set c.currentIndex ibus

/-- The target from a reading of the bus current, -1 until the buffer is full. -/
def adaptiveTarget (cfg : Cfg) (c : Chip) (env : Env) (ibus : Int) : Chip × Int :=
  let next := (c.currentIndex + 1) % ibusBufferSize
  if c.fillCount < ibusBufferSize - 1 then
    ({ c with
      ibus := c.ibus.set c.currentIndex ibus
      currentIndex := next
      fillCount := c.fillCount + 1 }, -1)
  else
    let buf := readings c env ibus
    let avg := (i32 buf.sum).tdiv ibusBufferSize
    ({ c with ibus := buf, currentIndex := next, avg := avg },
      clamp cfg (i32 (avg.tdiv 100 * 100 + cfg.margin)))

/-- A step of `p922x_adaptive_current_limit_work`. -/
def adaptiveStep (cfg : Cfg) (c : Chip) (env : Env) : AdaptivePc → Chip × AdaptivePc × List Effect
  | .idle => (c, .idle, [])
  | .need => (c, if ¬ env.pg ∨ c.chrType ≠ .wireless10w then .idle else .fill, [])
  | .fill => (if c.fillCount = 0 then { c with avg := 0 } else c, .skip, [])
  | .skip =>
    if c.onAdaptive then (c, .ibus, [])
    else if c.onStepCharging then (c, .done (-1), [])
    else if env.uisoc ≥ cfg.startSoc then ({ c with onAdaptive := true }, .ibus, [])
    else (c, .done (-1), [])
  | .ibus =>
    match env.ibus with
    | some ua =>
      let r := adaptiveTarget cfg c env (ua.tdiv 1000)
      (r.1, .done r.2, [])
    | none => (c, .done (-1), [])
  | .done target =>
    if env.pgEnd then
      if target > 0 then
        ({ c with inputCurrent10w := i32 (target * 1000) }, .current, [.inputCurrent10w])
      else (c, .again, [])
    else
      ({ c with inputCurrent10w := i32 (cfg.adaptiveStartMa * 1000), onAdaptive := false }, .idle,
        [.inputCurrent10w])
  | .current =>
    let r := updateCurrentSetting cfg c
    (r.1, .again, r.2)
  | .again => ({ c with adaptivePending := true }, .idle, [])

/-- The program points of `p922x_step_charging_work`. -/
inductive StepPc
  | idle
  | ramp
  | write (target : Int)
  | current
  | again
  deriving DecidableEq, Repr

/-- A step of `p922x_step_charging_work`. -/
def stepStep (cfg : Cfg) (c : Chip) (env : Env) : StepPc → Chip × StepPc × List Effect
  | .idle => (c, .idle, [])
  | .ramp =>
    if c.inputCurrent10w < cfg.stepMaxUa then
      let target := i32 (c.inputCurrent10w + i32 (cfg.stepMa * 1000))
      (c, .write (if target > cfg.stepMaxUa then cfg.stepMaxUa else target), [])
    else ({ c with onStepCharging := false }, .idle, [])
  | .write target => ({ c with inputCurrent10w := target }, .current, [.inputCurrent10w])
  | .current =>
    let r := updateCurrentSetting cfg c
    (r.1, .again, r.2)
  | .again => (if env.pgEnd then { c with stepPending := true } else c, .idle, [])

end Wpc
