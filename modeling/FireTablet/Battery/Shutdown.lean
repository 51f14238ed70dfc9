import FireTablet.Lib.CInt
import FireTablet.Lib.Run
import Mathlib.Algebra.Ring.Int.Defs

/-!
# The shutdown controller of the battery (`mtk_battery.c`)

Low-voltage shutdown is compiled in. Conditions are set from elsewhere; a thread polls them with
`shutdown_event_handler`, which powers off when a condition has lasted long enough and says when to
look again. Times are those of `ktime_get_boottime`, in nanoseconds, voltages are in millivolts.
-/

namespace Battery.Shutdown

/-- The conditions of `set_shutdown_cond`. -/
inductive Cond
  | overheat
  | socZeroPercent
  | uisocOnePercent
  | lowBatVolt
  | dlptShutdown
  | lowBatteryTemp
  | other
  deriving DecidableEq

/-- `struct shutdown_controller` with its `struct shutdown_condition`, the times `pre_time` of four
conditions and the static variables of the handler. -/
structure Sdc where
  isOverheat : Bool
  isSocZeroPercent : Bool
  isUisocOnePercent : Bool
  isUnderShutdownVoltage : Bool
  isDlptShutdown : Bool
  preSoc : Int
  preUisoc : Int
  preVolt : Int
  preDlpt : Int
  avgvbat : Int
  lowbatteryshutdown : Bool
  batdata : Vector Int 30
  batidx : Fin 30
  shutdownCondFlag : Int
  uiZeroTimeFlag : Bool
  downToLowBat : Bool

/-- `VBAT2_DET_VOLTAGE1 / 10`. -/
def vbat2Det : Int := 3450

/-- `BAT_VOLTAGE_LOW_BOUND`. -/
def batVoltageLowBound : Int := 3400

/-- `SHUTDOWN_TIME`, in seconds. -/
def shutdownTime : Int := 40

/-- The seconds of a time, as in `ktime_to_timespec`. -/
def tvSec (t : Int) : Int := t / 1000000000

/-- Why the kernel is powered off: by the handler, or at once when a condition is set. -/
inductive Cause
  | socZero
  | uisocOne
  | lowBat
  | atOnce
  deriving DecidableEq

/-! ## Setting and clearing conditions -/

/-- What `set_shutdown_cond` reads. -/
structure SetReading where
  now : Int
  nowCurrent : Int
  nowIsKpoc : Bool

/-- `set_shutdown_cond`. -/
def setShutdownCond (c : Cond) (r : SetReading) (s : Sdc) : Option Cause × Sdc :=
  let nowIsCharging := decide (0 ≤ r.nowCurrent)
  if s.shutdownCondFlag = 1 then (none, s)
  else if s.shutdownCondFlag = 2 ∧ c ≠ .lowBatVolt then (none, s)
  else if s.shutdownCondFlag = 3 ∧ c ≠ .dlptShutdown then (none, s)
  else
    match c with
    | .overheat => (some .atOnce, { s with isOverheat := true })
    | .socZeroPercent =>
      if ¬ s.isSocZeroPercent ∧ ¬ r.nowIsKpoc ∧ ¬ nowIsCharging then
        (none, { s with isSocZeroPercent := true, preSoc := r.now })
      else (none, s)
    | .uisocOnePercent =>
      if ¬ s.isUisocOnePercent ∧ ¬ r.nowIsKpoc ∧ ¬ nowIsCharging then
        (none, { s with isUisocOnePercent := true, preUisoc := r.now })
      else (none, s)
    | .lowBatVolt =>
      if ¬ s.isUnderShutdownVoltage ∧ ¬ r.nowIsKpoc then
        (none, { s with
          isUnderShutdownVoltage := true
          batdata := Vector.replicate 30 vbat2Det
          batidx := 0 })
      else (none, s)
    | .dlptShutdown =>
      if ¬ s.isDlptShutdown then (none, { s with isDlptShutdown := true, preDlpt := r.now })
      else (none, s)
    | .lowBatteryTemp => (some .atOnce, s)
    | .other => (none, s)

/-- `disable_shutdown_cond`. -/
def disableShutdownCond (c : Cond) (s : Sdc) : Sdc :=
  if c = .lowBatVolt then { s with isUnderShutdownVoltage := false, lowbatteryshutdown := false }
  else s

/-! ## The handler -/

/-- What one run of the handler reads: the times of its two looks at the clock, the displayed and
the internal charge, voltage, current and temperature. -/
structure Reading where
  now : Int
  later : Int
  uiSoc : Int
  soc : Int
  vbat : Int
  nowCurrent : Int
  tmp : Int

/-- `next_waketime`. -/
def nextWaketime (polling : Int) : Int := if polling ≤ 0 then 0 else 10

/-- The rest of the handler goes on with the polling counter, or the handler has returned. -/
inductive Flow
  | ret (off : Option Cause) (secs : Int) (s : Sdc)
  | next (polling : Int) (s : Sdc)

def Flow.bind : Flow → (Int → Sdc → Flow) → Flow
  | .ret off secs s, _ => .ret off secs s
  | .next polling s, k => k polling s

/-- The part of the handler about the charge of 0 %. -/
def socZeroCheck (r : Reading) (polling : Int) (s : Sdc) : Flow :=
  if s.isSocZeroPercent then
    if r.uiSoc = 0 then
      if shutdownTime ≤ tvSec (r.now - s.preSoc) then
        .ret (some .socZero) (nextWaketime (polling + 1)) s
      else .next (polling + 1) s
    else if 0 < r.soc then .next polling { s with isSocZeroPercent := false }
    else .next (polling + 1) s
  else .next polling s

/-- The part about the last displayed percent. -/
def uisocOneCheck (r : Reading) (polling : Int) (s : Sdc) : Flow :=
  if s.isUisocOnePercent then
    if r.uiSoc = 0 then
      if shutdownTime ≤ tvSec (r.now - s.preUisoc) then
        .ret (some .uisocOne) (nextWaketime polling) s
      else .next (polling + 1) s
    else if 0 < r.nowCurrent ∧ 0 < r.soc then
      .ret none (nextWaketime 0) { s with isUisocOnePercent := false }
    else .next (polling + 1) s
  else .next polling s

/-- The part about the dynamic loading power, which only returns. -/
def dlptCheck (r : Reading) (polling : Int) (s : Sdc) : Flow :=
  if s.isDlptShutdown then
    if shutdownTime ≤ tvSec (r.now - s.preDlpt) then .ret none (nextWaketime (polling + 1)) s
    else .next (polling + 1) s
  else .next polling s

/-- The voltage is put into the window and the average taken, in 32 bits. -/
def sampleVbat (r : Reading) (s : Sdc) : Sdc :=
  let batdata := s.batdata.set s.batidx r.vbat
  { s with batdata := batdata, avgvbat := (CInt.i32 batdata.toList.sum).tdiv 30 }

/-- The average is below the bound: `down_to_low_bat` unless the battery is cold, and the start of
the time with a displayed charge of 0. -/
def noteLowAverage (r : Reading) (s : Sdc) : Sdc :=
  let down := s.downToLowBat || decide (5 ≤ r.tmp) || decide (s.avgvbat ≤ 3350)
  let s := { s with lowbatteryshutdown := true, downToLowBat := down }
  if r.uiSoc = 0 ∧ ¬ s.uiZeroTimeFlag then { s with preVolt := r.later, uiZeroTimeFlag := true }
  else s

/-- The part about the voltage. -/
def underVoltageCheck (r : Reading) (polling : Int) (s : Sdc) : Flow :=
  if s.isUnderShutdownVoltage then
    let s := sampleVbat r s
    if s.avgvbat < batVoltageLowBound then
      let s := noteLowAverage r s
      if r.uiSoc = 0 ∧ shutdownTime ≤ tvSec (r.now - s.preVolt) then
        .ret (some .lowBat) (nextWaketime (polling + 1)) s
      else .next (polling + 2) { s with batidx := s.batidx + 1 }
    else
      .next (polling + 2) { s with
        downToLowBat := false
        uiZeroTimeFlag := false
        preVolt := 0
        lowbatteryshutdown := false
        batidx := s.batidx + 1 }
  else .next polling s

/-- `shutdown_event_handler`: why it powers off, the next wake-up time and the controller. -/
def shutdownEventHandler (r : Reading) (s : Sdc) : Option Cause × Int × Sdc :=
  match (((socZeroCheck r 0 s).bind (uisocOneCheck r)).bind (dlptCheck r)).bind
      (underVoltageCheck r) with
  | .ret off secs s => (off, secs, s)
  | .next polling s => (none, nextWaketime polling, s)

/-! ## Histories -/

/-- A condition is pending. -/
def Sdc.Pending (s : Sdc) : Prop :=
  s.isSocZeroPercent = true ∨ s.isUisocOnePercent = true ∨ s.isUnderShutdownVoltage = true ∨
    s.isDlptShutdown = true

instance (s : Sdc) : Decidable s.Pending := inferInstanceAs (Decidable (_ ∨ _ ∨ _ ∨ _))

/-- The average of the sample window. -/
def Sdc.windowAvg (s : Sdc) : Int := s.batdata.toList.sum.tdiv 30

/-- What happens to the controller. -/
inductive Ev
  | run (r : Reading)
  | set (c : Cond) (r : SetReading)
  | disable (c : Cond) (now : Int)
  | setFlag (v : Int) (now : Int)

def Ev.time : Ev → Int
  | .run r => r.now
  | .set _ r => r.now
  | .disable _ now => now
  | .setFlag _ now => now

/-- What is noted of an event: its time, whether the charge conditions were set when it began, why
it powered off; and of a run of the handler (`run`) the controller it began with, the one it left,
the displayed charge and the wake-up time. -/
structure Seen where
  time : Int
  socSet : Bool
  uisocSet : Bool
  off : Option Cause
  run : Option (Reading × Sdc × Sdc × Int)

/-- The controller with the time of the last event; powered off, nothing happens any more. -/
structure Ctl where
  sdc : Sdc
  clock : Int
  off : Bool

/-- One event, not before the last one. -/
def step (x : Ctl) (e : Ev) : Option (Seen × Ctl) :=
  if x.off ∨ e.time < x.clock then none
  else
    let s := x.sdc
    let note := fun off run => Seen.mk e.time s.isSocZeroPercent s.isUisocOnePercent off run
    match e with
    | .run r =>
      if r.later < r.now then none
      else
        let (off, secs, s') := shutdownEventHandler r s
        some (note off (some (r, s, s', secs)), ⟨s', r.later, off.isSome⟩)
    | .set c r =>
      let (off, s') := setShutdownCond c r s
      some (note off none, ⟨s', r.now, off.isSome⟩)
    | .disable c now => some (note none none, ⟨disableShutdownCond c s, now, false⟩)
    | .setFlag v now => some (note none none, ⟨{ s with shutdownCondFlag := v }, now, false⟩)

/-- The controller after the allocation. -/
def probe : Ctl where
  sdc :=
    { isOverheat := false
      isSocZeroPercent := false
      isUisocOnePercent := false
      isUnderShutdownVoltage := false
      isDlptShutdown := false
      preSoc := 0
      preUisoc := 0
      preVolt := 0
      preDlpt := 0
      avgvbat := 0
      lowbatteryshutdown := false
      batdata := Vector.replicate 30 0
      batidx := 0
      shutdownCondFlag := 0
      uiZeroTimeFlag := false
      downToLowBat := false }
  clock := 0
  off := false

/-! ## What the controller is for -/

/-- The run saw a battery that may be switched off: the voltage watch was armed, the average of the
window is below the bound and the displayed charge is 0. -/
def Seen.LowRun (q : Seen) : Prop :=
  match q.run with
  | none => True
  | some (r, s, s', _) =>
    s.isUnderShutdownVoltage = true ∧ s'.windowAvg < batVoltageLowBound ∧ r.uiSoc = 0

/-- A run with a displayed charge of 0. -/
def Seen.ChargeZero (q : Seen) : Prop :=
  match q.run with
  | none => False
  | some (r, _) => r.uiSoc = 0

/-- A run that leaves a condition pending says when to look again. -/
def Seen.Wakes (q : Seen) : Prop :=
  match q.run with
  | none => True
  | some (_, _, s', secs) => q.off = none → s'.Pending → secs ≠ 0

/-- The event is among those of the last 40 seconds before `now`. -/
def Seen.Recent (q : Seen) (now : Int) : Prop := now - shutdownTime * 1000000000 < q.time

/-- What an event `e` after the events `pre` may do. -/
structure ShutdownKept (pre : List Seen) (e : Seen) : Prop where
  low_bat : e.off = some .lowBat → ∀ q ∈ pre ++ [e], q.Recent e.time → q.LowRun
  soc_zero : e.off = some .socZero → ∀ q ∈ pre ++ [e], q.Recent e.time → q.socSet = true
  uisoc_one : e.off = some .uisocOne → ∀ q ∈ pre ++ [e], q.Recent e.time → q.uisocSet = true
  charge_zero : e.off = some .lowBat ∨ e.off = some .socZero ∨ e.off = some .uisocOne →
    e.ChargeZero
  wakes : e.Wakes

instance : (q : Seen) → Decidable q.LowRun
  | ⟨_, _, _, _, none⟩ => isTrue trivial
  | ⟨_, _, _, _, some _⟩ => inferInstanceAs (Decidable (_ ∧ _ ∧ _))

instance : (q : Seen) → Decidable q.ChargeZero
  | ⟨_, _, _, _, none⟩ => isFalse id
  | ⟨_, _, _, _, some _⟩ => inferInstanceAs (Decidable (_ = _))

instance : (q : Seen) → Decidable q.Wakes
  | ⟨_, _, _, _, none⟩ => isTrue trivial
  | ⟨_, _, _, _, some _⟩ => inferInstanceAs (Decidable (_ → _ → _))

instance (q : Seen) (now : Int) : Decidable (q.Recent now) := inferInstanceAs (Decidable (_ < _))

instance (pre : List Seen) (e : Seen) : Decidable (ShutdownKept pre e) :=
  decidable_of_iff
    ((e.off = some .lowBat → ∀ q ∈ pre ++ [e], q.Recent e.time → q.LowRun) ∧
      (e.off = some .socZero → ∀ q ∈ pre ++ [e], q.Recent e.time → q.socSet = true) ∧
      (e.off = some .uisocOne → ∀ q ∈ pre ++ [e], q.Recent e.time → q.uisocSet = true) ∧
      (e.off = some .lowBat ∨ e.off = some .socZero ∨ e.off = some .uisocOne → e.ChargeZero) ∧
      e.Wakes)
    ⟨fun h => ⟨h.1, h.2.1, h.2.2.1, h.2.2.2.1, h.2.2.2.2⟩,
      fun h => ⟨h.low_bat, h.soc_zero, h.uisoc_one, h.charge_zero, h.wakes⟩⟩

/-- With the time of a displayed charge of 0 running (`ui_zero_time_flag`), a run finds the
displayed charge at 0, or takes the average to the bound or above it (and does not return before,
because of the dynamic loading power). -/
def keepsTime (r : Reading) (s : Sdc) : Prop :=
  s.uiZeroTimeFlag = true → r.uiSoc = 0 ∨
    (batVoltageLowBound ≤ (s.batdata.set s.batidx r.vbat).toList.sum.tdiv 30 ∧
      ¬ (s.isDlptShutdown = true ∧ shutdownTime ≤ tvSec (r.now - s.preDlpt)))

/-- The condition on an event under which the controller does what it is for. -/
def ShutdownOk (x : Ctl) : Ev → Prop
  | .run r =>
    keepsTime r x.sdc ∧
    CInt.IsI32 (x.sdc.batdata.set x.sdc.batidx r.vbat).toList.sum ∧
    (x.sdc.isUisocOnePercent = true → r.uiSoc ≠ 0 → 0 < r.nowCurrent → 0 < r.soc →
      x.sdc.isDlptShutdown = false ∧ x.sdc.isUnderShutdownVoltage = false)
  | .disable c _ => c = .lowBatVolt → x.sdc.uiZeroTimeFlag = false
  | _ => True

instance (r : Reading) (s : Sdc) : Decidable (keepsTime r s) :=
  inferInstanceAs (Decidable (_ → _))

instance (x : Ctl) (e : Ev) : Decidable (ShutdownOk x e) :=
  match e with
  | .run _ => inferInstanceAs (Decidable (_ ∧ _))
  | .set _ _ => isTrue trivial
  | .disable _ _ => inferInstanceAs (Decidable (_ → _))
  | .setFlag _ _ => isTrue trivial

end Battery.Shutdown
