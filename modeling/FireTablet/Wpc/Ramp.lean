import FireTablet.Wpc.Charger

/-!
# The controllers of the input current

The works of the wireless charger one after the other: each runs from its start to its end, and only
where it is queued. Beside the charger it is remembered whether the adaptive controller has been on
since the last attach.
-/

namespace Wpc

/-- A thread's run of at most a number of steps, with nothing between them. -/
def finish {P : Type} (step : Chip → P → Chip × P × List Effect) : Nat → Chip × P → Chip × P
  | 0, q => q
  | n + 1, q => finish step n ((step q.1 q.2).1, (step q.1 q.2).2.1)

/-- `p922x_power_switch_work`, where it is queued. -/
def powerSwitchWork (cfg : Cfg) (c : Chip) (env : Env) : Chip :=
  if c.powerSwitchPending then
    (finish (fun c => powerSwitchStep cfg c env) 12
      ({ c with powerSwitchPending := false }, .check)).1
  else c

/-- `p922x_adaptive_current_limit_work`, where it is queued. -/
def adaptiveCurrentLimitWork (cfg : Cfg) (c : Chip) (env : Env) : Chip :=
  if c.adaptivePending then
    (finish (fun c => adaptiveStep cfg c env) 7 ({ c with adaptivePending := false }, .need)).1
  else c

/-- `p922x_step_charging_work`, where it is queued. -/
def stepChargingWork (cfg : Cfg) (c : Chip) (env : Env) : Chip :=
  if c.stepPending then
    (finish (fun c => stepStep cfg c env) 4 ({ c with stepPending := false }, .ramp)).1
  else c

/-- `p922x_int_thread`. -/
def intThread (c : Chip) (irq : Option Irq) : Chip :=
  (finish (fun c p => ((intStep c p).1, (intStep c p).2, [])) 4 (c, intRead c irq)).1

/-- What happens. -/
inductive RampEvent
  | statusDone
  | attach (voutOk : Bool) (psy : Psy)
  | detach (psy : Psy)
  | interrupt (irq : Option Irq)
  | fastCharge (en : Bool)
  | stepLoadEn (en : Bool)
  | powerSwitch (env : Env)
  | adaptive (env : Env)
  | stepCharging (env : Env)

/-- The charger, and whether the adaptive controller has been on since the last attach. -/
structure Ramp where
  chip : Chip
  adapted : Bool
  deriving DecidableEq, Repr

/-- A run of the adaptive work finds the controller on or switches it on. -/
def adapts (cfg : Cfg) (c : Chip) (env : Env) : Bool :=
  c.adaptivePending && env.pg && decide (c.chrType = .wireless10w) &&
    (c.onAdaptive || !c.onStepCharging && decide (env.uisoc ≥ cfg.startSoc))

/-- One event, and whether it ran the step work. -/
def rampStep (cfg : Cfg) (s : Ramp) : RampEvent → Option (Bool × Ramp)
  | .statusDone => some (false, { s with chip := { s.chip with getStatusDone := true } })
  | .attach voutOk psy => some (false, ⟨(attachedVbus cfg s.chip voutOk psy).1, false⟩)
  | .detach psy => some (false, { s with chip := (detachedVbus cfg s.chip psy).1 })
  | .interrupt irq => some (false, { s with chip := intThread s.chip irq })
  | .fastCharge en => some (false, { s with chip := (fastChargeEnable cfg s.chip en).1 })
  | .stepLoadEn en => some (false, { s with chip := { s.chip with stepLoadEn := en } })
  | .powerSwitch env => some (false, { s with chip := powerSwitchWork cfg s.chip env })
  | .adaptive env =>
    some (false, ⟨adaptiveCurrentLimitWork cfg s.chip env, s.adapted || adapts cfg s.chip env⟩)
  | .stepCharging env =>
    some (s.chip.stepPending, { s with chip := stepChargingWork cfg s.chip env })

end Wpc
