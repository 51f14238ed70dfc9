import FireTablet.Wpc.Charger

/-!
# A session of the wireless charger

The calls under `irq_lock` are single events. The chip interrupt's thread, the init work and the
delayed works run without the lock, and each of their steps is an event of its own. Beside the state
it is remembered what has happened: whether an attach or a detach has completed, whether the last of
them was a detach, and which authentications the chip has reported since the last attach.
-/

namespace Wpc

/-- The program points of the init work `p922x_determine_init_status`, up to the point where the
interrupts are on; `off` is its return where there is no charger to charge from. -/
inductive InitPc
  | queued
  | setOnline
  | ready
  | status
  | flags (irq : Irq)
  | attached
  | attach
  | vout
  | flow (en : Bool)
  | clear
  | psyGet (type : ChrType)
  | chr (type : ChrType)
  | psySet (type : ChrType)
  | current
  | enable
  | finished
  | off
  deriving DecidableEq, Repr

/-- What the init work reads: charging while powered off, power-good, whether the charger is up, the
bits of the chip's interrupt (none where it is not attached or an access fails), whether the output
voltage can be set, and the answers of the power supply. -/
structure InitEnv where
  kpoc : Bool
  pg : Bool
  ready : Bool
  irq : Option Irq
  voutOk : Bool
  psy : Psy

/-- The charger with all its threads, and what has happened. -/
structure Session where
  chip : Chip
  lockLeft : Bool
  int : IntPc
  init : InitPc
  powerSwitch : PowerSwitchPc
  adaptive : AdaptivePc
  stepCharging : StepPc
  settled : Bool
  detached : Bool
  idOk : Bool
  devOk : Bool
  deriving DecidableEq, Repr

/-- The session after `p922x_probe`. -/
def Session.probe (inputCurrent10w : Int) : Session :=
  ⟨Wpc.probe inputCurrent10w, false, .idle, .queued, .idle, .idle, .idle, false, false, false,
    false⟩

/-- Where the init work goes on after an update of the charge type. -/
def InitPc.updated (type : ChrType) : InitPc := if type = .wireless then .current else .enable

/-- The bits of `p922x_get_attach_status`. -/
def attachFlags (c : Chip) (irq : Irq) : Chip :=
  { c with
    txAuthenComplete := c.txAuthenComplete || irq.idAuthFail || irq.deviceAuthSuccess
    txIdAuthenStatus := c.txIdAuthenStatus || irq.idAuthSuccess
    txDevAuthenStatus := c.txDevAuthenStatus || irq.deviceAuthSuccess }

/-- A step of `p922x_determine_init_status`, with `p922x_get_attach_status` and the
`p922x_attached_vbus` that it calls without the lock. -/
def initStep (cfg : Cfg) (s : Session) (env : InitEnv) : Session × List Effect :=
  match s.init with
  | .queued => ({ s with init := if env.kpoc && !env.pg then .off else .setOnline }, [])
  | .setOnline => ({ s with chip := { s.chip with online := env.pg }, init := .ready }, [])
  | .ready => ({ s with init := if env.ready then .status else .queued }, [])
  | .status =>
    match env.irq with
    | some irq =>
      ({ s with init := .flags irq, idOk := irq.idAuthSuccess, devOk := irq.deviceAuthSuccess }, [])
    | none => ({ s with chip := { s.chip with online := false }, init := .enable }, [])
  | .flags irq => ({ s with chip := attachFlags s.chip irq, init := .attached }, [])
  | .attached => ({ s with chip := { s.chip with online := true }, init := .attach }, [])
  | .attach => ({ s with chip := { s.chip with online := true }, init := .vout }, [])
  | .vout => ({ s with init := .flow (!cfg.useBuck || env.voutOk) }, [])
  | .flow en =>
    if s.chip.isEnabled = en then ({ s with init := .enable, settled := true }, [])
    else ({ s with
      chip := { s.chip with isEnabled := en }
      init := if en then .psyGet .wireless else .clear
      settled := en }, [])
  | .clear =>
    ({ s with
      chip := { clearFastChargeSwitch cfg s.chip with online := false }
      init := .psyGet .unknown
      settled := true }, [])
  | .psyGet type =>
    ({ s with init := if ¬ env.psy.get ∨ s.chip.psyType = type then .updated type else .chr type },
      [])
  | .chr type =>
    ({ s with chip := { s.chip with chrType := type }, init := .psySet type }, [.chargeType type])
  | .psySet type =>
    ({ s with
      chip := { s.chip with psyType := if env.psy.set then type else s.chip.psyType }
      init := .updated type }, [])
  | .current =>
    let r := updateCurrentSetting cfg s.chip
    ({ s with chip := r.1, init := .enable }, r.2)
  | .enable => ({ s with chip := { s.chip with getStatusDone := true }, init := .finished }, [])
  | .finished => (s, [])
  | .off => (s, [])

/-- What happens. -/
inductive Event
  | pg (high : Bool) (voutOk : Bool) (psy : Psy)
  | doAlgorithm (typeRead : Bool) (psy : Psy)
  | powerSwitchStore (power : Option Int)
  | forceEnableCharge (en : Bool) (psy : Psy)
  | intRead (irq : Option Irq)
  | int
  | init (env : InitEnv)
  | powerSwitch (env : Env)
  | adaptive (env : Env)
  | stepCharging (env : Env)

/-- A call under `irq_lock`. -/
def Session.locked (s : Session) (r : Section) : Session × List Effect :=
  ({ s with chip := r.chip, lockLeft := !r.released }, r.effects)

/-- `p922x_pg_thread`, once its interrupt is on. -/
def pgThread (cfg : Cfg) (s : Session) (high voutOk : Bool) (psy : Psy) : Session × List Effect :=
  if high then
    let r := attachedVbus cfg s.chip voutOk psy
    ({ s with chip := r.1, settled := true, detached := false, idOk := false, devOk := false }, r.2)
  else
    let r := detachedVbus cfg s.chip psy
    ({ s with chip := r.1, settled := true, detached := true }, r.2)

/-- One event; a call under the lock does nothing while the lock is left held, a work starts where
it is queued, and the others go on where they are. -/
def sessionStep (cfg : Cfg) (s : Session) : Event → Option (List Effect × Session)
  | .pg high voutOk psy =>
    if s.lockLeft ∨ s.init ≠ .finished then some ([], s)
    else
      let r := pgThread cfg s high voutOk psy
      some (r.2, r.1)
  | .doAlgorithm typeRead psy =>
    if s.lockLeft then some ([], s)
    else
      let r := s.locked (doAlgorithm cfg s.chip typeRead psy)
      some (r.2, r.1)
  | .powerSwitchStore power =>
    if s.lockLeft then some ([], s)
    else
      let r := s.locked (powerSwitchStore cfg s.chip power)
      some (r.2, r.1)
  | .forceEnableCharge en psy =>
    if s.lockLeft then some ([], s)
    else
      let r := enableChargeFlow cfg s.chip en psy
      some (r.2, { s with chip := r.1 })
  | .intRead irq =>
    match s.int, intRead s.chip irq with
    | .idle, .devFail irq =>
      some ([], { s with
        int := .devFail irq
        idOk := s.idOk || irq.idAuthSuccess
        devOk := s.devOk || irq.deviceAuthSuccess })
    | _, _ => some ([], s)
  | .int =>
    let r := intStep s.chip s.int
    some ([], { s with chip := r.1, int := r.2 })
  | .init env =>
    let r := initStep cfg s env
    some (r.2, r.1)
  | .powerSwitch env =>
    match s.powerSwitch with
    | .idle =>
      if s.chip.powerSwitchPending then
        some ([], { s with
          chip := { s.chip with powerSwitchPending := false }
          powerSwitch := .check })
      else some ([], s)
    | p =>
      let r := powerSwitchStep cfg s.chip env p
      some (r.2.2, { s with chip := r.1, powerSwitch := r.2.1 })
  | .adaptive env =>
    match s.adaptive with
    | .idle =>
      if s.chip.adaptivePending then
        some ([], { s with chip := { s.chip with adaptivePending := false }, adaptive := .need })
      else some ([], s)
    | p =>
      let r := adaptiveStep cfg s.chip env p
      some (r.2.2, { s with chip := r.1, adaptive := r.2.1 })
  | .stepCharging env =>
    match s.stepCharging with
    | .idle =>
      if s.chip.stepPending then
        some ([], { s with chip := { s.chip with stepPending := false }, stepCharging := .ramp })
      else some ([], s)
    | p =>
      let r := stepStep cfg s.chip env p
      some (r.2.2, { s with chip := r.1, stepCharging := r.2.1 })

end Wpc
