import FireTablet.Kernel.Kstrtox
import FireTablet.Lib.Locks
import FireTablet.Lib.Run
import FireTablet.Wpc.Ramp
import FireTablet.Wpc.Session

/-!
# The locks of the wireless charger (`idtp922x_wireless_power.c`)

The files, the operations of the charger, the threads of the interrupts, the works and the shutdown,
with the locks that they take and release. What they leave of the charger is that of its model. Any
access to the chip or to a power supply may fail: a call is given the answers to its accesses, in
their order.
-/

namespace Wpc.Locking

open Locks

/-- The mutexes of `struct p922x_dev`. -/
inductive Lock
  | sysLock
  | irqLock
  | fodLock
  | lock
  deriving DecidableEq

/-- The charger, and how many answers were taken. -/
structure World where
  chip : Chip
  time : Nat

abbrev LockM := M World Lock

/-- Which of the coefficients `bpp_5w_fod` and `bpp_10w_fod` the device tree gives in full, and
whether it is booted for charging while powered off. -/
structure Board where
  bpp5wFod : Bool
  bpp10wFod : Bool
  kpoc : Bool

section

variable (ans : Nat → Int)

/-- The answer to the next access. -/
def access : LockM Int := act fun w => (ans w.time, { w with time := w.time + 1 })

/-- A number of accesses on whose answers nothing depends. -/
def accesses : Nat → LockM Unit
  | 0 => return ()
  | n + 1 => do
    let _ ← access ans
    accesses n

def getChip : LockM Chip := act fun w => (w.chip, w)

def setChip (c : Chip) : LockM Unit := act fun w => ((), { w with chip := c })

/-! ## Files under `sys_lock` -/

def versionShow : LockM Unit := locked .sysLock (accesses ans 2)

def idShow : LockM Unit := locked .sysLock (accesses ans 1)

def powerRxMwShow : LockM Unit := locked .sysLock (accesses ans 1)

def voutAdcShow : LockM Unit := locked .sysLock (accesses ans 1)

def vrectAdcShow : LockM Unit := locked .sysLock (accesses ans 1)

def voutSetShow : LockM Unit := locked .sysLock (accesses ans 1)

def ioutShow : LockM Unit := locked .sysLock (accesses ans 1)

/-- `p922x_regs_dump_show`, for the registers up to `REG_DUMP_MAX`. -/
def regsDumpShow : LockM Unit := locked .sysLock (accesses ans 124)

def ntcTempShow : LockM Unit := locked .sysLock (accesses ans 1)

/-- `p922x_vout_set_store` -/
def voutSetStore (buf : List UInt8) : LockM Unit :=
  locked .sysLock (match Kstrtox.kstrtoint buf 10 with
    | .error _ => return ()
    | .ok vout => if 3500 ≤ vout ∧ vout ≤ 12500 then accesses ans 1 else return ())

/-- `p922x_power_switch_show` -/
def powerSwitchShow : LockM Int := do
  lock .sysLock
  let ret ← access ans
  if ret < 0 then
    unlock .sysLock
    return ret
  unlock .sysLock
  return 0

/-! ## Coefficients under `fod_lock` -/

/-- The loop of `p922x_fod_regs_store` over the coefficients, with its way out. -/
def fodLoop (count : Int) : Nat → LockM Int
  | 0 => do
    unlock .fodLock
    return count
  | n + 1 => do
    let ret ← access ans
    if ret ≠ 0 then
      unlock .fodLock
      return ret
    fodLoop count n

/-- `p922x_fod_regs_store`, with the type of the coefficients if all numbers are there. -/
def fodRegsStore (type : Option Nat) (count : Int) : LockM Int := do
  if type ≠ some 1 ∧ type ≠ some 2 then
    return -22
  lock .fodLock
  fodLoop ans count 8

/-- `p922x_simulate_fod` -/
def simulateFod : LockM Unit := do
  let c ← getChip
  if ¬ c.online then
    return ()
  locked .fodLock (accesses ans 16)

/-- `p922x_psy_set_property`, of the input current limit or of another property. -/
def psySetProperty (limit : Bool) (val : Int) : LockM Int := do
  if ¬ limit then
    return -22
  let pg ← access ans
  if pg ≠ 0 ∧ val = 0 then
    simulateFod ans
  return 0

variable (board : Board)

/-- Whether there are coefficients for a charge type. -/
def Board.fodData : ChrType → Bool
  | .wireless10w => board.bpp10wFod
  | .wireless5w | .wireless => board.bpp5wFod
  | .unknown => false

/-- `p922x_write_fod`; the transfers are followed by a comparison on which nothing depends. -/
def writeFod (type : ChrType) : LockM Unit := do
  if ¬ board.fodData type then
    return ()
  lock .fodLock
  let ret ← access ans
  if ret ≠ 0 then
    unlock .fodLock
    return ()
  let ret ← access ans
  if ret ≠ 0 then
    unlock .fodLock
    return ()
  unlock .fodLock

/-! ## Files under `lock` -/

/-- `chip_prog_fw_show` -/
def chipProgFwShow : LockM Unit := do
  lock .lock
  let checked ← access ans
  if checked = 0 then
    unlock .lock
    return ()
  let programmed ← access ans
  if programmed = 0 then
    unlock .lock
    return ()
  accesses ans 2
  unlock .lock

/-- `sram_prog_fw_show` -/
def sramProgFwShow : LockM Unit := do
  lock .lock
  let checked ← access ans
  if checked = 0 then
    unlock .lock
    return ()
  let programmed ← access ans
  if programmed = 0 then
    unlock .lock
    return ()
  accesses ans 2
  unlock .lock

/-- `p922x_step_load_en_store` -/
def stepLoadEnStore (buf : List UInt8) : LockM Unit :=
  locked .lock (do
    let c ← getChip
    match Kstrtox.kstrtoint buf 10 with
    | .error _ => return ()
    | .ok val =>
      if val = 0 then setChip { c with stepLoadEn := false }
      else if val = 1 then setChip { c with stepLoadEn := true }
      else return ())

/-! ## Attaching and detaching -/

variable (cfg : Cfg)

/-- The answers of the power supply to the accesses of its type. -/
def psy : LockM Psy := do
  let get ← access ans
  let set ← access ans
  return ⟨0 ≤ get, 0 ≤ set⟩

/-- `p922x_enable_charge_flow` -/
def enableChargeFlow (en : Bool) : LockM Unit := do
  let c ← getChip
  let psy ← psy ans
  setChip (Wpc.enableChargeFlow cfg c en psy).1
  if c.isEnabled ≠ en ∧ en then
    writeFod ans board .wireless

/-- `p922x_attached_vbus` -/
def attachedVbus : LockM Unit := do
  let c ← getChip
  setChip { c with online := true }
  let ret ← access ans
  if cfg.useBuck ∧ ret ≠ 0 then
    enableChargeFlow ans board cfg false
  else
    enableChargeFlow ans board cfg true

/-- `p922x_shutdown` -/
def shutdown : LockM Unit := do
  let pg ← access ans
  if board.kpoc ∧ pg = 0 then
    return ()
  lock .irqLock
  let c ← getChip
  if ¬ c.online then
    unlock .irqLock
    return ()
  setChip { c with forceSwitch := true, powerSwitchPending := false }
  if c.chrType = .wireless10w then
    writeFod ans board .wireless5w
  accesses ans 2
  unlock .irqLock

/-- `p922x_pg_thread`, with whether it returns: `kernel_power_off` in `p922x_detached_vbus` shuts
the devices down, this one among them, and does not. -/
def pgThread : LockM Bool := do
  lock .irqLock
  let vbusEn ← access ans
  if vbusEn ≠ 0 then
    attachedVbus ans board cfg
    unlock .irqLock
    return true
  enableChargeFlow ans board cfg false
  if board.kpoc then
    shutdown ans board
    return false
  unlock .irqLock
  return true

/-- `p922x_determine_init_status`, with whether the charger is there and the bits that
`p922x_get_attach_status` finds, if no access fails. -/
def determineInitStatus (ready : Bool) (irq : Option Irq) : LockM Unit := do
  let pg ← access ans
  if board.kpoc ∧ pg = 0 then
    return ()
  let c ← getChip
  setChip { c with online := pg ≠ 0 }
  if ¬ ready then
    return ()
  let c ← getChip
  match irq with
  | none => setChip { c with online := false, getStatusDone := true }
  | some irq => do
    setChip (attachFlags c irq)
    attachedVbus ans board cfg
    let c ← getChip
    setChip { c with getStatusDone := true }

/-! ## Switching the power -/

/-- `p922x_power_switch_store` -/
def powerSwitchStore (buf : List UInt8) (count : Int) : LockM Int := do
  lock .irqLock
  match Kstrtox.kstrtoint buf 10 with
  | .error _ => do
    unlock .irqLock
    return count
  | .ok power => do
    let c ← getChip
    if power ≠ 5 ∧ power ≠ 10 ∧ power ≠ 0 then
      return -22
    setChip (Wpc.powerSwitchStore cfg c (some power)).chip
    unlock .irqLock
    return count

/-- `p922x_do_algorithm` -/
def doAlgorithm : LockM Int := do
  lock .irqLock
  let c ← getChip
  if ¬ c.online ∨ c.forceSwitch ∨ ¬ c.txAuthenComplete then
    unlock .irqLock
    return 0
  let ret ← access ans
  if ret < 0 then
    return ret
  let psy ← psy ans
  setChip (Wpc.doAlgorithm cfg c true psy).chip
  unlock .irqLock
  return 0

/-- `p922x_force_enable_charge` -/
def forceEnableCharge (en : Bool) : LockM Unit :=
  locked .irqLock (enableChargeFlow ans board cfg en)

/-- `p922x_power_switch_work`, where it is queued; the coefficients follow when the voltage is in
its range. -/
def powerSwitchWork (env : Env) : LockM Unit := do
  let c ← getChip
  setChip (Wpc.powerSwitchWork cfg c env)
  if c.powerSwitchPending ∧ c.switchDetctCount ≤ 2 ∧ c.switchVthLow ≤ env.vout ∧
      env.vout ≤ c.switchVthHigh then
    writeFod ans board (Wpc.powerSwitchWork cfg c env).chrType

/-! ## The entry points -/

/-- An entry point with its arguments. -/
inductive Entry
  | versionShow
  | idShow
  | powerRxMwShow
  | voutAdcShow
  | vrectAdcShow
  | voutSetShow
  | voutSetStore (buf : List UInt8)
  | ioutShow
  | powerSwitchShow
  | powerSwitchStore (buf : List UInt8) (count : Nat)
  | regsDumpShow
  | fodRegsStore (type : Option Nat) (count : Nat)
  | chipProgFwShow
  | sramProgFwShow
  | ntcTempShow
  | stepLoadEnStore (buf : List UInt8)
  | psySetProperty (limit : Bool) (val : Int)
  | pgThread
  | intThread (irq : Option Irq)
  | determineInitStatus (ready : Bool) (irq : Option Irq)
  | powerSwitchWork (env : Env)
  | adaptiveCurrentLimitWork (env : Env)
  | stepChargingWork (env : Env)
  | doAlgorithm
  | forceEnableCharge (en : Bool)
  | shutdown

/-- A program that returns. -/
def returns {α : Type} (m : LockM α) : LockM Bool := do
  let _ ← m
  return true

/-- An entry point, with whether it returns. -/
def Entry.run : Entry → LockM Bool
  | .versionShow => returns (Locking.versionShow ans)
  | .idShow => returns (Locking.idShow ans)
  | .powerRxMwShow => returns (Locking.powerRxMwShow ans)
  | .voutAdcShow => returns (Locking.voutAdcShow ans)
  | .vrectAdcShow => returns (Locking.vrectAdcShow ans)
  | .voutSetShow => returns (Locking.voutSetShow ans)
  | .voutSetStore buf => returns (Locking.voutSetStore ans buf)
  | .ioutShow => returns (Locking.ioutShow ans)
  | .powerSwitchShow => returns (Locking.powerSwitchShow ans)
  | .powerSwitchStore buf count => returns (Locking.powerSwitchStore cfg buf count)
  | .regsDumpShow => returns (Locking.regsDumpShow ans)
  | .fodRegsStore type count => returns (Locking.fodRegsStore ans type count)
  | .chipProgFwShow => returns (Locking.chipProgFwShow ans)
  | .sramProgFwShow => returns (Locking.sramProgFwShow ans)
  | .ntcTempShow => returns (Locking.ntcTempShow ans)
  | .stepLoadEnStore buf => returns (Locking.stepLoadEnStore buf)
  | .psySetProperty limit val => returns (Locking.psySetProperty ans limit val)
  | .pgThread => Locking.pgThread ans board cfg
  | .intThread irq => returns (do
      let c ← getChip
      setChip (Wpc.intThread c irq))
  | .determineInitStatus ready irq => returns (Locking.determineInitStatus ans board cfg ready irq)
  | .powerSwitchWork env => returns (Locking.powerSwitchWork ans board cfg env)
  | .adaptiveCurrentLimitWork env => returns (do
      let c ← getChip
      setChip (Wpc.adaptiveCurrentLimitWork cfg c env))
  | .stepChargingWork env => returns (do
      let c ← getChip
      setChip (Wpc.stepChargingWork cfg c env))
  | .doAlgorithm => returns (Locking.doAlgorithm ans cfg)
  | .forceEnableCharge en => returns (Locking.forceEnableCharge ans board cfg en)
  | .shutdown => returns (Locking.shutdown ans board)

end

/-! ## Sequences of calls -/

/-- A call, with the answers to its accesses. -/
structure Call where
  entry : Entry
  ans : Nat → Int

/-- The charger, the locks that are held, and whether the device is still on. -/
structure State where
  chip : Chip
  held : Finset Lock
  on : Bool

section

variable (board : Board) (cfg : Cfg)

def Call.done (s : State) (c : Call) : Done World Lock Bool :=
  c.entry.run c.ans board cfg ⟨s.chip, 0⟩

/-- One call; it never comes to its end if it takes a lock that is held. -/
def step (s : State) (c : Call) : Option (Bool × State) :=
  if ¬ s.on then none
  else
    match Locks.run s.held (c.done board cfg s).ops with
    | none => none
    | some held =>
      some ((c.done board cfg s).val,
        ⟨(c.done board cfg s).state.chip, held, (c.done board cfg s).val⟩)

end

end Wpc.Locking
