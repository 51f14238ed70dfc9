import FireTablet.Lib.Run
import Mathlib.Data.Finset.Card
import Mathlib.Data.Fintype.Basic

/-!
# The hang detector (`aee_hangdet.c`)

A kicker thread for each CPU sets a bit of `kick_bit`; the kick after which every checked CPU has
its bit ends the round. The masks, 16 bits at most for the CPUs there are, are sets of CPUs.

The steps are the sections under the detector's lock and the updates of the plug mask. A section
that takes the lock while it is held, or waits for one who waits for it, gives `none`. A clock that
a step reads more than once is a function of how often it was read. A CPU runs threads from the
time it is brought up until it is dead; its callbacks run between.
-/

namespace Aee.Hangdet

/-- Where a CPU is between off and online: `upFlag` and `downFlag` are between the two updates of
its callbacks. -/
inductive Phase
  | offline
  | up
  | upFlag
  | online
  | down
  | downFlag
  deriving DecidableEq

/-- The CPU runs threads. -/
def Phase.running : Phase → Bool
  | .up | .upFlag | .online => true
  | .offline | .down | .downFlag => false

/-- The variables of the detector. -/
structure Detector (nr : Nat) where
  kickBit : Finset (Fin nr)
  cpusKickBit : Finset (Fin nr)
  cpusSkipBit : Finset (Fin nr)
  plugMask : Finset (Fin nr)
  /-- The kicker threads that were created. -/
  wkTsk : Finset (Fin nr)
  wkLasthpgT : Fin nr → UInt64
  nxtKickTime : UInt64
  hangDetected : Bool
  changeTmo : Bool
  aeeDumpTimerT : UInt64
  aeeDumpTimerC : Bool
  allKTimerT : UInt64
  /-- The dump timer is pending. -/
  pending : Bool
  /-- The dump timer's function has been called and waits for the lock. -/
  waiting : Bool
  locked : Bool
  /-- The kickers that found a hang and are about to arm the timer. -/
  arming : Finset (Fin nr)
  phase : Fin nr → Phase

/-- The detector when the kickers are started. -/
def Detector.init {nr : Nat} (online : Finset (Fin nr)) : Detector nr where
  kickBit := ∅
  cpusKickBit := online
  cpusSkipBit := ∅
  plugMask := online
  wkTsk := online
  wkLasthpgT := fun _ => 0
  nxtKickTime := 0
  hangDetected := false
  changeTmo := false
  aeeDumpTimerT := 0
  aeeDumpTimerC := false
  allKTimerT := 0
  pending := false
  waiting := false
  locked := false
  arming := ∅
  phase := fun c => if c ∈ online then .online else .offline

def defaultInterval : UInt32 := 15

/-- `g_kinterval * 1000 * 1000`. -/
def kintervalUs : UInt64 := 15 * 1000 * 1000

def chgTmoDlySec : UInt64 := 8

def nsPerSec : UInt64 := 1000000000

/-- What a step shows: the CPU for which a kick was counted, whether it ended the round, and
whether a dump was made. -/
structure Out (nr : Nat) where
  counted : Option (Fin nr)
  ended : Bool
  dump : Bool

def Out.quiet {nr : Nat} : Out nr := ⟨none, false, false⟩

variable {nr : Nat}

def spinLock (s : Detector nr) : Option (Detector nr) :=
  if s.locked then none else some { s with locked := true }

def spinUnlock (s : Detector nr) : Option (Detector nr) :=
  if s.locked then some { s with locked := false } else none

/-- `wk_cpu_update_bit_flag`. -/
def wkCpuUpdateBitFlag (s : Detector nr) (cpu : Fin nr) (plugStatus setCheck : Bool) :
    Option (Detector nr) := do
  let s ← spinLock s
  if plugStatus then
    spinUnlock (if setCheck then { s with cpusKickBit := insert cpu s.cpusKickBit } else s)
  else spinUnlock { s with cpusKickBit := s.cpusKickBit.erase cpu }

/-- The dump timer was armed more than 13 seconds ago and neither it nor a kick has reset it. -/
def stopped (s : Detector nr) (now : UInt64) : Bool :=
  s.aeeDumpTimerT ≠ 0 && now - s.aeeDumpTimerT > (chgTmoDlySec + 5) * nsPerSec

/-- The bits with a kick, which a migrated kicker makes for the CPU that it was started for. -/
def localBit (s : Detector nr) (cpu originalKicker : Fin nr) : Finset (Fin nr) :=
  if cpu ≠ originalKicker then insert originalKicker s.kickBit
  else if cpu ∉ s.kickBit then insert cpu s.kickBit
  else s.kickBit

/-- The CPUs to check after a kick on `cpu`. -/
def checkLoop (s : Detector nr) (cpu : Fin nr) : Finset (Fin nr) :=
  Finset.univ.filter fun i =>
    if i ∈ s.plugMask ∨ i = cpu then i ∉ s.cpusSkipBit else i ∈ s.cpusKickBit

/-- `g_hang_detected` and `dump_timeout` after a kick has looked for a hang: a kicker that kicks
again while others have not, or a watchdog that is about to expire. -/
def findHang (s : Detector nr) (cpu originalKicker : Fin nr) (curInterval : UInt64)
    (rCounter : UInt32) (now : UInt64) : Bool × Nat :=
  if cpu = originalKicker ∧ cpu ∈ s.kickBit ∧ !s.hangDetected ∧
      ¬ s.cpusKickBit ⊆ localBit s cpu originalKicker ∧
      now - s.wkLasthpgT cpu > curInterval * 1000 then
    (true, 1)
  else if !s.hangDetected ∧ rCounter < defaultInterval - 10 ∧ !s.changeTmo then (true, 2)
  else (s.hangDetected, 0)

/-- The end of a round. -/
def endRound (s : Detector nr) (now : UInt64) : Detector nr :=
  { s with
    allKTimerT := now, pending := false, aeeDumpTimerT := 0, cpusSkipBit := ∅,
    hangDetected := false, kickBit := ∅ }

/-- A CPU that another CPU's kicker runs on is not checked for now. -/
def skipMigrated (s : Detector nr) (cpu originalKicker : Fin nr) : Detector nr :=
  if cpu ≠ originalKicker then
    { s with cpusKickBit := s.cpusKickBit.erase cpu, cpusSkipBit := insert cpu s.cpusSkipBit }
  else s

/-- `kwdt_process_kick` up to where it gives the lock back for good or is to arm the dump timer.
`now` is the clock of the scheduler. -/
def kwdtProcessKick (s : Detector nr) (cpu originalKicker : Fin nr) (curInterval : UInt64)
    (rCounter : UInt32) (now : Nat → UInt64) : Option (Out nr × Detector nr) :=
  if stopped s (now 0) then
    if !s.aeeDumpTimerC then do
      let s ← spinUnlock { s with aeeDumpTimerC := true }
      some (⟨none, false, true⟩, s)
    else do
      let s ← spinUnlock s
      some (.quiet, s)
  else do
    let bits := localBit s cpu originalKicker
    let hang := findHang s cpu originalKicker curInterval rCounter (now 1)
    let ended := s.cpusKickBit ⊆ bits
    let s :=
      if ended then endRound s (now 2) else { s with hangDetected := hang.1, kickBit := bits }
    let s := { s with cpusKickBit := checkLoop s cpu }
    let s ← spinUnlock (skipMigrated s cpu originalKicker)
    let s :=
      if hang.2 = 1 ∧ ¬ ended then { s with arming := insert originalKicker s.arming } else s
    some (⟨some originalKicker, ended, false⟩, s)

/-- The seconds that the watchdog has left, or the default when it is not enabled. -/
def rCounter : Option UInt32 → UInt32
  | some n => n / (32 * 1024)
  | none => defaultInterval

/-- A round of `kwdt_thread` on `cpu`. `ktime` is the clock in microseconds, `counter` the counter
register of the watchdog if it is enabled. -/
def kwdtThread (s : Detector nr) (cpu originalKicker : Fin nr) (now ktime : Nat → UInt64)
    (counter : Option UInt32) : Option (Out nr × Detector nr) := do
  let s ← spinLock s
  if cpu ∈ s.wkTsk then
    let (s, curInterval) :=
      if s.kickBit ∩ s.cpusKickBit = ∅ then
        ({ s with nxtKickTime := ktime 0 + kintervalUs }, kintervalUs)
      else (s, s.nxtKickTime - ktime 0)
    let curInterval := if curInterval > kintervalUs then kintervalUs else curInterval
    kwdtProcessKick s cpu originalKicker curInterval (rCounter counter) now
  else
    let s ← spinUnlock s
    some (.quiet, s)

/-- The end of `kwdt_process_kick` for a kicker that found a hang. -/
def armDumpTimer (s : Detector nr) (originalKicker : Fin nr) (now : UInt64) :
    Option (Detector nr) := do
  let s ← spinLock { s with arming := s.arming.erase originalKicker }
  if s.hangDetected ∧ !s.pending then
    spinUnlock { s with aeeDumpTimerT := now, changeTmo := true, pending := true }
  else spinUnlock s

/-- What `aee_dump_timer_func` resets when there is nothing to dump yet. -/
def Detector.resetTimer (s : Detector nr) : Detector nr :=
  { s with changeTmo := false, aeeDumpTimerT := 0, hangDetected := false }

/-- `aee_dump_timer_func`, with whether it dumps. -/
def aeeDumpTimerFunc (s : Detector nr) (now : Nat → UInt64) : Option (Bool × Detector nr) := do
  let s ← spinLock { s with waiting := false }
  if now 0 - s.aeeDumpTimerT < chgTmoDlySec * nsPerSec then
    let s ← spinUnlock s.resetTimer
    some (false, s)
  else if now 1 > s.allKTimerT ∧ now 2 - s.allKTimerT < (chgTmoDlySec + 1) * nsPerSec then
    let s ← spinUnlock s.resetTimer
    some (false, s)
  else if s.allKTimerT > now 3 ∧
      0xffffffffffffffff - s.allKTimerT + now 4 < (chgTmoDlySec + 1) * nsPerSec then
    let s ← spinUnlock s.resetTimer
    some (false, s)
  else if !s.hangDetected ∨ s.kickBit ∩ s.cpusKickBit = s.cpusKickBit then
    let s ← spinUnlock { s with changeTmo := false, aeeDumpTimerT := 0 }
    some (false, s)
  else
    let s ← spinUnlock s
    some (true, s)

/-- `wdt_pm_notify` of a suspend. `del_timer_sync` waits for the timer's function, which waits for
the lock. -/
def wdtPmSuspend (s : Detector nr) : Option (Detector nr) := do
  let s ← spinLock s
  if s.waiting then none
  else spinUnlock { s with pending := false, aeeDumpTimerT := 0, hangDetected := false }

def Detector.setPhase (s : Detector nr) (cpu : Fin nr) (p : Phase) : Detector nr :=
  { s with phase := Function.update s.phase cpu p }

/-- The steps of the detector. -/
inductive Event (nr : Nat)
  | kick (cpu originalKicker : Fin nr) (now ktime : Nat → UInt64) (counter : Option UInt32)
  | arm (originalKicker : Fin nr) (now : UInt64)
  | expire
  | timer (now : Nat → UInt64)
  | cpuUp (cpu : Fin nr)
  | onlineFlag (cpu : Fin nr)
  | onlinePlug (cpu : Fin nr) (now : UInt64)
  | cpuDown (cpu : Fin nr)
  | offlineFlag (cpu : Fin nr)
  | offlinePlug (cpu : Fin nr)
  | suspend

/-- One step; an event that cannot come changes nothing. -/
def step (s : Detector nr) : Event nr → Option (Out nr × Detector nr)
  | .kick cpu k now ktime counter =>
    if (s.phase cpu).running ∧ k ∉ s.arming then kwdtThread s cpu k now ktime counter
    else some (.quiet, s)
  | .arm k now =>
    if k ∈ s.arming then (armDumpTimer s k now).map fun s => (.quiet, s) else some (.quiet, s)
  | .expire =>
    if s.pending ∧ !s.waiting then some (.quiet, { s with pending := false, waiting := true })
    else some (.quiet, s)
  | .timer now =>
    if s.waiting then (aeeDumpTimerFunc s now).map fun q => (⟨none, false, q.1⟩, q.2)
    else some (.quiet, s)
  | .cpuUp cpu =>
    if s.phase cpu = .offline then some (.quiet, s.setPhase cpu .up) else some (.quiet, s)
  | .onlineFlag cpu =>
    if s.phase cpu = .up then
      (wkCpuUpdateBitFlag s cpu true false).map fun s => (.quiet, s.setPhase cpu .upFlag)
    else some (.quiet, s)
  | .onlinePlug cpu now =>
    if s.phase cpu = .upFlag then
      let s := { s with wkLasthpgT := Function.update s.wkLasthpgT cpu now }
      some (.quiet, { s with plugMask := insert cpu s.plugMask }.setPhase cpu .online)
    else some (.quiet, s)
  | .cpuDown cpu =>
    if s.phase cpu = .up ∨ s.phase cpu = .online then some (.quiet, s.setPhase cpu .down)
    else some (.quiet, s)
  | .offlineFlag cpu =>
    if s.phase cpu = .down then
      (wkCpuUpdateBitFlag s cpu false true).map fun s => (.quiet, s.setPhase cpu .downFlag)
    else some (.quiet, s)
  | .offlinePlug cpu =>
    if s.phase cpu = .downFlag then
      some (.quiet, { s with plugMask := s.plugMask.erase cpu }.setPhase cpu .offline)
    else some (.quiet, s)
  | .suspend => (wdtPmSuspend s).map fun s => (.quiet, s)

end Aee.Hangdet
