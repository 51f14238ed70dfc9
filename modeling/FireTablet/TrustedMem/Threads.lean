import FireTablet.TrustedMem.Region

/-!
# Threads on a trusted memory region

Any number of calls of `tmem_core_alloc_chunk` and `tmem_core_unref_chunk` are in progress on one
device, beside the worker that runs the deferred power-off. A step takes one of them from one lock
or outside call to the next: a program counter names what comes next. The region lock is held over a
whole power-on or power-off, whose parts take the session lock one after another; sections of the
region lock that need no other lock are one step.
-/

namespace TrustedMem

/-- Inside `trusted_mem_region_poweron`. The memory that SSMR gave and the error to return are local
variables. -/
inductive OnPc
  | offline
  | openReady (pa size : Nat)
  | sessionOpen (pa size : Nat)
  | addReady (pa size : Nat)
  | memAdd (pa size : Nat)
  | closeReady (ret : Int)
  | sessionClose (ret : Int)
  | online (ret : Int)
  deriving DecidableEq, Repr

/-- Inside `trusted_mem_region_poweroff`. -/
inductive OffPc
  | removeReady
  | memRemove
  | closeReady
  | sessionClose
  | online
  deriving DecidableEq, Repr

/-- One part of a power-on: the next one, or the return value. -/
def onStep (keepAlive : Bool) (d : TrustedMemDevice) (a : Ans) :
    OnPc → (OnPc ⊕ Int) × TrustedMemDevice
  | .offline =>
    let r := tmemSsmrGet d a
    (if r.1 ≠ 0 then .inr r.1 else .inl (.openReady a.pa (a.size % 2 ^ 32)), r.2)
  | .openReady pa size =>
    (.inl (if d.peerMgrData.opened then .addReady pa size else .sessionOpen pa size), d)
  | .sessionOpen pa size =>
    let r := sessionOpenSection d a
    (.inl (if r.1 ≠ 0 then .online r.1 else .addReady pa size), r.2)
  | .addReady pa size =>
    (.inl (if d.peerMgrData.opened then .memAdd pa size else .closeReady tmemMgrSessionIsNotReady),
      d)
  | .memAdd pa size =>
    let r := memAddSection pa size d a
    (if r.1 ≠ 0 then .inl (.closeReady r.1) else .inr tmemOk, r.2)
  | .closeReady ret =>
    (.inl (if d.peerMgrData.opened ∧ ¬ keepAlive then .sessionClose ret else .online ret), d)
  | .sessionClose ret => (.inl (.online ret), (sessionCloseSection d a).2)
  | .online ret => (.inr ret, (tmemSsmrPut d a).2)

/-- One part of a power-off. -/
def offStep (keepAlive : Bool) (d : TrustedMemDevice) (a : Ans) :
    OffPc → (OffPc ⊕ Int) × TrustedMemDevice
  | .removeReady =>
    (if d.peerMgrData.opened then .inl .memRemove else .inr tmemMgrSessionIsNotReady, d)
  | .memRemove =>
    let r := memRemoveSection d a
    (if r.1 ≠ 0 then .inr r.1 else .inl .closeReady, r.2)
  | .closeReady =>
    (.inl (if d.peerMgrData.opened ∧ ¬ keepAlive then .sessionClose else .online), d)
  | .sessionClose =>
    let r := sessionCloseSection d a
    (if r.1 ≠ 0 then .inr r.1 else .inl .online, r.2)
  | .online =>
    let r := tmemSsmrPut d a
    (.inr r.1, r.2)

/-- A chunk of the TEE: its handle, and how often the region had been reclaimed when it was
allocated. -/
structure Chunk where
  handle : Nat
  reclaims : Nat
  deriving DecidableEq, Repr

/-- Who called `regmgr_try_on`. -/
inductive OnFor
  | alloc
  | refInc (c : Chunk)
  deriving DecidableEq, Repr

/-- Where a call stands. -/
inductive Pc
  /-- `regmgr_online`: `cancel_delayed_work_sync`. -/
  | cancelWork
  /-- `regmgr_online`: the region lock. -/
  | online
  /-- In `regmgr_try_on`, with the region lock held. -/
  | powerOn (why : OnFor) (pc : OnPc)
  /-- `peer_mgr_chunk_alloc_locked`: `is_session_ready`. -/
  | allocReady
  | alloc
  /-- `regmgr_region_ref_inc`, with the chunk that the TEE gave. -/
  | refInc (c : Chunk)
  /-- `tmem_core_unref_chunk`: `is_regmgr_region_on`. -/
  | regionOn (c : Chunk)
  /-- `peer_mgr_chunk_free_locked`: `is_session_ready`. -/
  | freeReady (c : Chunk)
  | free (c : Chunk)
  | refDec
  /-- `regmgr_offline`. -/
  | offline
  | done
  deriving DecidableEq, Repr

/-- Where the worker of the deferred power-off stands. -/
inductive WorkPc
  | idle
  /-- The work has left the queue and waits for the region lock. -/
  | started
  | powerOff (pc : OffPc)
  deriving DecidableEq, Repr

/-- A thread that can hold the region lock. -/
inductive Holder
  | call (i : Nat)
  | worker
  deriving DecidableEq, Repr

/-- The device, the region lock, the calls that were made, the worker, and the chunks that have been
handed out and that no call is freeing. -/
structure Threads where
  dev : TrustedMemDevice
  lock : Option Holder
  calls : List Pc
  worker : WorkPc
  out : List Chunk
  deriving DecidableEq, Repr

/-- A registered device that nobody has used. -/
def Threads.init : Threads := ⟨.init, none, [], .idle, []⟩

/-- What can happen next. A caller frees a chunk that has been handed out. -/
inductive Ev
  | allocChunk (alignment size : Nat) (doAlignmentCheck : Bool)
  | unrefChunk (c : Chunk)
  | call (i : Nat) (a : Ans)
  | work (a : Ans)
  deriving DecidableEq, Repr

/-- Call `i` goes on at `pc`. -/
def Threads.goto (s : Threads) (i : Nat) (pc : Pc) : Threads :=
  { s with calls := s.calls.set i pc }

/-- Call `i` runs to its next section. `none` where it has to wait, has returned, or where the TEE
would give a chunk of a region that it does not have. -/
def Threads.stepCall (cfg : TrustedMemConfigs) (s : Threads) (i : Nat) (a : Ans) :
    Pc → Option Threads
  | .cancelWork =>
    -- waits for a handler that is running
    if s.worker = .idle then
      some ({ s with dev := s.dev.setDeferOffWork false }.goto i .online)
    else none
  | .online =>
    if s.lock ≠ none then none
    else if s.dev.regMgr.state = .on then some (s.goto i .allocReady)
    else some ({ s with lock := some (.call i) }.goto i (.powerOn .alloc .offline))
  | .powerOn why pc =>
    match onStep cfg.sessionKeepAliveEnable s.dev a pc, why with
    | (.inl pc', d), _ => some ({ s with dev := d }.goto i (.powerOn why pc'))
    | (.inr ret, d), .alloc =>
      if ret ≠ 0 then some ({ s with dev := d, lock := none }.goto i .done)
      else some ({ s with dev := d.setOn cfg, lock := none }.goto i .allocReady)
    | (.inr ret, d), .refInc c =>
      -- the caller gets the chunk whatever `regmgr_try_on` returned
      let d := if ret ≠ 0 then d else d.setOn cfg
      some ({ s with dev := d, lock := none, out := c :: s.out }.goto i .done)
  | .allocReady => some (s.goto i (if s.dev.peerMgrData.opened then .alloc else .offline))
  | .alloc =>
    if a.ret ≠ 0 then some (s.goto i .offline)
    else if s.dev.granted then
      some ({ s with dev := (chunkAllocSection s.dev a).2 }.goto i
        (.refInc ⟨a.handle, s.dev.reclaims⟩))
    else none
  | .refInc c =>
    if s.lock ≠ none then none
    else
      let d := s.dev.setValidRefCount ((s.dev.regMgr.validRefCount + 1) % 2 ^ 32)
      if d.regMgr.state = .on then some ({ s with dev := d, out := c :: s.out }.goto i .done)
      else some ({ s with dev := d, lock := some (.call i) }.goto i (.powerOn (.refInc c) .offline))
  | .regionOn c =>
    if s.lock ≠ none then none
    else if s.dev.regMgr.state = .on then some (s.goto i (.freeReady c))
    else some ({ s with out := c :: s.out }.goto i .done)
  | .freeReady c =>
    if s.dev.peerMgrData.opened then some (s.goto i (.free c))
    else some ({ s with out := c :: s.out }.goto i .done)
  | .free c =>
    if a.ret ≠ 0 then some ({ s with out := c :: s.out }.goto i .done)
    else some ({ s with dev := (chunkFreeSection s.dev a).2 }.goto i .refDec)
  | .refDec =>
    if s.lock ≠ none then none
    else some ({ s with dev := regmgrRegionRefDec s.dev }.goto i .offline)
  | .offline => some ({ s with dev := regmgrOffline s.dev }.goto i .done)
  | .done => none

/-- The worker runs to its next section. -/
def Threads.stepWork (cfg : TrustedMemConfigs) (s : Threads) (a : Ans) : WorkPc → Option Threads
  | .idle =>
    if s.dev.regMgr.deferOffWork then
      some { s with dev := s.dev.setDeferOffWork false, worker := .started }
    else none
  | .started =>
    if s.lock ≠ none then none
    else if s.dev.regMgr.validRefCount = 0 ∧ s.dev.regMgr.state = .on then
      some { s with lock := some .worker, worker := .powerOff .removeReady }
    else some { s with worker := .idle }
  | .powerOff pc =>
    match offStep cfg.sessionKeepAliveEnable s.dev a pc with
    | (.inl pc', d) => some { s with dev := d, worker := .powerOff pc' }
    | (.inr ret, d) =>
      some { s with dev := if ret ≠ 0 then d else d.setOff, lock := none, worker := .idle }

/-- One step of the system. -/
def Threads.step (cfg : TrustedMemConfigs) (s : Threads) (ev : Ev) : Option (Unit × Threads) :=
  Option.map (fun s' => ((), s')) <|
    match ev with
    | .allocChunk alignment size doAlignmentCheck =>
      (allocChecks cfg alignment size doAlignmentCheck).map fun (ret : Int) =>
        { s with calls := s.calls ++ [if ret ≠ 0 then .done else .cancelWork] }
    | .unrefChunk c =>
      if c ∈ s.out then
        some { s with calls := s.calls ++ [.regionOn c], out := s.out.erase c }
      else none
    | .call i a => (s.calls[i]?).bind (s.stepCall cfg i a)
    | .work a => s.stepWork cfg a s.worker

/-! ## The parts of a power transition in sequence -/

/-- The answer for one part. -/
def PowerAns.atOn (a : PowerAns) : OnPc → Ans
  | .offline => a.offline
  | .sessionOpen .. => a.sessionOpen
  | .memAdd .. => a.memAdd
  | .sessionClose _ => a.sessionClose
  | .online _ => a.online
  | _ => {}

/-- The answer for one part. -/
def PowerAns.atOff (a : PowerAns) : OffPc → Ans
  | .memRemove => a.memRemove
  | .sessionClose => a.sessionClose
  | .online => a.online
  | _ => {}

/-- At most `n` parts of a power-on, one after another. -/
def onRun (keepAlive : Bool) (a : PowerAns) : Nat → TrustedMemDevice → OnPc →
    Option (Int × TrustedMemDevice)
  | 0, _, _ => none
  | n + 1, d, pc =>
    match onStep keepAlive d (a.atOn pc) pc with
    | (.inl pc', d') => onRun keepAlive a n d' pc'
    | (.inr ret, d') => some (ret, d')

/-- At most `n` parts of a power-off, one after another. -/
def offRun (keepAlive : Bool) (a : PowerAns) : Nat → TrustedMemDevice → OffPc →
    Option (Int × TrustedMemDevice)
  | 0, _, _ => none
  | n + 1, d, pc =>
    match offStep keepAlive d (a.atOff pc) pc with
    | (.inl pc', d') => offRun keepAlive a n d' pc'
    | (.inr ret, d') => some (ret, d')

end TrustedMem
