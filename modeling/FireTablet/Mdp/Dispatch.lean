import FireTablet.Lib.Run
import Mathlib.Data.Finset.Card
import Mathlib.Data.Fintype.Basic
import Mathlib.Logic.Function.Basic
import Mathlib.Algebra.Group.Nat.Defs

/-!
# The dispatch of jobs to hardware threads (`mdp_common.c`, `cmdq_helper_ext.c`)

A submission links its handle into the list of waiting ones. A run of `cmdq_mdp_consume_handle`
goes through the list with the task mutex held and gives threads to those that it can: it takes the
thread mutex for each handle, and drops it before it flushes the handle, so that the parts of
`cmdq_pkt_release_handle` that need it come in between. A handle leaves without a thread when its
wait times out or its file is closed. The model is that of `CMDQ_SECURE_PATH_SUPPORT`.
-/

namespace Mdp.Dispatch

abbrev HandleId := Nat

abbrev FileId := Nat

/-- Engines below `CMDQ_MAX_ENGINE_COUNT`. -/
abbrev Engine := Fin 64

/-- Threads below `CMDQ_MAX_THREAD_COUNT`; a handle without one has `CMDQ_INVALID_THREAD`. -/
abbrev Thread := Fin 24

abbrev Scenario := Nat

def cmdqMinSecureThreadId : Nat := 8

def cmdqMaxSecureThreadCount : Nat := 3

def cmdqDynamicThreadIdStart : Nat := cmdqMinSecureThreadId + cmdqMaxSecureThreadCount

def mdpThreadStart : Nat := cmdqMinSecureThreadId + 2

def cmdqThreadSecMdp : Thread := 10

def cmdqMaxTaskInSecureThread : Nat := 3

def cmdqEngInorder : Engine := 34

def cmdqScenarioUserMdp : Scenario := 12

/-- A `u32` counts down, and below 0 it wraps. -/
def decU32 (n : Nat) : Nat := if n = 0 then 2 ^ 32 - 1 else n - 1

/-- `struct EngineStruct`. -/
structure EngineStruct where
  userCount : Int
  currOwner : Option Thread
  deriving DecidableEq

/-- `struct mdp_thread`. -/
structure MdpThread where
  taskCount : Nat
  engineFlag : Finset Engine
  acquired : Bool
  allowDispatch : Bool
  secure : Bool
  deriving DecidableEq

/-- What the thread mutex guards of `struct mdp_context`. -/
structure Context where
  engine : Engine → EngineStruct
  thread : Thread → MdpThread
  mdpSmiUsage : Int

/-- The core's own `struct ThreadStruct`. -/
structure CoreThread where
  used : Bool
  acquire : Nat
  scenario : Scenario
  deriving DecidableEq

abbrev Core := Thread → CoreThread

/-- Where the work on a handle is. A handle that is `ending` has passed the count in
`cmdq_pkt_release_handle`, and one that is `refused` has not passed `cmdq_pkt_lock_handle`. -/
inductive Stage
  | waiting
  | locked
  | refused
  | active
  | ending
  | unprepared
  | stopped
  | released
  | withdrawn
  deriving DecidableEq

/-- `struct cmdqRecStruct`, where `secData` and `flushItem` say that the packet's pointers of these
names are set. -/
structure Handle where
  engineFlag : Finset Engine
  priority : Nat
  isSecure : Bool
  secData : Bool
  node : FileId
  thread : Option Thread
  exec : Int
  finalized : Bool
  flushItem : Bool
  stage : Stage
  deriving DecidableEq

/-! ## Engines and threads -/

def Context.setOwner (c : Context) (e : Engine) (owner : Option Thread) : Context :=
  { c with engine := Function.update c.engine e { c.engine e with currOwner := owner } }

def Context.addCount (c : Context) (e : Engine) (n : Int) : Context :=
  { c with
    engine := Function.update c.engine e { c.engine e with userCount := (c.engine e).userCount + n } }

def Context.setFlag (c : Context) (t : Thread) (flag : Finset Engine) : Context :=
  { c with thread := Function.update c.thread t { c.thread t with engineFlag := flag } }

/-- The loop of `cmdq_mdp_get_engine_flag_for_enable_clock`. -/
def getEngineFlagForEnableClock (engineFlag : Finset Engine) (threadId : Thread) :
    List Engine → Context → Context
  | [], c => c
  | e :: es, c =>
    if e ∉ engineFlag then getEngineFlagForEnableClock engineFlag threadId es c
    else
      let c := if (c.engine e).userCount ≤ 0 then
          (c.setOwner e (some threadId)).setFlag threadId
            (insert e (c.thread threadId).engineFlag)
        else c
      getEngineFlagForEnableClock engineFlag threadId es (c.addCount e 1)

/-- `cmdq_mdp_lock_thread`. -/
def lockThread (c : Context) (h : Handle) (t : Thread) : Context :=
  let c := { c with mdpSmiUsage := c.mdpSmiUsage + 1 }
  let c := getEngineFlagForEnableClock h.engineFlag t (List.finRange 64) c
  { c with
    thread := Function.update c.thread t { c.thread t with
      allowDispatch := true
      taskCount := (c.thread t).taskCount + 1
      secure := h.secData && h.isSecure } }

/-- The loop of `cmdq_mdp_get_not_used_engine`, which is undefined for an engine that becomes unused
without an owner. -/
def getNotUsedEngine (engineFlag : Finset Engine) : List Engine → Context → Option Context
  | [], c => some c
  | e :: es, c =>
    if e ∉ engineFlag then getNotUsedEngine engineFlag es c
    else
      let c := c.addCount e (-1)
      if (c.engine e).userCount ≤ 0 then
        match (c.engine e).currOwner with
        | none => none
        | some ownerThd =>
          getNotUsedEngine engineFlag es
            ((c.setFlag ownerThd ((c.thread ownerThd).engineFlag.erase e)).setOwner e none)
      else getNotUsedEngine engineFlag es c

/-- `cmdq_core_release_thread`. -/
def coreReleaseThread (core : Core) (t : Thread) : Core :=
  Function.update core t { core t with acquire := decU32 (core t).acquire }

/-- `cmdq_mdp_unlock_thread`, with the thread that goes back to the core. -/
def unlockThread (c : Context) (core : Core) (h : Handle) (t : Thread) :
    Option (Option Thread × Context × Core) := do
  let c ← getNotUsedEngine h.engineFlag (List.finRange 64) c
  let th := { c.thread t with taskCount := decU32 (c.thread t).taskCount }
  if th.taskCount = 0 ∧ h.isSecure = false then
    some (some t, { c with thread := Function.update c.thread t { th with acquired := false } },
      coreReleaseThread core t)
  else some (none, { c with thread := Function.update c.thread t th }, core)

/-! ## Finding a thread -/

/-- `cmdq_mdp_check_engine_waiting_unlock`: an engine of the handle works on the other kind. -/
def checkEngineWaitingUnlock (c : Context) (h : Handle) : Bool :=
  (List.finRange 24).any fun i =>
    mdpThreadStart ≤ i.val ∧ ¬ Disjoint (c.thread i).engineFlag h.engineFlag ∧
      (c.thread i).taskCount ≠ 0 ∧ h.isSecure ≠ (c.thread i).secure

/-- The loop of `cmdq_mdp_check_engine_conflict`; `none` is a conflict. -/
def checkEngineConflict (c : Context) (h : Handle) :
    List Engine → Option Thread → Option (Option Thread)
  | [], thread => some thread
  | e :: es, thread =>
    if e ∉ h.engineFlag then checkEngineConflict c h es thread
    else
      match (c.engine e).currOwner, thread with
      | none, thread => checkEngineConflict c h es thread
      | some owner, none => checkEngineConflict c h es (some owner)
      | some owner, some t => if t ≠ owner then none else checkEngineConflict c h es (some t)

/-- The threads from which `cmdq_core_acquire_thread` takes the first. -/
def CoreThread.fits (th : CoreThread) (scenario : Scenario) (exclusive : Bool) : Bool :=
  !th.used && !(th.acquire ≠ 0 && th.scenario ≠ scenario) && !(exclusive && th.acquire ≠ 0)

/-- `cmdq_core_acquire_thread`. -/
def coreAcquireThread (core : Core) (scenario : Scenario) (exclusive : Bool) :
    Option (Thread × Core) :=
  match (List.finRange 24).find? fun i =>
      cmdqDynamicThreadIdStart ≤ i.val ∧ (core i).fits scenario exclusive with
  | none => none
  | some t => some (t, Function.update core t { core t with
      acquire := (core t).acquire + 1
      scenario := scenario })

/-- The thread that `cmdq_mdp_find_free_thread` gives a handle whose engines are all free. -/
def newThread (c : Context) (core : Core) (h : Handle) : Option Thread × Context × Core :=
  match (List.finRange 24).find? fun i =>
      mdpThreadStart ≤ i.val ∧ (c.thread i).acquired ∧ (c.thread i).engineFlag = ∅ ∧
        (c.thread i).taskCount = 0 ∧ (c.thread i).allowDispatch with
  | some t =>
    (some t, { c with
      thread := Function.update c.thread t { c.thread t with allowDispatch := false } }, core)
  | none =>
    match coreAcquireThread core cmdqScenarioUserMdp true with
    | some (t, core) =>
      (some t, { c with
        thread := Function.update c.thread t { c.thread t with
          acquired := true
          allowDispatch := false } }, core)
    | none =>
      if h.engineFlag = ∅ then
        ((List.finRange 24).reverse.find? fun i =>
          mdpThreadStart ≤ i.val ∧ (c.thread i).acquired, c, core)
      else (none, c, core)

/-- `cmdq_mdp_find_free_thread`. -/
def findFreeThread (c : Context) (core : Core) (h : Handle) : Option Thread × Context × Core :=
  if checkEngineWaitingUnlock c h then (none, c, core)
  else if h.isSecure then
    if cmdqMaxTaskInSecureThread ≤ (c.thread cmdqThreadSecMdp).taskCount then (none, c, core)
    else (some cmdqThreadSecMdp, c, core)
  else
    match checkEngineConflict c h (List.finRange 64) none with
    | none => (none, c, core)
    | some (some t) => (some t, c, core)
    | some none => newThread c core h

/-! ## The system -/

/-- A run of `cmdq_mdp_consume_handle`: the rest of the list, and the handle that has got a thread
and is not flushed yet. -/
structure Consume where
  rest : List HandleId
  secureRun : Bool
  cur : Option HandleId
  deriving DecidableEq

/-- `consume` is the run that holds the task mutex. `others` counts what other clients have acquired
of each thread, and `client` says which threads have a mailbox. -/
structure State where
  handle : HandleId → Handle
  next : HandleId
  tasksWait : List HandleId
  ctx : Context
  core : Core
  others : Thread → Nat
  client : Thread → Bool
  handleActive : List HandleId
  consume : Option Consume

/-- `cmdq_mdp_reset_engine_struct` and `cmdq_mdp_reset_thread_struct`. -/
def initContext : Context where
  engine _ := ⟨0, none⟩
  thread i := ⟨0, ∅, false, true, cmdqMinSecureThreadId ≤ i.val ∧
    i.val < cmdqMinSecureThreadId + cmdqMaxSecureThreadCount⟩
  mdpSmiUsage := 0

/-- `cmdq_core_initialize`: a thread without a mailbox counts as used. -/
def init (used client : Thread → Bool) : State where
  handle _ := ⟨∅, 0, false, false, 0, none, 0, false, false, .withdrawn⟩
  next := 0
  tasksWait := []
  ctx := initContext
  core i := ⟨used i || !client i, 0, 0⟩
  others _ := 0
  client := client
  handleActive := []
  consume := none

def State.setHandle (s : State) (h : HandleId) (x : Handle) : State :=
  { s with handle := Function.update s.handle h x }

/-- The list with a handle behind the last of the leading ones whose priority is not lower
(`cmdq_mdp_flush_async_impl`). -/
def insertByPriority (priority : HandleId → Nat) (h : HandleId) : List HandleId → List HandleId
  | [] => [h]
  | k :: ks =>
    if priority k < priority h then h :: k :: ks else k :: insertByPriority priority h ks

/-- `cmdq_mdp_handle_setup`, `cmdq_mdp_handle_sec_setup` and `cmdq_mdp_handle_flush` up to the
insertion. A secure handle is not made where the secure thread has no mailbox. -/
def flushAsyncImpl (s : State) (node : FileId) (engineFlag : Finset Engine) (priority : Nat)
    (secure : Bool) : State :=
  if secure && !s.client cmdqThreadSecMdp then s
  else
    let s := { s with next := s.next + 1 }.setHandle s.next
      { engineFlag := engineFlag.erase cmdqEngInorder
        priority := priority
        isSecure := secure
        secData := secure
        node := node
        thread := none
        exec := 0
        finalized := true
        flushItem := false
        stage := .waiting }
    { s with
      tasksWait := insertByPriority (fun h => (s.handle h).priority) (s.next - 1) s.tasksWait }

/-- One handle of the loop of `cmdq_mdp_consume_handle`, as far as the thread mutex is held. -/
def dispatch (s : State) (r : Consume) (h : HandleId) (rest : List HandleId) : State :=
  let x := s.handle h
  if r.secureRun ≠ x.isSecure then { s with consume := some { r with rest := [] } }
  else
    match findFreeThread s.ctx s.core x with
    | (none, ctx, core) =>
      { s with ctx := ctx, core := core, consume := some { r with rest := rest } }.setHandle h
        { x with thread := none }
    | (some t, ctx, core) =>
      { s with
        ctx := lockThread ctx x t
        core := core
        consume := some { r with rest := rest, cur := some h } }.setHandle h
        { x with thread := some t, stage := .locked }

/-- How far `cmdq_pkt_flush_async` gets. -/
inductive Flush
  | noItem
  | failed
  | sent
  deriving DecidableEq

/-- `cmdq_pkt_lock_handle`: whether the handle is locked, and the handle. -/
def lockHandle (s : State) (x : Handle) : Bool × Handle :=
  match x.thread with
  | none => (false, x)
  | some t =>
    if !s.client t then (false, x)
    else if x.exec + 1 > 1 then (false, x)
    else (true, { x with exec := x.exec + 1, stage := .active })

/-- The rest of the loop's body: the handle is unlinked and flushed
(`cmdq_pkt_flush_async_ex_impl`). -/
def flush (s : State) (r : Consume) (h : HandleId) (result : Flush) : State :=
  let x := s.handle h
  let s := { s with
    tasksWait := s.tasksWait.erase h
    consume := some { r with cur := none } }
  if !x.finalized then s.setHandle h { x with stage := .refused }
  else
    match lockHandle s x with
    | (false, x) => s.setHandle h { x with stage := .refused }
    | (true, x) =>
      { s with handleActive := s.handleActive ++ [h] }.setHandle h
        { x with flushItem := decide (result ≠ Flush.noItem) }

/-- `cmdq_pkt_release_handle` up to the callbacks. It is called when the flush is done, and more
than once when a handle is both waited for and released by the close of a file. -/
def releaseHandle (s : State) (h : HandleId) : State :=
  let x := s.handle h
  let x := { x with exec := x.exec - 1 }
  if x.exec ≠ 0 then { s with handleActive := s.handleActive.erase h }.setHandle h x
  else s.setHandle h { x with stage := .ending }

/-- `cmdq_mdp_handle_unprepare`. -/
def unprepare (s : State) (h : HandleId) : Option (Option Thread × State) :=
  let x := s.handle h
  match x.thread with
  | none => some (none, s.setHandle h { x with stage := .unprepared })
  | some t =>
    match unlockThread s.ctx s.core x t with
    | none => none
    | some (back, ctx, core) =>
      some (back, { s with ctx := ctx, core := core }.setHandle h { x with stage := .unprepared })

/-- `cmdq_mdp_handle_stop`. -/
def handleStop (s : State) (h : HandleId) : State :=
  { s with ctx := { s.ctx with mdpSmiUsage := s.ctx.mdpSmiUsage - 1 } }.setHandle h
    { s.handle h with stage := .stopped }

/-- A wait for a thread that has timed out (`cmdq_mdp_wait`); the caller destroys the handle. -/
def waitTimeout (s : State) (h : HandleId) : State :=
  if (s.handle h).thread = none then
    { s with tasksWait := s.tasksWait.erase h }.setHandle h { s.handle h with stage := .withdrawn }
  else s

/-- `cmdq_mdp_release_task_by_file_node`. The handles that run are left to
`cmdq_pkt_auto_release_task`. -/
def releaseTaskByFileNode (s : State) (node : FileId) : State :=
  { s with
    tasksWait := s.tasksWait.filter fun h => (s.handle h).node ≠ node
    handle := fun h =>
      if h ∈ s.tasksWait ∧ (s.handle h).node = node then { s.handle h with stage := .withdrawn }
      else s.handle h }

/-- The steps: submissions, the parts of a consume run, those of a release, waits that time out,
closes, and what other clients do with the core's threads. -/
inductive Op
  | submit (node : FileId) (engineFlag : Finset Engine) (priority : Nat) (secure : Bool)
  | consume
  | next
  | flush (result : Flush)
  | release (h : HandleId)
  | unprepare (h : HandleId)
  | stop (h : HandleId)
  | unlink (h : HandleId)
  | timeout (h : HandleId)
  | close (node : FileId)
  | coreAcquire (scenario : Scenario) (exclusive : Bool)
  | coreRelease (t : Thread)

/-- A step, with the thread that it gives back to the core. What needs the task mutex waits while a
consume run holds it. -/
def step (s : State) : Op → Option (Option Thread × State)
  | .submit node engineFlag priority secure =>
    match s.consume with
    | some _ => some (none, s)
    | none => some (none, flushAsyncImpl s node engineFlag priority secure)
  | .consume =>
    match s.consume with
    | some _ => some (none, s)
    | none =>
      some (none, { s with
        consume := some
          { rest := s.tasksWait
            secureRun := match s.tasksWait with
              | [] => false
              | h :: _ => (s.handle h).isSecure
            cur := none } })
  | .next =>
    match s.consume with
    | some ⟨h :: rest, secureRun, none⟩ => some (none, dispatch s ⟨h :: rest, secureRun, none⟩ h rest)
    | some ⟨[], _, none⟩ => some (none, { s with consume := none })
    | _ => some (none, s)
  | .flush result =>
    match s.consume with
    | some ⟨rest, secureRun, some h⟩ => some (none, flush s ⟨rest, secureRun, some h⟩ h result)
    | _ => some (none, s)
  | .release h =>
    if (s.handle h).flushItem then some (none, releaseHandle s h) else some (none, s)
  | .unprepare h => if (s.handle h).stage = .ending then unprepare s h else some (none, s)
  | .stop h =>
    if (s.handle h).stage = .unprepared then some (none, handleStop s h) else some (none, s)
  | .unlink h =>
    if (s.handle h).stage = .stopped then
      some (none, { s with handleActive := s.handleActive.erase h }.setHandle h
        { s.handle h with stage := .released })
    else some (none, s)
  | .timeout h =>
    match s.consume with
    | some _ => some (none, s)
    | none => some (none, waitTimeout s h)
  | .close node =>
    match s.consume with
    | some _ => some (none, s)
    | none => some (none, releaseTaskByFileNode s node)
  | .coreAcquire scenario exclusive =>
    if scenario = cmdqScenarioUserMdp then some (none, s)
    else
      match coreAcquireThread s.core scenario exclusive with
      | none => some (none, s)
      | some (t, core) =>
        some (none, { s with
          core := core
          others := Function.update s.others t (s.others t + 1) })
  | .coreRelease t =>
    if s.others t = 0 then some (none, s)
    else
      some (none, { s with
        core := coreReleaseThread s.core t
        others := Function.update s.others t (s.others t - 1) })

end Mdp.Dispatch
