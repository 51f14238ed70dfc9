import FireTablet.Cmdq.Flush
import Mathlib.Data.Fintype.Basic

/-!
# The GCE's threads and their task lists (`mtk-cmdq-mailbox-ext.c`)

A thread of the engine runs the packets of its task list one after the other: the last instruction
of each packet is turned into a jump to the next packet. Submissions, interrupts, the timeout
worker, removal and stop each work on the list under the channel's lock; the timeout worker drops
the lock while it calls the error callback. Suspending and resuming a thread, its timer and the
clock tree are left out: every function here runs while the thread does not.

What the hardware and the allocator answer comes with the calls. A task carries the number of its
submission, which the driver does not have, so that tasks with the same address are told apart.
-/

namespace Cmdq

/-- A packet as a thread sees it. -/
structure PktRec where
  pkt : CmdqPkt
  priority : Nat
  loop : Bool

/-- `struct cmdq_task`: `ptr` is its address and `pkt` that of its packet. -/
structure CmdqTask where
  serial : Nat
  ptr : Nat
  pkt : Nat
  paBase : Nat
  deriving DecidableEq

/-- `struct cmdq_thread` and its registers `CMDQ_THR_ENABLE_TASK`, `CMDQ_THR_CURR_ADDR` and
`CMDQ_THR_END_ADDR`. -/
structure CmdqThread where
  taskBusyList : List CmdqTask
  dirty : Bool
  enabled : Bool
  currAddr : Nat
  endAddr : Nat

/-- What a function that holds a thread's lock works on: the usage count of the engine, the thread
and the packets. -/
structure ThrSt where
  usage : Int
  thr : CmdqThread
  pkts : Nat → PktRec

/-- What happens to tasks. -/
inductive TaskEff
  /-- `cmdq_task_exec` puts the task into the list. -/
  | accept (t : CmdqTask)
  /-- There is no memory for a task: the packet is called back. -/
  | noMem (pkt : Nat)
  /-- `cmdq_task_exec_done`. -/
  | execDone (t : CmdqTask) (err : Int)
  /-- `cmdq_task_exec_done` from `cmdq_mbox_thread_remove_task`. -/
  | removed (t : CmdqTask) (err : Int)
  /-- One round of a loop packet. -/
  | loopCallback (t : CmdqTask) (err : Int)
  /-- `cmdq_task_err_callback`. -/
  | errCallback (t : CmdqTask)
  /-- `kfree`. -/
  | free (t : CmdqTask)
  deriving DecidableEq

/-- What the interrupt status register of a thread says, an error first. -/
inductive IrqFlag
  | none
  | done
  | error
  deriving DecidableEq

section
variable (gceShiftBit : Nat)

/-! ## Registers -/

/-- `cmdq_thread_set_pc`, into a 32-bit register. -/
def ThrSt.setPc (s : ThrSt) (pc : Nat) : ThrSt :=
  { s with thr := { s.thr with currAddr := (pc >>> gceShiftBit) % 2 ^ 32 } }

/-- `cmdq_thread_set_end`. -/
def ThrSt.setEnd (s : ThrSt) (endPa : Nat) : ThrSt :=
  { s with thr := { s.thr with endAddr := (endPa >>> gceShiftBit) % 2 ^ 32 } }

/-- `cmdq_thread_get_pc`: the shift is one of 32 bits. -/
def cmdqThreadGetPc (s : ThrSt) : Nat :=
  if s.usage ≤ 0 then 0 else (s.thr.currAddr <<< gceShiftBit) % 2 ^ 32

/-- `cmdq_thread_get_end`. -/
def cmdqThreadGetEnd (s : ThrSt) : Nat := s.thr.endAddr <<< gceShiftBit

/-- The thread with another list. -/
def ThrSt.setList (s : ThrSt) (tasks : List CmdqTask) : ThrSt :=
  { s with thr := { s.thr with taskBusyList := tasks } }

/-- `cmdq_thread_disable` and `cmdq_clk_disable`. -/
def ThrSt.disable (s : ThrSt) : ThrSt :=
  { s with thr := { s.thr with enabled := false }, usage := s.usage - 1 }

/-! ## Packets in a list -/

/-- An address in the first `size` bytes of a buffer; the end is computed in 32 bits. -/
def CmdqPktBuffer.hasPa (b : CmdqPktBuffer) (size pa : Nat) : Bool :=
  b.paBase ≤ pa && pa < (b.paBase + size) % 2 ^ 32

/-- `cmdq_task_is_current_run`: the address is in one of the packet's buffers. -/
def cmdqTaskIsCurrentRun (pa : Nat) (pkt : CmdqPkt) : Bool := go pkt.buf
where
  go : List CmdqPktBuffer → Bool
  | [] => false
  | [b] => b.hasPa (cmdqCmdBufferSize - pkt.availBufSize) pa
  | b :: bufs => b.hasPa cmdqCmdBufferSize pa || go bufs

/-- `CMDQ_JUMP_BY_PA` with an address. -/
def jumpByPa (pa : Nat) : BitVec 64 :=
  0x10000001 <<< 32 ||| BitVec.ofNat 64 (pa >>> gceShiftBit)

/-- The packet with another last instruction. -/
def CmdqPkt.putTail (pkt : CmdqPkt) (inst : BitVec 64) : CmdqPkt :=
  match pkt.buf.getLast? with
  | none => pkt
  | some buf =>
    { pkt with buf := pkt.buf.dropLast ++
        [buf.put (cmdqCmdBufferSize - pkt.availBufSize - cmdqInstSize) inst] }

/-- `cmdq_task_connect_buffer`: the last instruction of the task's packet becomes a jump to the next
task. -/
def cmdqTaskConnectBuffer (task next : CmdqTask) (pkts : Nat → PktRec) : Nat → PktRec :=
  Function.update pkts task.pkt
    { pkts task.pkt with
      pkt := (pkts task.pkt).pkt.putTail (jumpByPa gceShiftBit next.paBase) }

/-- `CMDQ_MIN_AGE_VALUE`. -/
def cmdqMinAgeValue : Nat := 5

/-- A packet's priority grows, in 32 bits. -/
def agePkt (task : CmdqTask) (pkts : Nat → PktRec) : Nat → PktRec :=
  Function.update pkts task.pkt
    { pkts task.pkt with priority := ((pkts task.pkt).priority + cmdqMinAgeValue) % 2 ^ 32 }

/-- Where a task goes in a list: after `before`, the last of which is `prev`. `next` is there if
the loop found a task to be jumped to. -/
structure InsertPos where
  before : List CmdqTask
  prev : CmdqTask
  next : Option CmdqTask
  after : List CmdqTask
  pkts : Nat → PktRec

/-- The loop of `cmdq_task_insert_into_thread` over the list from its end; `after` is what it has
passed, `next_task` the first of it. At the head of the list it ends with `next_task` equal to
`prev_task` if it is not stopped. -/
def insertScan (currPa pkt : Nat) (after : List CmdqTask) (pkts : Nat → PktRec) :
    List CmdqTask → Option InsertPos
  | [] => none
  | prev :: rest =>
    let pkts := match after with
      | [] => pkts
      | next :: _ => agePkt next pkts
    if cmdqTaskIsCurrentRun currPa (pkts prev.pkt).pkt ||
        (pkts prev.pkt).priority ≥ (pkts pkt).priority then
      some ⟨rest.reverse ++ [prev], prev, after.head?, after, pkts⟩
    else
      match rest with
      | [] => some ⟨[prev], prev, none, after, pkts⟩
      | _ :: _ => insertScan currPa pkt (prev :: after) pkts rest

/-- `cmdq_task_insert_into_thread` and the insertion into the list. -/
def cmdqTaskInsertIntoThread (currPa : Nat) (task : CmdqTask) (s : ThrSt) : ThrSt :=
  match insertScan currPa task.pkt [] s.pkts s.thr.taskBusyList.reverse with
  | none => s
  | some pos =>
    let pkts := cmdqTaskConnectBuffer gceShiftBit pos.prev task pos.pkts
    let pkts := match pos.next with
      | none => pkts
      | some next => cmdqTaskConnectBuffer gceShiftBit task next pkts
    -- `cmdq_thread_invalidate_fetched_data` sets the program counter again
    (({ s with pkts := pkts } : ThrSt).setPc gceShiftBit (cmdqThreadGetPc gceShiftBit s)).setList
      (pos.before ++ task :: pos.after)

/-- The end address is that of the last packet. -/
def ThrSt.resetEnd (s : ThrSt) : ThrSt :=
  match s.thr.taskBusyList.getLast? with
  | none => s
  | some last => s.setEnd gceShiftBit (s.pkts last.pkt).pkt.endPa

/-- `cmdq_task_exec`: `ptr` is the allocated task, if there is memory. -/
def cmdqTaskExec (serial pkt : Nat) (ptr : Option Nat) (s : ThrSt) : List TaskEff × ThrSt :=
  match (s.pkts pkt).pkt.buf, ptr with
  | [], _ => ([], s)
  | _ :: _, none => ([.noMem pkt], s)
  | buf :: _, some ptr =>
    let task : CmdqTask := ⟨serial, ptr, pkt, buf.paBase⟩
    if s.thr.taskBusyList = [] then
      let s : ThrSt := { s with usage := s.usage + 1 }
      let s := (s.setEnd gceShiftBit (s.pkts pkt).pkt.endPa).setPc gceShiftBit task.paBase
      ([.accept task],
        ({ s with thr := { s.thr with enabled := true } } : ThrSt).setList [task])
    else
      let currPa := cmdqThreadGetPc gceShiftBit s
      let endPa := cmdqThreadGetEnd gceShiftBit s
      let s :=
        if currPa + cmdqInstSize = endPa ∨ currPa = endPa then
          (s.setPc gceShiftBit task.paBase).setList (s.thr.taskBusyList ++ [task])
        else cmdqTaskInsertIntoThread gceShiftBit currPa task s
      ([.accept task], s.resetEnd gceShiftBit)

/-! ## Interrupts -/

/-- What the loop of `cmdq_thread_irq_handler` does with a list: the tasks that are done with their
errors, what stays in the list, and whether a task has failed. -/
structure IrqScan where
  done : List (CmdqTask × Int)
  rest : List CmdqTask
  failed : Bool

/-- The loop of `cmdq_thread_irq_handler`: everything before the running task is done, and the
running task if it is at its last instruction or failed. -/
def irqScan (currPa : Nat) (err : Int) (pkts : Nat → PktRec) : List CmdqTask → IrqScan
  | [] => ⟨[], [], false⟩
  | task :: tasks =>
    if cmdqTaskIsCurrentRun currPa (pkts task.pkt).pkt then
      if currPa + cmdqInstSize = (pkts task.pkt).pkt.endPa then ⟨[(task, 0)], tasks, false⟩
      else if err ≠ 0 then ⟨[(task, err)], tasks, true⟩
      else ⟨[], task :: tasks, false⟩
    else
      let r := irqScan currPa err pkts tasks
      ⟨(task, 0) :: r.done, r.rest, r.failed⟩

/-- What `cmdq_thread_irq_handler` does, with the tasks it puts into the caller's list `removes`. -/
structure IrqRes where
  effs : List TaskEff
  removes : List CmdqTask
  s : ThrSt

/-- The error of an interrupt. -/
def IrqFlag.err : IrqFlag → Int
  | .error => -einval
  | _ => 0

/-- `cmdq_thread_irq_handler`. -/
def cmdqThreadIrqHandler (flag : IrqFlag) (s : ThrSt) : IrqRes :=
  if s.usage ≤ 0 ∨ s.thr.enabled = false ∨ flag = .none then ⟨[], [], s⟩
  else
    match s.thr.taskBusyList.head? with
    | some task =>
      if (s.pkts task.pkt).loop then ⟨[.loopCallback task flag.err], [], s⟩
      else if s.thr.dirty then ⟨[], [], s⟩
      else handle
    | none => if s.thr.dirty then ⟨[], [], s⟩ else handle
where
  handle : IrqRes :=
    let r := irqScan (cmdqThreadGetPc gceShiftBit s) flag.err s.pkts s.thr.taskBusyList
    let s := s.setList r.rest
    -- `cmdq_task_handle_error` goes on with the next task
    let s := match r.failed, r.rest with
      | true, next :: _ => s.setPc gceShiftBit next.paBase
      | _, _ => s
    ⟨r.done.map fun d => .execDone d.1 d.2, r.done.map Prod.fst,
      if r.rest = [] then s.disable else s⟩

/-! ## The timeout worker -/

/-- The worker while it calls the error callback: the task that has timed out, and its `removes`. -/
structure TimeoutWork where
  timeoutTask : CmdqTask
  removes : List CmdqTask

/-- Tasks that are called back and freed one after the other. -/
def doneAndFree (err : Int) (tasks : List CmdqTask) : List TaskEff :=
  tasks.flatMap fun t => [.execDone t err, .free t]

/-- `cmdq_thread_handle_timeout_work` up to the error callback, with the two answers of
`cmdq_thread_timeout_excceed`. -/
def timeoutBegin (flag : IrqFlag) (exceeded exceeded' : Bool) (s : ThrSt) :
    List TaskEff × ThrSt × Option TimeoutWork :=
  if s.thr.taskBusyList = [] ∨ exceeded = false then ([], s, none)
  else
    let r := cmdqThreadIrqHandler gceShiftBit flag s
    let s := r.s
    if s.thr.taskBusyList = [] ∨ exceeded' = false then
      (r.effs ++ r.removes.map .free, s, none)
    else
      let paCurr := cmdqThreadGetPc gceShiftBit s
      let ending := s.thr.taskBusyList.takeWhile fun t =>
        !cmdqTaskIsCurrentRun paCurr (s.pkts t.pkt).pkt
      let rest := s.thr.taskBusyList.dropWhile fun t =>
        !cmdqTaskIsCurrentRun paCurr (s.pkts t.pkt).pkt
      let s := s.setList rest
      match rest with
      | timeoutTask :: _ =>
        (r.effs ++ doneAndFree 0 ending ++ [.errCallback timeoutTask],
          { s with thr := { s.thr with dirty := true } }, some ⟨timeoutTask, r.removes⟩)
      | [] => (r.effs ++ doneAndFree 0 ending ++ r.removes.map .free, s.disable, none)

/-- `cmdq_thread_handle_timeout_work` after the error callback. -/
def timeoutEnd (w : TimeoutWork) (s : ThrSt) : List TaskEff × ThrSt :=
  let s : ThrSt := { s with thr := { s.thr with dirty := false } }
  let r := match s.thr.taskBusyList with
    | task :: tasks =>
      if w.timeoutTask.ptr = task.ptr then
        ([TaskEff.execDone task (-etimedout), .free task], s.setList tasks)
      else ([], s)
    | [] => ([], s)
  let s := match r.2.thr.taskBusyList with
    | task :: _ =>
      -- `cmdq_thread_err_reset`
      let s := (r.2.setEnd gceShiftBit (cmdqThreadGetEnd gceShiftBit r.2)).setPc gceShiftBit
        task.paBase
      { s with thr := { s.thr with enabled := true } }
    | [] => r.2.disable
  (r.1 ++ w.removes.map .free, s)

/-! ## Removal and stop -/

/-- `cmdq_mbox_thread_remove_task`: the last component is the local list `removes` where the
function returns without freeing it. -/
def cmdqMboxThreadRemoveTask (pkt : Nat) (flag : IrqFlag) (s : ThrSt) :
    List TaskEff × ThrSt × List CmdqTask :=
  if s.thr.taskBusyList = [] then ([], s, [])
  else
    let r := cmdqThreadIrqHandler gceShiftBit flag s
    let s := r.s
    if s.thr.taskBusyList = [] then (r.effs, s, r.removes)
    else
      let paCurr := cmdqThreadGetPc gceShiftBit s
      let before := s.thr.taskBusyList.takeWhile fun t => t.pkt ≠ pkt
      match s.thr.taskBusyList.dropWhile fun t => t.pkt ≠ pkt with
      | [] => (r.effs ++ r.removes.map .free, s, [])
      | task :: after =>
        -- the first task is skipped while its error is handled
        if before = [] ∧ s.thr.dirty then (r.effs, s, r.removes)
        else
          let currTask := cmdqTaskIsCurrentRun paCurr (s.pkts task.pkt).pkt
          let effs := r.effs ++
            [.removed task (if currTask then -econnaborted else 0), .free task]
          let s := s.setList (before ++ after)
          match before ++ after with
          | [] => (effs, s.disable, r.removes)
          | first :: _ =>
            let s := if currTask then s.setPc gceShiftBit first.paBase else s
            (effs ++ r.removes.map .free,
              if after = [] then s.resetEnd gceShiftBit else s, [])

/-- `cmdq_mbox_thread_stop`, with `removes` where it is not freed. -/
def cmdqMboxThreadStop (flag : IrqFlag) (s : ThrSt) : List TaskEff × ThrSt × List CmdqTask :=
  if s.thr.taskBusyList = [] then ([], s, [])
  else
    let r := cmdqThreadIrqHandler gceShiftBit flag s
    let s := r.s
    if s.thr.taskBusyList = [] then (r.effs, s, r.removes)
    else
      (r.effs ++ doneAndFree (-econnaborted) s.thr.taskBusyList ++ r.removes.map .free,
        (s.setList []).disable, [])

end

/-! ## The engine -/

/-- The engine with `n` threads: `worker` is the timeout worker of a thread while it calls the error
callback, `irqRemoves` the local list of the interrupt handler, and `serial` the number of the next
task. -/
structure Gce (n : Nat) where
  usage : Int
  thread : Fin n → CmdqThread
  pkts : Nat → PktRec
  worker : Fin n → Option TimeoutWork
  irqRemoves : List CmdqTask
  serial : Nat

/-- What happens, each under the lock of a thread's channel. -/
inductive GceEv (n : Nat)
  /-- A packet is sent to the thread. -/
  | submit (i : Fin n) (pkt : Nat) (ptr : Option Nat)
  /-- `cmdq_irq_handler` handles a thread. -/
  | irq (i : Fin n) (flag : IrqFlag)
  /-- `cmdq_irq_handler` frees the tasks that are done. -/
  | irqEnd
  | timeout (i : Fin n) (flag : IrqFlag) (exceeded exceeded' : Bool)
  | timeoutEnd (i : Fin n)
  | removeTask (i : Fin n) (pkt : Nat) (flag : IrqFlag)
  | stop (i : Fin n) (flag : IrqFlag)
  /-- `cmdq_mbox_enable`. -/
  | enable
  /-- `cmdq_mbox_disable`. -/
  | disable
  /-- The thread runs on to another address. -/
  | progress (i : Fin n) (addr : Nat)
  /-- A client works on a packet. -/
  | client (pkt : Nat) (rec : PktRec)

/-- What happens to the tasks, and those that are on a local list when it is given up. -/
structure GceOut where
  effs : List TaskEff
  leaked : List CmdqTask

namespace Gce

variable {n : Nat} (gceShiftBit : Nat) (s : Gce n)

/-- What a function that holds the lock of a thread's channel works on. -/
def lock (i : Fin n) : ThrSt := ⟨s.usage, s.thread i, s.pkts⟩

/-- The engine after it. -/
def unlock (i : Fin n) (t : ThrSt) : Gce n :=
  { s with usage := t.usage, thread := Function.update s.thread i t.thr, pkts := t.pkts }

/-- One event. The timeout worker of a thread is one work item: it does not start again while it
runs. -/
def next : GceEv n → GceOut × Gce n
  | .submit i pkt ptr =>
    let r := cmdqTaskExec gceShiftBit s.serial pkt ptr (s.lock i)
    (⟨r.1, []⟩, { s.unlock i r.2 with serial := s.serial + 1 })
  | .irq i flag =>
    let r := cmdqThreadIrqHandler gceShiftBit flag (s.lock i)
    (⟨r.effs, []⟩, { s.unlock i r.s with irqRemoves := s.irqRemoves ++ r.removes })
  | .irqEnd => (⟨s.irqRemoves.map .free, []⟩, { s with irqRemoves := [] })
  | .timeout i flag exceeded exceeded' =>
    match s.worker i with
    | some _ => (⟨[], []⟩, s)
    | none =>
      let r := timeoutBegin gceShiftBit flag exceeded exceeded' (s.lock i)
      (⟨r.1, []⟩, { s.unlock i r.2.1 with worker := Function.update s.worker i r.2.2 })
  | .timeoutEnd i =>
    match s.worker i with
    | none => (⟨[], []⟩, s)
    | some w =>
      let r := Cmdq.timeoutEnd gceShiftBit w (s.lock i)
      (⟨r.1, []⟩, { s.unlock i r.2 with worker := Function.update s.worker i none })
  | .removeTask i pkt flag =>
    let r := cmdqMboxThreadRemoveTask gceShiftBit pkt flag (s.lock i)
    (⟨r.1, r.2.2⟩, s.unlock i r.2.1)
  | .stop i flag =>
    let r := cmdqMboxThreadStop gceShiftBit flag (s.lock i)
    (⟨r.1, r.2.2⟩, s.unlock i r.2.1)
  | .enable => (⟨[], []⟩, { s with usage := s.usage + 1 })
  | .disable => (⟨[], []⟩, { s with usage := s.usage - 1 })
  | .progress i addr =>
    (⟨[], []⟩, { s with
      thread := Function.update s.thread i { s.thread i with currAddr := addr } })
  | .client pkt rec => (⟨[], []⟩, { s with pkts := Function.update s.pkts pkt rec })

/-- The step function of runs. -/
def step (e : GceEv n) : Option (GceOut × Gce n) := some (s.next gceShiftBit e)

/-- The engine before the first packet. -/
def init (pkts : Nat → PktRec) : Gce n where
  usage := 0
  thread := fun _ => ⟨[], false, false, 0, 0⟩
  pkts := pkts
  worker := fun _ => none
  irqRemoves := []
  serial := 0

end Gce

end Cmdq
