import FireTablet.Cmdq.Pkt

/-!
# Flushing a packet (`mtk-cmdq-helper-ext.c`)

The fields of a packet that a flush uses: the flush item that is allocated anew for each flush, the
two callback slots that the flush points to the driver's own functions, and the completion that
`cmdq_pkt_wait_complete` waits for. The thread that runs the packet calls the slots back when the
packet's task ends. `cmdq_pkt_flush` is a flush without a callback and, if that returns no error, a
wait. Callbacks of clients are functions with their data, of any type `κ`.
-/

namespace Cmdq

def econnaborted : Int := 103
def etimedout : Int := 110

/-- A function in a callback slot, with its data; the data of the driver's functions is the
packet. -/
inductive CmdqCb (κ : Type*)
  | client (c : κ)
  | cmdqFlushAsyncCb
  | cmdqPktErrDumpCb
  deriving DecidableEq

section
variable {κ : Type*}

/-- `struct cmdq_flush_item`. -/
structure CmdqFlushItem (κ : Type*) where
  cb : Option (CmdqCb κ)
  errCb : Option (CmdqCb κ)
  err : Int

/-- The fields of `struct cmdq_pkt` for its flushes; `cmplt` counts the completions that nobody has
waited for. -/
structure FlushPkt (κ : Type*) where
  flushItem : Option (CmdqFlushItem κ)
  cb : Option (CmdqCb κ)
  errCb : Option (CmdqCb κ)
  cmplt : Nat
  taskAlloc : Bool

/-- A packet from `cmdq_pkt_create`. -/
def FlushPkt.create : FlushPkt κ := ⟨none, none, none, 0, false⟩

/-- The client's functions that are called, with their errors. -/
abbrev Calls (κ : Type*) := List (κ × Int)

/-- The function in a slot is called with an error. `none` if calls nest deeper than `depth` or the
packet has no flush item. -/
def callCb (depth : Nat) (pkt : FlushPkt κ) (cb : Option (CmdqCb κ)) (err : Int) :
    Option (Calls κ × FlushPkt κ) :=
  match depth, cb with
  | _, none => some ([], pkt)
  | 0, some _ => none
  | _ + 1, some (.client c) => some ([(c, err)], pkt)
  | depth + 1, some .cmdqFlushAsyncCb =>
    -- `cmdq_flush_async_cb`: the client's callback, then the completion
    match pkt.flushItem with
    | none => none
    | some item =>
      (callCb depth pkt item.cb err).map fun r => (r.1, { r.2 with cmplt := r.2.cmplt + 1 })
  | depth + 1, some .cmdqPktErrDumpCb =>
    -- `cmdq_pkt_err_dump_cb`: the error is kept for the wait, then the saved callback is called
    match pkt.flushItem with
    | none => none
    | some item =>
      callCb depth { pkt with flushItem := some { item with err := err } } item.errCb err

/-- `cmdq_task_callback`. -/
def cmdqTaskCallback (depth : Nat) (pkt : FlushPkt κ) (err : Int) :
    Option (Calls κ × FlushPkt κ) :=
  callCb depth pkt pkt.cb err

/-- `cmdq_task_err_callback`. -/
def cmdqTaskErrCallback (depth : Nat) (pkt : FlushPkt κ) (err : Int) :
    Option (Calls κ × FlushPkt κ) :=
  callCb depth pkt pkt.errCb err

/-- What a flush is answered: whether there is memory for the flush item, what
`cmdq_pkt_finalize` returns, what `mbox_send_message` returns, and whether there is memory for the
task (`cmdq_task_exec`). -/
structure FlushAns where
  item : Bool
  finalize : Int
  send : Int
  task : Bool

/-- How the task of a packet ends. -/
inductive Outcome
  /-- The packet has been run, or removed when it was not running. -/
  | done
  /-- An error interrupt. -/
  | errIrq
  /-- `cmdq_thread_handle_timeout_work`. -/
  | timeout
  /-- The thread is stopped while the error callback of a timeout runs. -/
  | timeoutAbort
  /-- The thread is stopped, or the packet removed while it was running. -/
  | abort
  /-- There is no memory for the task. -/
  | noMem
  deriving DecidableEq

/-- The error that the completion carries. -/
def Outcome.err : Outcome → Int
  | .done => 0
  | .errIrq => -einval
  | .timeout => -etimedout
  | .timeoutAbort => -econnaborted
  | .abort => -econnaborted
  | .noMem => -enomem

/-- The error callback is called. -/
def Outcome.timedOut : Outcome → Bool
  | .timeout => true
  | .timeoutAbort => true
  | _ => false

/-- How the last task ended, and whether `err_cb` was the driver's then. -/
structure Ended where
  outcome : Outcome
  dumpCb : Bool

/-- A packet and the thread it is flushed to: how many tasks of the packet are in the thread's
list. -/
structure FlushSys (κ : Type*) where
  pkt : FlushPkt κ
  queued : Nat
  ended : Option Ended

def FlushSys.create : FlushSys κ := ⟨.create, 0, none⟩

/-- What happens to a packet. -/
inductive FlushEv (κ : Type*)
  | setErrCb (cb : Option κ)
  | flushAsync (cb : Option κ) (a : FlushAns)
  | taskEnds (o : Outcome)
  | waitComplete

/-- What a call returns, and the client's functions that are called through the two slots. -/
structure FlushOut (κ : Type*) where
  ret : Int
  cbs : Calls κ
  errCbs : Calls κ

/-- `cmdq_pkt_set_err_cb`. -/
def cmdqPktSetErrCb (cb : Option κ) (pkt : FlushPkt κ) : FlushPkt κ :=
  { pkt with errCb := cb.map .client }

/-- `cmdq_prepare_flush_tiem`. -/
def cmdqPrepareFlushTiem (a : FlushAns) (pkt : FlushPkt κ) : FlushPkt κ :=
  { pkt with flushItem := if a.item then some ⟨none, none, 0⟩ else none }

/-- The callbacks that a flush puts into the item and the slots. -/
def FlushPkt.wrapped (pkt : FlushPkt κ) (cb : Option κ) : FlushPkt κ :=
  { pkt with
    flushItem := some ⟨cb.map .client, pkt.errCb, 0⟩
    cb := some .cmdqFlushAsyncCb
    errCb := some .cmdqPktErrDumpCb }

/-- `cmdq_pkt_flush_async`. -/
def cmdqPktFlushAsync (depth : Nat) (cb : Option κ) (a : FlushAns) (s : FlushSys κ) :
    Option (FlushOut κ × FlushSys κ) :=
  let pkt := cmdqPrepareFlushTiem a s.pkt
  if !a.item then some (⟨-enomem, [], []⟩, { s with pkt := pkt, ended := none })
  else if a.finalize < 0 then some (⟨a.finalize, [], []⟩, { s with pkt := pkt, ended := none })
  else
    let pkt := pkt.wrapped cb
    if a.send < 0 then
      some (⟨if pkt.taskAlloc then a.send else -enomem, [], []⟩,
        { s with pkt := pkt, ended := none })
    else if a.task then
      some (⟨a.send, [], []⟩,
        ⟨{ pkt with taskAlloc := true }, s.queued + 1, none⟩)
    else
      -- `cmdq_task_exec` has no memory for the task
      (cmdqTaskCallback depth pkt (-enomem)).map fun r =>
        (⟨if r.2.taskAlloc then a.send else -enomem, r.1, []⟩,
          { s with pkt := r.2, ended := some ⟨.noMem, true⟩ })

/-- The thread is done with a task of the packet: `cmdq_task_exec_done`, and before it the error
callback on a timeout. -/
def taskEnds (depth : Nat) (o : Outcome) (s : FlushSys κ) : Option (FlushOut κ × FlushSys κ) :=
  let ended : Ended := ⟨o, match s.pkt.errCb with
    | some .cmdqPktErrDumpCb => true
    | _ => false⟩
  match if o.timedOut then cmdqTaskErrCallback depth s.pkt (-etimedout) else some ([], s.pkt) with
  | none => none
  | some (errCbs, pkt) =>
    (cmdqTaskCallback depth pkt o.err).map fun r =>
      (⟨0, r.1, errCbs⟩, ⟨r.2, s.queued - 1, some ended⟩)

/-- `cmdq_pkt_wait_complete` when it returns: it is not done while nothing is completed. -/
def cmdqPktWaitComplete (s : FlushSys κ) : Option (FlushOut κ × FlushSys κ) :=
  match s.pkt.flushItem with
  | none => some (⟨-einval, [], []⟩, s)
  | some item =>
    if s.pkt.cmplt = 0 then none
    else some (⟨item.err, [], []⟩,
      { s with pkt := { s.pkt with cmplt := s.pkt.cmplt - 1, taskAlloc := false } })

/-- One event, where calls nest at most `depth` deep. -/
def FlushSys.step (depth : Nat) (s : FlushSys κ) : FlushEv κ → Option (FlushOut κ × FlushSys κ)
  | .setErrCb cb => some (⟨0, [], []⟩, { s with pkt := cmdqPktSetErrCb cb s.pkt })
  | .flushAsync cb a => cmdqPktFlushAsync depth cb a s
  | .taskEnds o => if s.queued = 0 then none else taskEnds depth o s
  | .waitComplete => cmdqPktWaitComplete s

end

end Cmdq
