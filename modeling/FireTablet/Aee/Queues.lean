import FireTablet.Lib.Run
import Mathlib.Data.Finset.Card

/-!
# The exception queues (`aed-main.c`)

A report puts a record into its queue, from which a worker presents one after the other to the
daemon: the record goes into `kerec.lastlog` or `aed_dev.eerec`, its indication into the message,
and when the daemon has sent a close notification, or after five minutes, it is unlinked and freed.
Reads and requests of the daemon run meanwhile.

The two kinds of exceptions have a queue, a worker, a place for the record and a semaphore each. The
steps are what happens between two of the locks, semaphores and waits, and every look at the place
and use of what was found there. A use of a freed record or of `NULL` gives `none`.
-/

namespace Aee.Queues

/-- Kernel exceptions and external exceptions. -/
inductive Kind
  | ke
  | ee
  deriving DecidableEq

/-- A record, `struct aee_oops` or `struct aed_eerec`. -/
abbrev RecId := Nat

/-- The message to be read: the indication of a record, or the response to a request. -/
inductive Msg
  | ind (r : RecId)
  | rsp
  deriving DecidableEq

/-- A message written to the device: not a message, a request whose answer looks at the record so
often after the first look, the close notification, or one that is ignored. -/
inductive Req
  | bad
  | req (looks : Nat)
  | logClose
  | other
  deriving DecidableEq

/-- Where a worker is, with the entry of its loop and the next one, `none` for the end of the list:
before and in `ke_gen_ind_msg` or `ee_gen_ind_msg`, before the entry is unlinked (which `ret` says
whether to do), and before the record is destroyed. -/
inductive WorkerPc
  | idle
  | gen (r : RecId) (next : Option RecId)
  | msg (r : RecId) (next : Option RecId)
  | initCom (r : RecId) (next : Option RecId)
  | wait (r : RecId) (next : Option RecId)
  | unlink (r : RecId) (next : Option RecId) (ret : Bool)
  | destroy (r : RecId) (next : Option RecId)
  deriving DecidableEq

/-- Where a call of the daemon is, `held` being the record in the local variable of `aed_ee_write`:
a read before and behind the semaphore, and `aed_ee_read` with the record it has found and looked
at; a write before and behind the semaphore, with its message, and with so many looks at the record
to come; and with a record that it has looked at. -/
inductive CallPc
  | idle
  | read
  | reading
  | found
  | readHolds (r : RecId)
  | write (held : Option RecId) (q : Req)
  | writing (held : Option RecId) (q : Req)
  | request (held : Option RecId) (looks : Nat)
  | answer (held : Option RecId) (looks : Nat)
  | holds (held : Option RecId) (r : RecId) (looks : Nat)
  deriving DecidableEq

/-- One kind of exceptions. -/
structure Side where
  /-- The records that are not freed. -/
  alive : Finset RecId
  nextRec : RecId
  queue : List RecId
  /-- `kerec.lastlog` or `aed_dev.eerec`. -/
  slot : Option RecId
  msg : Option Msg
  /-- The calls of `queue_work` to come: by the tasklet, or by the reports themselves. -/
  kick : Nat
  /-- The work is pending. -/
  pending : Bool
  worker : WorkerPc
  /-- `aed_ke_com` or `aed_ee_com`. -/
  done : Nat
  readers : Nat
  writer : Bool
  calls : List CallPc
  deriving DecidableEq

def Side.init : Side where
  alive := ∅
  nextRec := 0
  queue := []
  slot := none
  msg := none
  kick := 0
  pending := false
  worker := .idle
  done := 0
  readers := 0
  writer := false
  calls := []

inductive Out
  | quiet
  /-- The indication of a record is raised. -/
  | indicated (r : RecId)
  | unlinked (r : RecId)
  | freed (r : RecId)
  /-- A read returns a message, if there is one. -/
  | read (m : Option Msg)
  deriving DecidableEq

/-! ## Reports -/

/-- `ke_queue_request`, which schedules the tasklet, and `ee_queue_request` up to `queue_work`. -/
def queueRequest (k : Kind) (s : Side) : Side :=
  { s with
    alive := insert s.nextRec s.alive
    nextRec := s.nextRec + 1
    queue := s.queue ++ [s.nextRec]
    kick := match k with
      | .ke => 1
      | .ee => s.kick + 1 }

/-- `queue_work`. -/
def queueWork (s : Side) : Side :=
  if s.kick = 0 then s else { s with kick := s.kick - 1, pending := true }

/-! ## The workers -/

/-- `aee_oops_free`, or the end of `ee_destroy_log`. -/
def Side.free (s : Side) (r : RecId) : Option Side :=
  if r ∈ s.alive then some { s with alive := s.alive.erase r } else none

/-- `list_next_entry`, for an entry of the list. -/
def listNext (queue : List RecId) (r : RecId) : Option (Option RecId) :=
  match queue.dropWhile (· ≠ r) with
  | [] => none
  | _ :: rest => some rest.head?

/-- The end of a turn of `list_for_each_entry_safe`. -/
def Side.advance (s : Side) : Option RecId → Option Side
  | none => some { s with worker := .idle }
  | some n => (listNext s.queue n).map fun next => { s with worker := .gen n next }

/-- `ke_gen_ind_msg` under `aed_device_lock`. -/
def keGenIndMsg (s : Side) (r : RecId) (next : Option RecId) : Option (Out × Side) :=
  match s.slot with
  | none => some (.quiet, { s with slot := some r, worker := .msg r next })
  | some _ => (s.free r).map fun s => (.freed r, { s with worker := .unlink r next false })

/-- `ee_gen_ind_msg` under `aed_device_lock`. -/
def eeGenIndMsg (s : Side) (r : RecId) (next : Option RecId) : Option (Out × Side) :=
  match s.slot with
  | none => some (.quiet, { s with slot := some r, worker := .msg r next })
  | some _ => some (.quiet, { s with worker := .unlink r next true })

def genIndMsg : Kind → Side → RecId → Option RecId → Option (Out × Side)
  | .ke => keGenIndMsg
  | .ee => eeGenIndMsg

/-- The indication in both functions, with members of the record. `ke_gen_ind_msg` goes without it
when `kerec.lastlog` is `NULL`; the message of an external exception is in `aed_dev.eerec`. -/
def indMsg (k : Kind) (s : Side) (r : RecId) (next : Option RecId) (alloc : Bool) :
    Option (Out × Side) :=
  if k = .ke ∧ s.slot = none then some (.quiet, { s with worker := .unlink r next true })
  else if k = .ee ∧ ∀ x ∈ s.slot, x ∉ s.alive then none
  else if !alloc then some (.quiet, { s with msg := none, worker := .unlink r next true })
  else if r ∉ s.alive then none
  else some (.indicated r, { s with msg := some (.ind r), worker := .initCom r next })

/-- `ke_destroy_log`. -/
def keDestroyLog (s : Side) : Option (Out × Side) :=
  let s := { s with msg := none }
  match s.slot with
  | none => some (.quiet, s)
  | some x => (({ s with slot := none } : Side).free x).map fun s => (.freed x, s)

/-- `ee_destroy_log`; the message is in the record. -/
def eeDestroyLog (s : Side) : Option (Out × Side) :=
  match s.slot with
  | none => some (.quiet, s)
  | some x => (({ s with slot := none, msg := none } : Side).free x).map fun s => (.freed x, s)

def destroyLog : Kind → Side → Option (Out × Side)
  | .ke => keDestroyLog
  | .ee => eeDestroyLog

/-- A step of `ke_worker` or `ee_worker`; `timeout` says whether a wait ends by its time-out, and
`alloc` whether there is memory for a message. -/
def work (k : Kind) (s : Side) (timeout alloc : Bool) : Option (Out × Side) :=
  match s.worker with
  | .idle =>
    if s.pending then
      some (.quiet, { s with
        pending := false
        worker := match s.queue with
          | [] => .idle
          | r :: rest => .gen r rest.head? })
    else some (.quiet, s)
  | .gen r next => genIndMsg k s r next
  | .msg r next => indMsg k s r next alloc
  | .initCom r next => some (.quiet, { s with done := 0, worker := .wait r next })
  | .wait r next =>
    if 0 < s.done then some (.quiet, { s with done := s.done - 1, worker := .unlink r next true })
    else if timeout then some (.quiet, { s with worker := .unlink r next true })
    else some (.quiet, s)
  | .unlink r next ret =>
    if ret then
      if r ∈ s.queue then
        some (.unlinked r, { s with queue := s.queue.erase r, worker := .destroy r next })
      else none
    else some (.quiet, { s with worker := .destroy r next })
  | .destroy _ next => (destroyLog k s).bind fun q => (q.2.advance next).map fun s => (q.1, s)

/-! ## The daemon -/

/-- The record in the local variable, if there is one, is used. -/
def Side.uses (s : Side) (held : Option RecId) : Prop := ∀ r ∈ held, r ∈ s.alive

instance (s : Side) (held : Option RecId) : Decidable (s.uses held) :=
  inferInstanceAs (Decidable (∀ _ ∈ _, _))

/-- The end of a write section. -/
def Side.upWrite (s : Side) : CallPc × Side := (.idle, { s with writer := false })

/-- The start of a write section: the message is destroyed and the new one is read. A call of
`aed_ee_write` that has found no record ends. -/
def writeBegin (k : Kind) (s : Side) (held : Option RecId) (q : Req) : Option (CallPc × Side) :=
  if k = .ee ∧ held = none then some s.upWrite
  else if ¬ s.uses held then none
  else
    let s := { s with msg := none }
    match q with
    | .bad => some s.upWrite
    | .req looks => some (.request held looks, s)
    | .logClose => some ({ s with done := s.done + 1 } : Side).upWrite
    | .other => some s.upWrite

/-- The answer to a request: `ke_log_avail` looks at the record it has found, and every answer to a
request about an external exception, that there is none too, looks at the record for its message. -/
def requestLooks (k : Kind) (s : Side) (looks : Nat) : Nat :=
  match k, s.slot with
  | .ke, none => 0
  | .ee, none => 1
  | _, some _ => looks + 1

/-- A step of a call, which waits for its semaphore as long as that is taken. -/
def callStep (k : Kind) (s : Side) (alloc : Bool) : CallPc → Option (Out × CallPc × Side)
  | .idle => some (.quiet, .idle, s)
  | .read =>
    if s.writer then some (.quiet, .read, s)
    else some (.quiet, .reading, { s with readers := s.readers + 1 })
  | .reading =>
    match k, s.slot with
    | .ke, _ => some (.read s.msg, .idle, { s with readers := s.readers - 1 })
    | .ee, none => some (.read none, .idle, { s with readers := s.readers - 1 })
    | .ee, some _ => some (.quiet, .found, s)
  | .found => s.slot.map fun r => (.quiet, .readHolds r, s)
  | .readHolds r =>
    if r ∈ s.alive then some (.read s.msg, .idle, { s with readers := s.readers - 1 }) else none
  | .write held q =>
    if s.writer ∨ 0 < s.readers then some (.quiet, .write held q, s)
    else some (.quiet, .writing held q, { s with writer := true })
  | .writing held q => (writeBegin k s held q).map fun p => (.quiet, p.1, p.2)
  | .request held looks => some (.quiet, .answer held (requestLooks k s looks), s)
  | .answer held (n + 1) => s.slot.map fun r => (.quiet, .holds held r n, s)
  | .answer _ 0 =>
    let p := ({ s with msg := if alloc then some .rsp else none } : Side).upWrite
    some (.quiet, p.1, p.2)
  | .holds held r n => if r ∈ s.alive then some (.quiet, .answer held n, s) else none

/-- `aed_ke_write` and `aed_ee_write` are called; the latter looks at the record at once. -/
def writeCall (k : Kind) (s : Side) (q : Req) : CallPc :=
  .write (match k with
    | .ke => none
    | .ee => s.slot) q

/-! ## Runs -/

/-- A report, the start of its work, a step of the worker, a read and a write that are called, and a
step of a call. -/
inductive Op
  | report
  | queueWork
  | work (timeout alloc : Bool)
  | read
  | write (q : Req)
  | call (c : Nat) (alloc : Bool)
  deriving DecidableEq

def sideStep (k : Kind) (s : Side) : Op → Option (Out × Side)
  | .report => some (.quiet, queueRequest k s)
  | .queueWork => some (.quiet, queueWork s)
  | .work timeout alloc => work k s timeout alloc
  | .read => some (.quiet, { s with calls := s.calls ++ [.read] })
  | .write q => some (.quiet, { s with calls := s.calls ++ [writeCall k s q] })
  | .call c alloc =>
    match s.calls[c]? with
    | none => some (.quiet, s)
    | some pc => (callStep k s alloc pc).map fun p =>
        (p.1, { p.2.2 with calls := p.2.2.calls.set c p.2.1 })

/-- Both kinds. -/
abbrev State := Kind → Side

def init : State := fun _ => .init

def step (s : State) (i : Kind × Op) : Option (Out × State) :=
  (sideStep i.1 (s i.1) i.2).map fun p => (p.1, Function.update s i.1 p.2)

end Aee.Queues
