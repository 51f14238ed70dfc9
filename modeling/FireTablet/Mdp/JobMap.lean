import FireTablet.Lib.Run
import Mathlib.Data.Finset.Card
import Mathlib.Data.List.Nodup
import Mathlib.Algebra.Group.Nat.Defs

/-!
# The jobs of the display processor and their buffers (`mdp_ioctl_ex.c`, `cmdq-sec-helper.c`)

A submission maps the dma-bufs of a secure job's metadata, then those of its metas, and hands its
task to the hardware. It then puts a record of the job, with the buffers of the metas, into a list,
from which a wait, another wait that finds it pending for too long, or the close of its file takes
it. The secure buffers are in the data of the task's packet. A call comes in the parts between which
others can take the list's lock, and is named by its task. Releasing a buffer that is not mapped,
reading behind the arrays of the secure data and using a task that was destroyed give `none`.
-/

namespace Mdp.JobMap

/-- A file, which the driver knows by its `cmdqFileNodeStruct`. -/
abbrev FileId := Nat

abbrev TaskId := Nat

/-- A mapped dma-buf: the attachment and its table. -/
abbrev BufId := Nat

def enomem : Int := -12

def efault : Int := -14

def einval : Int := -22

def etimedout : Int := -110

def maxHandleNum : Nat := 10

def secMaxHandleNum : Nat := 10

def cmdqIwcMaxAddrListLength : Nat := 30

/-- `MDP_MAX_METADATA_COUNT_SIZE`: `struct cmdqSecAddrMetadataStruct` has 32 bytes. -/
def mdpMaxMetadataCountSize : Nat := 0xffffffff / 32

/-- A task waits for a thread, runs on it, has finished, or was destroyed. -/
inductive Phase
  | waiting
  | running
  | finished
  | gone
  deriving DecidableEq

/-- `struct cmdq_sec_data`: the count of the metadata, and the buffers in its arrays. -/
structure SecData where
  addrMetadataCount : Nat
  dmaBuffer : List BufId
  deriving DecidableEq

/-- `struct cmdqRecStruct` with the secure data of its packet, where `auto` says that work was
queued that destroys the task when it has finished. -/
structure Task where
  phase : Phase
  node : FileId
  auto : Bool
  secData : Option SecData
  deriving DecidableEq

/-- The secure buffers of a packet. -/
def secBufs : Option SecData → List BufId
  | none => []
  | some d => d.dmaBuffer

/-- The count of the metadata of a packet. -/
def secCount : Option SecData → Nat
  | none => 0
  | some d => d.addrMetadataCount

/-- One entry of the arrays of `struct mdp_job_mapping`. -/
structure Mapping where
  fd : Int
  buf : BufId
  mva : Nat
  deriving DecidableEq

/-- `struct mdp_job_mapping`. -/
structure JobMapping where
  id : UInt64
  job : TaskId
  node : FileId
  maps : List Mapping
  deriving DecidableEq

/-- The buffers of a record. -/
def JobMapping.bufs (j : JobMapping) : List BufId := j.maps.map (·.buf)

/-- The buffers, the tasks, the list of jobs, and the records that calls hold: submissions before
they have put theirs into the list, and waits after they have taken theirs. -/
structure State where
  mapped : Finset BufId
  nextBuf : Nat
  tasks : TaskId → Task
  nextTask : Nat
  execs : List JobMapping
  list : List JobMapping
  waits : List JobMapping
  jobMappingIdx : UInt64

def init : State where
  mapped := ∅
  nextBuf := 0
  tasks := fun _ => ⟨.gone, 0, false, none⟩
  nextTask := 0
  execs := []
  list := []
  waits := []
  jobMappingIdx := 1

/-- What a call returns, when it returns with this step. -/
structure Out where
  result : Option Int
  deriving DecidableEq

/-- New buffers are mapped. -/
def State.mapBufs (s : State) (bufs : List BufId) (nextBuf : BufId) : State :=
  { s with mapped := s.mapped ∪ bufs.toFinset, nextBuf := nextBuf }

/-! ## Secure jobs -/

/-- What a secure job brings: the status of the set-up before the metadata are assigned, whether
there is memory for the secure data and for a copy of the metadata, and the address at which the
handle of each of them is mapped, if it can be. -/
structure SecSubmit where
  status : Int
  secData : Bool
  array : Bool
  handles : List (Option UInt64)

/-- The loop of `cmdq_sec_pkt_assign_metadata` with the next buffer. A handle that is not mapped at
a good address ends it, and what it has mapped is released. -/
def mapHandles : List (Option UInt64) → BufId → Option (List BufId)
  | [], _ => some []
  | none :: _, _ => none
  | some addr :: hs, n => if addr = 0 then none else (mapHandles hs (n + 1)).map (n :: ·)

/-- `cmdq_sec_pkt_assign_metadata`, whose caller drops its status. -/
def assignMetadata (u : SecSubmit) (n : BufId) : SecData :=
  if u.handles.length ≥ cmdqIwcMaxAddrListLength ∨ !u.array then ⟨0, []⟩
  else
    match mapHandles (u.handles.take secMaxHandleNum) n with
    | none => ⟨0, []⟩
    | some bufs => ⟨u.handles.length, bufs⟩

/-- `cmdq_mdp_handle_sec_setup`. -/
def handleSecSetup (sec : Option SecSubmit) (n : BufId) : Option (Int × Option SecData) :=
  match sec with
  | none => some (0, none)
  | some u =>
    if u.handles = [] ∨ u.handles.length > mdpMaxMetadataCountSize then some (einval, none)
    else if u.status < 0 then some (u.status, none)
    -- `cmdq_sec_pkt_set_mtee` does not check its pointer
    else if !u.secData then none
    else some (0, some (assignMetadata u n))

/-! ## Translation -/

/-- A buffer of a meta: the port of its engine, and the address at which it is mapped, if it can
be. -/
structure FdMeta where
  port : Nat
  fd : Int
  fdOffset : UInt32
  answer : Option UInt64
  deriving DecidableEq

/-- `struct op_meta`: a write of a buffer's address, a read into a slot, whose count may be at its
limit, or another operation. -/
inductive Meta
  | writeFd (m : FdMeta) (regOk : Bool) (status : Int)
  | read (status : Int) (full : Bool)
  | other (status : Int)
  deriving DecidableEq

/-- A translation: the buffers mapped, the next one and the status. -/
structure Trans where
  maps : List Mapping
  nextBuf : BufId
  status : Int

/-- `translate_fd`, where 0 is `INVALID_MVA`. A buffer that is mapped at no good address is released
at once. -/
def translateFd (m : FdMeta) (t : Trans) : Nat × Trans :=
  if m.port = 0 then (0, t)
  else
    match t.maps.find? (·.fd = m.fd) with
    | some x => ((x.mva + m.fdOffset.toNat) % 2 ^ 64, t)
    | none =>
      if t.maps.length ≥ maxHandleNum then (0, t)
      else
        match m.answer with
        | none => (0, t)
        | some addr =>
          if addr = 0 ∨ addr.toNat + m.fdOffset.toNat ≥ 2 ^ 64 then (0, t)
          else (addr.toNat + m.fdOffset.toNat, { t with
            maps := t.maps ++ [⟨m.fd, t.nextBuf, addr.toNat⟩], nextBuf := t.nextBuf + 1 })

/-- `translate_meta`. -/
def translateMeta (m : Meta) (t : Trans) : Int × Trans :=
  match m with
  | .writeFd m regOk status =>
    let (mva, t) := translateFd m t
    if !regOk ∨ mva = 0 then (einval, t) else (status, t)
  | .read status _ => (status, t)
  | .other status => (status, t)

/-- A read into a slot whose count is at its limit. -/
def Meta.full : Meta → Bool
  | .read _ full => full
  | _ => false

/-- The metas of one page, up to the first that is not translated. The answer is whether the
translation returns at once. -/
def translateMetas : List Meta → Trans → Bool × Trans
  | [], t => (false, t)
  | m :: ms, t =>
    let (status, t) := translateMeta m t
    let t := { t with status := status }
    if status < 0 then (false, t)
    else if m.full then (true, { t with status := einval })
    else translateMetas ms t

/-- A page of metas, and whether it is copied from the user. -/
structure Page where
  copyIn : Bool
  metas : List Meta

/-- `translate_user_job`. A meta that fails ends its page only. -/
def translateUserJob : List Page → Trans → Trans
  | [], t => t
  | p :: ps, t =>
    if !p.copyIn then { t with status := einval }
    else
      match translateMetas p.metas t with
      | (true, t) => t
      | (false, t) => translateUserJob ps t

/-! ## Submission -/

/-- A submission: its secure part, its metas and the status of its other steps, `setup` of those
before the secure set-up. -/
structure Submit where
  setup : Int
  sec : Option SecSubmit
  pages : List Page
  readV1 : Int
  flushCmdBuf : Bool
  flush : Int

/-- The translation of a submission's metas. -/
def Submit.translation (u : Submit) (s : State) : Trans :=
  translateUserJob u.pages ⟨[], s.nextBuf, 0⟩

/-- The buffers of the metadata mapped. -/
def State.mapSec (s : State) (sec : Option SecData) : State :=
  s.mapBufs (secBufs sec) (s.nextBuf + (secBufs sec).length)

/-- The buffers of the metas mapped. -/
def State.mapMetas (s : State) (u : Submit) : State :=
  s.mapBufs ((u.translation s).maps.map (·.buf)) (u.translation s).nextBuf

/-- A new task in the waiting list, with the record of its job. -/
def State.start (s : State) (f : FileId) (sec : Option SecData) (maps : List Mapping) : State :=
  { s with
    tasks := Function.update s.tasks s.nextTask ⟨.waiting, f, false, sec⟩
    nextTask := s.nextTask + 1
    execs := s.execs ++ [⟨0, s.nextTask, f, maps⟩] }

/-- `mdp_ioctl_async_exec` behind the secure set-up, up to the list's lock. Its errors free the
record of the job and the task, and do not release the buffers of either. -/
def asyncExecJob (s : State) (f : FileId) (u : Submit) (sec : Option SecData) : Out × State :=
  let s := s.mapSec sec
  let t := u.translation s
  let s := s.mapMetas u
  if t.status < 0 then (⟨some t.status⟩, s)
  else if u.readV1 < 0 then (⟨some u.readV1⟩, s)
  else if !u.flushCmdBuf then (⟨some efault⟩, s)
  else if u.flush < 0 then (⟨some u.flush⟩, s)
  else (⟨none⟩, s.start f sec t.maps)

/-- `mdp_ioctl_async_exec` up to the list's lock. -/
def asyncExec (s : State) (f : FileId) (u : Submit) : Option (Out × State) :=
  if u.setup < 0 then some (⟨some u.setup⟩, s)
  else
    (handleSecSetup u.sec s.nextBuf).map fun q =>
      if q.1 < 0 then (⟨some q.1⟩, s) else asyncExecJob s f u q.2

/-- The id of the next job. -/
def State.nextId (s : State) : UInt64 := if s.jobMappingIdx = 0 then 1 else s.jobMappingIdx

/-- The rest of `mdp_ioctl_async_exec`. -/
def enlist (s : State) (t : TaskId) (copyOut : Bool) : Out × State :=
  match s.execs.find? (·.job = t) with
  | none => (⟨none⟩, s)
  | some j =>
    (⟨some (if copyOut then 0 else efault)⟩, { s with
      execs := s.execs.eraseP (·.job = t)
      list := s.list ++ [{ j with id := s.nextId }]
      jobMappingIdx := s.nextId + 1 })

/-! ## Waiting -/

/-- `mdp_ion_free_handle` for several buffers. -/
def releaseBufs : List BufId → State → Option State
  | [], s => some s
  | b :: bs, s =>
    if b ∈ s.mapped then releaseBufs bs { s with mapped := s.mapped.erase b } else none

/-- The loop of `mdp_ioctl_async_wait` over the metadata of a secure job. Behind the entries of the
arrays there is no buffer. -/
def releaseSec (sec : Option SecData) (s : State) : Option State :=
  match sec with
  | none => some s
  | some d =>
    if d.dmaBuffer.length < d.addrMetadataCount then none
    else releaseBufs (d.dmaBuffer.take d.addrMetadataCount) s

def State.setTask (s : State) (t : TaskId) (k : Task) : State :=
  { s with tasks := Function.update s.tasks t k }

/-- `mdp_check_pending_task` for a task pending for too long: the buffers of the record are
released, and work is queued that destroys the task, unless it has no thread yet. -/
def expire (s : State) (j : JobMapping) : Option State :=
  let k := s.tasks j.job
  releaseBufs j.bufs (if k.phase = .waiting then s else s.setTask j.job { k with auto := true })

/-- The walk of `mdp_ioctl_async_wait` through the list: the job it finds, the list it leaves, and
the state. -/
def findJob (late : JobMapping → Bool) (id : UInt64) :
    List JobMapping → State → Option (Option JobMapping × List JobMapping × State)
  | [], s => some (none, [], s)
  | j :: js, s =>
    if j.id = id then some (some j, js, s)
    else if (s.tasks j.job).phase = .gone then none
    else if late j then (expire s j).bind (findJob late id js)
    else (findJob late id js s).map fun q => (q.1, j :: q.2.1, q.2.2)

/-- `mdp_ioctl_async_wait` up to the end of the locked part. -/
def take (s : State) (copyIn : Bool) (id : UInt64) (late : JobMapping → Bool) :
    Option (Out × State) :=
  if !copyIn then some (⟨some efault⟩, s)
  else
    (findJob late id s.list s).map fun q =>
      match q.1 with
      | none => (⟨some efault⟩, { q.2.2 with list := q.2.1 })
      | some j => (⟨none⟩, { q.2.2 with list := q.2.1, waits := s.waits ++ [j] })

/-- The steps of a wait for a task that has finished. -/
structure WaitEnd where
  wait : Int
  countOk : Bool
  copyOut : Bool
  read : Int

def WaitEnd.status (w : WaitEnd) : Int :=
  if w.wait < 0 then w.wait
  else if !w.countOk then enomem
  else if !w.copyOut then efault
  else w.read

/-- The record of a wait freed, with its buffers, the secure ones and the task. -/
def closeWait (s : State) (j : JobMapping) (status : Int) : Option (Out × State) :=
  ((releaseBufs j.bufs s).bind (releaseSec (s.tasks j.job).secData)).map fun s =>
    (⟨some status⟩, { s.setTask j.job { s.tasks j.job with phase := .gone } with
      waits := s.waits.eraseP (·.job = j.job) })

/-- The rest of `mdp_ioctl_async_wait`: a task that has finished, or one that gets no thread in
time. -/
def endWait (s : State) (t : TaskId) (timeout : Bool) (w : WaitEnd) : Option (Out × State) :=
  match s.waits.find? (·.job = t) with
  | none => some (⟨none⟩, s)
  | some j =>
    match (s.tasks t).phase with
    | .gone => none
    | .running => some (⟨none⟩, s)
    | .waiting => if timeout then closeWait s j etimedout else some (⟨none⟩, s)
    | .finished => closeWait s j w.status

/-! ## Closing a file -/

/-- The buffers of several records released. -/
def releaseJobs : List JobMapping → State → Option State
  | [], s => some s
  | j :: js, s => (releaseBufs j.bufs s).bind (releaseJobs js)

/-- `mdp_ioctl_free_job_by_node`. -/
def freeJobByNode (s : State) (f : FileId) : Option State :=
  (releaseJobs (s.list.filter (·.node = f)) s).map fun s' =>
    { s' with list := s.list.filter (·.node ≠ f) }

/-- A task whose file is closed: a waiting one is destroyed, another one is to be destroyed. -/
def Task.close (k : Task) : Task :=
  if k.phase = .waiting then { k with phase := .gone } else { k with auto := true }

/-- `cmdq_mdp_release_task_by_file_node`. -/
def releaseTaskByFileNode (s : State) (f : FileId) : State :=
  { s with tasks := fun t => if (s.tasks t).node = f then (s.tasks t).close else s.tasks t }

/-! ## Runs -/

/-- The parts of the calls, the close of a file (`cmdq_release` is `freeJobs` and `releaseTasks`,
`mdp_limit_release` is `releaseTasks`), and what happens to a task: a thread takes it, it finishes,
and queued work destroys it. -/
inductive Op
  | submit (f : FileId) (u : Submit)
  | enlist (t : TaskId) (copyOut : Bool)
  | take (copyIn : Bool) (id : UInt64) (late : JobMapping → Bool)
  | endWait (t : TaskId) (timeout : Bool) (w : WaitEnd)
  | freeJobs (f : FileId)
  | releaseTasks (f : FileId)
  | dispatch (t : TaskId)
  | finish (t : TaskId)
  | destroy (t : TaskId)

def step (s : State) : Op → Option (Out × State)
  | .submit f u => asyncExec s f u
  | .enlist t copyOut => some (enlist s t copyOut)
  | .take copyIn id late => take s copyIn id late
  | .endWait t timeout w => endWait s t timeout w
  | .freeJobs f => (freeJobByNode s f).map fun s => (⟨none⟩, s)
  | .releaseTasks f => some (⟨none⟩, releaseTaskByFileNode s f)
  | .dispatch t =>
    if (s.tasks t).phase = .waiting then
      some (⟨none⟩, s.setTask t { s.tasks t with phase := .running })
    else some (⟨none⟩, s)
  | .finish t =>
    if (s.tasks t).phase = .running then
      some (⟨none⟩, s.setTask t { s.tasks t with phase := .finished })
    else some (⟨none⟩, s)
  | .destroy t =>
    if (s.tasks t).auto ∧ (s.tasks t).phase = .finished then
      some (⟨none⟩, s.setTask t { s.tasks t with phase := .gone })
    else some (⟨none⟩, s)

end Mdp.JobMap
