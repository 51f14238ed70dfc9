import FireTablet.Lib.Run
import Mathlib.Data.Fintype.Prod
import Mathlib.Data.List.FinRange

/-!
# The readback slots of the display processor (`mdp_ioctl_ex.c`)

A readback slot is memory that a job reads registers into. There are 64 groups of 64 slots; a slot
has a bit in the mask of its group and a full group a bit in the mask of groups, masks being sets of
bits. Calls do not overlap. A call that uses the task of a job that a file close has destroyed gives
`none`.
-/

namespace Mdp.Readback

abbrev FileId := Nat

/-- A slot: its group and its bit there. -/
abbrev SlotId := Fin 64 × Fin 64

def maxCountInRbSlot : Nat := 4096

def cmdqMaxWriteAddrCount : Nat := 1024

def cmdqMaxDumpRegCount : Nat := 4096

def maxRefCount : Nat := 100000

/-- The room in `slot_ids` of a task. -/
def mdpSlotNum : Nat := 8

def enomem : Int := -12

def efault : Int := -14

def einval : Int := -22

/-- `struct mdp_readback_slot`. -/
structure RbSlot where
  count : Nat
  refCnt : Nat
  paStart : Nat
  fp : Option FileId
  deriving DecidableEq

def RbSlot.unused : RbSlot := ⟨0, 0, 0, none⟩

/-- `struct WriteAddrStruct`: `count` words from `pa` on. -/
structure WriteAddr where
  pa : Nat
  count : Nat
  fp : FileId
  deriving DecidableEq

/-- No word of one is a word of the other. -/
def WriteAddr.Apart (w w' : WriteAddr) : Prop :=
  w.pa + 4 * w.count ≤ w'.pa ∨ w'.pa + 4 * w'.count ≤ w.pa

instance (w w' : WriteAddr) : Decidable (w.Apart w') := inferInstanceAs (Decidable (_ ∨ _))

/-- A register read into word `offset` of the memory of a slot. -/
structure Read where
  slot : SlotId
  pa : Nat
  offset : Nat
  deriving DecidableEq

/-- `struct mdp_job_mapping` with its task: what the task reads, the slots it has counted, and
whether a file close has destroyed it. -/
structure Job where
  id : UInt64
  node : FileId
  slotIds : List SlotId
  reads : List Read
  dead : Bool
  deriving DecidableEq

/-- The tables of the driver. -/
structure State where
  rbSlot : SlotId → RbSlot
  allocSlot : Fin 64 → Finset (Fin 64)
  allocSlotGroup : Finset (Fin 64)
  writeAddr : List WriteAddr
  jobs : List Job
  jobMappingIdx : UInt64

def init : State where
  rbSlot := fun _ => .unused
  allocSlot := fun _ => ∅
  allocSlotGroup := ∅
  writeAddr := []
  jobs := []
  jobMappingIdx := 1

/-- What a call returns, and the id it copies to the user. -/
structure Out where
  result : Int
  id : Nat
  deriving DecidableEq

def State.setSlot (s : State) (sl : SlotId) (r : RbSlot) : State :=
  { s with rbSlot := Function.update s.rbSlot sl r }

/-- `id >> SLOT_ID_SHIFT`, when it is a slot. -/
def slotOf (id : UInt32) : Option SlotId :=
  if h : id.toNat / 65536 < 64 * 64 then
    some (⟨id.toNat / 65536 / 64, by omega⟩, ⟨id.toNat / 65536 % 64, by omega⟩)
  else none

/-- `alloc_slot_index << SLOT_ID_SHIFT`. -/
def startId (sl : SlotId) : UInt32 := UInt32.ofNat ((sl.2 + sl.1 * 64) * 65536)

/-! ## Allocating and freeing -/

/-- The first bit that is not set. -/
def ffz (mask : Finset (Fin 64)) : Option (Fin 64) :=
  (List.finRange 64).find? fun b => b ∉ mask

/-- `cmdq_free_write_addr`. -/
def freeWriteAddr (s : State) (pa : Nat) : Int × State :=
  if s.writeAddr.any (·.pa = pa) then
    (0, { s with writeAddr := s.writeAddr.eraseP (·.pa = pa) })
  else (einval, s)

/-- A request of `mdp_ioctl_alloc_readback_slots`, where the memory for it is at `mem`. -/
structure AllocReq where
  copyIn : Bool
  count : UInt32
  mem : Nat
  copyOut : Bool

/-- There is memory for a request: what an allocation gives is not in use. -/
def AllocReq.hasMem (s : State) (f : FileId) (c : AllocReq) : Bool :=
  c.mem ≠ 0 ∧ ∀ w ∈ s.writeAddr, w.Apart ⟨c.mem, c.count.toNat, f⟩

/-- `cmdq_alloc_write_addr`. -/
def allocWriteAddr (s : State) (f : FileId) (c : AllocReq) : Int × State :=
  if c.count.toNat = 0 ∨ c.count.toNat > cmdqMaxWriteAddrCount then (einval, s)
  else if !c.hasMem s f then (enomem, s)
  else (0, { s with writeAddr := s.writeAddr ++ [⟨c.mem, c.count.toNat, f⟩] })

/-- The bits of a slot set. -/
def State.takeSlot (s : State) (sl : SlotId) : State :=
  let allocSlot := Function.update s.allocSlot sl.1 (insert sl.2 (s.allocSlot sl.1))
  { s with
    allocSlot := allocSlot
    allocSlotGroup :=
      if allocSlot sl.1 = Finset.univ then insert sl.1 s.allocSlotGroup else s.allocSlotGroup }

/-- The bits of a slot cleared, and the slot. -/
def State.clearSlot (s : State) (sl : SlotId) : State :=
  let allocSlot := Function.update s.allocSlot sl.1 ((s.allocSlot sl.1).erase sl.2)
  { s.setSlot sl { s.rbSlot sl with count := 0, paStart := 0, fp := none } with
    allocSlot := allocSlot
    allocSlotGroup :=
      if allocSlot sl.1 ≠ Finset.univ then s.allocSlotGroup.erase sl.1 else s.allocSlotGroup }

/-- `mdp_ioctl_alloc_readback_slots`. A failing copy to the user leaves the slot taken, and the bits
are set before the use count is looked at. -/
def allocReadbackSlots (s : State) (f : FileId) (c : AllocReq) : Out × State :=
  if !c.copyIn then (⟨efault, 0⟩, s)
  else if c.count.toNat > maxCountInRbSlot then (⟨einval, 0⟩, s)
  else
    let (status, s) := allocWriteAddr s f c
    if status ≠ 0 then (⟨status, 0⟩, s)
    else
      match ffz s.allocSlotGroup with
      | none => (⟨enomem, 0⟩, (freeWriteAddr s c.mem).2)
      | some group =>
        match ffz (s.allocSlot group) with
        | none => (⟨efault, 0⟩, (freeWriteAddr s c.mem).2)
        | some bit =>
          let sl := (group, bit)
          let s := s.takeSlot sl
          if (s.rbSlot sl).refCnt ≠ 0 then (⟨enomem, 0⟩, (freeWriteAddr s c.mem).2)
          else
            let s := s.setSlot sl
              { s.rbSlot sl with count := c.count.toNat, paStart := c.mem, fp := some f }
            if !c.copyOut then (⟨efault, 0⟩, s) else (⟨0, (startId sl).toNat⟩, s)

/-- `mdp_ioctl_free_readback_slots`. -/
def freeReadbackSlots (s : State) (f : FileId) (copyIn : Bool) (start : UInt32) : Int × State :=
  if !copyIn then (efault, s)
  else
    match slotOf start with
    | none => (einval, s)
    | some sl =>
      if sl.2 ∉ s.allocSlot sl.1 then (einval, s)
      else if (s.rbSlot sl).fp ≠ some f then (einval, s)
      else if (s.rbSlot sl).refCnt ≠ 0 then (einval, s)
      else freeWriteAddr (s.clearSlot sl) (s.rbSlot sl).paStart

/-! ## Reading -/

/-- `translate_read_id_ex`. -/
def translateReadIdEx (rbSlot : SlotId → RbSlot) (id : UInt32) : Nat × Nat :=
  match slotOf id with
  | none => (0, 0)
  | some sl =>
    let offset := id.toNat % 65536
    if offset ≥ (rbSlot sl).count then (0, 0)
    else ((rbSlot sl).paStart, if (rbSlot sl).paStart = 0 then 0 else offset)

/-- `translate_read_id`, in the 32 bits that it is kept in. -/
def translateReadId (rbSlot : SlotId → RbSlot) (id : UInt32) : Nat :=
  let (pa, offset) := translateReadIdEx rbSlot id
  (pa + offset * 4) % 4294967296

/-- `struct mdp_read_readback`, and which of the steps of a read succeed. -/
structure ReadReq where
  count : UInt32
  addrOk : Bool
  allocOk : Bool
  copyIn : Bool
  ids : List UInt32
  copyOut : Bool

/-- `mdp_process_read_request`. -/
def processReadRequest (s : State) (r : ReadReq) : Int :=
  if r.count.toNat = 0 ∨ r.count.toNat > cmdqMaxDumpRegCount then 0
  else if !r.addrOk then einval
  else if !r.allocOk then enomem
  else if !r.copyIn then einval
  else if (r.ids.take r.count.toNat).any (translateReadId s.rbSlot · = 0) then einval
  else if !r.copyOut then einval
  else 0

/-! ## Jobs -/

/-- `struct op_meta`: a read of a register, a readback, or another operation. -/
inductive Meta
  | read (id : UInt32) (regOk : Bool) (status : Int)
  | readback (id : UInt32)
  | other (status : Int)
  deriving DecidableEq

/-- The slot that a read or a readback names. -/
def Meta.slot : Meta → Option SlotId
  | .read id _ _ => slotOf id
  | .readback id => slotOf id
  | .other _ => none

/-- The read into the memory of a slot. -/
def readInto (id : UInt32) (pa offset : Nat) : List Read :=
  ((slotOf id).map fun sl => ⟨sl, pa, offset⟩).toList

/-- `translate_meta`: its status, and what it adds to what the task reads. -/
def translateMeta (rbSlot : SlotId → RbSlot) : Meta → Int × List Read
  | .read id regOk status =>
    let (pa, offset) := translateReadIdEx rbSlot id
    if !regOk ∨ pa = 0 then (einval, [])
    else if status < 0 then (status, [])
    else (status, readInto id pa offset)
  | .readback id =>
    let (pa, offset) := translateReadIdEx rbSlot id
    if pa = 0 then (einval, []) else (0, readInto id pa offset)
  | .other status => (status, [])

/-- A translation: the slots, the task and the status. -/
structure Trans where
  rbSlot : SlotId → RbSlot
  slotIds : List SlotId
  reads : List Read
  status : Int

/-- A slot put into `slot_ids`, and counted, unless it is there or there is no room. -/
def Trans.useSlot (t : Trans) (sl : SlotId) : Trans :=
  if sl ∈ t.slotIds then t
  else if t.slotIds.length < mdpSlotNum then
    { t with
      rbSlot := Function.update t.rbSlot sl
        { t.rbSlot sl with refCnt := (t.rbSlot sl).refCnt + 1 }
      slotIds := t.slotIds ++ [sl] }
  else t

/-- The metas of one page, up to the first that is not translated. The answer is whether the
translation returns at once. -/
def translateMetas : List Meta → Trans → Bool × Trans
  | [], t => (false, t)
  | m :: ms, t =>
    let (status, reads) := translateMeta t.rbSlot m
    let t := { t with status := status, reads := t.reads ++ reads }
    if status < 0 then (false, t)
    else
      match m.slot with
      | none => translateMetas ms t
      | some sl =>
        if (t.rbSlot sl).refCnt = maxRefCount then (true, { t with status := einval })
        else translateMetas ms (t.useSlot sl)

/-- A page of metas, and whether it is copied from the user. -/
structure Page where
  copyIn : Bool
  metas : List Meta
  nonempty : metas ≠ []

/-- `translate_user_job`. A meta that fails ends its page only. -/
def translateUserJob : List Page → Trans → Trans
  | [], t => t
  | p :: ps, t =>
    if !p.copyIn then { t with status := einval }
    else
      match translateMetas p.metas t with
      | (true, t) => t
      | (false, t) => translateUserJob ps t

/-- A submission: its metas and the status of its other steps, `setup` of those before the
translation. -/
structure Submit where
  setup : Int
  pages : List Page
  readV1 : Int
  flushCmdBuf : Bool
  flush : Int
  copyOut : Bool

/-- `mdp_ioctl_async_exec`. No error after the translation gives a count back. -/
def asyncExec (s : State) (f : FileId) (u : Submit) : Out × State :=
  if u.setup < 0 then (⟨u.setup, 0⟩, s)
  else
    let t := translateUserJob u.pages ⟨s.rbSlot, [], [], 0⟩
    let s := { s with rbSlot := t.rbSlot }
    if t.status < 0 then (⟨t.status, 0⟩, s)
    else if u.readV1 < 0 then (⟨u.readV1, 0⟩, s)
    else if !u.flushCmdBuf then (⟨efault, 0⟩, s)
    else if u.flush < 0 then (⟨u.flush, 0⟩, s)
    else
      let id := if s.jobMappingIdx = 0 then 1 else s.jobMappingIdx
      let s := { s with
        jobMappingIdx := id + 1, jobs := s.jobs ++ [⟨id, f, t.slotIds, t.reads, false⟩] }
      if !u.copyOut then (⟨efault, 0⟩, s) else (⟨u.flush, id.toNat⟩, s)

/-- A wait: the id, which tasks are pending for too long, and the steps of the wait. -/
structure WaitReq where
  copyIn : Bool
  jobId : UInt64
  late : Job → Bool
  wait : Int
  countOk : Bool
  copyOut : Bool
  read : ReadReq

/-- The walk of `mdp_ioctl_async_wait` through the jobs: the job it finds and the jobs it leaves.
A job that is pending for too long is dropped (`mdp_check_pending_task`). -/
def findJob (late : Job → Bool) (id : UInt64) : List Job → Option (Option Job × List Job)
  | [] => some (none, [])
  | j :: js =>
    if j.id = id then some (some j, js)
    else if j.dead then none
    else (findJob late id js).map fun q => (q.1, if late j then q.2 else j :: q.2)

/-- `ref_cnt--` for every slot of a task. -/
def giveBack (rbSlot : SlotId → RbSlot) (slotIds : List SlotId) : SlotId → RbSlot :=
  slotIds.foldl (fun rb sl => Function.update rb sl { rb sl with refCnt := (rb sl).refCnt - 1 })
    rbSlot

/-- `mdp_ioctl_async_wait`. An error before the read request leaves the counts of the task. -/
def asyncWait (s : State) (r : WaitReq) : Option (Out × State) :=
  if !r.copyIn then some (⟨efault, 0⟩, s)
  else do
    let (job, jobs) ← findJob r.late r.jobId s.jobs
    let s := { s with jobs := jobs }
    match job with
    | none => some (⟨efault, 0⟩, s)
    | some j =>
      if j.dead then none
      else if r.wait < 0 then some (⟨r.wait, 0⟩, s)
      else if !r.countOk then some (⟨enomem, 0⟩, s)
      else if !r.copyOut then some (⟨efault, 0⟩, s)
      else some (⟨processReadRequest s r.read, 0⟩,
        { s with rbSlot := giveBack s.rbSlot j.slotIds })

/-! ## Closing a file -/

/-- `cmdq_free_write_addr_by_node`. -/
def freeWriteAddrByNode (s : State) (f : FileId) : State :=
  { s with writeAddr := s.writeAddr.filter (·.fp ≠ f) }

/-- `mdp_limit_release`: the tasks of the file are destroyed, its jobs and its slots stay. -/
def mdpLimitRelease (s : State) (f : FileId) : State :=
  freeWriteAddrByNode
    { s with jobs := s.jobs.map fun j => if j.node = f then { j with dead := true } else j } f

/-- A slot of a file that no job uses is freed. -/
def freeSlotOf (f : FileId) (s : State) (sl : SlotId) : State :=
  if (s.rbSlot sl).fp ≠ some f ∨ (s.rbSlot sl).refCnt ≠ 0 then s
  else (freeWriteAddr (s.clearSlot sl) (s.rbSlot sl).paStart).2

/-- All slots, in their order. -/
def allSlots : List SlotId := List.finRange 64 ×ˢ List.finRange 64

/-- `cmdq_release`: `mdp_ioctl_free_job_by_node`, `mdp_ioctl_free_readback_slots_by_node` and
`cmdqCoreFreeWriteAddressByNode`. -/
def cmdqRelease (s : State) (f : FileId) : State :=
  let s := { s with jobs := s.jobs.filter (·.node ≠ f) }
  freeWriteAddrByNode (allSlots.foldl (freeSlotOf f) s) f

/-! ## Runs -/

/-- The calls, and the closing of a file of either device. -/
inductive Op
  | alloc (f : FileId) (c : AllocReq)
  | free (f : FileId) (copyIn : Bool) (start : UInt32)
  | read (copyIn : Bool) (r : ReadReq)
  | exec (f : FileId) (u : Submit)
  | wait (r : WaitReq)
  | closeLimit (f : FileId)
  | close (f : FileId)

def step (s : State) : Op → Option (Out × State)
  | .alloc f c => some (allocReadbackSlots s f c)
  | .free f copyIn start =>
    let (status, s) := freeReadbackSlots s f copyIn start
    some (⟨status, 0⟩, s)
  | .read copyIn r => some (⟨if !copyIn then efault else processReadRequest s r, 0⟩, s)
  | .exec f u => some (asyncExec s f u)
  | .wait r => asyncWait s r
  | .closeLimit f => some (⟨0, 0⟩, mdpLimitRelease s f)
  | .close f => some (⟨0, 0⟩, cmdqRelease s f)

end Mdp.Readback
