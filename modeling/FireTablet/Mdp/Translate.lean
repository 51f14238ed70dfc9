import FireTablet.Mdp.Readback

/-!
# The translation of a job's metas (`mdp_ioctl_ex.c`)

A job of the display processor is a list of metas, which are copied from the user a page at a time
and translated one by one into commands for the hardware. A meta may name a dma-buf, which is mapped
when a meta first names it, and whose address is written with the meta's offset added.
-/

namespace Mdp.Translate

open Readback (RbSlot SlotId slotOf translateReadIdEx readInto einval enomem maxRefCount)

def maxHandleNum : Nat := 10

/-- `PAGE_SIZE / sizeof(struct op_meta)`. -/
def metaCountInPage : Nat := 4096 / 16

/-- `enum CMDQ_META_OP`. -/
inductive Mop
  | write
  | read
  | poll
  | wait
  | waitNoClear
  | clear
  | set
  | acquire
  | writeFd
  | writeFromReg
  | writeSec
  | readback
  | nop
  deriving DecidableEq

/-- The operations in the order of their numbers. -/
def Mop.all : List Mop :=
  [.write, .read, .poll, .wait, .waitNoClear, .clear, .set, .acquire, .writeFd, .writeFromReg,
    .writeSec, .readback, .nop]

/-- `struct op_meta`, whose unions are named after their first member. -/
structure OpMeta where
  op : UInt8
  engine : UInt16
  offset : UInt16
  value : UInt32
  mask : UInt32
  deriving DecidableEq

namespace OpMeta

variable (m : OpMeta)

def mop : Option Mop := Mop.all[m.op.toNat]?

def event : UInt16 := m.offset

def readbackId : UInt32 := m.value

def fd : UInt32 := m.value

def secHandle : UInt32 := m.value

def fromOffset : UInt16 := m.value.toUInt16

def fromEngine : UInt16 := (m.value >>> 16).toUInt16

def fdOffset : UInt32 := m.mask

def secIndex : UInt32 := m.mask

/-- The slot that a read or a readback names. -/
def slot : Option SlotId :=
  if m.mop = some .read ∨ m.mop = some .readback then slotOf m.readbackId else none

end OpMeta

/-- The tables of the hardware: `cmdq_mdp_get_hw_port` and `cmdq_mdp_get_hw_reg`. -/
structure Hw where
  port : UInt16 → UInt32
  reg : UInt16 → UInt16 → UInt32

/-- A meta of a job, with what the functions answer that its translation calls: whether its buffer
is got, attached and mapped and at which address, the status of its operation, and that of
`cmdq_mdp_update_sec_addr_index`, which refuses a job without secure data and an index that the
job's metadata does not have. -/
structure Entry where
  info : OpMeta
  getBuf : Bool
  attach : Bool
  mapBuf : Bool
  addr : UInt64
  status : Int
  secStatus : Int
  deriving DecidableEq

/-- One entry of the arrays of `struct mdp_job_mapping`. -/
structure Mapping where
  fd : UInt32
  mva : UInt64
  deriving DecidableEq

/-! ## Commands -/

/-- `CMDQ_GET_ARG_B`. -/
def argB (v : UInt64) : UInt16 := ((v &&& 0xffff0000) >>> 16).toUInt16

/-- `CMDQ_GET_ARG_C`. -/
def argC (v : UInt64) : UInt16 := (v &&& 0xffff).toUInt16

/-- A call of a `cmdq_op_` function, `cmdq_mdp_op_readback` or `cmdq_mdp_update_sec_addr_index`. The
value of a register write is that of its instruction. -/
inductive Cmd
  | writeReg (reg : UInt32) (argC argB : UInt16) (mask : UInt32)
  | readRegToMem (dram offset : Nat) (reg : UInt32)
  | readback (engine : UInt16) (dram offset : Nat) (param : UInt32)
  | poll (reg value mask : UInt32)
  | wait (event : UInt16)
  | waitNoClear (event : UInt16)
  | clearEvent (event : UInt16)
  | setEvent (event : UInt16)
  | acquire (event : UInt16)
  | writeFromReg (reg fromReg : UInt32)
  | updateSecAddrIndex (secHandle secIndex : UInt32)
  deriving DecidableEq

/-- `cmdq_op_write_reg_ex`, whose instruction has 32 bits for the value. -/
def writeRegEx (reg : UInt32) (value : UInt64) (mask : UInt32) : Cmd :=
  .writeReg reg (argC value) (argB value) mask

/-- The value that a register write puts into its register. -/
def Cmd.written : Cmd → Option Nat
  | .writeReg _ c b _ => some (b.toNat * 65536 + c.toNat)
  | _ => none

/-- A translated meta: the status with which its turn ended, and its commands. -/
structure Done where
  entry : Entry
  status : Int
  cmds : List Cmd
  deriving DecidableEq

/-- A translation: the readback slots, the buffers mapped, and the metas translated. -/
structure Trans extends Readback.Trans where
  maps : List Mapping
  log : List Done

/-- The start of a job's translation. -/
def Trans.start (rbSlot : SlotId → RbSlot) : Trans := ⟨⟨rbSlot, [], [], 0⟩, [], []⟩

/-! ## Translation -/

/-- The buffer of a meta that no earlier meta has named: its address, when it can be mapped. A
buffer that is mapped at no good address is released at once. -/
def mapFd (e : Entry) (maps : List Mapping) : UInt64 :=
  if maps.length ≥ maxHandleNum then 0
  else if !e.getBuf then 0
  else if !e.attach then 0
  else if !e.mapBuf then 0
  else if e.addr = 0 then 0
  else if e.addr.toNat + e.info.fdOffset.toNat ≥ 2 ^ 64 then 0
  else e.addr

/-- `translate_fd`, where 0 is `INVALID_MVA`. -/
def translateFd (h : Hw) (e : Entry) (maps : List Mapping) : UInt64 × List Mapping :=
  if h.port e.info.engine = 0 then (0, maps)
  else
    match maps.find? (·.fd = e.info.fd) with
    | some x => (x.mva + e.info.fdOffset.toUInt64, maps)
    | none =>
      let dmaAddr := mapFd e maps
      if dmaAddr = 0 then (0, maps)
      else (dmaAddr + e.info.fdOffset.toUInt64, maps ++ [⟨e.info.fd, dmaAddr⟩])

/-- An operation with its status: one that fails gives no command. -/
def op (status : Int) (c : Cmd) : Int × List Cmd := (status, if status < 0 then [] else [c])

/-- `translate_meta` once its operation is known, with the address of the buffer that the meta
names, if it names one. -/
def translateOp (h : Hw) (e : Entry) (rbSlot : SlotId → RbSlot) (mva : UInt64) :
    Mop → Int × List Cmd
  | .writeFd =>
    let reg := h.reg e.info.engine e.info.offset
    if reg = 0 ∨ mva = 0 then (einval, []) else op e.status (writeRegEx reg mva 0xffffffff)
  | .write =>
    let reg := h.reg e.info.engine e.info.offset
    if reg = 0 then (einval, [])
    else op e.status (writeRegEx reg e.info.value.toUInt64 e.info.mask)
  | .read =>
    let reg := h.reg e.info.engine e.info.offset
    let (dram, offset) := translateReadIdEx rbSlot e.info.readbackId
    if reg = 0 ∨ dram = 0 then (einval, []) else op e.status (.readRegToMem dram offset reg)
  | .readback =>
    let (dram, offset) := translateReadIdEx rbSlot e.info.readbackId
    if dram = 0 then (einval, []) else (0, [.readback e.info.engine dram offset e.info.mask])
  | .poll =>
    let reg := h.reg e.info.engine e.info.offset
    if reg = 0 then (einval, []) else op e.status (.poll reg e.info.value e.info.mask)
  | .wait => op e.status (.wait e.info.event)
  | .waitNoClear => op e.status (.waitNoClear e.info.event)
  | .clear => op e.status (.clearEvent e.info.event)
  | .set => op e.status (.setEvent e.info.event)
  | .acquire => op e.status (.acquire e.info.event)
  | .writeFromReg =>
    let fromReg := h.reg e.info.fromEngine e.info.fromOffset
    let reg := h.reg e.info.engine e.info.offset
    if reg = 0 ∨ fromReg = 0 then (einval, []) else op e.status (.writeFromReg reg fromReg)
  | .writeSec =>
    let reg := h.reg e.info.engine e.info.offset
    if reg = 0 then (einval, [])
    else
      let (status, cmds) := op e.status (writeRegEx reg e.info.value.toUInt64 0xffffffff)
      if status = 0 then
        -- the register write stays when the index is refused
        let (status, update) :=
          op e.secStatus (.updateSecAddrIndex e.info.secHandle e.info.secIndex)
        (status, cmds ++ update)
      else (status, cmds)
  | .nop => (0, [])

/-- The buffer of a meta, when its operation names one. -/
def bufferOf (h : Hw) (e : Entry) (maps : List Mapping) : UInt64 × List Mapping :=
  if e.info.mop = some .writeFd then translateFd h e maps else (0, maps)

/-- `translate_meta`: its status, its commands and the buffers mapped. -/
def translateMeta (h : Hw) (e : Entry) (rbSlot : SlotId → RbSlot) (maps : List Mapping) :
    Int × List Cmd × List Mapping :=
  let (mva, maps) := bufferOf h e maps
  match e.info.mop with
  | none => (einval, [], maps)
  | some o =>
    let (status, cmds) := translateOp h e rbSlot mva o
    (status, cmds, maps)

/-- The reads of a slot among the commands of a meta. -/
def Cmd.reads (id : UInt32) : Cmd → List Readback.Read
  | .readRegToMem dram offset _ => readInto id dram offset
  | .readback _ dram offset _ => readInto id dram offset
  | _ => []

/-- The end of a meta's turn. -/
def Trans.note (t : Trans) (e : Entry) (cmds : List Cmd) : Trans :=
  { t with log := t.log ++ [⟨e, t.status, cmds⟩] }

/-- What `translate_meta` leaves of a translation. -/
def Trans.put (t : Trans) (e : Entry) (r : Int × List Cmd × List Mapping) : Trans :=
  { t with
    status := r.1, maps := r.2.2, reads := t.reads ++ r.2.1.flatMap (Cmd.reads e.info.readbackId) }

/-- One turn of the loop over a page: a meta is translated and its slot counted. The answer is
whether the translation returns at once. -/
def translateEntry (h : Hw) (e : Entry) (t : Trans) : Bool × Trans :=
  let r := translateMeta h e t.rbSlot t.maps
  let t := t.put e r
  if t.status < 0 then (false, t.note e r.2.1)
  else
    match e.info.slot with
    | none => (false, t.note e r.2.1)
    | some sl =>
      if (t.rbSlot sl).refCnt = maxRefCount then
        (true, { t with status := einval }.note e r.2.1)
      else (false, { t with toTrans := t.useSlot sl }.note e r.2.1)

/-- The metas of one page, up to the first that is not translated. -/
def translateMetas (h : Hw) : List Entry → Trans → Bool × Trans
  | [], t => (false, t)
  | e :: es, t =>
    match translateEntry h e t with
    | (true, t) => (true, t)
    | (false, t) => if t.status < 0 then (false, t) else translateMetas h es t

/-- The loop over the pages, of which `copyIn` says which are copied from the user. A meta that
fails ends its page only. -/
def translatePages (h : Hw) (copyIn : Nat → Bool) (page : Nat) (remain : List Entry) (t : Trans) :
    Trans :=
  if remain = [] then t
  else if !copyIn page then { t with status := einval }
  else
    match translateMetas h (remain.take metaCountInPage) t with
    | (true, t) => t
    | (false, t) => translatePages h copyIn (page + 1) (remain.drop metaCountInPage) t
termination_by remain.length
decreasing_by
  have := List.length_pos_of_ne_nil ‹remain ≠ []›
  simp only [List.length_drop, metaCountInPage]
  omega

/-- `translate_user_job`, where `alloc` says whether there is memory for a page. -/
def translateUserJob (h : Hw) (alloc : Bool) (copyIn : Nat → Bool) (metas : List Entry)
    (rbSlot : SlotId → RbSlot) : Trans :=
  if !alloc then { Trans.start rbSlot with status := enomem }
  else translatePages h copyIn 0 metas (.start rbSlot)

end Mdp.Translate
