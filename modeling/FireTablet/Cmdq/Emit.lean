import FireTablet.Cmdq.Pkt

/-!
# The functions that append instructions (`mtk-cmdq-helper-ext.c`)

Most functions of the helper only call `cmdq_pkt_append_command` and go on or stop depending on what
it returns. Such a function is a tree of its calls (`Emit`). `Emit.emitted` is what is appended when
some of the appends fail; `Emit.run` makes the calls on a packet.
-/

namespace Cmdq

/-- A function: what it returns, or a call of `cmdq_pkt_append_command` and how it goes on with the
error number. -/
inductive Emit
  | done (ret : Int)
  | append (args : CmdqArgs) (next : Int → Emit)

/-- A call, and what the caller does with the error number it returns. -/
def Emit.andThen : Emit → (Int → Emit) → Emit
  | .done ret, rest => rest ret
  | .append args next, rest => .append args fun err => (next err).andThen rest

/-- `err = …; if (err != 0) return err;`. -/
def Emit.orReturn (call rest : Emit) : Emit :=
  call.andThen fun err => if err ≠ 0 then .done err else rest

/-- What is returned and what is appended, if the appends succeed as `ok` says; `n` of them were
made before. -/
def Emit.emitted (ok : Nat → Bool) : Emit → Nat → Int × List CmdqArgs
  | .done ret, _ => (ret, [])
  | .append args next, n =>
    if ok n then
      let rest := (next 0).emitted ok (n + 1)
      (rest.1, args :: rest.2)
    else (next (-enomem)).emitted ok (n + 1)

/-- The calls on a packet, each with the answers to its allocation; `none` when there are more calls
than answers. -/
def Emit.run (gceShiftBit : Nat) : Emit → List BufAlloc → CmdqPkt → Option (Int × CmdqPkt)
  | .done ret, _, pkt => some (ret, pkt)
  | .append _ _, [], _ => none
  | .append args next, a :: as, pkt =>
    match cmdqPktAppendCommand gceShiftBit a args pkt with
    | none => none
    | some (err, pkt') => (next err).run gceShiftBit as pkt'

/-- `cmdq_pkt_append_command`. -/
def appendCommand (args : CmdqArgs) : Emit := .append args .done

/-! ## Instruction codes -/

/-- `CMDQ_CODE_MASK`, which is `CMDQ_CODE_MOVE`. -/
def cmdqCodeMask : BitVec 8 := 0x02

def cmdqCodePoll : BitVec 8 := 0x08

def cmdqCodeReadS : BitVec 8 := 0x80

def cmdqCodeWriteS : BitVec 8 := 0x90

def cmdqCodeWriteSWMask : BitVec 8 := 0x91

def cmdqCodeLogic : BitVec 8 := 0xa0

/-- `CMDQ_LOGIC_ASSIGN`. -/
def cmdqLogicAssign : BitVec 8 := 0

/-- `CMDQ_IMMEDIATE_VALUE`. -/
def cmdqImmediateValue : BitVec 8 := 0

/-- `CMDQ_REG_TYPE`. -/
def cmdqRegType : BitVec 8 := 1

/-- `CMDQ_SPR_FOR_TEMP`. -/
def cmdqSprForTemp : BitVec 16 := 0

/-! ## Addresses -/

/-- `sizeof(dma_addr_t)`. -/
def sizeofDmaAddr : Nat := 8

/-- `CMDQ_GET_ADDR_H`. -/
def cmdqGetAddrH (addr : BitVec 64) : BitVec 64 := if sizeofDmaAddr > 32 then addr >>> 32 else 0

/-- `CMDQ_GET_REG_OFFSET`. -/
def cmdqGetRegOffset (addr : BitVec 64) : BitVec 16 := addr.extractLsb' 0 16

/-- `CMDQ_GET_ADDR_HIGH`. -/
def cmdqGetAddrHigh (addr : BitVec 64) : BitVec 32 := (addr >>> 16).extractLsb' 0 32

/-- `CMDQ_ADDR_LOW_BIT`. -/
def cmdqAddrLowBit : BitVec 16 := 2

/-- `CMDQ_GET_ADDR_LOW`. -/
def cmdqGetAddrLow (addr : BitVec 64) : BitVec 16 := addr.extractLsb' 0 16 ||| cmdqAddrLowBit

/-- `struct cmdq_subsys`. -/
structure CmdqSubsys where
  base : BitVec 32
  id : BitVec 8
  deriving DecidableEq

/-- `struct cmdq_base`: the entries of `subsys` below `count`. The others are zero. -/
structure CmdqBase where
  subsys : List CmdqSubsys
  count_le : subsys.length ≤ 32
  aligned : ∀ s ∈ subsys, s.base.extractLsb' 0 16 = 0
  ids : ∀ s ∈ subsys, s.id < 32

/-- `cmdq_subsys_base_to_id`; `none` is a null pointer. -/
def cmdqSubsysBaseToId (cltBase : Option CmdqBase) (base : BitVec 32) : Int :=
  match cltBase with
  | none => -einval
  | some c =>
    match c.subsys.find? fun s => s.base = base &&& 0xFFFF0000 with
    | some s => s.id.toInt
    | none => -einval

/-- `clt_base->subsys[i].id`. -/
def CmdqBase.idAt (c : CmdqBase) (i : Nat) : BitVec 8 :=
  match c.subsys[i]? with
  | some s => s.id
  | none => 0

/-! ## Reads and writes -/

/-- `cmdq_pkt_assign_command`. -/
def cmdqPktAssignCommand (regIdx : BitVec 16) (value : BitVec 32) : Emit :=
  appendCommand ⟨cmdqGetArgC (value.setWidth 64), cmdqGetArgB (value.setWidth 64), regIdx,
    cmdqLogicAssign, cmdqImmediateValue, cmdqImmediateValue, cmdqRegType, cmdqCodeLogic⟩

/-- `cmdq_pkt_read_reg`. -/
def cmdqPktReadReg (subsys : BitVec 8) (offset dstRegIdx : BitVec 16) : Emit :=
  appendCommand ⟨0, offset, dstRegIdx, subsys, cmdqImmediateValue, cmdqImmediateValue, cmdqRegType,
    cmdqCodeReadS⟩

/-- `cmdq_pkt_read_addr`. -/
def cmdqPktReadAddr (addr : BitVec 64) (dstRegIdx : BitVec 16) : Emit :=
  (cmdqPktAssignCommand cmdqSprForTemp (cmdqGetAddrHigh addr)).orReturn
    (appendCommand ⟨0, cmdqGetAddrLow addr, dstRegIdx, cmdqSprForTemp.setWidth 8,
      cmdqImmediateValue, cmdqImmediateValue, cmdqRegType, cmdqCodeReadS⟩)

/-- `cmdq_pkt_read`. -/
def cmdqPktRead (cltBase : Option CmdqBase) (srcAddr : BitVec 64) (dstRegIdx : BitVec 16) : Emit :=
  if cmdqGetAddrH srcAddr = 0 then
    let subsys := cmdqSubsysBaseToId cltBase (srcAddr.setWidth 32)
    match cltBase with
    | some c =>
      if subsys ≥ 0 then
        cmdqPktReadReg (c.idAt subsys.toNat) (cmdqGetRegOffset srcAddr) dstRegIdx
      else cmdqPktReadAddr srcAddr dstRegIdx
    | none => cmdqPktReadAddr srcAddr dstRegIdx
  else cmdqPktReadAddr srcAddr dstRegIdx

/-- The first lines of the writes and polls with a mask: `rest` is told whether one is used. -/
def withMask (mask : BitVec 32) (rest : Bool → Emit) : Emit :=
  if mask ≠ 0xffffffff then
    (appendCommand ⟨cmdqGetArgC ((~~~mask).setWidth 64), cmdqGetArgB ((~~~mask).setWidth 64), 0, 0,
      0, 0, 0, cmdqCodeMask⟩).orReturn (rest true)
  else rest false

/-- `op` of the writes. -/
def writeOp (masked : Bool) : BitVec 8 := if masked then cmdqCodeWriteSWMask else cmdqCodeWriteS

/-- `cmdq_pkt_write_reg`. -/
def cmdqPktWriteReg (subsys : BitVec 8) (offset srcRegIdx : BitVec 16) (mask : BitVec 32) : Emit :=
  withMask mask fun masked => appendCommand ⟨0, srcRegIdx, offset, subsys, cmdqImmediateValue,
    cmdqRegType, cmdqImmediateValue, writeOp masked⟩

/-- `cmdq_pkt_write_value`. -/
def cmdqPktWriteValue (subsys : BitVec 8) (offset : BitVec 16) (value mask : BitVec 32) : Emit :=
  withMask mask fun masked => appendCommand ⟨cmdqGetArgC (value.setWidth 64),
    cmdqGetArgB (value.setWidth 64), offset, subsys, cmdqImmediateValue, cmdqImmediateValue,
    cmdqImmediateValue, writeOp masked⟩

/-- `cmdq_pkt_store_value`. -/
def cmdqPktStoreValue (indirectDstRegIdx dstAddrLow : BitVec 16) (value mask : BitVec 32) : Emit :=
  withMask mask fun masked => appendCommand ⟨cmdqGetArgC (value.setWidth 64),
    cmdqGetArgB (value.setWidth 64), dstAddrLow, indirectDstRegIdx.setWidth 8, cmdqImmediateValue,
    cmdqImmediateValue, cmdqImmediateValue, writeOp masked⟩

/-- `cmdq_pkt_store_value_reg`. -/
def cmdqPktStoreValueReg (indirectDstRegIdx dstAddrLow indirectSrcRegIdx : BitVec 16)
    (mask : BitVec 32) : Emit :=
  withMask mask fun masked =>
    if dstAddrLow ≠ 0 then
      appendCommand ⟨0, indirectSrcRegIdx, dstAddrLow, indirectDstRegIdx.setWidth 8,
        cmdqImmediateValue, cmdqRegType, cmdqImmediateValue, writeOp masked⟩
    else
      appendCommand ⟨0, indirectSrcRegIdx, indirectDstRegIdx, 0, cmdqImmediateValue, cmdqRegType,
        cmdqRegType, writeOp masked⟩

/-- `cmdq_pkt_write_reg_addr`. -/
def cmdqPktWriteRegAddr (addr : BitVec 64) (srcRegIdx : BitVec 16) (mask : BitVec 32) : Emit :=
  (cmdqPktAssignCommand cmdqSprForTemp (cmdqGetAddrHigh addr)).orReturn
    (cmdqPktStoreValueReg cmdqSprForTemp (cmdqGetAddrLow addr) srcRegIdx mask)

/-- `cmdq_pkt_write_value_addr`. -/
def cmdqPktWriteValueAddr (addr : BitVec 64) (value mask : BitVec 32) : Emit :=
  (cmdqPktAssignCommand cmdqSprForTemp (cmdqGetAddrHigh addr)).orReturn
    (cmdqPktStoreValue cmdqSprForTemp (cmdqGetAddrLow addr) value mask)

/-- The first line of the two functions below. -/
def writeBase (addr : BitVec 64) : BitVec 32 :=
  if cmdqGetAddrH addr ≠ 0 then 0 else addr.setWidth 32 &&& 0xFFFF0000

/-- `cmdq_pkt_write_indriect`: the offset of the register is `base` as a `u16`. -/
def cmdqPktWriteIndriect (cltBase : Option CmdqBase) (addr : BitVec 64) (srcRegIdx : BitVec 16)
    (mask : BitVec 32) : Emit :=
  let base := writeBase addr
  let subsys := cmdqSubsysBaseToId cltBase base
  if subsys ≥ 0 then cmdqPktWriteReg (BitVec.ofInt 8 subsys) (base.setWidth 16) srcRegIdx mask
  else cmdqPktWriteRegAddr addr srcRegIdx mask

/-- `cmdq_pkt_write`. -/
def cmdqPktWrite (cltBase : Option CmdqBase) (addr : BitVec 64) (value mask : BitVec 32) : Emit :=
  let subsys := cmdqSubsysBaseToId cltBase (writeBase addr)
  if subsys ≥ 0 then
    cmdqPktWriteValue (BitVec.ofInt 8 subsys) (cmdqGetRegOffset addr) value mask
  else cmdqPktWriteValueAddr addr value mask

/-- `cmdq_pkt_mem_move`. -/
def cmdqPktMemMove (cltBase : Option CmdqBase) (srcAddr dstAddr : BitVec 64)
    (swapRegIdx : BitVec 16) : Emit :=
  (cmdqPktRead cltBase srcAddr swapRegIdx).orReturn
    (cmdqPktWriteIndriect cltBase dstAddr swapRegIdx 0xffffffff)

/-! ## Polls -/

/-- `cmdq_pkt_poll_addr`: an error of the move is not returned. -/
def cmdqPktPollAddr (value addr mask : BitVec 32) (regGpr : BitVec 8) : Emit :=
  withMask mask fun masked =>
    (appendCommand ⟨cmdqGetArgC (addr.setWidth 64), cmdqGetArgB (addr.setWidth 64), 0, regGpr,
      0, 0, 1, cmdqCodeMask⟩).andThen fun _ =>
    appendCommand ⟨cmdqGetArgC (value.setWidth 64), cmdqGetArgB (value.setWidth 64),
      if masked then 1 else 0, regGpr, 0, 0, 1, cmdqCodePoll⟩

/-- `cmdq_pkt_poll_reg`. -/
def cmdqPktPollReg (value : BitVec 32) (subsys : BitVec 8) (offset : BitVec 16)
    (mask : BitVec 32) : Emit :=
  withMask mask fun masked =>
    appendCommand ⟨cmdqGetArgC (value.setWidth 64), cmdqGetArgB (value.setWidth 64),
      if masked then offset ||| 1 else offset, subsys, 0, 0, 0, cmdqCodePoll⟩

/-- `cmdq_pkt_poll`. -/
def cmdqPktPoll (cltBase : Option CmdqBase) (value addr mask : BitVec 32) (regGpr : BitVec 8) :
    Emit :=
  let subsys := cmdqSubsysBaseToId cltBase (addr &&& 0xFFFF0000)
  if subsys ≥ 0 then
    cmdqPktPollReg value (BitVec.ofInt 8 subsys) (addr.extractLsb' 0 16) mask
  else cmdqPktPollAddr value addr mask regGpr

end Cmdq
