import FireTablet.Cmdq.Pkt
import FireTablet.Lib.Run

/-!
# Buffered commands of a record (`cmdq_record.c`, `cmdq_helper_ext.c`)

The operations of the `_ex` family encode their instructions into a command buffer of one page. When
it is full, or when it is flushed, its instructions are copied to the packet of the record, which
grows by buffers; each allocation that a call makes has an answer in `mem`.
-/

namespace Mdp.RecordEx

open Cmdq

def einval : Int := -22

def efault : Int := -14

/-- `PAGE_SIZE`. -/
def pageSize : Nat := 4096

/-- `cmdqRecStruct` and a `cmdq_command_buffer`: the packet, and the instructions in the command
buffer. `asked` counts the allocations of the call. -/
structure Handle where
  pkt : CmdqPkt
  cmdBuf : List (BitVec 64)
  asked : Nat
  /-- How many instructions of the command buffer a flush that failed has copied. The code does not
  keep this. -/
  copied : Nat

/-- `avail_buf_size` of the command buffer. -/
def Handle.availBufSize (s : Handle) : Nat := pageSize - cmdqInstSize * s.cmdBuf.length

/-- A record with an empty command buffer. -/
def Handle.start (pkt : CmdqPkt) : Handle := ⟨pkt, [], 0, 0⟩

/-- Instructions copied into a buffer. -/
def putAll : CmdqPktBuffer → Nat → List (BitVec 64) → CmdqPktBuffer
  | b, _, [] => b
  | b, off, inst :: insts => putAll (b.put off inst) (off + cmdqInstSize) insts

/-- Instructions copied to the last buffer of a packet that has room for them. -/
def copyBuffer (pkt : CmdqPkt) (insts : List (BitVec 64)) : CmdqPkt :=
  let copySize := cmdqInstSize * insts.length
  { pkt with
    buf := pkt.buf.dropLast ++ (pkt.buf.getLast?.map fun buf =>
      putAll buf (cmdqCmdBufferSize - pkt.availBufSize) insts).toList
    availBufSize := pkt.availBufSize - copySize
    cmdBufSize := pkt.cmdBufSize + copySize }

/-- What a copy leaves: its status, what it has not copied, and how many allocations the call has
made. -/
structure Copy where
  status : Int
  left : List (BitVec 64)
  asked : Nat
  pkt : CmdqPkt

section
variable (gceShiftBit : Nat) (mem : Nat → BufAlloc)

/-- The loop of `cmdq_pkt_copy_cmd`, which goes round at most once for each instruction. -/
def copyLoop : Nat → Nat → List (BitVec 64) → CmdqPkt → Copy
  | 0, asked, src, pkt => ⟨0, src, asked, pkt⟩
  | fuel + 1, asked, src, pkt =>
    if src = [] then ⟨0, [], asked, pkt⟩
    else
      let room := makeRoom gceShiftBit (mem asked) pkt
      let asked := if pkt.availBufSize = 0 then asked + 1 else asked
      if room.1 < 0 then ⟨-enomem, src, asked, room.2⟩
      else
        let copySize := min room.2.availBufSize (cmdqInstSize * src.length)
        let n := copySize / cmdqInstSize
        copyLoop fuel asked (src.drop n) (copyBuffer room.2 (src.take n))

/-- `cmdq_pkt_copy_cmd`. -/
def cmdqPktCopyCmd (s : Handle) : Copy :=
  copyLoop gceShiftBit mem (s.cmdBuf.length + 1) s.asked s.cmdBuf s.pkt

/-- `cmdq_handle_flush_cmd_buf`. -/
def cmdqHandleFlushCmdBuf (s : Handle) : Int × Handle :=
  let c := cmdqPktCopyCmd gceShiftBit mem s
  if c.status ≠ 0 then
    (efault, { s with
      pkt := c.pkt, asked := c.asked
      copied := max s.copied (s.cmdBuf.length - c.left.length) })
  else (0, { pkt := c.pkt, cmdBuf := [], asked := c.asked, copied := 0 })

/-- `cmdq_instr_encoder`. -/
def cmdqInstrEncoder (a : CmdqArgs) (s : Handle) : Int × Handle :=
  if s.availBufSize = 0 then
    let r := cmdqHandleFlushCmdBuf gceShiftBit mem s
    if r.1 ≠ 0 then (efault, r.2)
    else (0, { r.2 with cmdBuf := r.2.cmdBuf ++ [cmdqPktInstrEncoder a] })
  else (0, { s with cmdBuf := s.cmdBuf ++ [cmdqPktInstrEncoder a] })

/-! ## Operations -/

def cmdqCodeMask : BitVec 8 := 0x02
def cmdqCodeMove : BitVec 8 := 0x02
def cmdqCodePoll : BitVec 8 := 0x08
def cmdqCodeWfe : BitVec 8 := 0x20
def cmdqCodeReadS : BitVec 8 := 0x80
def cmdqCodeWriteS : BitVec 8 := 0x90
def cmdqCodeWriteSWMask : BitVec 8 := 0x91
def cmdqCodeLogic : BitVec 8 := 0xa0

def cmdqSprForTemp : BitVec 16 := 0
def cmdqThrSprIdx1 : BitVec 16 := 1
def cmdqDataRegDebug : BitVec 8 := 0x0b
def cmdqLogicAssign : BitVec 8 := 0
def cmdqImmediateValue : BitVec 8 := 0
def cmdqRegType : BitVec 8 := 1

def cmdqSpecialSubsysAddr : Int := 99

def cmdqSyncTokenMax : Int := 0x3FF
def cmdqEventMax : Int := 0x3FF

/-- `CMDQ_SYNC_TOKEN_GPR_SET_4`. -/
def cmdqSyncTokenGprSet4 : Int := 704

def cmdqWfeUpdate : BitVec 64 := 1 <<< 31
def cmdqWfeUpdateValue : BitVec 64 := 1 <<< 16
def cmdqWfeWait : BitVec 64 := 1 <<< 15
def cmdqWfeWaitValue : BitVec 64 := 1

/-- `CMDQ_GET_ADDR_HIGH`: bits 47 to 16. -/
def cmdqGetAddrHigh (addr : BitVec 64) : BitVec 64 := (addr.extractLsb' 16 32).setWidth 64

/-- `CMDQ_GET_ADDR_LOW`. -/
def cmdqGetAddrLow (addr : BitVec 64) : BitVec 16 := addr.extractLsb' 0 16 ||| 2

/-- `cmdq_op_get_subsys`, without `MT8169_CMDQ_DEBUG`. -/
def cmdqOpGetSubsys (_addr : BitVec 32) : Int := cmdqSpecialSubsysAddr

/-- The address is not in a subsystem that instructions can name. -/
def special (subsys : Int) : Bool := subsys < 0 || subsys == cmdqSpecialSubsysAddr

variable (eventTable : Nat → Int)

/-- `cmdq_get_event_op_id`, with the event table of the device tree. -/
def cmdqGetEventOpId (event : Int) : Int :=
  if event < 0 ∨ cmdqSyncTokenMax ≤ event then einval
  else if eventTable event.toNat < 0 then einval
  else eventTable event.toNat

/-- A `WFE` instruction. -/
def wfeArgs (argA : Int) (argB : BitVec 64) : CmdqArgs :=
  ⟨cmdqGetArgC argB, cmdqGetArgB argB, BitVec.ofInt 16 argA, 0, 0, 0, 0, cmdqCodeWfe⟩

/-- The event operations, which differ in what the instruction waits for and updates. -/
def eventOp (argB : BitVec 64) (event : Int) (s : Handle) : Int × Handle :=
  let argA := cmdqGetEventOpId eventTable event
  if argA < 0 ∨ argA ≥ cmdqEventMax then (einval, s)
  else cmdqInstrEncoder gceShiftBit mem (wfeArgs argA argB) s

/-- `cmdq_op_wait_ex`. -/
def cmdqOpWaitEx : Int → Handle → Int × Handle :=
  eventOp gceShiftBit mem eventTable (cmdqWfeUpdate ||| cmdqWfeWait ||| cmdqWfeWaitValue)

/-- `cmdq_op_wait_no_clear_ex`. -/
def cmdqOpWaitNoClearEx : Int → Handle → Int × Handle :=
  eventOp gceShiftBit mem eventTable (cmdqWfeWait ||| cmdqWfeWaitValue)

/-- `cmdq_op_clear_event_ex`. -/
def cmdqOpClearEventEx : Int → Handle → Int × Handle :=
  eventOp gceShiftBit mem eventTable cmdqWfeUpdate

/-- `cmdq_op_set_event_ex`. -/
def cmdqOpSetEventEx : Int → Handle → Int × Handle :=
  eventOp gceShiftBit mem eventTable (cmdqWfeUpdate ||| cmdqWfeUpdateValue)

/-- `cmdq_op_acquire_ex`. -/
def cmdqOpAcquireEx : Int → Handle → Int × Handle :=
  eventOp gceShiftBit mem eventTable (cmdqWfeUpdate ||| cmdqWfeUpdateValue ||| cmdqWfeWait)

/-- The mask for the next instruction. -/
def maskArgs (mask : BitVec 32) : CmdqArgs :=
  ⟨cmdqGetArgC ((~~~mask).setWidth 64), cmdqGetArgB ((~~~mask).setWidth 64), 0, 0, 0, 0, 0,
    cmdqCodeMask⟩

/-- The high bits of an address, assigned to the temporary register. -/
def assignArgs (addr : BitVec 64) : CmdqArgs :=
  let value := cmdqGetAddrHigh addr
  ⟨cmdqGetArgC value, cmdqGetArgB value, cmdqSprForTemp, cmdqLogicAssign, cmdqImmediateValue,
    cmdqImmediateValue, cmdqRegType, cmdqCodeLogic⟩

/-- `cmdq_op_poll_ex`. The results of all but the last step are only logged. -/
def cmdqOpPollEx (addr : BitVec 32) (value : BitVec 64) (mask : BitVec 32) (s : Handle) :
    Int × Handle :=
  let masked : BitVec 32 × Handle :=
    if mask ≠ 0xffffffff then
      (addr ||| 1, (cmdqInstrEncoder gceShiftBit mem (maskArgs mask) s).2)
    else (addr, s)
  let addr := masked.1
  let s := masked.2
  let subsys := cmdqOpGetSubsys addr
  if special subsys then
    let s := (cmdqOpWaitEx gceShiftBit mem eventTable cmdqSyncTokenGprSet4 s).2
    -- the address goes to a register
    let s := (cmdqInstrEncoder gceShiftBit mem
      ⟨cmdqGetArgC (addr.setWidth 64), cmdqGetArgB (addr.setWidth 64), 0, cmdqDataRegDebug, 0, 0, 1,
        cmdqCodeMove⟩ s).2
    let s := (cmdqInstrEncoder gceShiftBit mem
      ⟨cmdqGetArgC value, cmdqGetArgB value, (addr &&& 1).setWidth 16, cmdqDataRegDebug, 0, 0, 1,
        cmdqCodePoll⟩ s).2
    cmdqOpSetEventEx gceShiftBit mem eventTable cmdqSyncTokenGprSet4 s
  else
    cmdqInstrEncoder gceShiftBit mem
      ⟨cmdqGetArgC value, cmdqGetArgB value, addr.setWidth 16, BitVec.ofInt 8 subsys, 0, 0, 0,
        cmdqCodePoll⟩ s

/-- `cmdq_op_read_reg_to_mem_ex`. -/
def cmdqOpReadRegToMemEx (hBackupSlot : BitVec 64) (slotIndex addr : BitVec 32) (s : Handle) :
    Int × Handle :=
  let dramAddr := hBackupSlot + slotIndex.setWidth 64 * 4
  let subsys := cmdqOpGetSubsys addr
  let source : BitVec 16 × BitVec 8 × Handle :=
    if special subsys then
      (cmdqGetAddrLow (addr.setWidth 64), cmdqSprForTemp.setWidth 8,
        (cmdqInstrEncoder gceShiftBit mem (assignArgs (addr.setWidth 64)) s).2)
    else (addr.setWidth 16, BitVec.ofInt 8 subsys, s)
  let s := (cmdqInstrEncoder gceShiftBit mem
    ⟨0, source.1, cmdqThrSprIdx1, source.2.1, cmdqImmediateValue, cmdqImmediateValue, cmdqRegType,
      cmdqCodeReadS⟩ source.2.2).2
  let s := (cmdqInstrEncoder gceShiftBit mem (assignArgs dramAddr) s).2
  cmdqInstrEncoder gceShiftBit mem
    ⟨0, cmdqThrSprIdx1, cmdqGetAddrLow dramAddr, cmdqSprForTemp.setWidth 8, cmdqImmediateValue,
      cmdqRegType, cmdqImmediateValue, cmdqCodeWriteS⟩ s

/-- `cmdq_op_write_reg_ex`. -/
def cmdqOpWriteRegEx (addr : BitVec 32) (value : BitVec 64) (mask : BitVec 32) (s : Handle) :
    Int × Handle :=
  let subsys := cmdqOpGetSubsys addr
  let target : BitVec 16 × BitVec 8 × Handle :=
    if special subsys then
      (cmdqGetAddrLow (addr.setWidth 64), cmdqSprForTemp.setWidth 8,
        (cmdqInstrEncoder gceShiftBit mem (assignArgs (addr.setWidth 64)) s).2)
    else (addr.setWidth 16, BitVec.ofInt 8 subsys, s)
  let masked : BitVec 8 × Handle :=
    if mask ≠ 0xffffffff then
      (cmdqCodeWriteSWMask, (cmdqInstrEncoder gceShiftBit mem (maskArgs mask) target.2.2).2)
    else (cmdqCodeWriteS, target.2.2)
  cmdqInstrEncoder gceShiftBit mem
    ⟨cmdqGetArgC value, cmdqGetArgB value, target.1, target.2.1, cmdqImmediateValue,
      cmdqImmediateValue, cmdqImmediateValue, masked.1⟩ masked.2

end

/-! ## Calls -/

/-- The calls on a record and its command buffer. -/
inductive Call
  | poll (addr : BitVec 32) (value : BitVec 64) (mask : BitVec 32)
  | readRegToMem (hBackupSlot : BitVec 64) (slotIndex addr : BitVec 32)
  | writeReg (addr : BitVec 32) (value : BitVec 64) (mask : BitVec 32)
  | wait (event : Int)
  | waitNoClear (event : Int)
  | clear (event : Int)
  | set (event : Int)
  | acquire (event : Int)
  | flush

/-- What a call returns, and whether one of its allocations failed. -/
structure Out where
  ret : Int
  failed : Bool

/-- There is memory for a buffer. -/
def works (a : BufAlloc) : Bool := a.kzalloc && (a.pool.isSome || a.direct.isSome)

section
variable (gceShiftBit : Nat) (eventTable : Nat → Int)

/-- A call with the answers to its allocations. -/
def Call.run (mem : Nat → BufAlloc) (s : Handle) : Call → Int × Handle
  | .poll addr value mask => cmdqOpPollEx gceShiftBit mem eventTable addr value mask s
  | .readRegToMem slot i addr => cmdqOpReadRegToMemEx gceShiftBit mem slot i addr s
  | .writeReg addr value mask => cmdqOpWriteRegEx gceShiftBit mem addr value mask s
  | .wait event => cmdqOpWaitEx gceShiftBit mem eventTable event s
  | .waitNoClear event => cmdqOpWaitNoClearEx gceShiftBit mem eventTable event s
  | .clear event => cmdqOpClearEventEx gceShiftBit mem eventTable event s
  | .set event => cmdqOpSetEventEx gceShiftBit mem eventTable event s
  | .acquire event => cmdqOpAcquireEx gceShiftBit mem eventTable event s
  | .flush => cmdqHandleFlushCmdBuf gceShiftBit mem s

/-- One call. -/
def step (s : Handle) (i : Call × (Nat → BufAlloc)) : Option (Out × Handle) :=
  let r := i.1.run gceShiftBit eventTable i.2 { s with asked := 0 }
  some (⟨r.1, (List.range r.2.asked).any fun j => !works (i.2 j)⟩, r.2)

end

end Mdp.RecordEx
