import FireTablet.Lib.Code
import Mathlib.Data.BitVec
import Mathlib.Logic.Function.Basic

/-!
# Command packets of the GCE (`mtk-cmdq-helper-ext.c`)

A packet is a list of buffers that the engine reads by physical address. Instructions are stored one
after the other; when the last buffer is full, its last instruction moves to the start of a new
buffer and a jump to that buffer takes its place. An allocation is answered by the caller of each
function: a new buffer may hold anything.
-/

namespace Cmdq

/-- `CMDQ_INST_SIZE`: bytes of an instruction. -/
def cmdqInstSize : Nat := 8

/-- `CMDQ_BUF_ALLOC_SIZE`, which is `PAGE_SIZE`. -/
def cmdqBufAllocSize : Nat := 4096

/-- `CMDQ_CMD_BUFFER_SIZE`. -/
def cmdqCmdBufferSize : Nat := cmdqBufAllocSize - 32 * cmdqInstSize

def enomem : Int := 12

def einval : Int := 22

/-- `struct gce_plat` of the supported chips. -/
inductive GcePlat
  | v2
  | v4
  deriving DecidableEq

/-- `gce_shift_bit`: the engine's addresses leave out this many low bits. -/
def GcePlat.shift : GcePlat → Nat
  | .v2 => 0
  | .v4 => 3

/-! ## Instructions -/

/-- `CMDQ_CODE_JUMP`. -/
def cmdqCodeJump : BitVec 8 := 0x10

/-- `CMDQ_CODE_EOC`. -/
def cmdqCodeEoc : BitVec 8 := 0x40

/-- `CMDQ_JUMP_PASS`: a relative jump to the next instruction. -/
def cmdqJumpPass : Int := cmdqInstSize

/-- `CMDQ_EOC_IRQ_EN`. -/
def cmdqEocIrqEn : BitVec 64 := 1

/-- `CMDQ_EOC_CMD`. -/
def cmdqEocCmd : BitVec 64 := (cmdqCodeEoc.setWidth 64 <<< 24) <<< 32 ||| cmdqEocIrqEn

/-- What `cmdq_pkt_append_command` is called with. -/
structure CmdqArgs where
  argC : BitVec 16
  argB : BitVec 16
  argA : BitVec 16
  sOp : BitVec 8
  argCType : BitVec 8
  argBType : BitVec 8
  argAType : BitVec 8
  code : BitVec 8
  deriving DecidableEq

/-- `cmdq_pkt_instr_encoder`: the bit fields of `struct cmdq_instruction`, `op` in the high bits. -/
def cmdqPktInstrEncoder (a : CmdqArgs) : BitVec 64 :=
  a.code ++ a.argAType.setWidth 1 ++ a.argBType.setWidth 1 ++ a.argCType.setWidth 1 ++
    a.sOp.setWidth 5 ++ a.argA ++ a.argB ++ a.argC

/-- The field `op` of an instruction. -/
def instOp (inst : BitVec 64) : BitVec 8 := inst.extractLsb' 56 8

/-- The field `arg_a` of an instruction. -/
def instArgA (inst : BitVec 64) : BitVec 16 := inst.extractLsb' 32 16

/-- `CMDQ_GET_ARG_B`. -/
def cmdqGetArgB (arg : BitVec 64) : BitVec 16 := arg.extractLsb' 16 16

/-- `CMDQ_GET_ARG_C`. -/
def cmdqGetArgC (arg : BitVec 64) : BitVec 16 := arg.extractLsb' 0 16

section
variable (gceShiftBit : Nat)

/-- The jump to the absolute address `pa`. -/
def jumpToAbs (pa : Nat) : BitVec 64 :=
  (cmdqCodeJump.setWidth 64 <<< 24 ||| 1) <<< 32 |||
    (BitVec.ofNat 64 (pa >>> gceShiftBit) &&& 0xFFFFFFFF)

/-- Where the engine goes on after an absolute jump. -/
def jumpTarget (inst : BitVec 64) : Option Nat :=
  if instOp inst = cmdqCodeJump ∧ instArgA inst = 1 then
    some ((inst.extractLsb' 0 32).toNat <<< gceShiftBit)
  else none

end

/-! ## Packets -/

/-- `struct cmdq_pkt_buffer`: `va` is the 64-bit word at a byte offset from `va_base`. -/
structure CmdqPktBuffer where
  usePool : Bool
  paBase : Nat
  va : Nat → BitVec 64

/-- `struct cmdq_pkt`. -/
structure CmdqPkt where
  buf : List CmdqPktBuffer
  availBufSize : Nat
  cmdBufSize : Nat
  bufSize : Nat

/-- A packet from `cmdq_pkt_create`. -/
def CmdqPkt.create : CmdqPkt := ⟨[], 0, 0, 0⟩

/-- A page: its physical address and what is in it. -/
structure Page where
  pa : Nat
  words : Nat → BitVec 64

/-- The answers to the allocations for a buffer: whether there is memory for the
`struct cmdq_pkt_buffer`, and a page from the DMA pool and from `dma_alloc_coherent`. -/
structure BufAlloc where
  kzalloc : Bool
  pool : Option Page
  direct : Option Page

/-- The physical address of the first buffer, where the engine starts. -/
def CmdqPkt.startPa (pkt : CmdqPkt) : Nat :=
  match pkt.buf with
  | [] => 0
  | b :: _ => b.paBase

/-- `cmdq_task_get_end_pa`: the physical address after the last instruction, where the engine
stops. -/
def CmdqPkt.endPa (pkt : CmdqPkt) : Nat :=
  match pkt.buf.getLast? with
  | none => 0
  | some b => b.paBase + cmdqCmdBufferSize - pkt.availBufSize

/-- The stored instruction at a byte offset. -/
def CmdqPktBuffer.put (b : CmdqPktBuffer) (off : Nat) (inst : BitVec 64) : CmdqPktBuffer :=
  { b with va := Function.update b.va off inst }

/-- `cmdq_pkt_alloc_buf`: `none` is `ERR_PTR(-ENOMEM)`. -/
def cmdqPktAllocBuf (a : BufAlloc) (pkt : CmdqPkt) : Option (CmdqPktBuffer × CmdqPkt) :=
  if a.kzalloc then
    match a.pool, a.direct with
    | some page, _ => some (added true page)
    | none, some page => some (added false page)
    | none, none => none
  else none
where
  added (usePool : Bool) (page : Page) : CmdqPktBuffer × CmdqPkt :=
    let buf : CmdqPktBuffer := ⟨usePool, page.pa, page.words⟩
    (buf, { pkt with buf := pkt.buf ++ [buf]
                     availBufSize := pkt.availBufSize + cmdqCmdBufferSize
                     bufSize := pkt.bufSize + cmdqCmdBufferSize })

section
variable (gceShiftBit : Nat)

/-- `cmdq_pkt_add_cmd_buffer`. -/
def cmdqPktAddCmdBuffer (a : BufAlloc) (pkt : CmdqPkt) : Int × CmdqPkt :=
  match cmdqPktAllocBuf a pkt with
  | none => (-enomem, pkt)
  | some (buf, pkt') =>
    match pkt.buf.getLast? with
    | none => (0, pkt')
    | some prev =>
      -- the last instruction moves to the new buffer, a jump takes its place
      let last := cmdqCmdBufferSize - cmdqInstSize
      (0, { pkt' with
        buf := pkt.buf.dropLast ++
          [prev.put last (jumpToAbs gceShiftBit buf.paBase), buf.put 0 (prev.va last)]
        availBufSize := pkt'.availBufSize - cmdqInstSize
        cmdBufSize := pkt'.cmdBufSize + cmdqInstSize })

/-- `cmdq_pkt_realloc_cmd_buffer`, with the answers to its allocations; `none` when it asks for
more. -/
def cmdqPktReallocCmdBuffer (size : Nat) : List BufAlloc → CmdqPkt → Option (Int × CmdqPkt)
  | [], pkt => if pkt.bufSize < size then none else some (0, pkt)
  | a :: as, pkt =>
    if pkt.bufSize < size then
      let added := cmdqPktAddCmdBuffer gceShiftBit a pkt
      if added.1 ≠ 0 then some added else cmdqPktReallocCmdBuffer size as added.2
    else some (0, pkt)

/-- The loop over the buffers in both functions below. -/
def bufAt : List CmdqPktBuffer → Nat → Option (CmdqPktBuffer × Nat)
  | [], _ => none
  | buf :: bufs, offset =>
    if offset ≥ cmdqCmdBufferSize then bufAt bufs (offset - cmdqCmdBufferSize)
    else some (buf, offset)

/-- `cmdq_pkt_get_va_by_offset`: a buffer and an offset from its `va_base`. -/
def cmdqPktGetVaByOffset (pkt : CmdqPkt) (offset : Nat) : Option (CmdqPktBuffer × Nat) :=
  bufAt pkt.buf offset

/-- `cmdq_pkt_get_pa_by_offset`, whose offset is a `u32`. -/
def cmdqPktGetPaByOffset (pkt : CmdqPkt) (offset : Nat) : Nat :=
  match bufAt pkt.buf (offset % 2 ^ 32) with
  | none => 0
  | some (buf, off) => buf.paBase + off

/-- The first lines of `cmdq_pkt_append_command` and `cmdq_pkt_get_curr_buf_pa`. -/
def makeRoom (a : BufAlloc) (pkt : CmdqPkt) : Int × CmdqPkt :=
  if pkt.availBufSize = 0 then cmdqPktAddCmdBuffer gceShiftBit a pkt else (0, pkt)

/-- `cmdq_pkt_get_curr_buf_pa`: `-ENOMEM` as a `dma_addr_t` when there is no memory. -/
def cmdqPktGetCurrBufPa (a : BufAlloc) (pkt : CmdqPkt) : Option (Nat × CmdqPkt) :=
  let room := makeRoom gceShiftBit a pkt
  if room.1 < 0 then some ((BitVec.ofInt 64 (-enomem)).toNat, room.2)
  else
    room.2.buf.getLast?.map fun buf =>
      (buf.paBase + cmdqCmdBufferSize - room.2.availBufSize, room.2)

/-- `cmdq_pkt_append_command`. -/
def cmdqPktAppendCommand (a : BufAlloc) (args : CmdqArgs) (pkt : CmdqPkt) :
    Option (Int × CmdqPkt) :=
  let room := makeRoom gceShiftBit a pkt
  if room.1 < 0 then some (-enomem, room.2)
  else
    room.2.buf.getLast?.map fun buf =>
      (0, { room.2 with
        buf := room.2.buf.dropLast ++
          [buf.put (cmdqCmdBufferSize - room.2.availBufSize) (cmdqPktInstrEncoder args)]
        cmdBufSize := room.2.cmdBufSize + cmdqInstSize
        availBufSize := room.2.availBufSize - cmdqInstSize })

/-- An append of an instruction, `none` when its address is before the last buffer. -/
def appendStep (pkt : CmdqPkt) (x : CmdqArgs × BufAlloc) : Option (Int × CmdqPkt) :=
  if cmdqCmdBufferSize < pkt.availBufSize then none
  else cmdqPktAppendCommand gceShiftBit x.2 x.1 pkt

/-- `cmdq_pkt_is_finalized`. -/
def cmdqPktIsFinalized (pkt : CmdqPkt) : Bool :=
  if pkt.cmdBufSize < cmdqInstSize * 2 then false
  else
    match cmdqPktGetVaByOffset pkt (pkt.cmdBufSize - cmdqInstSize * 2) with
    | none => false
    | some (buf, off) => buf.va off = cmdqEocCmd

/-- The instruction that `cmdq_pkt_finalize` appends first. -/
def eocArgs : CmdqArgs where
  argC := cmdqGetArgC cmdqEocIrqEn
  argB := cmdqGetArgB cmdqEocIrqEn
  argA := 0
  sOp := 0
  argCType := 0
  argBType := 0
  argAType := 0
  code := cmdqCodeEoc

/-- The relative jump of `cmdq_pkt_jump`. -/
def jumpArgs (offset : Int) : CmdqArgs where
  argC := cmdqGetArgC (BitVec.ofInt 64 (offset >>> gceShiftBit))
  argB := cmdqGetArgB (BitVec.ofInt 64 (offset >>> gceShiftBit))
  argA := 0
  sOp := 0
  argCType := 0
  argBType := 0
  argAType := 0
  code := cmdqCodeJump

/-- `cmdq_pkt_jump`. -/
def cmdqPktJump (a : BufAlloc) (offset : Int) (pkt : CmdqPkt) : Option (Int × CmdqPkt) :=
  cmdqPktAppendCommand gceShiftBit a (jumpArgs gceShiftBit offset) pkt

/-- `cmdq_pkt_finalize`, with the answers to the allocations of its two instructions. -/
def cmdqPktFinalize (a b : BufAlloc) (pkt : CmdqPkt) : Option (Int × CmdqPkt) :=
  if cmdqPktIsFinalized pkt then some (0, pkt)
  else
    match cmdqPktAppendCommand gceShiftBit a eocArgs pkt with
    | none => none
    | some (err, pkt') =>
      if err < 0 then some (err, pkt')
      else
        (cmdqPktJump gceShiftBit b cmdqJumpPass pkt').map fun r =>
          if r.1 < 0 then (r.1, r.2) else (0, r.2)

/-! ## Calls -/

/-- A call on a packet, with the answers to its allocations. -/
inductive PktOp
  | append (args : CmdqArgs) (a : BufAlloc)
  | getCurrBufPa (a : BufAlloc)
  | finalize (a b : BufAlloc)

/-- What a call returns, and the instructions its calls of `cmdq_pkt_append_command` that return 0
are for. -/
structure PktOut where
  ret : Int
  appended : List (BitVec 64)

/-- The instructions that `cmdq_pkt_finalize` appends before it returns `err`. -/
def finalizeAppended (a : BufAlloc) (pkt : CmdqPkt) (err : Int) : List (BitVec 64) :=
  if cmdqPktIsFinalized pkt then []
  else if err = 0 then [cmdqPktInstrEncoder eocArgs,
    cmdqPktInstrEncoder (jumpArgs gceShiftBit cmdqJumpPass)]
  else if (cmdqPktAppendCommand gceShiftBit a eocArgs pkt).any fun r => r.1 = 0 then
    [cmdqPktInstrEncoder eocArgs]
  else []

/-- One call. -/
def PktOp.step (pkt : CmdqPkt) : PktOp → Option (PktOut × CmdqPkt)
  | .append args a => (cmdqPktAppendCommand gceShiftBit a args pkt).map fun r =>
      (⟨r.1, if r.1 = 0 then [cmdqPktInstrEncoder args] else []⟩, r.2)
  | .getCurrBufPa a => (cmdqPktGetCurrBufPa gceShiftBit a pkt).map fun r => (⟨r.1, []⟩, r.2)
  | .finalize a b => (cmdqPktFinalize gceShiftBit a b pkt).map fun r =>
      (⟨r.1, finalizeAppended gceShiftBit a pkt r.1⟩, r.2)

end

end Cmdq
