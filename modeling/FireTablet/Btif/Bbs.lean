import FireTablet.Lib.Circ

/-!
# The receive ring of BTIF (`mtk_btif.c`)

The interrupt handler puts received bytes into a ring with `btif_bbs_write`, and
`btif_rx_data_consummer` hands them to the receive callback. They share the two indices without a
lock: a write comes between any two steps of the consumer, which goes on with what it read before.
The bytes are of any type, as nothing looks at them.

`btif_parser_wmt_evt` copies the unread bytes of the receive ring into a buffer of its own and
compares a pattern with the copy, from each place on.
-/

namespace Btif

/-- `BTIF_RX_BUFFER_SIZE`, which depends on `CONFIG_MTK_GMO_RAM_OPTIMIZE`. -/
def btifRxBufferSize (gmoRamOptimize : Bool) : Nat :=
  if gmoRamOptimize then 1024 * 32 else 1024 * 64

/-- A difference of type `unsigned int`. -/
def subU32 (a b : Nat) : Nat := (a + 2 ^ 32 - b) % 2 ^ 32

/-- `struct _btif_buf_str_`. -/
structure BtifBuf (α : Type*) where
  size : Nat
  rdIdx : Nat
  wrIdx : Nat
  pBuf : Nat → α

section
variable {α : Type*}

namespace BtifBuf

variable (bbs : BtifBuf α)

/-- `BBS_MASK`. -/
def mask : Nat := bbs.size - 1

/-- `BBS_COUNT_CUR`. -/
def countCur (wrIdx : Nat) : Nat :=
  if wrIdx ≥ bbs.rdIdx then subU32 wrIdx bbs.rdIdx
  else subU32 bbs.size (subU32 bbs.rdIdx wrIdx)

/-- `BBS_COUNT`. -/
def count : Nat := bbs.countCur bbs.wrIdx

/-- `BBS_LEFT`. -/
def left : Nat := subU32 bbs.size bbs.count

/-- `BBS_INIT`. -/
def init (rxBufferSize : Nat) : BtifBuf α := { bbs with rdIdx := 0, wrIdx := 0, size := rxBufferSize }

/-- `memcpy` into the buffer, undefined outside of it. -/
def memcpy (off : Nat) (data : List α) : Option (BtifBuf α) :=
  if off + data.length ≤ bbs.size then some { bbs with pBuf := Circ.copy bbs.pBuf off data }
  else none

end BtifBuf

/-- `btif_bbs_wr_direct`. -/
def btifBbsWrDirect (bbs : BtifBuf α) (data : List α) : Option (BtifBuf α) :=
  let tailLen := subU32 bbs.size (bbs.wrIdx &&& bbs.mask)
  let l := min tailLen data.length
  (bbs.memcpy (bbs.wrIdx &&& bbs.mask) (data.take l)).bind fun bbs =>
    (bbs.memcpy 0 (data.drop l)).map fun bbs =>
      { bbs with wrIdx := (bbs.wrIdx + data.length) &&& bbs.mask }

/-- `btif_bbs_write`: the number of bytes that are taken, and whether too many are pending then
(`g_max_pding_data_size`), which drops them all. -/
def btifBbsWrite (rxBufferSize maxPdingDataSize : Nat) (bbs : BtifBuf α) (data : List α) :
    Option (Nat × Bool × BtifBuf α) :=
  let avaLen := subU32 bbs.left 1
  if avaLen = 0 then some (0, false, bbs)
  else
    let wrLen := min data.length avaLen
    (btifBbsWrDirect bbs (data.take wrLen)).map fun bbs =>
      if bbs.count ≥ maxPdingDataSize then (wrLen, true, bbs.init rxBufferSize)
      else (wrLen, false, bbs)

/-- Where `btif_rx_data_consummer` is, with the local variables in use: it has returned, is about to
sample `wr_idx`, has sampled it, and so on to `rd_idx = wr_idx`. -/
inductive RxPc
  | idle
  | sample
  | count (wrIdx : Nat)
  | branch (wrIdx : Nat)
  | flat (wrIdx : Nat)
  | flatCall (wrIdx pBuf length : Nat)
  | tail (wrIdx : Nat)
  | tailCall (wrIdx pBuf lenTail : Nat)
  | head (wrIdx lenTail : Nat)
  | headCall (wrIdx lenTail length : Nat)
  | store (wrIdx : Nat)
  deriving DecidableEq

/-- The ring and the consumer. -/
structure BtifRx (α : Type*) where
  bbs : BtifBuf α
  pc : RxPc

/-- What happens next: the interrupt handler writes, or the consumer makes its next step. -/
inductive BtifIn (α : Type*)
  | bbsWrite (data : List α)
  | consume

/-- What comes of it: bytes are taken, and all dropped on a reset, or the callback gets bytes. -/
inductive BtifOut (α : Type*)
  | written (wrLen : Nat) (reset : Bool)
  | called (data : List α)
  | quiet

/-- The receive callback is called with bytes of the buffer, undefined outside of it. -/
def rxCb (bbs : BtifBuf α) (off len : Nat) (pc : RxPc) : Option (BtifOut α × BtifRx α) :=
  if off + len ≤ bbs.size then some (.called (Circ.slice bbs.pBuf off len), ⟨bbs, pc⟩) else none

/-- A step of `btif_rx_data_consummer` while a receive callback is registered. -/
def btifRxDataConsummer (s : BtifRx α) : Option (BtifOut α × BtifRx α) :=
  match s.pc with
  | .idle => some (.quiet, ⟨s.bbs, .count s.bbs.wrIdx⟩)
  | .sample => some (.quiet, ⟨s.bbs, .count s.bbs.wrIdx⟩)
  | .count wrIdx =>
    some (.quiet, ⟨s.bbs, if s.bbs.countCur wrIdx > 0 then .branch wrIdx else .idle⟩)
  | .branch wrIdx =>
    some (.quiet, ⟨s.bbs, if s.bbs.rdIdx ≤ wrIdx then .flat wrIdx else .tail wrIdx⟩)
  | .flat wrIdx => some (.quiet, ⟨s.bbs, .flatCall wrIdx s.bbs.rdIdx (s.bbs.countCur wrIdx)⟩)
  | .flatCall wrIdx pBuf length => rxCb s.bbs pBuf length (.store wrIdx)
  | .tail wrIdx =>
    some (.quiet, ⟨s.bbs, .tailCall wrIdx s.bbs.rdIdx (subU32 s.bbs.size s.bbs.rdIdx)⟩)
  | .tailCall wrIdx pBuf lenTail => rxCb s.bbs pBuf lenTail (.head wrIdx lenTail)
  | .head wrIdx lenTail =>
    some (.quiet, ⟨s.bbs, .headCall wrIdx lenTail (subU32 (s.bbs.countCur wrIdx) lenTail)⟩)
  | .headCall wrIdx _ length => rxCb s.bbs 0 length (.store wrIdx)
  | .store wrIdx => some (.quiet, ⟨{ s.bbs with rdIdx := wrIdx }, .sample⟩)

/-- One step. -/
def btifRxStep (rxBufferSize maxPdingDataSize : Nat) (s : BtifRx α) :
    BtifIn α → Option (BtifOut α × BtifRx α)
  | .bbsWrite data => (btifBbsWrite rxBufferSize maxPdingDataSize s.bbs data).map fun q =>
      (.written q.1 q.2.1, ⟨q.2.2, s.pc⟩)
  | .consume => btifRxDataConsummer s

/-- The ring after it is initialised, whatever the memory holds. -/
def btifRxInit (rxBufferSize : Nat) (pBuf : Nat → α) : BtifRx α :=
  ⟨⟨rxBufferSize, 0, 0, pBuf⟩, .idle⟩

end

/-! ## The event search of BTIF (`mtk_btif.c`) -/

variable {α : Type*}

/-- The slots that a `memcpy` out of the buffer reads, undefined outside of it. -/
def BtifBuf.memcpyOut (bbs : BtifBuf α) (off len : Nat) : Option (List Nat) :=
  if off + len ≤ bbs.size then some (List.range' off len) else none

/-- The slots that are copied to `local_buf`, undefined if it is too small. -/
def BtifBuf.copyOut (bbs : BtifBuf α) (copyCnt : Nat) : Option (List Nat) :=
  let localSize := (copyCnt + 3) % 2 ^ 32 / 4 * 4
  let slots :=
    if bbs.wrIdx ≥ bbs.rdIdx then bbs.memcpyOut bbs.rdIdx copyCnt
    else
      let tailLen := subU32 bbs.size bbs.rdIdx
      (bbs.memcpyOut bbs.rdIdx tailLen).bind fun tail =>
        (bbs.memcpyOut 0 (subU32 copyCnt tailLen)).map fun head => tail ++ head
  slots.bind fun slots => if slots.length ≤ localSize then some slots else none

section
variable [DecidableEq α]

/-- The `while (1)` from the indices `j` and `k` on, for at most `fuel` comparisons: `j` behind it.
Both indices move on before the result of the comparison is looked at. -/
def compareLoop (subStr localBuf : List α) (copyCnt : Nat) : Nat → Nat → Nat → Option Nat
  | 0, _, _ => none
  | fuel + 1, j, k =>
    if j ≥ subStr.length then some j
    else if k ≥ copyCnt then some j
    else subStr[j]?.bind fun c => localBuf[k]?.bind fun d =>
      if c ≠ d then some (j + 1)
      else compareLoop subStr localBuf copyCnt fuel (j + 1) (k + 1)

/-- The `for` with `n` starts left, from `i` and `j` on. The bytes of a find are printed. -/
def searchLoop (subStr localBuf : List α) (copyCnt : Nat) : Nat → Nat → Nat → Option Bool
  | 0, _, _ => some false
  | n + 1, i, j =>
    (compareLoop subStr localBuf copyCnt (subStr.length + 1) j i).bind fun j =>
      if j = subStr.length then
        if i + subStr.length ≤ localBuf.length then some true else none
      else searchLoop subStr localBuf copyCnt n (i + 1) (if j < subStr.length then 0 else j)

/-- `btif_parser_wmt_evt`: what it returns, and the slots of the ring that it reads. `alloc` says
whether the `vmalloc` succeeds. -/
def btifParserWmtEvt (alloc : Bool) (bbs : BtifBuf α) (subStr : List α) :
    Option (Bool × List Nat) :=
  let dataCnt := bbs.count
  if dataCnt < subStr.length then some (false, [])
  else if !alloc then some (false, [])
  else (bbs.copyOut dataCnt).bind fun slots =>
    (searchLoop subStr (slots.map bbs.pBuf) dataCnt dataCnt 0 0).map fun found => (found, slots)

end

end Btif
