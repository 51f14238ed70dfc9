import FireTablet.Btif.Bbs

/-!
# The virtual FIFOs of BTIF's DMA channels (`btif_dma_plat.c`)

Each channel has a FIFO in memory between the driver and the DMA engine. Both sides keep a pointer
in a register of the engine: the slot, and a wrap bit that toggles when the end is passed. The
engine appends received bytes to the Rx FIFO and fetches the bytes of the Tx FIFO at any time, also
between two register accesses of the driver.
-/

namespace Btif

/-- `RX_DMA_VFF_SIZE` and `TX_DMA_VFF_SIZE`. -/
def dmaVffSize : Nat := 1024 * 8

/-- `DMA_WPT_MASK` and `DMA_RPT_MASK`. -/
def dmaPtMask : Nat := 2 ^ 16 - 1

/-- `DMA_WPT_WRAP` and `DMA_RPT_WRAP`. -/
def dmaPtWrap : Nat := 2 ^ 16

/-- `ERR_INVALID_PAR`. -/
def errInvalidPar : Int := -1

section
variable {α : Type*}

/-- A FIFO: its memory, the registers `VFF_WPT` and `VFF_RPT` of the engine, and what the driver
keeps in `struct _MTK_BTIF_DMA_VFIFO_`. -/
structure Vfifo (α : Type*) where
  vfifoSize : Nat
  mem : Nat → α
  vffWpt : Nat
  vffRpt : Nat
  wpt : Nat
  lastWptWrap : Nat
  rpt : Nat
  lastRptWrap : Nat

/-! ## The engine -/

/-- The pointer after one more byte. -/
def vffNext (vffSize pt : Nat) : Nat :=
  if (pt &&& dmaPtMask) + 1 ≥ vffSize then
    ((pt &&& dmaPtMask) + 1 - vffSize) ||| ((pt &&& dmaPtWrap) ^^^ dmaPtWrap)
  else ((pt &&& dmaPtMask) + 1) ||| (pt &&& dmaPtWrap)

namespace Vfifo

variable (f : Vfifo α)

/-- `VFF_VALID_SIZE`. -/
def validSize : Nat :=
  if f.vffWpt &&& dmaPtWrap ≠ f.vffRpt &&& dmaPtWrap then
    (f.vffWpt &&& dmaPtMask) + f.vfifoSize - (f.vffRpt &&& dmaPtMask)
  else (f.vffWpt &&& dmaPtMask) - (f.vffRpt &&& dmaPtMask)

/-- `VFF_LEFT_SIZE`. -/
def leftSize : Nat := f.vfifoSize - f.validSize

/-- The engine appends a byte. -/
def append (b : α) : Vfifo α :=
  { f with mem := Circ.copy f.mem (f.vffWpt &&& dmaPtMask) [b]
           vffWpt := vffNext f.vfifoSize f.vffWpt }

/-- The engine is done with the byte at the read pointer. -/
def fetched : Vfifo α := { f with vffRpt := vffNext f.vfifoSize f.vffRpt }

/-- `memcpy` into the FIFO, undefined outside of it. -/
def memcpy (off : Nat) (data : List α) : Option (Vfifo α) :=
  if off + data.length ≤ f.vfifoSize then some { f with mem := Circ.copy f.mem off data } else none

/-- `hal_btif_vfifo_reset`. -/
def reset : Vfifo α := { f with rpt := 0, lastRptWrap := 0, wpt := 0, lastWptWrap := 0 }

/-- `hal_btif_dma_hw_init`: the pointers go into the registers. -/
def hwInit : Vfifo α := { f with vffWpt := f.wpt, vffRpt := f.rpt }

end Vfifo

/-! ## Rx -/

/-- Where `hal_rx_dma_irq_handler` is, with the registers it has read: it has returned, has read
`VFF_VALID_SIZE`, has read `VFF_RPT` too, is in the loop, between two callbacks, behind them, and
has written `VFF_RPT`. -/
inductive RxIrqPc
  | idle
  | gotValid (validLen : Nat)
  | gotRpt (validLen rpt : Nat)
  | body (rpt wpt : Nat)
  | second (rpt wpt realLen tailLen : Nat)
  | update (rpt wpt realLen : Nat)
  | stored
  deriving DecidableEq

/-- The Rx channel: its FIFO, whether a receive callback is registered, and the handler with the
value that it is to return. -/
structure DmaRx (α : Type*) where
  vfifo : Vfifo α
  rxCb : Bool
  iRet : Nat
  pc : RxIrqPc

/-- What happens next: the engine receives a byte, or the handler makes its next step. -/
inductive RxDmaIn (α : Type*)
  | receive (b : α)
  | irq

/-- What comes of it: the engine takes the byte, or has no room for it; the callback gets bytes, the
read pointer is written, the handler returns. -/
inductive RxDmaOut (α : Type*)
  | taken
  | full
  | called (data : List α)
  | wrote (rpt : Nat)
  | returned (iRet : Nat)
  | quiet

/-- The receive callback is called with bytes of the FIFO, undefined outside of it. -/
def dmaRxCb (s : DmaRx α) (off len iRet : Nat) (pc : RxIrqPc) : Option (RxDmaOut α × DmaRx α) :=
  if off + len ≤ s.vfifo.vfifoSize then
    some (.called (Circ.slice s.vfifo.mem off len), { s with iRet := iRet, pc := pc })
  else none

/-- A step of `hal_rx_dma_irq_handler`. -/
def halRxDmaIrqHandler (s : DmaRx α) : Option (RxDmaOut α × DmaRx α) :=
  match s.pc with
  | .idle => some (.quiet, { s with iRet := 0, pc := .gotValid s.vfifo.validSize })
  | .gotValid validLen => some (.quiet, { s with pc := .gotRpt validLen s.vfifo.vffRpt })
  | .gotRpt validLen rpt =>
    if validLen > 0 ∨ rpt ≠ s.vfifo.vffWpt then
      some (.quiet, { s with pc := .body rpt s.vfifo.vffWpt })
    else some (.returned s.iRet, { s with pc := .idle })
  | .body rpt wpt =>
    let realLen :=
      if wpt &&& dmaPtWrap ≠ s.vfifo.lastWptWrap then
        subU32 ((wpt &&& dmaPtMask) + s.vfifo.vfifoSize) (rpt &&& dmaPtMask)
      else subU32 (wpt &&& dmaPtMask) (rpt &&& dmaPtMask)
    if s.rxCb then
      let tailLen := subU32 s.vfifo.vfifoSize (rpt &&& dmaPtMask)
      if tailLen ≥ realLen then
        dmaRxCb s (rpt &&& dmaPtMask) realLen (s.iRet + realLen) (.update rpt wpt realLen)
      else dmaRxCb s (rpt &&& dmaPtMask) tailLen s.iRet (.second rpt wpt realLen tailLen)
    else some (.quiet, { s with pc := .update rpt wpt realLen })
  | .second rpt wpt realLen tailLen =>
    dmaRxCb s 0 (subU32 realLen tailLen) (s.iRet + realLen) (.update rpt wpt realLen)
  | .update rpt wpt realLen =>
    let past := (rpt &&& dmaPtMask) + realLen ≥ s.vfifo.vfifoSize
    let rptWrap := if past then (rpt &&& dmaPtWrap) ^^^ dmaPtWrap else rpt &&& dmaPtWrap
    let rpt' := (if past then ((rpt &&& dmaPtMask) + realLen) % s.vfifo.vfifoSize
      else (rpt &&& dmaPtMask) + realLen) ||| rptWrap
    some (.wrote rpt', { s with
      vfifo := { s.vfifo with wpt := wpt &&& dmaPtMask, lastWptWrap := wpt &&& dmaPtWrap,
                              rpt := rpt', lastRptWrap := rptWrap, vffRpt := rpt' }
      pc := .stored })
  | .stored => some (.quiet, { s with pc := .gotValid s.vfifo.validSize })

/-- One step of the Rx channel. -/
def dmaRxStep (s : DmaRx α) : RxDmaIn α → Option (RxDmaOut α × DmaRx α)
  | .receive b =>
    if s.vfifo.validSize < s.vfifo.vfifoSize then
      some (.taken, { s with vfifo := s.vfifo.append b })
    else some (.full, s)
  | .irq => halRxDmaIrqHandler s

/-- The Rx channel as `_btif_rx_dma_setup` leaves it. -/
def dmaRxSetup (f : Vfifo α) : DmaRx α := ⟨f.reset.hwInit, true, 0, .idle⟩

/-! ## Tx -/

/-- Where `hal_dma_send_data` is with the data it is called with: it has returned, has read
`VFF_LEFT_SIZE`, has read `VFF_WPT` too, is between two copies, and behind them. -/
inductive TxPc (α : Type*)
  | idle
  | gotLeft (data : List α) (avaLen : Nat)
  | gotWpt (data : List α) (lenToSend wpt lastWptWrap : Nat)
  | second (data : List α) (lenToSend wpt lastWptWrap tailLen : Nat)
  | copied (data : List α) (lenToSend wpt lastWptWrap : Nat)

/-- The Tx channel. -/
structure DmaTx (α : Type*) where
  vfifo : Vfifo α
  pc : TxPc α

/-- What happens next: the engine fetches a byte, or `hal_dma_send_data` makes its next step. It is
called with `data` where it has returned before; `txAllow` is what `hal_dma_is_tx_allow` says. -/
inductive TxDmaIn (α : Type*)
  | fetch
  | send (data : List α) (txAllow : Bool)

/-- What comes of it: the engine gets a byte, or finds none; the call with `data` returns. -/
inductive TxDmaOut (α : Type*)
  | fetched (b : α)
  | empty
  | returned (data : List α) (iRet : Int)
  | quiet

/-- A step of `hal_dma_send_data`. -/
def halDmaSendData (s : DmaTx α) (data : List α) (txAllow : Bool) :
    Option (TxDmaOut α × DmaTx α) :=
  match s.pc with
  | .idle =>
    if data.length = 0 then some (.returned data errInvalidPar, s)
    else some (.quiet, { s with pc := .gotLeft data s.vfifo.leftSize })
  | .gotLeft data avaLen =>
    let lenToSend := if data.length < avaLen then data.length else avaLen
    let wpt := s.vfifo.vffWpt &&& dmaPtMask
    let lastWptWrap := s.vfifo.vffWpt &&& dmaPtWrap
    some (.quiet, { s with pc := .gotWpt data lenToSend wpt lastWptWrap })
  | .gotWpt data lenToSend wpt lastWptWrap =>
    if lenToSend + wpt ≥ s.vfifo.vfifoSize then
      let tailLen := subU32 s.vfifo.vfifoSize wpt
      (s.vfifo.memcpy wpt (data.take tailLen)).map fun f =>
        (.quiet, ⟨f, .second data lenToSend wpt lastWptWrap tailLen⟩)
    else
      (s.vfifo.memcpy wpt (data.take lenToSend)).map fun f =>
        (.quiet, ⟨f, .copied data lenToSend (wpt + lenToSend) lastWptWrap⟩)
  | .second data lenToSend wpt lastWptWrap tailLen =>
    (s.vfifo.memcpy 0 ((data.drop tailLen).take (subU32 lenToSend tailLen))).map fun f =>
      (.quiet, ⟨f, .copied data lenToSend (subU32 (wpt + lenToSend) s.vfifo.vfifoSize)
        (lastWptWrap ^^^ dmaPtWrap)⟩)
  | .copied data lenToSend wpt lastWptWrap =>
    let f := { s.vfifo with wpt := wpt, lastWptWrap := lastWptWrap }
    if txAllow then
      some (.returned data lenToSend, ⟨{ f with vffWpt := wpt ||| lastWptWrap }, .idle⟩)
    else some (.returned data 0, ⟨f, .idle⟩)

/-- One step of the Tx channel. -/
def dmaTxStep (s : DmaTx α) : TxDmaIn α → Option (TxDmaOut α × DmaTx α)
  | .fetch =>
    if s.vfifo.validSize > 0 then
      some (.fetched (s.vfifo.mem (s.vfifo.vffRpt &&& dmaPtMask)),
        { s with vfifo := s.vfifo.fetched })
    else some (.empty, s)
  | .send data txAllow => halDmaSendData s data txAllow

/-- The Tx channel as `_btif_tx_dma_setup` leaves it. -/
def dmaTxSetup (f : Vfifo α) : DmaTx α := ⟨f.reset.hwInit, .idle⟩

end

end Btif
