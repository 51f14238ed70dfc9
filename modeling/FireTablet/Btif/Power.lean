import Mathlib.Logic.Function.Basic

/-!
# The power states of BTIF (`mtk_btif.c`)

The port is off, on, in deep idle or suspended. Seven entry points move it between these states
under the state mutex; they share the functions that set the controller and the DMA channels up and
free them. The layer below them (`btif_plat.c`, `btif_dma_plat.c`, `request_irq`) answers each call
with an error code of its own choice. Modelled are the clock reference counts, the registered
interrupt handlers, the modes, the state, and how often the mutex is locked and unlocked.
-/

namespace Btif

/-- `_ENUM_BTIF_STATE_`. -/
inductive BtifState
  | off
  | suspend
  | dpidle
  | on
  deriving DecidableEq

/-- `_ENUM_BTIF_MODE_`. -/
inductive BtifMode
  | pio
  | dma
  deriving DecidableEq

/-- `_ENUM_BTIF_DIR_`. -/
inductive BtifDir
  | tx
  | rx
  deriving DecidableEq

/-- `_ENUM_CLOCK_CTRL_`. -/
inductive ClockCtrl
  | disable
  | enable
  deriving DecidableEq

/-- The interrupts of the controller and of its DMA channels. -/
inductive BtifIrq
  | btif
  | dma (dir : BtifDir)
  deriving DecidableEq

/-- The calls that something outside of the state machine answers. `txWait` is the polling loop of
`_btif_enter_dpidle_from_on`, which is not 0 when it has used up all its retries. -/
inductive HalCall
  | lock
  | clk (flag : ClockCtrl)
  | hwInit
  | loopbackCtrl
  | irqReg (irq : BtifIrq)
  | dmaClk (dir : BtifDir) (flag : ClockCtrl)
  | dmaCtrl (dir : BtifDir) (flag : ClockCtrl)
  | modeCtrl (dir : BtifDir) (mode : BtifMode)
  | txWait
  | write (mode : BtifMode)
  deriving DecidableEq

/-- The answers, by the kind of the call and by how many calls the operation has made before. -/
abbrev Hal := HalCall → Nat → Int

def eBtifIntr : Int := -4
def eBtifAlreadyOpen : Int := -6
def eBtifNotOpen : Int := -7
def eBtifInvalState : Int := -8

/-- `struct _mtk_btif_`, with `reg_flag` of the interrupts and the two clock reference counts
(`s_clk_ref`). `taken` and `released` count the locks and unlocks of `state_mtx`. -/
structure MtkBtif where
  enable : Bool
  state : BtifState
  mode : BtifDir → BtifMode
  lpbkFlag : Bool
  regFlag : BtifIrq → Bool
  clkRef : Int
  dmaClkRef : Int
  taken : Nat
  released : Nat
  halCalls : Nat

/-- The port as the probe leaves it. -/
def btifProbe : MtkBtif :=
  { enable := false, state := .off, mode := fun _ => .dma, lpbkFlag := false,
    regFlag := fun _ => false, clkRef := 0, dmaClkRef := 0, taken := 0, released := 0,
    halCalls := 0 }

/-- A call that is answered from outside. -/
def halCall (h : Hal) (c : HalCall) (s : MtkBtif) : Int × MtkBtif :=
  (h c s.halCalls, { s with halCalls := s.halCalls + 1 })

/-- `hal_btif_clk_ctrl` with `MTK_BTIF_ENABLE_CLK_REF_COUNTER`: the clock is touched when the count
becomes 1 or 0, and the count moves even if that fails. -/
def halBtifClkCtrl (h : Hal) (flag : ClockCtrl) (s : MtkBtif) : Int × MtkBtif :=
  match flag with
  | .enable =>
    let s := { s with clkRef := s.clkRef + 1 }
    if s.clkRef = 1 then halCall h (.clk .enable) s else (0, s)
  | .disable =>
    let s := { s with clkRef := s.clkRef - 1 }
    if s.clkRef = 0 then halCall h (.clk .disable) s else (0, s)

/-- `hal_btif_dma_clk_ctrl`: both channels share a count. -/
def halBtifDmaClkCtrl (h : Hal) (dir : BtifDir) (flag : ClockCtrl) (s : MtkBtif) : Int × MtkBtif :=
  match flag with
  | .enable =>
    let s := { s with dmaClkRef := s.dmaClkRef + 1 }
    if s.dmaClkRef = 1 then halCall h (.dmaClk dir .enable) s else (0, s)
  | .disable =>
    let s := { s with dmaClkRef := s.dmaClkRef - 1 }
    if s.dmaClkRef = 0 then halCall h (.dmaClk dir .disable) s else (0, s)

/-- `_btif_irq_reg`. -/
def btifIrqReg (h : Hal) (irq : BtifIrq) (s : MtkBtif) : Int × MtkBtif :=
  let q := halCall h (.irqReg irq) s
  if q.1 ≠ 0 then q else (0, { q.2 with regFlag := Function.update q.2.regFlag irq true })

/-- `_btif_irq_free`. -/
def btifIrqFree (irq : BtifIrq) (s : MtkBtif) : MtkBtif :=
  { s with regFlag := Function.update s.regFlag irq false }

/-- `_btif_state_hold`. -/
def btifStateHold (h : Hal) (s : MtkBtif) : Int × MtkBtif :=
  let q := halCall h .lock s
  if q.1 ≠ 0 then q else (0, { q.2 with taken := q.2.taken + 1 })

/-- `_btif_state_release`. -/
def btifStateRelease (s : MtkBtif) : MtkBtif := { s with released := s.released + 1 }

/-- `_btif_state_set`. -/
def btifStateSet (state : BtifState) (s : MtkBtif) : Int × MtkBtif :=
  if s.state = state then (0, s)
  else match s.state, state with
    | .on, .dpidle | .on, .off | .on, .suspend | .dpidle, .on | .dpidle, .suspend
    | .suspend, .dpidle | .suspend, .on | .off, .on => (0, { s with state := state })
    | _, _ => (eBtifInvalState, s)

/-- `_btif_lpbk_ctrl`. -/
def btifLpbkCtrl (h : Hal) (flag : Bool) (s : MtkBtif) : Int × MtkBtif :=
  let q := halCall h .loopbackCtrl s
  if q.1 = 0 then (0, { q.2 with lpbkFlag := flag }) else q

/-! ## Setting up and freeing -/

/-- `_btif_tx_pio_setup` and `_btif_rx_pio_setup`. -/
def btifPioSetup (h : Hal) (dir : BtifDir) (s : MtkBtif) : Int × MtkBtif :=
  halCall h (.modeCtrl dir .pio) { s with mode := Function.update s.mode dir .pio }

/-- `_btif_tx_dma_setup`: the end, where the DMA channel runs. -/
def btifDmaSetupIrq (h : Hal) (dir : BtifDir) (s : MtkBtif) : Int × MtkBtif :=
  btifIrqReg h (.dma dir) (halCall h (.modeCtrl dir .dma) s).2

/-- `_btif_tx_dma_setup`. -/
def btifTxDmaSetup (h : Hal) (s : MtkBtif) : Int × MtkBtif :=
  let c := halBtifDmaClkCtrl h .tx .enable s
  if c.1 ≠ 0 then c
  else
    let d := halCall h (.dmaCtrl .tx .enable) c.2
    -- the clock stays on here as it is counted
    if d.1 ≠ 0 then (d.1, (btifPioSetup h .tx d.2).2)
    else btifDmaSetupIrq h .tx d.2

/-- `_btif_rx_dma_setup`. -/
def btifRxDmaSetup (h : Hal) (s : MtkBtif) : Int × MtkBtif :=
  let c := halBtifDmaClkCtrl h .rx .enable s
  if c.1 ≠ 0 then btifPioSetup h .rx c.2
  else
    let d := halCall h (.dmaCtrl .rx .enable) c.2
    if d.1 ≠ 0 then btifPioSetup h .rx (halBtifDmaClkCtrl h .rx .disable d.2).2
    else btifDmaSetupIrq h .rx d.2

/-- `_btif_tx_dma_free` and `_btif_rx_dma_free`. -/
def btifDmaFree (h : Hal) (dir : BtifDir) (s : MtkBtif) : Int × MtkBtif :=
  halBtifDmaClkCtrl h dir .disable
    (halCall h (.dmaCtrl dir .disable) (btifIrqFree (.dma dir) s)).2

/-- A channel in DMA mode is set up with `dmaSetup`, and put into PIO mode where that fails. -/
def btifControllerDirSetup (h : Hal) (dir : BtifDir) (dmaSetup : MtkBtif → Int × MtkBtif)
    (s : MtkBtif) : Int × MtkBtif :=
  if s.mode dir = .dma then
    let r := dmaSetup s
    if r.1 ≠ 0 then btifPioSetup h dir r.2 else r
  else btifPioSetup h dir s

/-- `_btif_controller_tx_setup`. -/
def btifControllerTxSetup (h : Hal) (s : MtkBtif) : Int × MtkBtif :=
  btifControllerDirSetup h .tx (btifTxDmaSetup h) s

/-- `_btif_controller_rx_setup`. -/
def btifControllerRxSetup (h : Hal) (s : MtkBtif) : Int × MtkBtif :=
  btifControllerDirSetup h .rx (btifRxDmaSetup h) s

/-- `_btif_controller_tx_free` and `_btif_controller_rx_free`, which fail in PIO mode. -/
def btifControllerDirFree (h : Hal) (dir : BtifDir) (s : MtkBtif) : Int × MtkBtif :=
  if s.mode dir = .dma then btifDmaFree h dir s else (-1, s)

/-- `_btif_controller_setup`. -/
def btifControllerSetup (h : Hal) (s : MtkBtif) : Int × MtkBtif :=
  let c := halBtifClkCtrl h .enable s
  if c.1 ≠ 0 then c
  else
    let i := halCall h .hwInit c.2
    if i.1 ≠ 0 then (i.1, (halBtifClkCtrl h .disable i.2).2)
    else
      let l := btifLpbkCtrl h i.2.lpbkFlag i.2
      let q := btifIrqReg h .btif l.2
      if q.1 ≠ 0 then (q.1, (halBtifClkCtrl h .disable q.2).2) else q

/-- `_btif_controller_free`. -/
def btifControllerFree (h : Hal) (s : MtkBtif) : Int × MtkBtif :=
  halBtifClkCtrl h .disable (btifIrqFree .btif s)

/-- `_btif_init`: where it fails, it also releases the state mutex. -/
def btifInit (h : Hal) (s : MtkBtif) : Int × MtkBtif :=
  let c := btifControllerSetup h s
  if c.1 ≠ 0 then (c.1, btifStateRelease c.2)
  else
    let t := btifControllerTxSetup h c.2
    if t.1 ≠ 0 then (t.1, btifStateRelease (btifControllerFree h t.2).2)
    else
      let r := btifControllerRxSetup h t.2
      if r.1 ≠ 0 then
        (r.1, btifStateRelease
          (btifControllerFree h (btifControllerDirFree h .tx r.2).2).2)
      else r

/-! ## Deep idle -/

/-- The clock of a DMA channel, in DMA mode only: the error is added to `i_ret`. -/
def btifDmaClkAdd (h : Hal) (dir : BtifDir) (flag : ClockCtrl) (p : Int × MtkBtif) : Int × MtkBtif :=
  if p.2.mode dir = .dma then
    let c := halBtifDmaClkCtrl h dir flag p.2
    (p.1 + c.1, c.2)
  else p

/-- The clocks of both channels and of the controller, which is what
`_btif_exit_dpidle_from_dpidle` does, and `_btif_enter_dpidle_from_on` at its end. -/
def btifClksCtrl (h : Hal) (flag : ClockCtrl) (s : MtkBtif) : Int × MtkBtif :=
  let d := btifDmaClkAdd h .rx flag (btifDmaClkAdd h .tx flag (0, s))
  let c := halBtifClkCtrl h flag d.2
  (d.1 + c.1, c.2)

/-- `_btif_exit_dpidle_from_dpidle`. -/
def btifExitDpidleFromDpidle (h : Hal) (s : MtkBtif) : Int × MtkBtif := btifClksCtrl h .enable s

/-- `_btif_enter_dpidle_from_on`. -/
def btifEnterDpidleFromOn (h : Hal) (s : MtkBtif) : Int × MtkBtif :=
  let w := halCall h .txWait s
  if w.1 = 0 then btifClksCtrl h .disable w.2 else (-1, w.2)

/-- `_btif_enter_dpidle_from_sus`. -/
def btifEnterDpidleFromSus (h : Hal) (s : MtkBtif) : Int × MtkBtif :=
  let i := btifInit h s
  if i.1 = 0 then btifEnterDpidleFromOn h i.2 else i

/-- `_btif_exit_dpidle`. -/
def btifExitDpidle' (h : Hal) (s : MtkBtif) : Int × MtkBtif :=
  let r := match s.state with
    | .dpidle => btifExitDpidleFromDpidle h s
    | .suspend => btifInit h s
    | .off => btifInit h s
    | .on => (0, s)
  if r.1 = 0 then btifStateSet .on r.2 else r

/-- `_btif_enter_dpidle`. -/
def btifEnterDpidle' (h : Hal) (s : MtkBtif) : Int × MtkBtif :=
  let r := match s.state with
    | .on => btifEnterDpidleFromOn h s
    | .suspend => btifEnterDpidleFromSus h s
    | .dpidle => (0, s)
    | .off => (eBtifInvalState, s)
  if r.1 = 0 then btifStateSet .dpidle r.2 else r

/-! ## The entry points -/

/-- An operation between `_btif_state_hold` and `BTIF_STATE_RELEASE`. -/
def btifLocked (h : Hal) (body : MtkBtif → Int × MtkBtif) (s : MtkBtif) : Int × MtkBtif :=
  let l := btifStateHold h s
  if l.1 ≠ 0 then (eBtifIntr, l.2)
  else
    let r := body l.2
    (r.1, btifStateRelease r.2)

/-- `btif_open`, between the locks. -/
def btifOpenBody (h : Hal) (s : MtkBtif) : Int × MtkBtif :=
  let i := btifInit h s
  if i.1 = 0 then (0, (btifStateSet .on { i.2 with enable := true }).2) else i

/-- `btif_open`. -/
def btifOpen (h : Hal) (s : MtkBtif) : Int × MtkBtif :=
  if s.enable then (eBtifAlreadyOpen, s) else btifLocked h (btifOpenBody h) s

/-- `btif_close`, between the locks: what the functions return is not looked at. -/
def btifCloseBody (h : Hal) (s : MtkBtif) : Int × MtkBtif :=
  let e := (btifExitDpidle' h s).2
  let c := (btifControllerFree h { e with enable := false }).2
  let t := (btifControllerDirFree h .tx c).2
  let r := (btifControllerDirFree h .rx t).2
  (0, (btifStateSet .off { r with lpbkFlag := false }).2)

/-- `btif_close`. -/
def btifClose (h : Hal) (s : MtkBtif) : Int × MtkBtif :=
  if !s.enable then (eBtifNotOpen, s) else btifLocked h (btifCloseBody h) s

/-- `_btif_send_data`, between the locks. -/
def btifSendDataBody (h : Hal) (s : MtkBtif) : Int × MtkBtif :=
  let e := if s.state ≠ .on then btifExitDpidle' h s else (0, s)
  if e.1 ≠ 0 then (eBtifInvalState, e.2) else halCall h (.write (e.2.mode .tx)) e.2

/-- `btif_send_data` with `BTIF_TX_USER_CTX`, which is what the port is set to. -/
def btifSendData (h : Hal) (s : MtkBtif) : Int × MtkBtif := btifLocked h (btifSendDataBody h) s

/-- `btif_exit_dpidle`. -/
def btifExitDpidle (h : Hal) (s : MtkBtif) : Int × MtkBtif := btifLocked h (btifExitDpidle' h) s

/-- `btif_enter_dpidle`. -/
def btifEnterDpidle (h : Hal) (s : MtkBtif) : Int × MtkBtif := btifLocked h (btifEnterDpidle' h) s

/-- `_btif_suspend`: both channels and the controller are freed, with `i_ret` set by the channels
only. -/
def btifSuspendFree (h : Hal) (s : MtkBtif) : Int × MtkBtif :=
  let c := btifControllerFree h s
  let t := btifControllerDirFree h .tx c.2
  let r := btifControllerDirFree h .rx t.2
  (t.1 + r.1, r.2)

/-- `_btif_suspend`, between the locks. -/
def btifSuspendBody (h : Hal) (s : MtkBtif) : Int × MtkBtif :=
  if !s.enable then (0, s)
  else if s.state = .on then (-1, s)
  else
    let e := btifExitDpidle' h s
    let f := if e.1 = 0 then btifSuspendFree h e.2 else e
    if f.1 ≠ 0 then f
    else
      let t := btifStateSet .suspend f.2
      if t.1 ≠ 0 then
        let i := btifInit h t.2
        if i.1 ≠ 0 then btifStateSet .off i.2 else (t.1, i.2)
      else t

/-- `_btif_suspend`. -/
def btifSuspend (h : Hal) (s : MtkBtif) : Int × MtkBtif := btifLocked h (btifSuspendBody h) s

/-- `_btif_resume`, between the locks. -/
def btifResumeBody (h : Hal) (s : MtkBtif) : Int × MtkBtif :=
  if !s.enable then (0, s)
  else if s.state = .suspend then btifEnterDpidle' h s
  else (0, s)

/-- `_btif_resume`. -/
def btifResume (h : Hal) (s : MtkBtif) : Int × MtkBtif := btifLocked h (btifResumeBody h) s

/-- The entry points. -/
inductive BtifCall
  | openPort
  | closePort
  | sendData
  | enterDpidle
  | exitDpidle
  | suspend
  | resume
  deriving DecidableEq

/-- A call of an entry point, with what the layer below answers during it. -/
structure BtifOp where
  call : BtifCall
  hal : Hal

/-- One call of an entry point. -/
def btifStep (s : MtkBtif) (op : BtifOp) : Option (Int × MtkBtif) :=
  let s := { s with halCalls := 0 }
  some <| match op.call with
    | .openPort => btifOpen op.hal s
    | .closePort => btifClose op.hal s
    | .sendData => btifSendData op.hal s
    | .enterDpidle => btifEnterDpidle op.hal s
    | .exitDpidle => btifExitDpidle op.hal s
    | .suspend => btifSuspend op.hal s
    | .resume => btifResume op.hal s

end Btif
