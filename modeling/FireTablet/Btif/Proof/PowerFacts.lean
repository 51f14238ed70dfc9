import FireTablet.Btif.Power
import FireTablet.Lib.Run

/-!
# The power states of BTIF: what each entry point does

Of the state of the port only the `Power` counts here: the flag, the state, the modes, the
interrupts, the clock and the mutex. In `powerAt st m` they are as they should be in the state `st`
with the modes `m`. The functions that set up and free the hardware lead from one such state to
another as long as the layer below does not fail where they rely on it (`init_ok`, `dirFree_ok`).
-/

namespace Btif

/-- The part of the state of the port that the power states are about. -/
structure Power where
  enable : Bool
  state : BtifState
  mode : BtifDir → BtifMode
  regFlag : BtifIrq → Bool
  clkRef : Int
  taken : Nat
  released : Nat

/-- The power state of the port. -/
def MtkBtif.power (s : MtkBtif) : Power :=
  ⟨s.enable, s.state, s.mode, s.regFlag, s.clkRef, s.taken, s.released⟩

/-- What a clock call adds to the count. -/
def ClockCtrl.delta : ClockCtrl → Int
  | .enable => 1
  | .disable => -1

/-- The handlers are registered in these states. -/
def BtifState.live : BtifState → Bool
  | .on | .dpidle => true
  | .off | .suspend => false

/-- The handlers that a running port has: of the controller, and of the channels in DMA mode. -/
def served (m : BtifDir → BtifMode) : BtifIrq → Bool
  | .btif => true
  | .dma dir => m dir = .dma

/-- What the handlers should be in a state. -/
def handlers (st : BtifState) (m : BtifDir → BtifMode) : BtifIrq → Bool :=
  if st.live then served m else fun _ => false

/-- How the port should be in a state. -/
def powerAt (st : BtifState) (m : BtifDir → BtifMode) (taken released : Nat) : Power :=
  { enable := st ≠ .off, state := st, mode := m, regFlag := handlers st m,
    clkRef := if st = .on then 1 else 0, taken := taken, released := released }

/-- A call never fails. -/
def Ok (h : Hal) (c : HalCall) : Prop := ∀ n, h c n = 0

/-- What `_btif_init` needs: a DMA channel that does not come up is replaced by PIO mode. -/
structure InitOk (h : Hal) : Prop where
  clk : Ok h (.clk .enable)
  hwInit : Ok h .hwInit
  irq : Ok h (.irqReg .btif)
  pio : ∀ dir, Ok h (.modeCtrl dir .pio)

/-- Both DMA channels come up. -/
structure DmaOk (h : Hal) : Prop where
  clk : ∀ dir, Ok h (.dmaClk dir .enable)
  ctrl : ∀ dir, Ok h (.dmaCtrl dir .enable)
  irq : ∀ dir, Ok h (.irqReg (.dma dir))

/-- The clocks in use can be switched. -/
structure ClksOk (h : Hal) (flag : ClockCtrl) (m : BtifDir → BtifMode) : Prop where
  clk : Ok h (.clk flag)
  dma : ∀ dir, m dir = .dma → Ok h (.dmaClk dir flag)

section
variable {h : Hal} {s : MtkBtif} {st : BtifState} {m : BtifDir → BtifMode} {a b : Nat}

/-! ## Single calls -/

@[simp] theorem power_halCall (c : HalCall) : (halCall h c s).2.power = s.power := rfl

theorem power_clkCtrl (flag : ClockCtrl) : (halBtifClkCtrl h flag s).2.power =
    { s.power with clkRef := s.power.clkRef + flag.delta } := by
  cases flag <;> simp only [halBtifClkCtrl] <;> split <;> rfl

theorem clkCtrl_ok {flag : ClockCtrl} (hok : Ok h (.clk flag)) :
    (halBtifClkCtrl h flag s).1 = 0 := by
  cases flag <;> simp only [halBtifClkCtrl] <;> split
  · exact hok _
  · rfl
  · exact hok _
  · rfl

@[simp] theorem power_dmaClkCtrl (dir : BtifDir) (flag : ClockCtrl) :
    (halBtifDmaClkCtrl h dir flag s).2.power = s.power := by
  cases flag <;> simp only [halBtifDmaClkCtrl] <;> split <;> rfl

theorem dmaClkCtrl_ok {dir : BtifDir} {flag : ClockCtrl} (hok : Ok h (.dmaClk dir flag)) :
    (halBtifDmaClkCtrl h dir flag s).1 = 0 := by
  cases flag <;> simp only [halBtifDmaClkCtrl] <;> split
  · exact hok _
  · rfl
  · exact hok _
  · rfl

theorem power_irqReg (irq : BtifIrq) : (btifIrqReg h irq s).2.power =
    if (btifIrqReg h irq s).1 = 0 then
      { s.power with regFlag := Function.update s.power.regFlag irq true }
    else s.power := by
  by_cases hq : (halCall h (.irqReg irq) s).1 = 0
  · simp only [btifIrqReg, hq, ne_eq, not_true_eq_false, if_false, if_true]
    rfl
  · simp only [btifIrqReg, hq, ne_eq, not_false_eq_true, if_true, if_false]
    rfl

theorem irqReg_ok {irq : BtifIrq} (hok : Ok h (.irqReg irq)) : (btifIrqReg h irq s).1 = 0 := by
  have hq : (halCall h (.irqReg irq) s).1 = 0 := hok _
  simp [btifIrqReg, hq]

@[simp] theorem power_lpbkCtrl (flag : Bool) : (btifLpbkCtrl h flag s).2.power = s.power := by
  by_cases hq : (halCall h .loopbackCtrl s).1 = 0 <;> simp only [btifLpbkCtrl, hq] <;> rfl

@[simp] theorem power_pioSetup (dir : BtifDir) : (btifPioSetup h dir s).2.power =
    { s.power with mode := Function.update s.power.mode dir .pio } := rfl

theorem pioSetup_ok {dir : BtifDir} (hok : Ok h (.modeCtrl dir .pio)) :
    (btifPioSetup h dir s).1 = 0 := hok _

@[simp] theorem power_irqFree (irq : BtifIrq) : (btifIrqFree irq s).power =
    { s.power with regFlag := Function.update s.power.regFlag irq false } := rfl

/-! ## Setting up -/

/-- A channel in PIO mode. -/
def Power.pioUp (p : Power) (dir : BtifDir) : Power :=
  { p with mode := Function.update p.mode dir .pio }

/-- A channel in DMA mode. -/
def Power.dmaUp (p : Power) (dir : BtifDir) : Power :=
  { p with regFlag := Function.update p.regFlag (.dma dir) true }

@[simp] theorem pioUp_pioUp (p : Power) (dir : BtifDir) :
    (p.pioUp dir).pioUp dir = p.pioUp dir := by
  simp [Power.pioUp]

/-- What trying DMA mode leads to: it is entered, or given up, or PIO mode is entered instead. -/
inductive DmaTried (dir : BtifDir) (p : Power) (r : Int × MtkBtif) : Prop
  | up : r.1 = 0 → r.2.power = p.dmaUp dir → DmaTried dir p r
  | fail : r.1 ≠ 0 → r.2.power = p → DmaTried dir p r
  | pio : r.2.power = p.pioUp dir → DmaTried dir p r

theorem dmaSetupIrq_tried (dir : BtifDir) : DmaTried dir s.power (btifDmaSetupIrq h dir s) := by
  have hp : (btifDmaSetupIrq h dir s).2.power = _ := power_irqReg (.dma dir)
  split_ifs at hp with hr
  · exact .up hr hp
  · exact .fail hr hp

theorem txDmaSetup_tried : DmaTried .tx s.power (btifTxDmaSetup h s) := by
  simp only [btifTxDmaSetup]
  split_ifs with hc hd
  · exact .fail hc (power_dmaClkCtrl _ _)
  · exact .pio (by simp [Power.pioUp])
  · simpa using dmaSetupIrq_tried (h := h) (s := (halCall h (.dmaCtrl .tx .enable)
      (halBtifDmaClkCtrl h .tx .enable s).2).2) .tx

theorem rxDmaSetup_tried : DmaTried .rx s.power (btifRxDmaSetup h s) := by
  simp only [btifRxDmaSetup]
  split_ifs with hc hd
  · exact .pio (by simp [Power.pioUp])
  · exact .pio (by simp [Power.pioUp])
  · simpa using dmaSetupIrq_tried (h := h) (s := (halCall h (.dmaCtrl .rx .enable)
      (halBtifDmaClkCtrl h .rx .enable s).2).2) .rx

/-- A channel is set up in one of the two modes, if PIO mode can be entered. -/
theorem dirSetup_ok {dir : BtifDir} {dmaSetup : MtkBtif → Int × MtkBtif}
    (hpio : Ok h (.modeCtrl dir .pio)) (hr : DmaTried dir s.power (dmaSetup s)) :
    (btifControllerDirSetup h dir dmaSetup s).1 = 0 ∧
      (s.power.mode dir = .dma ∧ (btifControllerDirSetup h dir dmaSetup s).2.power = s.power.dmaUp dir ∨
        (btifControllerDirSetup h dir dmaSetup s).2.power = s.power.pioUp dir) := by
  simp only [btifControllerDirSetup]
  split_ifs with hm hz
  · refine ⟨pioSetup_ok hpio, .inr ?_⟩
    cases hr with
    | up hn _ => exact absurd hn hz
    | fail _ hp => rw [power_pioSetup, hp]; rfl
    | pio hp => rw [power_pioSetup, hp]; exact pioUp_pioUp _ _
  · rw [ne_eq, not_not] at hz
    cases hr with
    | up _ hu => exact ⟨hz, .inl ⟨hm, hu⟩⟩
    | fail hn _ => exact absurd hz hn
    | pio hp => exact ⟨hz, .inr hp⟩
  · exact ⟨pioSetup_ok hpio, .inr rfl⟩

theorem dmaSetupIrq_ok {dir : BtifDir} (hok : Ok h (.irqReg (.dma dir))) :
    (btifDmaSetupIrq h dir s).1 = 0 ∧
      (btifDmaSetupIrq h dir s).2.power = s.power.dmaUp dir := by
  have hr : (btifDmaSetupIrq h dir s).1 = 0 := irqReg_ok hok
  have hp : (btifDmaSetupIrq h dir s).2.power = _ := power_irqReg (.dma dir)
  exact ⟨hr, by rw [hp, if_pos (irqReg_ok hok)]; rfl⟩

theorem txDmaSetup_ok (hd : DmaOk h) : (btifTxDmaSetup h s).1 = 0 ∧
    (btifTxDmaSetup h s).2.power = s.power.dmaUp .tx := by
  have hc : (halBtifDmaClkCtrl h .tx .enable s).1 = 0 := dmaClkCtrl_ok (hd.clk .tx)
  have hw : (halCall h (.dmaCtrl .tx .enable) (halBtifDmaClkCtrl h .tx .enable s).2).1 = 0 :=
    hd.ctrl .tx _
  simp only [btifTxDmaSetup, hc, hw, ne_eq, not_true_eq_false, if_false]
  simpa using dmaSetupIrq_ok (h := h) (s := (halCall h (.dmaCtrl .tx .enable)
      (halBtifDmaClkCtrl h .tx .enable s).2).2) (hd.irq .tx)

theorem rxDmaSetup_ok (hd : DmaOk h) : (btifRxDmaSetup h s).1 = 0 ∧
    (btifRxDmaSetup h s).2.power = s.power.dmaUp .rx := by
  have hc : (halBtifDmaClkCtrl h .rx .enable s).1 = 0 := dmaClkCtrl_ok (hd.clk .rx)
  have hw : (halCall h (.dmaCtrl .rx .enable) (halBtifDmaClkCtrl h .rx .enable s).2).1 = 0 :=
    hd.ctrl .rx _
  simp only [btifRxDmaSetup, hc, hw, ne_eq, not_true_eq_false, if_false]
  simpa using dmaSetupIrq_ok (h := h) (s := (halCall h (.dmaCtrl .rx .enable)
      (halBtifDmaClkCtrl h .rx .enable s).2).2) (hd.irq .rx)

theorem dirSetup_dma {dir : BtifDir} {dmaSetup : MtkBtif → Int × MtkBtif} (hm : s.mode dir = .dma)
    (hr : (dmaSetup s).1 = 0) : btifControllerDirSetup h dir dmaSetup s = dmaSetup s := by
  simp [btifControllerDirSetup, hm, hr]

/-- The controller with its clock and its handler. -/
def Power.controllerUp (p : Power) : Power :=
  { p with clkRef := p.clkRef + 1, regFlag := Function.update p.regFlag .btif true }

theorem controllerSetup_ok (hi : InitOk h) : (btifControllerSetup h s).1 = 0 ∧
    (btifControllerSetup h s).2.power = s.power.controllerUp := by
  have hc : (halBtifClkCtrl h .enable s).1 = 0 := clkCtrl_ok hi.clk
  have hw : (halCall h .hwInit (halBtifClkCtrl h .enable s).2).1 = 0 := hi.hwInit _
  have hq := irqReg_ok (s := (btifLpbkCtrl h (halCall h .hwInit (halBtifClkCtrl h .enable s).2).2.lpbkFlag
    (halCall h .hwInit (halBtifClkCtrl h .enable s).2).2).2) hi.irq
  simp only [btifControllerSetup, hc, hw, hq, ne_eq, not_true_eq_false, if_false, true_and]
  rw [power_irqReg, if_pos hq, power_lpbkCtrl, power_halCall, power_clkCtrl]
  rfl

/-- The port after `_btif_init`. -/
def Power.up (p : Power) (m : BtifDir → BtifMode) : Power :=
  { p with clkRef := p.clkRef + 1, mode := m, regFlag := served m }

/-- Both channels set up one after the other. -/
theorem dirs_up {p p₁ p₂ : Power} (h0 : p.regFlag = fun _ => false)
    (h1 : p.mode .tx = .dma ∧ p₁ = p.controllerUp.dmaUp .tx ∨ p₁ = p.controllerUp.pioUp .tx)
    (h2 : p₁.mode .rx = .dma ∧ p₂ = p₁.dmaUp .rx ∨ p₂ = p₁.pioUp .rx) : ∃ m, p₂ = p.up m := by
  refine ⟨p₂.mode, ?_⟩
  have hreg : p₂.regFlag = served p₂.mode := by
    funext irq
    rcases h1 with ⟨htx, rfl⟩ | rfl <;> rcases h2 with ⟨hrx, rfl⟩ | rfl
    all_goals
      cases irq with
      | btif => simp [served, Power.controllerUp, Power.dmaUp, Power.pioUp]
      | dma dir => cases dir <;> simp_all [served, Power.controllerUp, Power.dmaUp, Power.pioUp]
  rw [Power.up, ← hreg]
  rcases h1 with ⟨-, rfl⟩ | rfl <;> rcases h2 with ⟨-, rfl⟩ | rfl <;> rfl

theorem txSetup_ok (hpio : Ok h (.modeCtrl .tx .pio)) : (btifControllerTxSetup h s).1 = 0 ∧
    (s.power.mode .tx = .dma ∧ (btifControllerTxSetup h s).2.power = s.power.dmaUp .tx ∨
      (btifControllerTxSetup h s).2.power = s.power.pioUp .tx) :=
  dirSetup_ok hpio txDmaSetup_tried

theorem rxSetup_ok (hpio : Ok h (.modeCtrl .rx .pio)) : (btifControllerRxSetup h s).1 = 0 ∧
    (s.power.mode .rx = .dma ∧ (btifControllerRxSetup h s).2.power = s.power.dmaUp .rx ∨
      (btifControllerRxSetup h s).2.power = s.power.pioUp .rx) :=
  dirSetup_ok hpio rxDmaSetup_tried

theorem init_eq (hi : InitOk h) : btifInit h s =
    btifControllerRxSetup h (btifControllerTxSetup h (btifControllerSetup h s).2).2 := by
  simp only [btifInit, (controllerSetup_ok hi).1, (txSetup_ok (hi.pio .tx)).1,
    (rxSetup_ok (hi.pio .rx)).1, ne_eq, not_true_eq_false, if_false]

/-- **`_btif_init`** brings a port up that has no handlers. -/
theorem init_ok (hi : InitOk h) (h0 : s.power.regFlag = fun _ => false) :
    (btifInit h s).1 = 0 ∧ ∃ m, (btifInit h s).2.power = s.power.up m := by
  rw [init_eq hi]
  obtain ⟨-, htp⟩ := txSetup_ok (s := (btifControllerSetup h s).2) (hi.pio .tx)
  obtain ⟨hr, hrp⟩ := rxSetup_ok
    (s := (btifControllerTxSetup h (btifControllerSetup h s).2).2) (hi.pio .rx)
  rw [(controllerSetup_ok hi).2] at htp
  exact ⟨hr, dirs_up h0 htp hrp⟩

/-- Where the DMA channels come up, the modes stay. -/
theorem init_dma (hi : InitOk h) (hd : DmaOk h) (h0 : s.power.regFlag = fun _ => false)
    (hm : ∀ dir, s.power.mode dir = .dma) :
    (btifInit h s).2.power = s.power.up s.power.mode := by
  have hc := (controllerSetup_ok (s := s) hi).2
  have hmc : (btifControllerSetup h s).2.mode = s.power.mode := congrArg Power.mode hc
  have ht : btifControllerTxSetup h (btifControllerSetup h s).2 = _ :=
    dirSetup_dma (by rw [hmc, hm]) (txDmaSetup_ok hd).1
  have htp := (txDmaSetup_ok (s := (btifControllerSetup h s).2) hd).2
  have hmt : (btifTxDmaSetup h (btifControllerSetup h s).2).2.mode = s.power.mode := by
    have := congrArg Power.mode htp
    exact this.trans hmc
  have hr : btifControllerRxSetup h (btifTxDmaSetup h (btifControllerSetup h s).2).2 = _ :=
    dirSetup_dma (by rw [hmt, hm]) (rxDmaSetup_ok hd).1
  rw [init_eq hi, ht, hr, (rxDmaSetup_ok hd).2, htp, hc]
  obtain ⟨m, hu⟩ := dirs_up h0 (.inl ⟨hm .tx, rfl⟩) (.inl ⟨hm .rx, rfl⟩)
  have hmm : m = s.power.mode := (congrArg Power.mode hu).symm
  rw [hu, hmm]

/-! ## Freeing -/

/-- The port without its handlers. -/
def Power.down (p : Power) : Power :=
  { p with clkRef := p.clkRef - 1, regFlag := fun _ => false }

theorem power_controllerFree : (btifControllerFree h s).2.power =
    { s.power with clkRef := s.power.clkRef - 1,
                   regFlag := Function.update s.power.regFlag .btif false } := by
  rw [btifControllerFree, power_clkCtrl, power_irqFree]
  rfl

theorem power_dirFree {d : BtifDir}
    (hd : s.power.regFlag (.dma d) = decide (s.power.mode d = .dma)) :
    (btifControllerDirFree h d s).2.power =
      { s.power with regFlag := Function.update s.power.regFlag (.dma d) false } := by
  rw [btifControllerDirFree]
  split_ifs with hm
  · rw [btifDmaFree, power_dmaClkCtrl, power_halCall, power_irqFree]
  · have hf : s.power.regFlag (.dma d) = false := hd.trans (decide_eq_false hm)
    rw [← hf, Function.update_eq_self]

theorem dirFree_ok {dir : BtifDir} (hm : s.power.mode dir = .dma)
    (hok : Ok h (.dmaClk dir .disable)) : (btifControllerDirFree h dir s).1 = 0 := by
  have hm' : s.mode dir = .dma := hm
  rw [btifControllerDirFree, if_pos hm']
  exact dmaClkCtrl_ok hok

end

end Btif
