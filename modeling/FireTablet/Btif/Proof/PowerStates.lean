import FireTablet.Btif.Proof.PowerFacts

/-!
# The power states of BTIF along runs

Each entry point leads from a state of the port in which everything is as it should be to another
such state, if what it relies on does not fail: `PowerCond` says what that is in each state
(`power_states`).
-/

namespace Btif

/-- What an operation relies on to turn the port on. A port that is off must not be turned on. -/
def ExitOk (h : Hal) (m : BtifDir → BtifMode) : BtifState → Prop
  | .dpidle => ClksOk h .enable m
  | .suspend => InitOk h
  | .on => True
  | .off => False

/-- What an operation relies on to enter deep idle. From `on` the port stays as it is while data is
sent; from `suspend` it must not. -/
def EnterOk (h : Hal) (m : BtifDir → BtifMode) : BtifState → Prop
  | .on => (∀ n, h .txWait n ≠ 0) ∨ Ok h .txWait ∧ ClksOk h .disable m
  | .suspend => InitOk h ∧ Ok h .txWait ∧ ∀ m, ClksOk h .disable m
  | .dpidle | .off => True

/-- What `_btif_suspend` relies on to free the port: channels in DMA mode. -/
structure SuspendOk (h : Hal) (m : BtifDir → BtifMode) (st : BtifState) : Prop where
  mode : ∀ dir, m dir = .dma
  clk : ∀ dir, Ok h (.dmaClk dir .disable)
  dma : st = .suspend → DmaOk h

/-- What an operation relies on in the state it starts from, where it is not interrupted. -/
def PowerCond (s : MtkBtif) (op : BtifOp) : Prop :=
  op.hal .lock 0 ≠ 0 ∨ match op.call with
    | .openPort => s.enable = true ∨ InitOk op.hal
    | .closePort => s.enable = false ∨ ExitOk op.hal s.mode s.state
    | .sendData | .exitDpidle => ExitOk op.hal s.mode s.state
    | .enterDpidle => EnterOk op.hal s.mode s.state
    | .suspend => s.enable = false ∨ s.state = .on ∨
        ExitOk op.hal s.mode s.state ∧ SuspendOk op.hal s.mode s.state
    | .resume => s.enable = false ∨ s.state ≠ .suspend ∨ EnterOk op.hal s.mode s.state

/-- The port is as its state says: the mutex is free, the clock is on in `on` only, and the handlers
in use are registered in `on` and `dpidle` only; a port that is not off is open. -/
structure PowerOk (s : MtkBtif) : Prop where
  mutex : s.released = s.taken
  clkOn : s.state = .on → s.clkRef = 1
  clkOff : s.state ≠ .on → s.clkRef = 0
  irq : s.regFlag .btif = true ↔ s.state = .on ∨ s.state = .dpidle
  irqDma : ∀ dir, s.regFlag (.dma dir) = true ↔
    (s.state = .on ∨ s.state = .dpidle) ∧ s.mode dir = .dma
  opened : s.state ≠ .off → s.enable = true

section
variable {h : Hal} {s : MtkBtif} {st : BtifState} {m : BtifDir → BtifMode} {a b : Nat}

/-! ## What the state of the port is -/

theorem enable_of_powerAt (hs : s.power = powerAt st m a b) : s.enable = decide (st ≠ .off) :=
  congrArg Power.enable hs

theorem state_of_powerAt (hs : s.power = powerAt st m a b) : s.state = st :=
  congrArg Power.state hs

theorem mode_of_powerAt (hs : s.power = powerAt st m a b) : s.mode = m :=
  congrArg Power.mode hs

theorem powerOk_of_powerAt (hs : s.power = powerAt st m a a) : PowerOk s := by
  have hst := state_of_powerAt hs
  have hm := mode_of_powerAt hs
  have hreg : s.regFlag = handlers st m := congrArg Power.regFlag hs
  have hclk : s.clkRef = if st = .on then 1 else 0 := congrArg Power.clkRef hs
  have ht : s.taken = a := congrArg Power.taken hs
  have hr : s.released = a := congrArg Power.released hs
  refine ⟨hr.trans ht.symm, ?_, ?_, ?_, ?_, ?_⟩
  · intro hon
    rw [hclk, if_pos (hst ▸ hon)]
  · intro hon
    rw [hclk, if_neg (hst ▸ hon)]
  · rw [hreg, hst]
    cases st <;> simp [handlers, BtifState.live, served]
  · intro dir
    rw [hreg, hst, hm]
    cases st <;> simp [handlers, BtifState.live, served]
  · intro hoff
    rw [enable_of_powerAt hs, decide_eq_true_iff]
    exact hst ▸ hoff

/-! ## Clocks and freeing -/

theorem power_dmaClkAdd (dir : BtifDir) (flag : ClockCtrl) (p : Int × MtkBtif) :
    (btifDmaClkAdd h dir flag p).2.power = p.2.power := by
  rw [btifDmaClkAdd]
  split_ifs
  · exact power_dmaClkCtrl dir flag
  · rfl

theorem dmaClkAdd_ok {dir : BtifDir} {flag : ClockCtrl} {p : Int × MtkBtif} (hp : p.1 = 0)
    (hok : p.2.power.mode dir = .dma → Ok h (.dmaClk dir flag)) :
    (btifDmaClkAdd h dir flag p).1 = 0 := by
  rw [btifDmaClkAdd]
  split_ifs with hm
  · have hc : (halBtifDmaClkCtrl h dir flag p.2).1 = 0 := dmaClkCtrl_ok (hok hm)
    simp [hp, hc]
  · exact hp

theorem power_clksCtrl (flag : ClockCtrl) : (btifClksCtrl h flag s).2.power =
    { s.power with clkRef := s.power.clkRef + flag.delta } := by
  rw [btifClksCtrl, power_clkCtrl, power_dmaClkAdd, power_dmaClkAdd]

theorem clksCtrl_ok {flag : ClockCtrl} (hok : ClksOk h flag s.power.mode) :
    (btifClksCtrl h flag s).1 = 0 := by
  have ht : (btifDmaClkAdd h .tx flag (0, s)).1 = 0 := dmaClkAdd_ok rfl (hok.dma .tx)
  have hr : (btifDmaClkAdd h .rx flag (btifDmaClkAdd h .tx flag (0, s))).1 = 0 :=
    dmaClkAdd_ok ht (by rw [power_dmaClkAdd]; exact hok.dma .rx)
  simp [btifClksCtrl, hr, clkCtrl_ok hok.clk]

/-- The controller and both channels are freed, whatever the calls return. -/
theorem power_freed (hs : s.power.regFlag = served s.power.mode) :
    (btifControllerDirFree h .rx (btifControllerDirFree h .tx
      (btifControllerFree h s).2).2).2.power = s.power.down := by
  have hc := power_controllerFree (h := h) (s := s)
  have ht := power_dirFree (h := h) (d := .tx) (s := (btifControllerFree h s).2)
    (by rw [hc, hs]; rfl)
  have hr := power_dirFree (h := h) (d := .rx)
    (s := (btifControllerDirFree h .tx (btifControllerFree h s).2).2) (by rw [ht, hc, hs]; rfl)
  rw [hr, ht, hc, hs]
  simp only [Power.down, Power.mk.injEq, true_and, and_true]
  funext irq
  cases irq with
  | btif => simp
  | dma dir => cases dir <;> simp

/-! ## From one state to another -/

/-- The changes of state that `_btif_state_set` makes. -/
def BtifState.CanSet : BtifState → BtifState → Prop
  | .on, _ => True
  | .dpidle, st' | .suspend, st' => st' ≠ .off
  | .off, st' => st' = .off ∨ st' = .on

theorem stateSet_ok {r t : BtifState} (hs : s.power.state = r) (hok : r.CanSet t) :
    (btifStateSet t s).1 = 0 ∧
      (btifStateSet t s).2.power = { s.power with state := t } := by
  have hs' : s.state = r := hs
  by_cases he : r = t
  · subst he
    have hr : btifStateSet r s = (0, s) := by simp [btifStateSet, hs']
    rw [hr]
    exact ⟨rfl, by rw [← hs]⟩
  · have hr : btifStateSet t s = (0, { s with state := t }) := by
      cases r <;> cases t <;> simp_all [btifStateSet, BtifState.CanSet]
    rw [hr]
    exact ⟨rfl, rfl⟩

/-- **`_btif_exit_dpidle`** turns the port on. -/
theorem exit_ok (hs : s.power = powerAt st m a b) (he : ExitOk h m st) :
    (btifExitDpidle' h s).1 = 0 ∧ ∃ m', (btifExitDpidle' h s).2.power = powerAt .on m' a b ∧
      ((∀ dir, m dir = .dma) → (st = .suspend → DmaOk h) → ∀ dir, m' dir = .dma) := by
  have hst := state_of_powerAt hs
  have hm : s.power.mode = m := congrArg Power.mode hs
  cases st with
  | off => exact he.elim
  | on =>
    obtain ⟨hr, hp⟩ := stateSet_ok (s := s) (t := .on) hst trivial
    simp only [btifExitDpidle', hst, if_true]
    refine ⟨hr, m, ?_, fun h _ => h⟩
    rw [hp, hs]
    rfl
  | dpidle =>
    have hc : (btifClksCtrl h .enable s).1 = 0 := clksCtrl_ok (hm ▸ he)
    have hcp := power_clksCtrl (h := h) (s := s) .enable
    obtain ⟨hr, hp⟩ := stateSet_ok (s := (btifClksCtrl h .enable s).2) (r := .dpidle)
      (t := .on) (by rw [hcp]; exact hst) (by simp [BtifState.CanSet])
    simp only [btifExitDpidle', hst, btifExitDpidleFromDpidle, hc, if_true]
    refine ⟨hr, m, ?_, fun h _ => h⟩
    rw [hp, hcp, hs]
    rfl
  | suspend =>
    have h0 : s.power.regFlag = fun _ => false := congrArg Power.regFlag hs
    obtain ⟨hi, m', hip⟩ := init_ok he h0
    obtain ⟨hr, hp⟩ := stateSet_ok (s := (btifInit h s).2) (r := .suspend)
      (t := .on) (by rw [hip]; exact hst) (by simp [BtifState.CanSet])
    simp only [btifExitDpidle', hst, hi, if_true]
    refine ⟨hr, m', ?_, fun hdma hd => ?_⟩
    · rw [hp, hip, hs]
      rfl
    · have hmm := congrArg Power.mode ((init_dma he (hd trivial) h0 (hm ▸ hdma)).symm.trans hip)
      have hm' : m = m' := hm.symm.trans hmm
      exact hm' ▸ hdma

/-- `_btif_enter_dpidle_from_on` where all data is sent. -/
theorem enterFromOn_ok (hw : Ok h .txWait) (hok : ClksOk h .disable s.power.mode) :
    (btifEnterDpidleFromOn h s).1 = 0 ∧ (btifEnterDpidleFromOn h s).2.power =
      { s.power with clkRef := s.power.clkRef - 1 } := by
  have hw' : (halCall h .txWait s).1 = 0 := hw _
  have hc : (btifClksCtrl h .disable (halCall h .txWait s).2).1 = 0 := clksCtrl_ok hok
  simp only [btifEnterDpidleFromOn, hw', if_true, hc, true_and]
  exact power_clksCtrl .disable

/-- **`_btif_enter_dpidle`** leads to deep idle, or changes nothing. -/
theorem enter_ok (hs : s.power = powerAt st m a b) (he : EnterOk h m st) :
    ∃ st' m', (btifEnterDpidle' h s).2.power = powerAt st' m' a b := by
  have hst := state_of_powerAt hs
  have hm : s.power.mode = m := congrArg Power.mode hs
  cases st with
  | off =>
    refine ⟨.off, m, ?_⟩
    simpa [btifEnterDpidle', hst, eBtifInvalState] using hs
  | dpidle =>
    obtain ⟨-, hp⟩ := stateSet_ok (s := s) (t := .dpidle) hst (by simp [BtifState.CanSet])
    refine ⟨.dpidle, m, ?_⟩
    simp only [btifEnterDpidle', hst, if_true]
    rw [hp, hs]
    rfl
  | on =>
    rcases he with hw | ⟨hw, hc⟩
    · have hw' : (halCall h .txWait s).1 ≠ 0 := hw _
      refine ⟨.on, m, ?_⟩
      simpa [btifEnterDpidle', hst, btifEnterDpidleFromOn, hw'] using hs
    · obtain ⟨hr, hrp⟩ := enterFromOn_ok hw (hm ▸ hc)
      obtain ⟨-, hp⟩ := stateSet_ok (s := (btifEnterDpidleFromOn h s).2) (r := .on)
        (t := .dpidle) (by rw [hrp]; exact hst) trivial
      refine ⟨.dpidle, m, ?_⟩
      simp only [btifEnterDpidle', hst, hr, if_true]
      rw [hp, hrp, hs]
      rfl
  | suspend =>
    obtain ⟨hi, hw, hc⟩ := he
    obtain ⟨hz, m', hip⟩ := init_ok hi (congrArg Power.regFlag hs)
    obtain ⟨hr, hrp⟩ := enterFromOn_ok (s := (btifInit h s).2) hw (hc _)
    obtain ⟨-, hp⟩ := stateSet_ok (s := (btifEnterDpidleFromOn h (btifInit h s).2).2)
      (r := .suspend) (t := .dpidle) (by rw [hrp, hip]; exact hst)
      (by simp [BtifState.CanSet])
    refine ⟨.dpidle, m', ?_⟩
    simp only [btifEnterDpidle', hst, btifEnterDpidleFromSus, hz, hr, if_true]
    rw [hp, hrp, hip, hs]
    rfl

/-! ## Between the locks -/

@[simp] theorem power_lpbkFlag (s : MtkBtif) (flag : Bool) :
    MtkBtif.power { s with lpbkFlag := flag } = s.power := rfl

theorem openBody_ok (hs : s.power = powerAt .off m a b) (hi : InitOk h) :
    ∃ st' m', (btifOpenBody h s).2.power = powerAt st' m' a b := by
  obtain ⟨hz, m', hip⟩ := init_ok hi (congrArg Power.regFlag hs)
  obtain ⟨-, hp⟩ := stateSet_ok (s := { (btifInit h s).2 with enable := true }) (r := .off)
    (t := .on) (by have := congrArg Power.state (hip.trans (by rw [hs])); exact this)
    (.inr rfl)
  have he : MtkBtif.power { (btifInit h s).2 with enable := true } =
      { (btifInit h s).2.power with enable := true } := rfl
  refine ⟨.on, m', ?_⟩
  simp only [btifOpenBody, hz, if_true]
  rw [hp, he, hip, hs]
  rfl

theorem closeBody_ok (hs : s.power = powerAt st m a b) (he : ExitOk h m st) :
    ∃ st' m', (btifCloseBody h s).2.power = powerAt st' m' a b := by
  obtain ⟨-, m', hep, -⟩ := exit_ok hs he
  have hd : MtkBtif.power { (btifExitDpidle' h s).2 with enable := false } =
      { powerAt .on m' a b with enable := false } := by
    rw [← hep]
    rfl
  have hf := power_freed (h := h) (s := { (btifExitDpidle' h s).2 with enable := false })
    (by rw [hd]; rfl)
  rw [hd] at hf
  obtain ⟨-, hp⟩ := stateSet_ok (r := .on) (t := .off)
    (s := { (btifControllerDirFree h .rx (btifControllerDirFree h .tx (btifControllerFree h
      { (btifExitDpidle' h s).2 with enable := false }).2).2).2 with lpbkFlag := false })
    (congrArg Power.state hf) trivial
  refine ⟨.off, m', ?_⟩
  simp only [btifCloseBody]
  rw [hp, power_lpbkFlag, hf]
  rfl

theorem sendDataBody_ok (hs : s.power = powerAt st m a b) (he : ExitOk h m st) :
    ∃ st' m', (btifSendDataBody h s).2.power = powerAt st' m' a b := by
  by_cases hon : s.state = .on
  · exact ⟨st, m, by simpa [btifSendDataBody, hon] using hs⟩
  · obtain ⟨hr, m', hp, -⟩ := exit_ok hs he
    exact ⟨.on, m', by simpa [btifSendDataBody, hon, hr] using hp⟩

/-- Freeing succeeds where the channels are in DMA mode. -/
theorem suspendFree_ok (hs : s.power = powerAt .on m a b) (hm : ∀ dir, m dir = .dma)
    (hc : ∀ dir, Ok h (.dmaClk dir .disable)) :
    (btifSuspendFree h s).1 = 0 ∧ (btifSuspendFree h s).2.power = s.power.down := by
  have hcp := power_controllerFree (h := h) (s := s)
  have ht : (btifControllerDirFree h .tx (btifControllerFree h s).2).1 = 0 :=
    dirFree_ok (by rw [hcp, hs]; exact hm .tx) (hc .tx)
  have htp := power_dirFree (h := h) (d := .tx) (s := (btifControllerFree h s).2)
    (by rw [hcp, hs]; rfl)
  have hr : (btifControllerDirFree h .rx
      (btifControllerDirFree h .tx (btifControllerFree h s).2).2).1 = 0 :=
    dirFree_ok (by rw [htp, hcp, hs]; exact hm .rx) (hc .rx)
  exact ⟨by simp [btifSuspendFree, ht, hr], power_freed (by rw [hs]; rfl)⟩

theorem suspendBody_ok (hs : s.power = powerAt st m a b)
    (hc : s.enable = false ∨ s.state = .on ∨ ExitOk h m st ∧ SuspendOk h m st) :
    ∃ st' m', (btifSuspendBody h s).2.power = powerAt st' m' a b := by
  by_cases hen : s.enable = false
  · exact ⟨st, m, by simpa [btifSuspendBody, hen] using hs⟩
  by_cases hon : s.state = .on
  · exact ⟨st, m, by simpa [btifSuspendBody, hen, hon] using hs⟩
  obtain ⟨he, hu⟩ := (hc.resolve_left hen).resolve_left hon
  obtain ⟨hr, m', hp, hdma⟩ := exit_ok hs he
  obtain ⟨hq, hf⟩ := suspendFree_ok hp (hdma hu.mode hu.dma) hu.clk
  obtain ⟨hz, hsp⟩ := stateSet_ok (r := .on) (t := .suspend)
    (s := (btifSuspendFree h (btifExitDpidle' h s).2).2)
    (congrArg Power.state (hf.trans (by rw [hp]))) trivial
  refine ⟨.suspend, m', ?_⟩
  simp only [btifSuspendBody, hen, hon, hr, hq, hz, Bool.not_eq_true', if_false, if_true, ne_eq,
    not_true_eq_false, reduceCtorEq]
  rw [hsp, hf, hp]
  rfl

theorem resumeBody_ok (hs : s.power = powerAt st m a b)
    (hc : s.enable = false ∨ st ≠ .suspend ∨ EnterOk h m st) :
    ∃ st' m', (btifResumeBody h s).2.power = powerAt st' m' a b := by
  have hst := state_of_powerAt hs
  by_cases hen : s.enable = false
  · exact ⟨st, m, by simpa [btifResumeBody, hen] using hs⟩
  by_cases hsus : s.state = .suspend
  · obtain ⟨st', m', hp⟩ := enter_ok hs ((hc.resolve_left hen).resolve_left
      (not_not.2 (hst ▸ hsus)))
    exact ⟨st', m', by simpa [btifResumeBody, hen, hsus] using hp⟩
  · exact ⟨st, m, by simpa [btifResumeBody, hen, hsus] using hs⟩

/-! ## Operations and runs -/

/-- Everything is as it should be in some state. -/
def PowerInv (s : MtkBtif) : Prop := ∃ st m a, s.power = powerAt st m a a

/-- The mutex is taken and released once around what an operation does. -/
theorem locked_ok {body : MtkBtif → Int × MtkBtif} (hs : s.power = powerAt st m a a)
    (hb : h .lock s.halCalls = 0 → ∀ s', s'.power = powerAt st m (a + 1) a →
      ∃ st' m', (body s').2.power = powerAt st' m' (a + 1) a) :
    PowerInv (btifLocked h body s).2 := by
  by_cases hl : (halCall h .lock s).1 = 0
  · have hh : (btifStateHold h s).1 = 0 := by simp [btifStateHold, hl]
    have hhp : (btifStateHold h s).2.power = { s.power with taken := s.power.taken + 1 } := by
      simp only [btifStateHold, hl, ne_eq, not_true_eq_false, if_false]
      rfl
    obtain ⟨st', m', hp⟩ := hb hl (btifStateHold h s).2 (by rw [hhp, hs]; rfl)
    have hrp : (btifStateRelease (body (btifStateHold h s).2).2).power =
        { (body (btifStateHold h s).2).2.power with
          released := (body (btifStateHold h s).2).2.power.released + 1 } := rfl
    refine ⟨st', m', a + 1, ?_⟩
    simp only [btifLocked, hh, ne_eq, not_true_eq_false, if_false]
    rw [hrp, hp]
    rfl
  · have hh : btifStateHold h s = halCall h .lock s := by simp [btifStateHold, hl]
    refine ⟨st, m, a, ?_⟩
    simp only [btifLocked, hh, hl, ne_eq, not_false_eq_true, if_true]
    exact (power_halCall .lock).trans hs

/-- **One operation** leads from a port as it should be to another. -/
theorem step_ok {op : BtifOp} {r : Int} {s' : MtkBtif} (hi : PowerInv s) (hc : PowerCond s op)
    (hst : btifStep s op = some (r, s')) : PowerInv s' := by
  obtain ⟨st, m, a, hs⟩ := hi
  obtain ⟨call, h⟩ := op
  have hs0 : MtkBtif.power { s with halCalls := 0 } = powerAt st m a a := hs
  have hstate := state_of_powerAt hs
  have hmode := mode_of_powerAt hs
  -- what the operation relies on counts where the mutex is taken
  have hrel : h .lock 0 = 0 → _ := fun hl => hc.resolve_left (not_not.2 hl)
  rw [hstate, hmode] at hrel
  simp only [btifStep, Option.some.injEq] at hst
  rw [show s' = (r, s').2 from rfl, ← hst]
  cases call with
  | openPort =>
    simp only [btifOpen]
    split_ifs with hen
    · exact ⟨st, m, a, hs⟩
    · have hoff : st = .off := by simpa [enable_of_powerAt hs] using hen
      subst hoff
      exact locked_ok hs0 fun hl s' hs' => openBody_ok hs' ((hrel hl).resolve_left hen)
  | closePort =>
    simp only [btifClose]
    split_ifs with hen
    · exact ⟨st, m, a, hs⟩
    · exact locked_ok hs0 fun hl s' hs' =>
        closeBody_ok hs' ((hrel hl).resolve_left (by simpa using hen))
  | sendData => exact locked_ok hs0 fun hl s' hs' => sendDataBody_ok hs' (hrel hl)
  | exitDpidle =>
    refine locked_ok hs0 fun hl s' hs' => ?_
    obtain ⟨-, m', hp, -⟩ := exit_ok hs' (hrel hl)
    exact ⟨.on, m', hp⟩
  | enterDpidle => exact locked_ok hs0 fun hl s' hs' => enter_ok hs' (hrel hl)
  | suspend =>
    refine locked_ok hs0 fun hl s' hs' => suspendBody_ok hs' ?_
    rw [enable_of_powerAt hs', ← enable_of_powerAt hs, state_of_powerAt hs']
    exact hrel hl
  | resume =>
    refine locked_ok hs0 fun hl s' hs' => resumeBody_ok hs' ?_
    rw [enable_of_powerAt hs', ← enable_of_powerAt hs]
    exact hrel hl

end

theorem probe_inv : PowerInv btifProbe := ⟨.off, fun _ => .dma, 0, rfl⟩

/-- **The port is always as its state says**, along every run of the entry points in which nothing
fails that they rely on. -/
theorem power_states (ops : List BtifOp) (es : List (BtifOp × Int)) (s : MtkBtif)
    (hc : Sys.Along btifStep PowerCond btifProbe ops)
    (hr : Sys.run btifStep btifProbe ops = some (es, s)) : PowerOk s := by
  obtain ⟨st, m, a, hs⟩ := Sys.run_inv (I := PowerInv) (P := PowerCond)
    (fun _ _ _ _ hi hp hst => step_ok hi hp hst) ops btifProbe s es probe_inv hc hr
  exact powerOk_of_powerAt hs

/-- A layer below that never fails, and one whose calls of one kind fail. -/
def halOk : Hal := fun _ _ => 0
def halFails (c : HalCall) : Hal := fun c' _ => if c' = c then -16 else 0

theorem halOk_initOk : InitOk halOk := ⟨fun _ => rfl, fun _ => rfl, fun _ => rfl, fun _ _ => rfl⟩

theorem power_states_suspend : ∃ es s, Sys.run btifStep btifProbe
    [⟨.openPort, halOk⟩, ⟨.enterDpidle, halOk⟩, ⟨.suspend, halOk⟩] = some (es, s) ∧
      s.state = .suspend ∧ PowerOk s := by
  refine ⟨_, _, rfl, rfl, power_states [⟨.openPort, halOk⟩, ⟨.enterDpidle, halOk⟩,
    ⟨.suspend, halOk⟩] _ _ ?_ rfl⟩
  refine Sys.along_cons (.inr (.inr halOk_initOk)) rfl ?_
  refine Sys.along_cons (.inr (.inr ⟨fun _ => rfl, fun _ => rfl, fun _ _ _ => rfl⟩)) rfl ?_
  refine Sys.along_cons (.inr (.inr (.inr ⟨⟨fun _ => rfl, fun _ _ _ => rfl⟩, fun dir => ?_,
    fun _ _ => rfl, fun h => absurd h (by decide)⟩))) rfl trivial
  cases dir <;> rfl

/-- An interrupt handler that cannot be registered has the state mutex released twice. A port that
was never opened is turned on by `btif_exit_dpidle`, and a port in deep idle whose clock does not
come on is closed without being off. -/
theorem power_states_fails :
    (∃ es s, Sys.run btifStep btifProbe [⟨.openPort, halFails (.irqReg .btif)⟩] = some (es, s) ∧
      s.taken = 1 ∧ s.released = 2 ∧ ¬PowerOk s) ∧
    (∃ es s, Sys.run btifStep btifProbe [⟨.exitDpidle, halOk⟩] = some (es, s) ∧
      s.state = .on ∧ s.enable = false ∧ ¬PowerOk s) ∧
    (∃ es s, Sys.run btifStep btifProbe [⟨.openPort, halOk⟩, ⟨.enterDpidle, halOk⟩,
      ⟨.closePort, halFails (.clk .enable)⟩] = some (es, s) ∧
      s.state = .dpidle ∧ s.enable = false ∧ ¬PowerOk s) := by
  refine ⟨⟨_, _, rfl, rfl, rfl, fun h => ?_⟩, ⟨_, _, rfl, rfl, rfl, fun h => ?_⟩,
    ⟨_, _, rfl, rfl, rfl, fun h => ?_⟩⟩
  · exact absurd h.mutex (by decide)
  · exact absurd (h.opened (by decide)) (by decide)
  · exact absurd (h.opened (by decide)) (by decide)

end Btif
