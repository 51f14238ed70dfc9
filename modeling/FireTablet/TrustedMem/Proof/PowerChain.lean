import FireTablet.Lib.Run
import FireTablet.TrustedMem.Region

/-!
# Power transitions of a trusted memory region

`TrustedMemDevice.Powered`: the memory is taken from Linux, the session is open and the TEE has the
memory. One spec lemma says what a power-on leaves (`poweron_cases`) and one what a power-off leaves
(`poweroff_cases`); the invariant `PowerInv` of runs follows from the two.
-/

namespace TrustedMem

/-- Everything that a power-on sets up is set up. -/
def TrustedMemDevice.Powered (d : TrustedMemDevice) : Prop :=
  d.ssmrOff = true ∧ d.peerMgrData.opened = true ∧ d.granted = true

instance (d : TrustedMemDevice) : Decidable d.Powered := inferInstanceAs (Decidable (_ ∧ _))

/-! ## Operations in sequence -/

/-- The entry points, with the answers that they get. -/
inductive Op
  | online (a : PowerAns)
  | offline
  | deferOff (a : PowerAns)
  | alloc (alignment size : Nat) (doAlignmentCheck : Bool) (on : PowerAns) (alloc : Ans)
      (refInc : PowerAns)
  | unref (a : Ans)

/-- One entry point runs to its end. -/
def step (cfg : TrustedMemConfigs) (d : TrustedMemDevice) : Op → Option (Int × TrustedMemDevice)
  | .online a => some (regmgrOnline cfg d a)
  | .offline => some (tmemOk, regmgrOffline d)
  | .deferOff a => some (tmemOk, regmgrDeferOffHandler cfg d a)
  | .alloc alignment size doAlignmentCheck on alloc refInc =>
    tmemCoreAllocChunkInternal cfg d alignment size doAlignmentCheck on alloc refInc
  | .unref a => some (tmemCoreUnrefChunk d a)

/-- A power-off that gets its memory back from the TEE can also close the session and put the memory
back. -/
def PowerAns.WholeOff (keepAlive : Bool) (a : PowerAns) : Prop :=
  a.memRemove.ret = 0 → (keepAlive = true ∨ a.sessionClose.ret = 0) ∧ a.online.ret = 0

/-- The deferred power-off of a step, if it is one, is whole. -/
def WholeOffStep (cfg : TrustedMemConfigs) (_ : TrustedMemDevice) : Op → Prop
  | .deferOff a => a.WholeOff cfg.sessionKeepAliveEnable
  | _ => True

/-! ## One power-on, one power-off -/

/-- The memory that SSMR answers with, if any, is valid. -/
def PowerAns.ValidMem (a : PowerAns) : Prop :=
  a.offline.ret = 0 → a.offline.pa ≠ 0 ∧ a.offline.size % 2 ^ 32 ≠ 0

/-- Every call of the chain succeeds. -/
def PowerAns.AllOk (a : PowerAns) : Prop :=
  a.offline.ret = 0 ∧ a.ValidMem ∧ a.sessionOpen.ret = 0 ∧ a.memAdd.ret = 0 ∧
    a.memRemove.ret = 0 ∧ a.sessionClose.ret = 0 ∧ a.online.ret = 0

/-- What a power-on that failed leaves of the device `d` in `d'`. -/
structure FailedOn (keepAlive : Bool) (a : PowerAns) (d d' : TrustedMemDevice) : Prop where
  regMgr : d'.regMgr = d.regMgr
  granted : d'.granted = d.granted
  ssmr : a.ValidMem → a.online.ret = 0 → d'.ssmrOff = d.ssmrOff
  closed : keepAlive = false → a.sessionClose.ret = 0 → d.peerMgrData.opened = false →
    d'.peerMgrData.opened = false
  alive : keepAlive = true → d.peerMgrData.opened = true → d'.peerMgrData.opened = true

theorem tmemSsmrGet_cases (d : TrustedMemDevice) (a : Ans) :
    tmemSsmrGet d a = (tmemSsmrOfflineFailed, d) ∨
    (d.ssmrOff = false ∧ a.ret = 0 ∧ (a.pa = 0 ∨ a.size % 2 ^ 32 = 0) ∧
      tmemSsmrGet d a = (tmemInvalidAddrOrSize, { d with ssmrOff := true })) ∨
    (d.ssmrOff = false ∧ tmemSsmrGet d a = (tmemOk, { d with ssmrOff := true })) := by
  unfold tmemSsmrGet
  split_ifs with h1 h2
  · exact .inl rfl
  · simp only [not_or, Bool.not_eq_true, ne_eq, Decidable.not_not] at h1
    exact .inr (.inl ⟨h1.1, h1.2, h2, rfl⟩)
  · simp only [not_or, Bool.not_eq_true] at h1
    exact .inr (.inr ⟨h1.1, rfl⟩)

/-- Putting memory back changes nothing but who has it. -/
theorem tmemSsmrPut_snd (d : TrustedMemDevice) (a : Ans) :
    (tmemSsmrPut d a).2 = { d with ssmrOff := (tmemSsmrPut d a).2.ssmrOff } := by
  unfold tmemSsmrPut
  split_ifs <;> rfl

theorem tmemSsmrPut_ok {d : TrustedMemDevice} {a : Ans} (h : a.ret = 0) :
    (tmemSsmrPut d a).2.ssmrOff = false := by
  unfold tmemSsmrPut
  split_ifs with h1
  · simpa [h] using h1
  · rfl

/-- Closing a session changes nothing but whether it is open. -/
theorem sessionClose_snd (keepAlive : Bool) (d : TrustedMemDevice) (a : Ans) :
    ∃ b, (peerMgrSessionCloseLocked keepAlive d a).2 =
        { d with peerMgrData := { d.peerMgrData with opened := b } } ∧
      (keepAlive = false → a.ret = 0 → b = false) ∧
      (keepAlive = true → b = d.peerMgrData.opened) := by
  unfold peerMgrSessionCloseLocked sessionCloseSection
  cases hopen : d.peerMgrData.opened with
  | false =>
    rw [if_pos (by simp)]
    exact ⟨false, by rw [← hopen], fun _ _ => rfl, fun _ => rfl⟩
  | true =>
    rw [if_neg (by simp)]
    cases keepAlive with
    | true =>
      rw [if_pos rfl]
      exact ⟨true, by rw [← hopen], fun h => absurd h (by simp), fun _ => rfl⟩
    | false =>
      rw [if_neg (by simp)]
      by_cases hret : a.ret = 0
      · rw [if_neg (not_not_intro hret)]
        exact ⟨false, rfl, fun _ _ => rfl, fun h => absurd h (by simp)⟩
      · rw [if_pos hret]
        exact ⟨true, by rw [← hopen], fun _ h => absurd h hret, fun _ => rfl⟩

theorem sessionOpen_cases (d : TrustedMemDevice) (a : Ans) :
    (peerMgrSessionOpenLocked d a = (tmemMgrOpenSessionFailed, d)) ∨
    ((peerMgrSessionOpenLocked d a).1 = 0 ∨
        (peerMgrSessionOpenLocked d a).1 = tmemMgrSessionIsAlreadyOpen) ∧
      (peerMgrSessionOpenLocked d a).2 =
        { d with peerMgrData := { d.peerMgrData with opened := true } } := by
  unfold peerMgrSessionOpenLocked sessionOpenSection
  split_ifs with h1 h2
  · refine .inr ⟨.inr rfl, ?_⟩
    rw [← h1]
  · exact .inl rfl
  · exact .inr ⟨.inl rfl, rfl⟩

/-- **A power-on** either sets everything up, or fails. -/
theorem poweron_cases (keepAlive : Bool) (d : TrustedMemDevice) (a : PowerAns) :
    ((trustedMemRegionPoweron keepAlive d a).1 = 0 ∧
      (trustedMemRegionPoweron keepAlive d a).2.regMgr = d.regMgr ∧
      (trustedMemRegionPoweron keepAlive d a).2.Powered) ∨
    ((trustedMemRegionPoweron keepAlive d a).1 ≠ 0 ∧
      FailedOn keepAlive a d (trustedMemRegionPoweron keepAlive d a).2) := by
  obtain hget | ⟨hoff, hret, hbad, hget⟩ | ⟨hoff, hget⟩ := tmemSsmrGet_cases d a.offline
  · -- SSMR refuses: nothing has been done
    refine .inr ?_
    have hon : trustedMemRegionPoweron keepAlive d a = (tmemSsmrOfflineFailed, d) := by
      simp only [trustedMemRegionPoweron, hget]
      rfl
    rw [hon]
    exact ⟨by simp [tmemSsmrOfflineFailed],
      ⟨rfl, rfl, fun _ _ => rfl, fun _ _ h => h, fun _ h => h⟩⟩
  · refine .inr ?_
    have hon : trustedMemRegionPoweron keepAlive d a =
        (tmemInvalidAddrOrSize, { d with ssmrOff := true }) := by
      simp only [trustedMemRegionPoweron, hget]
      rfl
    rw [hon]
    exact ⟨by simp [tmemInvalidAddrOrSize], ⟨rfl, rfl, fun hv => absurd hbad (not_or.2 (hv hret)),
      fun _ _ h => h, fun _ h => h⟩⟩
  · obtain hopen | ⟨hret, hopen⟩ := sessionOpen_cases { d with ssmrOff := true } a.sessionOpen
    · -- no session: the memory goes back
      refine .inr ?_
      have hon : trustedMemRegionPoweron keepAlive d a =
          (tmemMgrOpenSessionFailed, (tmemSsmrPut { d with ssmrOff := true } a.online).2) := by
        simp only [trustedMemRegionPoweron, hget, hopen]
        rfl
      rw [hon, tmemSsmrPut_snd]
      refine ⟨by simp [tmemMgrOpenSessionFailed], ?_⟩
      exact ⟨rfl, rfl, fun _ h => (tmemSsmrPut_ok h).trans hoff.symm, fun _ _ h => h, fun _ h => h⟩
    · have hcond : ¬ ((peerMgrSessionOpenLocked { d with ssmrOff := true } a.sessionOpen).1 ≠ 0 ∧
          (peerMgrSessionOpenLocked { d with ssmrOff := true } a.sessionOpen).1 ≠
            tmemMgrSessionIsAlreadyOpen) := by
        intro h
        exact hret.elim h.1 h.2
      by_cases hadd : a.memAdd.ret = 0
      · refine .inl ?_
        simp only [trustedMemRegionPoweron, hget, if_neg hcond, hopen, peerMgrMemAddLocked,
          memAddSection, hadd]
        simp [tmemOk, TrustedMemDevice.Powered]
      · -- the TEE refuses the memory: the session is closed and the memory goes back
        refine .inr ?_
        obtain ⟨b, hclose, hb, hb'⟩ := sessionClose_snd keepAlive
          { d with ssmrOff := true, peerMgrData := { d.peerMgrData with opened := true } }
          a.sessionClose
        have hon : trustedMemRegionPoweron keepAlive d a = (tmemMgrMemAddFailed, (tmemSsmrPut
            { d with ssmrOff := true, peerMgrData := { d.peerMgrData with opened := b } }
            a.online).2) := by
          simp only [trustedMemRegionPoweron, hget, if_neg hcond, hopen, peerMgrMemAddLocked,
            memAddSection, if_pos hadd, not_true_eq_false, if_false, hclose]
          rfl
        rw [hon, tmemSsmrPut_snd]
        refine ⟨by simp [tmemMgrMemAddFailed], ?_⟩
        exact ⟨rfl, rfl, fun _ h => (tmemSsmrPut_ok h).trans hoff.symm,
          fun hk hc _ => hb hk hc, fun hk _ => hb' hk⟩

/-- **A power-off** of a region that has everything set up: refused by the TEE it changes nothing,
and whole it undoes the set-up. -/
theorem poweroff_cases (keepAlive : Bool) {d : TrustedMemDevice} (a : PowerAns) (h : d.Powered) :
    (a.memRemove.ret ≠ 0 ∧ (trustedMemRegionPoweroff keepAlive d a).1 ≠ 0 ∧
      (trustedMemRegionPoweroff keepAlive d a).2 = d) ∨
    (a.memRemove.ret = 0 ∧ (a.WholeOff keepAlive →
      (trustedMemRegionPoweroff keepAlive d a).1 = 0 ∧
      (trustedMemRegionPoweroff keepAlive d a).2.regMgr = d.regMgr ∧
      (trustedMemRegionPoweroff keepAlive d a).2.ssmrOff = false ∧
      (trustedMemRegionPoweroff keepAlive d a).2.granted = false ∧
      (trustedMemRegionPoweroff keepAlive d a).2.peerMgrData.opened = keepAlive)) := by
  obtain ⟨hoff, hopened, hgranted⟩ := h
  by_cases hrem : a.memRemove.ret = 0
  · refine .inr ⟨hrem, fun hw => ?_⟩
    obtain ⟨hclose, honline⟩ := hw hrem
    have hcl : keepAlive = false → a.sessionClose.ret = 0 := by
      intro hk
      exact hclose.resolve_left (by simp [hk])
    cases keepAlive with
    | true =>
      simp [trustedMemRegionPoweroff, peerMgrMemRemoveLocked, memRemoveSection, hopened, hrem,
        peerMgrSessionCloseLocked, tmemSsmrPut, honline, hoff, tmemOk]
    | false =>
      simp [trustedMemRegionPoweroff, peerMgrMemRemoveLocked, memRemoveSection, hopened, hrem,
        peerMgrSessionCloseLocked, sessionCloseSection, hcl rfl, tmemSsmrPut, honline, hoff, tmemOk]
  · have hoff : trustedMemRegionPoweroff keepAlive d a = (tmemMgrMemRemoveFailed, d) := by
      simp only [trustedMemRegionPoweroff, peerMgrMemRemoveLocked, memRemoveSection, hopened,
        not_true_eq_false, if_false, if_pos hrem]
      rfl
    rw [hoff]
    exact .inl ⟨hrem, by simp [tmemMgrMemRemoveFailed], rfl⟩

/-! ## The invariant of runs -/

/-- The state is the power state; without power the TEE has nothing. -/
structure PowerInv (d : TrustedMemDevice) : Prop where
  on : d.regMgr.state = .on → d.Powered
  off : d.regMgr.state = .off → d.granted = false

theorem PowerInv.init : PowerInv .init := ⟨by simp [TrustedMemDevice.init], fun _ => rfl⟩

theorem PowerInv.on_iff {d : TrustedMemDevice} (h : PowerInv d) :
    d.regMgr.state = .on ↔ d.Powered := by
  refine ⟨h.on, fun hp => ?_⟩
  cases hs : d.regMgr.state with
  | on => rfl
  | off =>
    have := hp.2.2
    simp [h.off hs] at this

/-- The two devices agree in what the power transitions are about. -/
structure SamePower (d d' : TrustedMemDevice) : Prop where
  state : d'.regMgr.state = d.regMgr.state
  ssmrOff : d'.ssmrOff = d.ssmrOff
  opened : d'.peerMgrData.opened = d.peerMgrData.opened
  granted : d'.granted = d.granted

theorem PowerInv.congr {d d' : TrustedMemDevice} (h : PowerInv d) (hs : SamePower d d') :
    PowerInv d' := by
  refine ⟨fun hon => ?_, fun hoff => ?_⟩
  · obtain ⟨h1, h2, h3⟩ := h.on (hs.state ▸ hon)
    exact ⟨hs.ssmrOff ▸ h1, hs.opened ▸ h2, hs.granted ▸ h3⟩
  · rw [hs.granted]
    exact h.off (hs.state ▸ hoff)

theorem samePower_setDeferOffWork (d : TrustedMemDevice) (b : Bool) :
    SamePower d (d.setDeferOffWork b) := ⟨rfl, rfl, rfl, rfl⟩

theorem samePower_setValidRefCount (d : TrustedMemDevice) (n : Nat) :
    SamePower d (d.setValidRefCount n) := ⟨rfl, rfl, rfl, rfl⟩

theorem samePower_refDec (d : TrustedMemDevice) : SamePower d (regmgrRegionRefDec d) := by
  unfold regmgrRegionRefDec
  split_ifs
  · exact ⟨rfl, rfl, rfl, rfl⟩
  · exact samePower_setValidRefCount _ _

theorem samePower_chunkAlloc (d : TrustedMemDevice) (a : Ans) :
    SamePower d (peerMgrChunkAllocLocked d a).2 := by
  unfold peerMgrChunkAllocLocked chunkAllocSection
  split_ifs <;> exact ⟨rfl, rfl, rfl, rfl⟩

theorem samePower_chunkFree (d : TrustedMemDevice) (a : Ans) :
    SamePower d (peerMgrChunkFreeLocked d a).2 := by
  unfold peerMgrChunkFreeLocked chunkFreeSection
  split_ifs <;> exact ⟨rfl, rfl, rfl, rfl⟩

section
variable (cfg : TrustedMemConfigs) {d : TrustedMemDevice} (a : PowerAns)

theorem regmgrTryOn_cases :
    (d.regMgr.state = .on ∧ regmgrTryOn cfg d a = (tmemOk, d)) ∨
    (d.regMgr.state = .off ∧ (regmgrTryOn cfg d a).1 = 0 ∧
      (regmgrTryOn cfg d a).2.regMgr.state = .on ∧ (regmgrTryOn cfg d a).2.Powered) ∨
    (d.regMgr.state = .off ∧ (regmgrTryOn cfg d a).1 ≠ 0 ∧
      FailedOn cfg.sessionKeepAliveEnable a d (regmgrTryOn cfg d a).2) := by
  unfold regmgrTryOn
  cases hs : d.regMgr.state with
  | on => exact .inl ⟨rfl, if_pos rfl⟩
  | off =>
    refine .inr ?_
    rw [if_neg (by simp)]
    obtain ⟨h0, -, hp⟩ | ⟨h0, hf⟩ := poweron_cases cfg.sessionKeepAliveEnable d a
    · rw [if_neg (not_not_intro h0)]
      exact .inl ⟨rfl, rfl, rfl, hp⟩
    · rw [if_pos h0]
      exact .inr ⟨rfl, by simp [tmemRegionPowerOnFailed], hf⟩

theorem PowerInv.tryOn (h : PowerInv d) : PowerInv (regmgrTryOn cfg d a).2 := by
  obtain ⟨-, he⟩ | ⟨-, -, hon, hp⟩ | ⟨hs, -, hf⟩ := regmgrTryOn_cases cfg (d := d) a
  · rw [he]
    exact h
  · exact ⟨fun _ => hp, fun hoff => by simp [hon] at hoff⟩
  · refine ⟨fun hon => ?_, fun _ => hf.granted.trans (h.off hs)⟩
    rw [hf.regMgr, hs] at hon
    cases hon

/-- A power-off attempt while everything is set up. -/
theorem regmgrTryOff_cases (h : d.Powered) (hs : d.regMgr.state = .on) :
    (a.memRemove.ret ≠ 0 ∧ (regmgrTryOff cfg d a).1 ≠ 0 ∧ (regmgrTryOff cfg d a).2 = d) ∨
    (a.memRemove.ret = 0 ∧ (a.WholeOff cfg.sessionKeepAliveEnable →
      (regmgrTryOff cfg d a).1 = 0 ∧ (regmgrTryOff cfg d a).2.regMgr.state = .off ∧
      (regmgrTryOff cfg d a).2.ssmrOff = false ∧ (regmgrTryOff cfg d a).2.granted = false ∧
      (regmgrTryOff cfg d a).2.peerMgrData.opened = cfg.sessionKeepAliveEnable)) := by
  unfold regmgrTryOff
  rw [if_neg (not_not_intro hs)]
  obtain ⟨hr, h0, he⟩ | ⟨hr, hw⟩ := poweroff_cases cfg.sessionKeepAliveEnable a h
  · refine .inl ⟨hr, ?_⟩
    rw [if_pos h0]
    exact ⟨by simp [tmemRegionPowerOffFailed], he⟩
  · refine .inr ⟨hr, fun hwhole => ?_⟩
    obtain ⟨h0, -, h1, h2, h3⟩ := hw hwhole
    rw [if_neg (not_not_intro h0)]
    exact ⟨rfl, rfl, h1, h2, h3⟩

theorem PowerInv.tryOff (h : PowerInv d) (hw : a.WholeOff cfg.sessionKeepAliveEnable) :
    PowerInv (regmgrTryOff cfg d a).2 := by
  cases hs : d.regMgr.state with
  | off =>
    rw [show regmgrTryOff cfg d a = (tmemOk, d) from if_pos (by simp [hs])]
    exact h
  | on =>
    obtain ⟨-, -, he⟩ | ⟨-, hwhole⟩ := regmgrTryOff_cases cfg a (h.on hs) hs
    · rw [he]
      exact h
    · obtain ⟨-, hoff, -, hg, -⟩ := hwhole hw
      exact ⟨fun hon => by simp [hoff] at hon, fun _ => hg⟩

end

/-- **One entry point** keeps the invariant. -/
theorem step_powerInv (cfg : TrustedMemConfigs) {d d' : TrustedMemDevice} {op : Op} {ret : Int}
    (h : PowerInv d) (hw : WholeOffStep cfg d op) (hstep : step cfg d op = some (ret, d')) :
    PowerInv d' := by
  cases op with
  | online a =>
    simp only [step, regmgrOnline, Option.some.injEq] at hstep
    rw [← show _ = d' from congrArg Prod.snd hstep]
    exact (h.congr (samePower_setDeferOffWork _ _)).tryOn cfg a
  | offline =>
    simp only [step, regmgrOffline, Option.some.injEq] at hstep
    rw [← show _ = d' from congrArg Prod.snd hstep]
    exact h.congr (samePower_setDeferOffWork _ _)
  | deferOff a =>
    simp only [step, Option.some.injEq, Prod.mk.injEq] at hstep
    rw [← hstep.2]
    have h' := h.congr (samePower_setDeferOffWork d false)
    unfold regmgrDeferOffHandler
    by_cases hq : d.regMgr.deferOffWork = true
    · rw [if_pos hq]
      dsimp only
      split_ifs
      · exact h'.tryOff cfg a hw
      · exact h'
    · rw [if_neg hq]
      exact h
  | alloc alignment size doAlignmentCheck on alloc refInc =>
    simp only [step, tmemCoreAllocChunkInternal, Option.map_eq_some_iff] at hstep
    obtain ⟨chk, -, he⟩ := hstep
    rw [← show _ = d' from congrArg Prod.snd he]
    have hon := (h.congr (samePower_setDeferOffWork d false)).tryOn cfg on
    have halloc := hon.congr (samePower_chunkAlloc _ alloc)
    split_ifs
    · exact h
    · exact hon
    · exact halloc.congr (samePower_setDeferOffWork _ _)
    · exact (halloc.congr (samePower_setValidRefCount _ _)).tryOn cfg refInc
  | unref a =>
    simp only [step, tmemCoreUnrefChunk, Option.some.injEq] at hstep
    rw [← show _ = d' from congrArg Prod.snd hstep]
    have hfree := h.congr (samePower_chunkFree d a)
    by_cases hs : d.regMgr.state = .on
    · rw [if_neg (not_not_intro hs)]
      split_ifs
      · exact hfree
      · exact (hfree.congr (samePower_refDec _)).congr (samePower_setDeferOffWork _ _)
    · rw [if_pos hs]
      exact h

/-- A power-on of an unpowered region whose calls all succeed. -/
theorem tryOn_allOk (cfg : TrustedMemConfigs) {d : TrustedMemDevice} {a : PowerAns}
    (hs : d.regMgr.state = .off) (hssmr : d.ssmrOff = false) (ha : a.AllOk) :
    (regmgrTryOn cfg d a).1 = 0 ∧ (regmgrTryOn cfg d a).2.regMgr.state = .on ∧
      (regmgrTryOn cfg d a).2.Powered := by
  obtain ⟨h1, h2, h3, h4, -, -, -⟩ := ha
  obtain ⟨hon, -⟩ | ⟨-, h⟩ | ⟨-, hne, -⟩ := regmgrTryOn_cases cfg (d := d) a
  · simp [hs] at hon
  · exact h
  · refine absurd ?_ hne
    have hsize : a.offline.size % 4294967296 ≠ 0 := (h2 h1).2
    cases hopen : d.peerMgrData.opened <;>
      simp [regmgrTryOn, hs, trustedMemRegionPoweron, tmemSsmrGet, hssmr, h1, (h2 h1).1, hsize,
        peerMgrSessionOpenLocked, sessionOpenSection, hopen, h3, peerMgrMemAddLocked, memAddSection,
        h4, tmemOk]

/-- **Power transitions.** In every state of a run whose power-offs are whole, the region is on
exactly when its memory is taken from Linux, the session is open and the TEE has the memory. A
power-on that fails leaves the region off and the TEE without memory, puts back valid memory if
SSMR takes it, and closes a session that it opened if that succeeds, unless the device keeps its
session alive. A power-off that the TEE refuses changes nothing. From the states that are left, a
later attempt whose calls succeed succeeds. -/
theorem power_transitions (cfg : TrustedMemConfigs) (ops : List Op) (es : List (Op × Int))
    (d : TrustedMemDevice) (hrun : Sys.run (step cfg) .init ops = some (es, d))
    (hwhole : Sys.Along (step cfg) (WholeOffStep cfg) .init ops) :
    (d.regMgr.state = .on ↔ d.Powered) ∧
    (∀ a, (regmgrTryOn cfg d a).1 ≠ 0 → d.regMgr.state = .off ∧ ¬ d.Powered ∧
      FailedOn cfg.sessionKeepAliveEnable a d (regmgrTryOn cfg d a).2) ∧
    (∀ a, d.regMgr.state = .off → d.ssmrOff = false → a.AllOk →
      (regmgrTryOn cfg d a).1 = 0 ∧ (regmgrTryOn cfg d a).2.Powered) ∧
    (∀ a, d.regMgr.state = .on → a.memRemove.ret ≠ 0 →
      (regmgrTryOff cfg d a).1 ≠ 0 ∧ (regmgrTryOff cfg d a).2 = d) ∧
    (∀ a, d.regMgr.state = .on → a.AllOk → (regmgrTryOff cfg d a).1 = 0 ∧
      (regmgrTryOff cfg d a).2.ssmrOff = false ∧ (regmgrTryOff cfg d a).2.granted = false ∧
      (regmgrTryOff cfg d a).2.peerMgrData.opened = cfg.sessionKeepAliveEnable) := by
  have hinv : PowerInv d :=
    Sys.run_inv (fun s i o s' hi hp hs => step_powerInv cfg hi hp hs) ops _ _ _ .init hwhole hrun
  refine ⟨hinv.on_iff, ?_, ?_, ?_, ?_⟩
  · intro a hne
    obtain ⟨-, he⟩ | ⟨-, h0, -⟩ | ⟨hs, -, hf⟩ := regmgrTryOn_cases cfg (d := d) a
    · rw [he] at hne
      exact absurd rfl hne
    · exact absurd h0 hne
    · refine ⟨hs, fun hp => ?_, hf⟩
      rw [hinv.on_iff.2 hp] at hs
      cases hs
  · intro a hs hssmr ha
    obtain ⟨h0, -, hp⟩ := tryOn_allOk cfg hs hssmr ha
    exact ⟨h0, hp⟩
  · intro a hs hr
    obtain ⟨-, h0, he⟩ | ⟨hr', -⟩ := regmgrTryOff_cases cfg a (hinv.on hs) hs
    · exact ⟨h0, he⟩
    · exact absurd hr' hr
  · intro a hs ha
    obtain ⟨-, -, -, -, hr, hc, ho⟩ := ha
    obtain ⟨hr', -⟩ | ⟨-, hw⟩ := regmgrTryOff_cases cfg a (hinv.on hs) hs
    · exact absurd hr hr'
    · obtain ⟨h0, -, h1, h2, h3⟩ := hw fun _ => ⟨.inr hc, ho⟩
      exact ⟨h0, h1, h2, h3⟩

/-- A configuration for runs on fixed inputs. -/
def cfgKeepAlive (keepAlive : Bool) : TrustedMemConfigs :=
  ⟨.svp, false, 4096, 4096, keepAlive, true, true⟩

/-- Answers with valid memory and no error. -/
def okAns : PowerAns := { offline := ⟨0, 0x40000000, 0x100000, 0⟩ }

/-- On, off and on again. -/
theorem power_transitions_on_off_on :
    ∃ es d, Sys.run (step (cfgKeepAlive false)) .init
        [.online okAns, .offline, .deferOff okAns, .online okAns] = some (es, d) ∧
      (d.regMgr.state = .on ↔ d.Powered) ∧ d.Powered := by
  refine ⟨_, _, rfl, (power_transitions (cfgKeepAlive false)
    [.online okAns, .offline, .deferOff okAns, .online okAns] _ _ rfl ?_).1, ?_⟩
  · refine ⟨trivial, fun _ _ _ => ⟨trivial, fun _ _ _ => ⟨?_, fun _ _ _ => ⟨trivial, ?_⟩⟩⟩⟩
    · exact fun _ => ⟨.inr rfl, rfl⟩
    · exact fun _ _ _ => trivial
  · exact ⟨rfl, rfl, rfl⟩

/-- A failed power-on leaves the session of a device that keeps it alive open, and a power-off that
cannot close the session leaves the region on without its memory. -/
theorem power_transitions_fail :
    ((regmgrTryOn (cfgKeepAlive true) .init { okAns with memAdd := ⟨1, 0, 0, 0⟩ }).1 ≠ 0 ∧
      (regmgrTryOn (cfgKeepAlive true) .init
        { okAns with memAdd := ⟨1, 0, 0, 0⟩ }).2.peerMgrData.opened ≠
          TrustedMemDevice.init.peerMgrData.opened) ∧
    ∃ es d, Sys.run (step (cfgKeepAlive false)) .init
        [.online okAns, .offline, .deferOff { okAns with sessionClose := ⟨1, 0, 0, 0⟩ }] =
          some (es, d) ∧ d.regMgr.state = .on ∧ ¬ d.Powered :=
  ⟨by decide, _, _, rfl, rfl, by decide⟩

end TrustedMem
