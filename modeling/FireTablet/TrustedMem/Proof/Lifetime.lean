import FireTablet.Lib.Run
import FireTablet.TrustedMem.Threads

/-!
# The lifetime of chunks

A chunk that is handed out lies in a region that is on and that has not been reclaimed since, as
long as no power-off reclaims the region while a call has a chunk that it has not counted yet
(`chunk_lifetime`).
-/

namespace TrustedMem

/-! ## Parts and whole

The parts of a power-on or power-off, undisturbed, are the function of `region_mgr.c`. -/

theorem onRun_eq (keepAlive : Bool) (a : PowerAns) (d : TrustedMemDevice) :
    onRun keepAlive a 8 d .offline = some (trustedMemRegionPoweron keepAlive d a) := by
  by_cases hget : (tmemSsmrGet d a.offline).1 = 0
  · cases hopened : (tmemSsmrGet d a.offline).2.peerMgrData.opened with
    | true =>
      by_cases hadd : a.memAdd.ret = 0
      · simp [onRun, onStep, PowerAns.atOn, hget, hopened, trustedMemRegionPoweron,
          peerMgrSessionOpenLocked, peerMgrMemAddLocked, memAddSection, hadd, tmemOk]
      · cases keepAlive <;>
        simp [onRun, onStep, PowerAns.atOn, hget, hopened, trustedMemRegionPoweron,
          peerMgrSessionOpenLocked, peerMgrMemAddLocked, memAddSection, hadd, tmemOk,
          peerMgrSessionCloseLocked, tmemMgrMemAddFailed]
    | false =>
      by_cases hopen : a.sessionOpen.ret = 0
      · by_cases hadd : a.memAdd.ret = 0
        · simp [onRun, onStep, PowerAns.atOn, hget, hopened, trustedMemRegionPoweron,
            peerMgrSessionOpenLocked, sessionOpenSection, hopen, peerMgrMemAddLocked, memAddSection,
            hadd, tmemOk]
        · cases keepAlive <;>
          simp [onRun, onStep, PowerAns.atOn, hget, hopened, trustedMemRegionPoweron,
            peerMgrSessionOpenLocked, sessionOpenSection, hopen, peerMgrMemAddLocked, memAddSection,
            hadd, tmemOk, peerMgrSessionCloseLocked, tmemMgrMemAddFailed]
      · simp [onRun, onStep, PowerAns.atOn, hget, hopened, trustedMemRegionPoweron,
          peerMgrSessionOpenLocked, sessionOpenSection, hopen, tmemMgrOpenSessionFailed,
          tmemMgrSessionIsAlreadyOpen]
  · simp [onRun, onStep, PowerAns.atOn, hget, trustedMemRegionPoweron]

theorem put_result (r : Int × TrustedMemDevice) : (if r.1 = 0 then (0, r.2) else r) = r := by
  split_ifs with h
  · rw [← h]
  · rfl

theorem offRun_eq (keepAlive : Bool) (a : PowerAns) (d : TrustedMemDevice) :
    offRun keepAlive a 5 d .removeReady = some (trustedMemRegionPoweroff keepAlive d a) := by
  cases hopened : d.peerMgrData.opened with
  | false =>
    simp [offRun, offStep, hopened, trustedMemRegionPoweroff, peerMgrMemRemoveLocked,
      tmemMgrSessionIsNotReady]
  | true =>
    by_cases hrem : a.memRemove.ret = 0
    · cases keepAlive with
      | true =>
        simp [offRun, offStep, PowerAns.atOff, hopened, trustedMemRegionPoweroff,
          peerMgrMemRemoveLocked, memRemoveSection, hrem, peerMgrSessionCloseLocked, tmemOk,
          put_result]
      | false =>
        by_cases hclose : a.sessionClose.ret = 0 <;>
        simp [offRun, offStep, PowerAns.atOff, hopened, trustedMemRegionPoweroff,
          peerMgrMemRemoveLocked, memRemoveSection, hrem, peerMgrSessionCloseLocked,
          sessionCloseSection, hclose, tmemOk, tmemMgrCloseSessionFailed,
          tmemMgrSessionIsAlreadyClose, put_result]
    · simp [offRun, offStep, PowerAns.atOff, hopened, trustedMemRegionPoweroff,
        peerMgrMemRemoveLocked, memRemoveSection, hrem, tmemMgrMemRemoveFailed]

/-! ## What a part of a power transition changes -/

theorem onStep_frame (keepAlive : Bool) (d : TrustedMemDevice) (a : Ans) (pc : OnPc) :
    (onStep keepAlive d a pc).2.regMgr = d.regMgr ∧
    (onStep keepAlive d a pc).2.reclaims = d.reclaims ∧
    ((onStep keepAlive d a pc).2.granted = d.granted ∨ (onStep keepAlive d a pc).1 = .inr 0 ∧
      (onStep keepAlive d a pc).2.granted = true) := by
  cases pc with
  | offline =>
    dsimp only [onStep]
    unfold tmemSsmrGet
    split_ifs <;> exact ⟨rfl, rfl, .inl rfl⟩
  | openReady pa size => exact ⟨rfl, rfl, .inl rfl⟩
  | sessionOpen pa size =>
    dsimp only [onStep]
    unfold sessionOpenSection
    split_ifs <;> exact ⟨rfl, rfl, .inl rfl⟩
  | addReady pa size => exact ⟨rfl, rfl, .inl rfl⟩
  | memAdd pa size =>
    by_cases ha : a.ret = 0
    · simp [onStep, memAddSection, ha, tmemOk]
    · simp [onStep, memAddSection, ha]
  | closeReady ret => exact ⟨rfl, rfl, .inl rfl⟩
  | sessionClose ret =>
    dsimp only [onStep]
    unfold sessionCloseSection
    split_ifs <;> exact ⟨rfl, rfl, .inl rfl⟩
  | online ret =>
    dsimp only [onStep]
    unfold tmemSsmrPut
    split_ifs <;> exact ⟨rfl, rfl, .inl rfl⟩

/-- The memory has been reclaimed already. -/
def OffPc.removed : OffPc → Bool
  | .removeReady | .memRemove => false
  | _ => true

/-- A part of a power-off reclaims the memory, or leaves it where it is. -/
theorem offStep_frame (keepAlive : Bool) (d : TrustedMemDevice) (a : Ans) (pc : OffPc) :
    (offStep keepAlive d a pc).2.regMgr = d.regMgr ∧
    ((pc = .memRemove ∧ a.ret = 0 ∧ (offStep keepAlive d a pc).2.granted = false) ∨
      (offStep keepAlive d a pc).2.reclaims = d.reclaims ∧
      (offStep keepAlive d a pc).2.granted = d.granted ∧
      ((∀ pc', (offStep keepAlive d a pc).1 = .inl pc' → pc'.removed = true → pc.removed = true) ∧
        ((offStep keepAlive d a pc).1 = .inr 0 → pc.removed = true))) := by
  cases pc with
  | removeReady =>
    cases h : d.peerMgrData.opened <;> simp [offStep, h, OffPc.removed, tmemMgrSessionIsNotReady]
  | memRemove =>
    by_cases ha : a.ret = 0
    · simp [offStep, memRemoveSection, ha]
    · simp [offStep, memRemoveSection, ha, tmemMgrMemRemoveFailed]
  | closeReady => exact ⟨rfl, .inr ⟨rfl, rfl, fun _ _ _ => rfl, fun _ => rfl⟩⟩
  | sessionClose =>
    dsimp only [offStep]
    unfold sessionCloseSection
    split_ifs <;> exact ⟨rfl, .inr ⟨rfl, rfl, fun _ _ _ => rfl, fun _ => rfl⟩⟩
  | online =>
    dsimp only [offStep]
    unfold tmemSsmrPut
    split_ifs <;> exact ⟨rfl, .inr ⟨rfl, rfl, fun _ _ _ => rfl, fun _ => rfl⟩⟩

/-! ## The invariant -/

/-- The call has a chunk that its caller was handed, not freed yet. -/
def Pc.heldChunk : Pc → Option Chunk
  | .regionOn c | .freeReady c | .free c => some c
  | _ => none

/-- The call has a chunk that the TEE gave it and that the reference count misses. -/
def Pc.uncounted : Pc → Option Chunk
  | .refInc c => some c
  | _ => none

/-- The reference count has a reference for the call. -/
def Pc.counted : Pc → Bool
  | .regionOn _ | .freeReady _ | .free _ | .refDec => true
  | _ => false

/-- The chunks that have been handed out and not freed yet. -/
def Threads.handedOut (s : Threads) : List Chunk := s.out ++ s.calls.filterMap Pc.heldChunk

/-- The chunk lies in a region that the TEE has, and has had since the chunk was allocated. -/
def TrustedMemDevice.Intact (d : TrustedMemDevice) (c : Chunk) : Prop :=
  d.granted = true ∧ c.reclaims = d.reclaims

structure Inv (s : Threads) : Prop where
  count : s.dev.regMgr.validRefCount = s.out.length + s.calls.countP Pc.counted
  out : ∀ c ∈ s.out, s.dev.Intact c
  held : ∀ pc ∈ s.calls, ∀ c, pc.heldChunk = some c → s.dev.Intact c
  uncounted : ∀ pc ∈ s.calls, ∀ c, pc.uncounted = some c → s.dev.Intact c
  grantedOn : s.dev.granted = true → s.dev.regMgr.state = .on
  onLock : ∀ i why pc, s.calls[i]? = some (.powerOn why pc) →
    why = .alloc ∧ s.lock = some (.call i)
  offLock : ∀ pc, s.worker = .powerOff pc → s.lock = some .worker ∧
    s.dev.regMgr.validRefCount = 0 ∧ (pc.removed = true → s.dev.granted = false)

theorem Inv.init : Inv .init where
  count := rfl
  out := by simp [Threads.init]
  held := by simp [Threads.init]
  uncounted := by simp [Threads.init]
  grantedOn := by simp [Threads.init, TrustedMemDevice.init]
  onLock := by simp [Threads.init]
  offLock := by simp [Threads.init]

/-- No power-off gets the memory back while a call has a chunk that the count misses, and the count
does not wrap. -/
def Threads.Counted (s : Threads) : Ev → Prop
  | .work a => s.worker = .powerOff .memRemove → a.ret = 0 → ∀ pc ∈ s.calls, pc.uncounted = none
  | .call i _ =>
    (s.calls[i]?.bind Pc.uncounted).isSome → s.dev.regMgr.validRefCount + 1 < 2 ^ 32
  | _ => True

instance (s : Threads) : ∀ ev, Decidable (s.Counted ev)
  | .work a => inferInstanceAs
    (Decidable (s.worker = .powerOff .memRemove → a.ret = 0 → ∀ pc ∈ s.calls, pc.uncounted = none))
  | .call i _ => inferInstanceAs (Decidable
    ((s.calls[i]?.bind Pc.uncounted).isSome → s.dev.regMgr.validRefCount + 1 < 2 ^ 32))
  | .allocChunk .. => .isTrue trivial
  | .unrefChunk _ => .isTrue trivial

theorem countP_set_add {l : List Pc} {i : Nat} {pc : Pc} (pc' : Pc) (h : l[i]? = some pc) :
    (l.set i pc').countP Pc.counted + pc.counted.toNat =
      l.countP Pc.counted + pc'.counted.toNat := by
  obtain ⟨hlt, hget⟩ := List.getElem?_eq_some_iff.1 h
  have hpos : pc.counted.toNat ≤ l.countP Pc.counted := by
    cases hc : pc.counted with
    | false => exact Nat.zero_le _
    | true => exact List.countP_pos_iff.2 ⟨pc, List.mem_of_getElem? h, hc⟩
  rw [List.countP_set hlt, hget]
  generalize pc.counted = b at hpos ⊢
  cases b <;> cases pc'.counted <;>
    simp only [Bool.toNat_true, Bool.toNat_false, Bool.false_eq_true, reduceIte] at hpos ⊢ <;> omega

/-- **One call goes on**: what has to be checked of the step for the invariant to be kept. -/
theorem Inv.advance {s s' : Threads} {i : Nat} {pc pc' : Pc} (h : Inv s)
    (hi : s.calls[i]? = some pc) (hcalls : s'.calls = s.calls.set i pc')
    (hworker : s'.worker = s.worker)
    (hcount : s'.dev.regMgr.validRefCount + pc.counted.toNat + s.out.length =
      s.dev.regMgr.validRefCount + pc'.counted.toNat + s'.out.length)
    (hreclaims : s'.dev.reclaims = s.dev.reclaims)
    (hgranted : s.dev.granted = true → s'.dev.granted = true)
    (hon : s'.dev.granted = true → s'.dev.regMgr.state = .on)
    (hout : ∀ c ∈ s'.out, c ∈ s.out ∨ s.dev.Intact c)
    (hchunk : ∀ c, pc'.heldChunk = some c ∨ pc'.uncounted = some c → s.dev.Intact c)
    (hpc : ∀ why q, pc' = .powerOn why q → why = .alloc ∧ s'.lock = some (.call i))
    (hlock : s'.lock = s.lock ∨ s.lock = none ∨ s.lock = some (.call i))
    (hoff : s.lock = some .worker →
      s'.dev.regMgr.validRefCount = s.dev.regMgr.validRefCount ∧
      s'.dev.granted = s.dev.granted) : Inv s' := by
  have hintact : ∀ c, s.dev.Intact c → s'.dev.Intact c := by
    intro c ⟨h1, h2⟩
    exact ⟨hgranted h1, h2.trans hreclaims.symm⟩
  have hmem : ∀ q ∈ s'.calls, q = pc' ∨ q ∈ s.calls := by
    intro q hq
    rw [hcalls] at hq
    exact (List.mem_or_eq_of_mem_set hq).symm
  refine ⟨?_, ?_, ?_, ?_, hon, ?_, ?_⟩
  · have h1 := countP_set_add pc' hi
    have h2 := h.count
    rw [hcalls]
    omega
  · intro c hc
    exact hintact c ((hout c hc).elim (h.out c) id)
  · intro q hq c hc
    cases hmem q hq with
    | inl he => exact hintact c (hchunk c (.inl (he ▸ hc)))
    | inr hq => exact hintact c (h.held q hq c hc)
  · intro q hq c hc
    cases hmem q hq with
    | inl he => exact hintact c (hchunk c (.inr (he ▸ hc)))
    | inr hq => exact hintact c (h.uncounted q hq c hc)
  · intro j why q hj
    rw [hcalls] at hj
    by_cases hij : i = j
    · subst hij
      rw [List.getElem?_set_self (List.getElem?_eq_some_iff.1 hi).1] at hj
      exact hpc why q (Option.some.inj hj)
    · rw [List.getElem?_set_ne hij] at hj
      obtain ⟨hw, hl⟩ := h.onLock j why q hj
      obtain he | he | he := hlock
      · exact ⟨hw, he.trans hl⟩
      · simp [hl] at he
      · rw [hl, Option.some.injEq, Holder.call.injEq] at he
        exact absurd he.symm hij
  · intro q hq
    obtain ⟨hl, hc, hr⟩ := h.offLock q (hworker ▸ hq)
    obtain ⟨h1, h2⟩ := hoff hl
    refine ⟨?_, h1.trans hc, fun hrem => h2.trans (hr hrem)⟩
    obtain he | he | he := hlock
    · exact he.trans hl
    · simp [hl] at he
    · simp [hl] at he

/-- A step of a call that has no chunk and changes neither the count nor the region. -/
theorem Inv.plain {s s' : Threads} {i : Nat} {pc pc' : Pc} (h : Inv s)
    (hi : s.calls[i]? = some pc) (hcalls : s'.calls = s.calls.set i pc')
    (hworker : s'.worker = s.worker) (hout : s'.out = s.out)
    (hpc : pc.counted = pc'.counted) (hheld : pc'.heldChunk = none)
    (huncounted : pc'.uncounted = none) (hon : ∀ why q, pc' ≠ .powerOn why q)
    (hcount : s'.dev.regMgr.validRefCount = s.dev.regMgr.validRefCount)
    (hstate : s'.dev.regMgr.state = s.dev.regMgr.state)
    (hreclaims : s'.dev.reclaims = s.dev.reclaims) (hgranted : s'.dev.granted = s.dev.granted)
    (hlock : s'.lock = s.lock) : Inv s' := by
  refine h.advance hi hcalls hworker ?_ hreclaims (fun hg => hgranted.trans hg) ?_ ?_ ?_
    (fun why q he => absurd he (hon why q)) (.inl hlock) fun _ => ⟨hcount, hgranted⟩
  · rw [hcount, hout, hpc]
  · rw [hgranted, hstate]
    exact h.grantedOn
  · rw [hout]
    exact fun c hc => .inl hc
  · intro c hc
    rw [hheld, huncounted] at hc
    simp at hc

/-- A call gives up its chunk, and the caller has it again. -/
theorem Inv.giveBack {s : Threads} {i : Nat} {pc : Pc} {c : Chunk} (h : Inv s)
    (hi : s.calls[i]? = some pc) (hpc : pc.heldChunk = some c) :
    Inv ({ s with out := c :: s.out }.goto i .done) := by
  refine h.advance hi rfl rfl ?_ rfl id h.grantedOn ?_ (by simp [Pc.heldChunk, Pc.uncounted])
    (by simp) (.inl rfl) fun _ => ⟨rfl, rfl⟩
  · have : pc.counted = true := by cases pc <;> simp_all [Pc.heldChunk, Pc.counted]
    rw [this]
    simp [Threads.goto, Pc.counted]
    omega
  · intro c' hc'
    cases List.mem_cons.1 hc' with
    | inl he => exact .inr (he ▸ h.held pc (List.mem_of_getElem? hi) c hpc)
    | inr hm => exact .inl hm

/-- A call that frees a chunk goes on with it. -/
theorem Inv.keep {s : Threads} {i : Nat} {pc pc' : Pc} {c : Chunk} (h : Inv s)
    (hi : s.calls[i]? = some pc) (hpc : pc.heldChunk = some c) (hpc' : pc'.heldChunk = some c) :
    Inv (s.goto i pc') := by
  have hc : pc.counted = true := by cases pc <;> simp_all [Pc.heldChunk, Pc.counted]
  have hc' : pc'.counted = true := by cases pc' <;> simp_all [Pc.heldChunk, Pc.counted]
  have hu : pc'.uncounted = none := by cases pc' <;> simp_all [Pc.heldChunk, Pc.uncounted]
  refine h.advance hi rfl rfl ?_ rfl id h.grantedOn (fun _ => .inl) ?_ ?_ (.inl rfl)
    fun _ => ⟨rfl, rfl⟩
  · rw [hc, hc']
    rfl
  · intro c' he
    rw [hpc', hu] at he
    obtain rfl : c = c' := by simpa using he
    exact h.held pc (List.mem_of_getElem? hi) c hpc
  · rintro why q rfl
    simp [Pc.heldChunk] at hpc'

/-- A part of a power-on for an allocation. -/
theorem Inv.powerOn {cfg : TrustedMemConfigs} {s s' : Threads} {i : Nat} {a : Ans} {why : OnFor}
    {pc : OnPc} (h : Inv s) (hi : s.calls[i]? = some (.powerOn why pc))
    (hstep : s.stepCall cfg i a (.powerOn why pc) = some s') : Inv s' := by
  obtain ⟨rfl, hl⟩ := h.onLock i why pc hi
  obtain ⟨hreg, hrec, hgr⟩ := onStep_frame cfg.sessionKeepAliveEnable s.dev a pc
  simp only [Threads.stepCall] at hstep
  generalize onStep cfg.sessionKeepAliveEnable s.dev a pc = r at hreg hrec hgr hstep
  have hoff : s.lock = some .worker → False := by
    intro he
    simp [hl] at he
  obtain ⟨next | ret, d⟩ := r
  · -- the power-on is not finished: the TEE has what it had
    simp only [Option.some.injEq] at hstep
    subst hstep
    have hg : d.granted = s.dev.granted := hgr.resolve_right (by simp)
    refine h.advance hi rfl rfl ?_ hrec (fun h => hg.trans h) ?_ (fun _ => .inl) ?_ ?_ (.inl rfl)
      fun he => (hoff he).elim
    · exact congrArg (fun m => m.validRefCount + 0 + s.out.length) hreg
    · show d.granted = true → d.regMgr.state = .on
      rw [hg, hreg]
      exact h.grantedOn
    · simp [Pc.heldChunk, Pc.uncounted]
    · rintro _ _ ⟨⟩
      exact ⟨rfl, hl⟩
  · by_cases hret : ret = 0
    · simp only [hret, ne_eq, not_true_eq_false, if_false, Option.some.injEq] at hstep
      subst hstep
      refine h.advance hi rfl rfl ?_ hrec ?_ (fun _ => rfl) (fun _ => .inl) ?_ ?_
        (.inr (.inr hl)) fun he => (hoff he).elim
      · exact congrArg (fun m => m.validRefCount + 0 + s.out.length) hreg
      · intro hg
        exact hgr.elim (fun he => he.trans hg) (·.2)
      · simp [Pc.heldChunk, Pc.uncounted]
      · simp
    · simp only [if_pos hret, ne_eq, Option.some.injEq] at hstep
      subst hstep
      have hg : d.granted = s.dev.granted := hgr.resolve_right (by simp [hret])
      refine h.advance hi rfl rfl ?_ hrec (fun h => hg.trans h) ?_ (fun _ => .inl) ?_ ?_
        (.inr (.inr hl)) fun he => (hoff he).elim
      · exact congrArg (fun m => m.validRefCount + 0 + s.out.length) hreg
      · show d.granted = true → d.regMgr.state = .on
        rw [hg, hreg]
        exact h.grantedOn
      · simp [Pc.heldChunk, Pc.uncounted]
      · simp

/-- **A call runs to its next section.** -/
theorem Inv.stepCall {cfg : TrustedMemConfigs} {s s' : Threads} {i : Nat} {a : Ans} {pc : Pc}
    (h : Inv s) (hi : s.calls[i]? = some pc) (hcond : s.Counted (.call i a))
    (hstep : s.stepCall cfg i a pc = some s') : Inv s' := by
  have hmem := List.mem_of_getElem? hi
  cases pc with
  | cancelWork =>
    simp only [Threads.stepCall, Option.ite_none_right_eq_some, Option.some.injEq] at hstep
    obtain ⟨-, rfl⟩ := hstep
    exact h.plain hi rfl rfl rfl rfl rfl rfl (by simp) rfl rfl rfl rfl rfl
  | online =>
    simp only [Threads.stepCall] at hstep
    split_ifs at hstep with hl hs
    · obtain rfl := Option.some.inj hstep
      exact h.plain hi rfl rfl rfl rfl rfl rfl (by simp) rfl rfl rfl rfl rfl
    · obtain rfl := Option.some.inj hstep
      refine h.advance hi rfl rfl rfl rfl id h.grantedOn (fun _ => .inl)
        (by simp [Pc.heldChunk, Pc.uncounted]) ?_ (.inr (.inl (not_not.1 hl))) fun _ => ⟨rfl, rfl⟩
      rintro _ _ ⟨⟩
      exact ⟨rfl, rfl⟩
  | powerOn why pc => exact h.powerOn hi hstep
  | allocReady =>
    simp only [Threads.stepCall] at hstep
    obtain rfl := Option.some.inj hstep
    cases s.dev.peerMgrData.opened with
    | true => exact h.plain hi rfl rfl rfl rfl rfl rfl (by simp) rfl rfl rfl rfl rfl
    | false => exact h.plain hi rfl rfl rfl rfl rfl rfl (by simp) rfl rfl rfl rfl rfl
  | alloc =>
    by_cases ha : a.ret = 0
    · simp only [Threads.stepCall, ha, ne_eq, not_true_eq_false, if_false, chunkAllocSection,
        Option.ite_none_right_eq_some, Option.some.injEq] at hstep
      obtain ⟨hg, rfl⟩ := hstep
      -- the chunk is allocated in the region as it is now
      refine h.advance hi rfl rfl rfl rfl id h.grantedOn (fun _ => .inl) ?_ (by simp) (.inl rfl)
        fun _ => ⟨rfl, rfl⟩
      rintro c (hc | hc)
      · simp [Pc.heldChunk] at hc
      · obtain rfl := Option.some.inj hc
        exact ⟨hg, rfl⟩
    · simp only [Threads.stepCall, if_pos ha, ne_eq, Option.some.injEq] at hstep
      subst hstep
      exact h.plain hi rfl rfl rfl rfl rfl rfl (by simp) rfl rfl rfl rfl rfl
  | refInc c =>
    have hc := h.uncounted _ hmem c rfl
    have hlt := hcond (by rw [hi]; rfl)
    simp only [Threads.stepCall] at hstep
    split_ifs at hstep with hl hs
    · obtain rfl := Option.some.inj hstep
      refine h.advance hi rfl rfl ?_ rfl id h.grantedOn ?_ (by simp [Pc.heldChunk, Pc.uncounted])
        (by simp) (.inl rfl) fun he => ?_
      · simp [Threads.goto, TrustedMemDevice.setValidRefCount, Pc.counted]
        omega
      · intro c' hc'
        cases List.mem_cons.1 hc' with
        | inl he => exact .inr (he ▸ hc)
        | inr hm => exact .inl hm
      · simp [not_not.1 hl] at he
    · -- the region of the chunk is on
      exact absurd (h.grantedOn hc.1) hs
  | regionOn c =>
    simp only [Threads.stepCall] at hstep
    split_ifs at hstep
    · obtain rfl := Option.some.inj hstep
      exact h.keep hi rfl rfl
    · obtain rfl := Option.some.inj hstep
      exact h.giveBack hi rfl
  | freeReady c =>
    simp only [Threads.stepCall] at hstep
    split_ifs at hstep
    · obtain rfl := Option.some.inj hstep
      exact h.keep hi rfl rfl
    · obtain rfl := Option.some.inj hstep
      exact h.giveBack hi rfl
  | free c =>
    by_cases ha : a.ret = 0
    · simp only [Threads.stepCall, chunkFreeSection, ha, ne_eq, not_true_eq_false, if_false,
        Option.some.injEq] at hstep
      subst hstep
      exact h.plain hi rfl rfl rfl rfl rfl rfl (by simp) rfl rfl rfl rfl rfl
    · simp only [Threads.stepCall, if_pos ha, ne_eq, Option.some.injEq] at hstep
      subst hstep
      exact h.giveBack hi rfl
  | refDec =>
    simp only [Threads.stepCall] at hstep
    split_ifs at hstep with hl
    obtain rfl := Option.some.inj hstep
    have hpos : 0 < s.dev.regMgr.validRefCount := by
      have h1 := countP_set_add .offline hi
      have h2 := h.count
      simp only [Pc.counted, Bool.toNat_true, Bool.toNat_false] at h1
      omega
    have hdec : regmgrRegionRefDec s.dev =
        s.dev.setValidRefCount (s.dev.regMgr.validRefCount - 1) := if_neg (by omega)
    rw [hdec]
    refine h.advance hi rfl rfl ?_ rfl id h.grantedOn (fun _ => .inl)
      (by simp [Pc.heldChunk, Pc.uncounted]) (by simp) (.inl rfl) fun he => ?_
    · simp [Threads.goto, TrustedMemDevice.setValidRefCount, Pc.counted]
      omega
    · simp [not_not.1 hl] at he
  | offline =>
    simp only [Threads.stepCall] at hstep
    obtain rfl := Option.some.inj hstep
    exact h.plain hi rfl rfl rfl rfl rfl rfl (by simp) rfl rfl rfl rfl rfl
  | done => simp [Threads.stepCall] at hstep

/-- While the count is zero, nobody has been handed a chunk. -/
theorem Inv.nobody {s : Threads} (h : Inv s) (h0 : s.dev.regMgr.validRefCount = 0) :
    s.out = [] ∧ ∀ pc ∈ s.calls, pc.heldChunk = none := by
  have hc := h.count
  refine ⟨List.eq_nil_of_length_eq_zero (by omega), fun pc hpc => ?_⟩
  have hnot := List.countP_eq_zero.1 (show s.calls.countP Pc.counted = 0 by omega) pc hpc
  cases pc <;> simp_all [Pc.heldChunk, Pc.counted]

/-- What the chunks of the system need of a device that replaces the old one. -/
theorem Inv.newDev {s : Threads} {d : TrustedMemDevice} (h : Inv s)
    (hcount : d.regMgr.validRefCount = s.dev.regMgr.validRefCount)
    (hd : (s.out = [] ∧ (∀ pc ∈ s.calls, pc.heldChunk = none) ∧
        ∀ pc ∈ s.calls, pc.uncounted = none) ∨
      d.reclaims = s.dev.reclaims ∧ d.granted = s.dev.granted)
    (hon : d.granted = true → d.regMgr.state = .on)
    {lock : Option Holder} {worker : WorkPc}
    (honLock : ∀ i why pc, s.calls[i]? = some (.powerOn why pc) →
      why = .alloc ∧ lock = some (.call i))
    (hoffLock : ∀ pc, worker = .powerOff pc → lock = some .worker ∧
      d.regMgr.validRefCount = 0 ∧ (pc.removed = true → d.granted = false)) :
    Inv { s with dev := d, lock := lock, worker := worker } := by
  have hintact : ∀ c, s.dev.Intact c → d.reclaims = s.dev.reclaims ∧ d.granted = s.dev.granted →
      d.Intact c := fun c hc hs => ⟨hs.2.trans hc.1, hc.2.trans hs.1.symm⟩
  refine ⟨hcount.trans h.count, ?_, ?_, ?_, hon, honLock, hoffLock⟩
  · intro c hc
    obtain ⟨hnil, -, -⟩ | hs := hd
    · simp [hnil] at hc
    · exact hintact c (h.out c hc) hs
  · intro pc hpc c hc
    obtain ⟨-, hnone, -⟩ | hs := hd
    · simp [hnone pc hpc] at hc
    · exact hintact c (h.held pc hpc c hc) hs
  · intro pc hpc c hc
    obtain ⟨-, -, hnone⟩ | hs := hd
    · simp [hnone pc hpc] at hc
    · exact hintact c (h.uncounted pc hpc c hc) hs

/-- **A part of a power-off.** -/
theorem Inv.powerOff {cfg : TrustedMemConfigs} {s s' : Threads} {a : Ans} {pc : OffPc} (h : Inv s)
    (hw : s.worker = .powerOff pc) (hcond : s.Counted (.work a))
    (hstep : s.stepWork cfg a (.powerOff pc) = some s') : Inv s' := by
  obtain ⟨hl, h0, hrem⟩ := h.offLock pc hw
  obtain ⟨hnil, hheld⟩ := h.nobody h0
  have hon : ∀ (lock : Option Holder) (i : Nat) (why : OnFor) (q : OnPc),
      s.calls[i]? = some (.powerOn why q) → why = .alloc ∧ lock = some (.call i) := by
    intro lock i why q hi
    have hlock := (h.onLock i why q hi).2
    simp [hl] at hlock
  obtain ⟨hreg, hgr⟩ := offStep_frame cfg.sessionKeepAliveEnable s.dev a pc
  simp only [Threads.stepWork] at hstep
  generalize offStep cfg.sessionKeepAliveEnable s.dev a pc = r at hreg hgr hstep
  obtain ⟨next, d⟩ := r
  -- either all chunks are gone before the memory goes, or it stays
  have hd : (s.out = [] ∧ (∀ pc ∈ s.calls, pc.heldChunk = none) ∧
      ∀ pc ∈ s.calls, pc.uncounted = none) ∧ d.granted = false ∨
      (d.reclaims = s.dev.reclaims ∧ d.granted = s.dev.granted) ∧
        (∀ pc', next = .inl pc' → pc'.removed = true → pc.removed = true) ∧
        (next = .inr 0 → pc.removed = true) := by
    obtain ⟨rfl, ha, hg⟩ | ⟨h1, h2, h3, h4⟩ := hgr
    · exact .inl ⟨⟨hnil, hheld, hcond hw ha⟩, hg⟩
    · exact .inr ⟨⟨h1, h2⟩, h3, h4⟩
  have hcount : d.regMgr.validRefCount = s.dev.regMgr.validRefCount := by rw [hreg]
  have hsame : d.granted = true → d.regMgr.state = .on := by
    intro hg
    obtain ⟨-, hf⟩ | ⟨⟨-, hgs⟩, -⟩ := hd
    · simp [hf] at hg
    · rw [hreg]
      exact h.grantedOn (hgs ▸ hg)
  cases next with
  | inl pc' =>
    obtain rfl := Option.some.inj hstep
    refine h.newDev hcount (hd.imp (·.1) (·.1)) hsame (hon _) ?_
    rintro q ⟨⟩
    refine ⟨hl, hcount.trans h0, fun hq => ?_⟩
    obtain ⟨-, hf⟩ | ⟨⟨-, hgs⟩, hnext, -⟩ := hd
    · exact hf
    · exact hgs.trans (hrem (hnext pc' rfl hq))
  | inr ret =>
    obtain rfl := Option.some.inj hstep
    by_cases hret : ret = 0
    · subst hret
      rw [if_neg (not_not_intro rfl)]
      refine h.newDev (d := d.setOff) hcount (hd.imp (·.1) (·.1)) ?_ (hon _) (by simp)
      intro hg
      obtain ⟨-, hf⟩ | ⟨⟨-, hgs⟩, -, hend⟩ := hd
      · rw [show d.setOff.granted = d.granted from rfl, hf] at hg
        cases hg
      · rw [show d.setOff.granted = d.granted from rfl, hgs, hrem (hend rfl)] at hg
        cases hg
    · rw [if_pos hret]
      exact h.newDev hcount (hd.imp (·.1) (·.1)) hsame (hon _) (by simp)

/-- **The worker runs to its next section.** -/
theorem Inv.stepWork {cfg : TrustedMemConfigs} {s s' : Threads} {a : Ans} (h : Inv s)
    (hcond : s.Counted (.work a)) (hstep : s.stepWork cfg a s.worker = some s') : Inv s' := by
  cases hw : s.worker with
  | idle =>
    simp only [Threads.stepWork, hw, Option.ite_none_right_eq_some, Option.some.injEq] at hstep
    obtain ⟨-, rfl⟩ := hstep
    exact ⟨h.count, h.out, h.held, h.uncounted, h.grantedOn, h.onLock, by simp⟩
  | started =>
    simp only [Threads.stepWork, hw] at hstep
    split_ifs at hstep with hl hc
    · obtain rfl := Option.some.inj hstep
      refine ⟨h.count, h.out, h.held, h.uncounted, h.grantedOn, ?_, ?_⟩
      · intro i why pc hi
        have hlock := (h.onLock i why pc hi).2
        simp [not_not.1 hl] at hlock
      · rintro pc ⟨⟩
        exact ⟨rfl, hc.1, by simp [OffPc.removed]⟩
    · obtain rfl := Option.some.inj hstep
      exact ⟨h.count, h.out, h.held, h.uncounted, h.grantedOn, h.onLock, by simp⟩
  | powerOff pc => exact h.powerOff hw hcond (hw ▸ hstep)

/-- A call begins. -/
theorem Inv.newCall {s : Threads} {q : Pc} {out : List Chunk} (h : Inv s)
    (hcount : out.length + q.counted.toNat = s.out.length) (hout : ∀ c ∈ out, c ∈ s.out)
    (hheld : ∀ c, q.heldChunk = some c → c ∈ s.out) (huncounted : q.uncounted = none)
    (hon : ∀ why pc, q ≠ .powerOn why pc) :
    Inv { s with calls := s.calls ++ [q], out := out } := by
  have hmem : ∀ p ∈ s.calls ++ [q], p ∈ s.calls ∨ p = q := by
    intro p hp
    exact (List.mem_append.1 hp).imp id List.eq_of_mem_singleton
  refine ⟨?_, fun c hc => h.out c (hout c hc), ?_, ?_, h.grantedOn, ?_, h.offLock⟩
  · have hc := h.count
    have hq : [q].countP Pc.counted = q.counted.toNat := by
      cases hq : q.counted <;> simp [hq]
    show s.dev.regMgr.validRefCount = out.length + (s.calls ++ [q]).countP Pc.counted
    rw [List.countP_append, hq]
    omega
  · intro p hp c hc
    obtain hp | rfl := hmem p hp
    · exact h.held p hp c hc
    · exact h.out c (hheld c hc)
  · intro p hp c hc
    obtain hp | rfl := hmem p hp
    · exact h.uncounted p hp c hc
    · simp [huncounted] at hc
  · intro i why pc hi
    rw [List.getElem?_append] at hi
    split_ifs at hi with hlt
    · exact h.onLock i why pc hi
    · rw [List.getElem?_singleton] at hi
      split_ifs at hi
      exact absurd (Option.some.inj hi) (hon why pc)

/-- **One step** keeps the invariant. -/
theorem Inv.step {cfg : TrustedMemConfigs} {s s' : Threads} {ev : Ev} {o : Unit} (h : Inv s)
    (hcond : s.Counted ev) (hstep : s.step cfg ev = some (o, s')) : Inv s' := by
  obtain ⟨t, ht, he⟩ := Option.map_eq_some_iff.1 hstep
  obtain rfl : t = s' := congrArg Prod.snd he
  cases ev with
  | allocChunk alignment size doAlignmentCheck =>
    obtain ⟨ret, -, rfl⟩ := Option.map_eq_some_iff.1 ht
    split_ifs
    · exact h.newCall rfl (fun _ => id) (by simp [Pc.heldChunk]) rfl (by simp)
    · exact h.newCall rfl (fun _ => id) (by simp [Pc.heldChunk]) rfl (by simp)
  | unrefChunk c =>
    obtain ⟨hc, ht⟩ := Option.ite_none_right_eq_some.1 ht
    obtain rfl := Option.some.inj ht
    refine h.newCall ?_ (fun _ => List.mem_of_mem_erase) ?_ rfl (by simp)
    · have := List.length_pos_of_mem hc
      rw [List.length_erase_of_mem hc]
      simp only [Pc.counted, Bool.toNat_true]
      omega
    · rintro c' ⟨⟩
      exact hc
  | call i a =>
    obtain ⟨pc, hi, hc⟩ := Option.bind_eq_some_iff.1 ht
    exact h.stepCall hi hcond hc
  | work a => exact h.stepWork hcond ht

/-- **Lifetime of chunks.** In every state that an interleaving reaches in which no power-off gets
the memory back from the TEE while a call has a chunk that it has not counted yet, every chunk that
has been handed out and not freed lies in a region that is on and not reclaimed since, and between
calls the reference count is the number of these chunks. -/
theorem chunk_lifetime (cfg : TrustedMemConfigs) (evs : List Ev) (es : List (Ev × Unit))
    (s : Threads) (hrun : Sys.run (Threads.step cfg) .init evs = some (es, s))
    (hcounted : Sys.Along (Threads.step cfg) Threads.Counted .init evs) :
    (∀ c ∈ s.handedOut, s.dev.regMgr.state = .on ∧ c.reclaims = s.dev.reclaims) ∧
    ((∀ pc ∈ s.calls, pc = .done) → s.dev.regMgr.validRefCount = s.handedOut.length) := by
  have h : Inv s :=
    Sys.run_inv (fun s ev o s' hi hp hs => hi.step hp hs) evs _ _ _ .init hcounted hrun
  refine ⟨fun c hc => ?_, fun hdone => ?_⟩
  · have hi : s.dev.Intact c := by
      obtain hc | hc := List.mem_append.1 hc
      · exact h.out c hc
      · obtain ⟨pc, hpc, he⟩ := List.mem_filterMap.1 hc
        exact h.held pc hpc c he
    exact ⟨h.grantedOn hi.1, hi.2⟩
  · have h0 : s.calls.countP Pc.counted = 0 :=
      List.countP_eq_zero.2 fun pc hpc => by rw [hdone pc hpc]; decide
    have hnil : s.calls.filterMap Pc.heldChunk = [] :=
      List.filterMap_eq_nil_iff.2 fun pc hpc => by rw [hdone pc hpc]; rfl
    rw [h.count, h0, Threads.handedOut, hnil, List.append_nil, Nat.add_zero]

/-- A device for runs on fixed inputs. -/
def cfgPlain : TrustedMemConfigs := ⟨.svp, false, 4096, 4096, false, true, true⟩

/-- An allocation of a chunk with handle `h`, as call `i`, that powers the region on. -/
def allocFirst (i h : Nat) : List Ev :=
  [.allocChunk 4096 4096 true, .call i {}, .call i {}, .call i ⟨0, 0x40000000, 0x100000, 0⟩,
    .call i {}, .call i {}, .call i {}, .call i {}, .call i {}, .call i ⟨0, 0, 0, h⟩, .call i {}]

/-- A chunk is freed while another one is allocated, the region is powered off when both are freed,
and powered on again by a third allocation. -/
def allocAgain : List Ev :=
  allocFirst 0 7 ++
    [.allocChunk 4096 4096 true, .call 1 {}, .call 1 {}, .call 1 {}, .call 1 ⟨0, 0, 0, 8⟩,
      .unrefChunk ⟨7, 0⟩, .call 2 {}, .call 2 {}, .call 2 {}, .call 2 {}, .call 2 {}, .call 1 {},
      .unrefChunk ⟨8, 0⟩, .call 3 {}, .call 3 {}, .call 3 {}, .call 3 {}, .call 3 {},
      .work {}, .work {}, .work {}, .work {}, .work {}, .work {}, .work {}] ++
    allocFirst 4 9

theorem chunk_lifetime_again :
    ∃ es s, Sys.run (Threads.step cfgPlain) .init allocAgain = some (es, s) ∧
      ((∀ c ∈ s.handedOut, s.dev.regMgr.state = .on ∧ c.reclaims = s.dev.reclaims) ∧
        ((∀ pc ∈ s.calls, pc = .done) → s.dev.regMgr.validRefCount = s.handedOut.length)) ∧
      s.handedOut = [⟨9, 1⟩] :=
  ⟨_, _, rfl, chunk_lifetime cfgPlain allocAgain _ _ rfl (by decide), rfl⟩

/-- A second chunk is allocated. Before it is counted, the first one is freed and the deferred
power-off reclaims the region. The reference count then powers the region on again, and the caller
gets a chunk that the TEE has forgotten. -/
theorem chunk_lifetime_fails :
    ∃ es s c, Sys.run (Threads.step cfgPlain) .init (allocFirst 0 7 ++
        [.allocChunk 4096 4096 true, .call 1 {}, .call 1 {}, .call 1 {}, .call 1 ⟨0, 0, 0, 8⟩,
          .unrefChunk ⟨7, 0⟩, .call 2 {}, .call 2 {}, .call 2 {}, .call 2 {}, .call 2 {},
          .work {}, .work {}, .work {}, .work {}, .work {}, .work {}, .work {},
          .call 1 {}, .call 1 ⟨0, 0x40000000, 0x100000, 0⟩, .call 1 {}, .call 1 {}, .call 1 {},
          .call 1 {}]) = some (es, s) ∧
      (∀ pc ∈ s.calls, pc = .done) ∧ c ∈ s.handedOut ∧ c.reclaims ≠ s.dev.reclaims :=
  ⟨_, _, ⟨8, 0⟩, rfl, by decide, by decide, by decide⟩

end TrustedMem
