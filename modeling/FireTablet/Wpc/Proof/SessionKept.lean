import FireTablet.Lib.Run
import FireTablet.Wpc.Session

/-!
# What a session keeps

After an attach or a detach `online` and `is_enabled` agree, 10 W are only charged after both
authentications since the last attach, and nothing is left of a session that was detached
(`session_kept`).
`Session.Inv` is the invariant behind it, and `SessionOk` is when an event keeps it.
-/

namespace Wpc

/-! ## The authentications under way -/

/-- A success of the ID authentication is read, and not yet noted. -/
def IntPc.id : IntPc → Bool
  | .devFail irq | .devSuccess irq | .idFail irq | .idSuccess irq => irq.idAuthSuccess
  | .idle => false

/-- A success of the device authentication is read, and not yet noted. -/
def IntPc.dev : IntPc → Bool
  | .devFail irq | .devSuccess irq => irq.deviceAuthSuccess
  | .idFail _ | .idSuccess _ | .idle => false

/-- The power switch is about to set the type 10 W. -/
def PowerSwitchPc.fast : PowerSwitchPc → Bool
  | .psyGet type | .chr type | .psySet type => type = .wireless10w
  | _ => false

/-- The charge type is 10 W, in the driver or in the power supply. -/
def Chip.fast (c : Chip) : Bool := c.chrType = .wireless10w || c.psyType = .wireless10w

/-- Nothing is left of an authentication, or of charging with 10 W. -/
structure Fresh (s : Session) : Prop where
  id : s.chip.txIdAuthenStatus = false
  dev : s.chip.txDevAuthenStatus = false
  intId : s.int.id = false
  intDev : s.int.dev = false
  type : s.chip.fast = false
  work : s.powerSwitch.fast = false

/-- No work is queued. -/
structure Chip.Unqueued (c : Chip) : Prop where
  powerSwitch : c.powerSwitchPending = false
  adaptive : c.adaptivePending = false
  step : c.stepPending = false

/-- No work runs. -/
structure Session.Idle (s : Session) : Prop where
  powerSwitch : s.powerSwitch = .idle
  adaptive : s.adaptive = .idle
  step : s.stepCharging = .idle

instance (s : Session) : Decidable (Fresh s) :=
  decidable_of_iff (s.chip.txIdAuthenStatus = false ∧ s.chip.txDevAuthenStatus = false ∧
      s.int.id = false ∧ s.int.dev = false ∧ s.chip.fast = false ∧ s.powerSwitch.fast = false)
    ⟨fun ⟨h1, h2, h3, h4, h5, h6⟩ => ⟨h1, h2, h3, h4, h5, h6⟩,
      fun h => ⟨h.id, h.dev, h.intId, h.intDev, h.type, h.work⟩⟩

instance (c : Chip) : Decidable c.Unqueued :=
  decidable_of_iff (c.powerSwitchPending = false ∧ c.adaptivePending = false ∧
      c.stepPending = false)
    ⟨fun ⟨h1, h2, h3⟩ => ⟨h1, h2, h3⟩, fun h => ⟨h.powerSwitch, h.adaptive, h.step⟩⟩

instance (s : Session) : Decidable s.Idle :=
  decidable_of_iff (s.powerSwitch = .idle ∧ s.adaptive = .idle ∧ s.stepCharging = .idle)
    ⟨fun ⟨h1, h2, h3⟩ => ⟨h1, h2, h3⟩, fun h => ⟨h.powerSwitch, h.adaptive, h.step⟩⟩

/-- The charger is off, and no work is queued or runs. -/
structure Gone (s : Session) : Prop where
  init : s.init = .finished
  settled : s.settled = true
  online : s.chip.online = false
  enabled : s.chip.isEnabled = false
  unqueued : s.chip.Unqueued
  idle : s.Idle

/-- The init work before it looks whether the charger is attached. -/
def InitPc.early : InitPc → Bool
  | .queued | .setOnline | .ready | .status => true
  | _ => false

/-- The init work before `online` and `is_enabled` are settled. -/
def InitPc.unsettled : InitPc → Bool
  | .queued | .setOnline | .ready | .status | .flags _ | .attached | .attach | .vout | .flow _
  | .clear => true
  | _ => false

/-- The init work's update of the charge type. -/
def InitPc.fast : InitPc → Bool
  | .psyGet type | .chr type | .psySet type => type = .wireless10w
  | _ => false

/-- What every event that goes well keeps. -/
structure Session.Inv (s : Session) : Prop where
  online : s.settled = true → s.chip.online = s.chip.isEnabled
  id : s.chip.txIdAuthenStatus = true ∨ s.int.id = true → s.idOk = true
  dev : s.chip.txDevAuthenStatus = true ∨ s.int.dev = true → s.devOk = true
  flags : ∀ irq, s.init = .flags irq →
    (irq.idAuthSuccess = true → s.idOk = true) ∧ (irq.deviceAuthSuccess = true → s.devOk = true)
  fast : s.chip.fast = true ∨ s.powerSwitch.fast = true → s.idOk = true ∧ s.devOk = true
  slow : s.init.fast = false
  unsettled : s.init.unsettled = true → s.settled = false
  early : s.init.early = true → Fresh s ∧ s.chip.getStatusDone = false
  clear : s.init = .clear → s.chip.isEnabled = false
  gone : s.detached = true → Gone s

/-- When an event goes well. An attach finds nothing left of an earlier session, and where the
output voltage cannot be set the charger was enabled. A detach finds no work running, and the
charger enabled or offline with nothing queued. The charger is not enabled by force while it is
offline, once an attach or a detach has completed. The init work finds the charger still online when
it enables it, and enabled or offline when it disables it, and it is not enabled by force in
between. -/
def SessionOk (cfg : Cfg) (s : Session) : Event → Prop
  | .pg high voutOk _ => s.lockLeft = false → s.init = .finished →
      if high then Fresh s ∧ ((!cfg.useBuck || voutOk) = true ∨ s.chip.isEnabled = true)
      else s.Idle ∧ (s.chip.isEnabled = true ∨ s.chip.online = false ∧ s.chip.Unqueued)
  | .forceEnableCharge en _ => s.lockLeft = false → en = true →
      (s.settled = true → s.chip.online = true ∨ s.chip.isEnabled = true) ∧ s.init ≠ .clear
  | .init _ => (s.init = .flow true → s.chip.online = true) ∧
      (s.init = .flow false → s.chip.isEnabled = true ∨ s.chip.online = false)
  | _ => True

instance decidableSessionOk (cfg : Cfg) (s : Session) : (e : Event) → Decidable (SessionOk cfg s e)
  | .pg high voutOk _ => inferInstanceAs (Decidable (s.lockLeft = false → s.init = .finished →
      if high then Fresh s ∧ ((!cfg.useBuck || voutOk) = true ∨ s.chip.isEnabled = true)
      else s.Idle ∧ (s.chip.isEnabled = true ∨ s.chip.online = false ∧ s.chip.Unqueued)))
  | .forceEnableCharge en _ => inferInstanceAs (Decidable (s.lockLeft = false → en = true →
      (s.settled = true → s.chip.online = true ∨ s.chip.isEnabled = true) ∧ s.init ≠ .clear))
  | .init _ => inferInstanceAs (Decidable ((s.init = .flow true → s.chip.online = true) ∧
      (s.init = .flow false → s.chip.isEnabled = true ∨ s.chip.online = false)))
  | .doAlgorithm .. | .powerSwitchStore _ | .intRead _ | .int | .powerSwitch _ | .adaptive _
  | .stepCharging _ => inferInstanceAs (Decidable True)

/-- A step of a delayed work. -/
def Event.isWork : Event → Bool
  | .powerSwitch _ | .adaptive _ | .stepCharging _ => true
  | _ => false

/-- What an event leaves: once an attach or a detach has completed `online` and `is_enabled` agree,
10 W are charged only after both authentications, and between a detach and the next attach no work
does anything. -/
structure SessionKept (s : Session) (e : Event) (effects : List Effect) (s' : Session) : Prop where
  online : s'.settled = true → s'.chip.online = s'.chip.isEnabled
  fast : s'.chip.chrType = .wireless10w ∨ s'.chip.psyType = .wireless10w →
    s'.idOk = true ∧ s'.devOk = true
  leftover : s.detached = true → e.isWork = true → effects = [] ∧ s'.chip = s.chip

theorem Session.Inv.kept {s s' : Session} {e : Event} {effects : List Effect} (h : s'.Inv)
    (hleft : s.detached = true → e.isWork = true → effects = [] ∧ s'.chip = s.chip) :
    SessionKept s e effects s' := by
  refine ⟨h.online, ?_, hleft⟩
  intro hfast
  refine h.fast (.inl ?_)
  unfold Chip.fast
  obtain h1 | h1 := hfast <;> simp [h1]

/-! ## Steps of the works -/

/-- What a work leaves of the state. -/
structure SameFlags (c c' : Chip) : Prop where
  online : c'.online = c.online
  enabled : c'.isEnabled = c.isEnabled
  id : c'.txIdAuthenStatus = c.txIdAuthenStatus
  dev : c'.txDevAuthenStatus = c.txDevAuthenStatus
  done : c'.getStatusDone = c.getStatusDone

theorem SameFlags.refl (c : Chip) : SameFlags c c := ⟨rfl, rfl, rfl, rfl, rfl⟩

section
variable (cfg : Cfg)

theorem updateCurrentSetting_frame (c : Chip) :
    SameFlags c (updateCurrentSetting cfg c).1 ∧
      (updateCurrentSetting cfg c).1.fast = c.fast := by
  unfold updateCurrentSetting
  cases inputCurrent cfg c with
  | none => exact ⟨SameFlags.refl c, rfl⟩
  | some ua =>
    simp only
    by_cases hua : ua = c.prevInputCurrent
    · rw [if_pos hua]
      exact ⟨SameFlags.refl c, rfl⟩
    · rw [if_neg hua]
      exact ⟨⟨rfl, rfl, rfl, rfl, rfl⟩, rfl⟩

theorem powerSwitchStep_frame (c : Chip) (env : Env) (p : PowerSwitchPc) :
    SameFlags c (powerSwitchStep cfg c env p).1 ∧
      ((powerSwitchStep cfg c env p).1.fast = true ∨ (powerSwitchStep cfg c env p).2.1.fast = true →
        c.fast = true ∨ p.fast = true) := by
  cases p with
  | current =>
    obtain ⟨hs, hf⟩ := updateCurrentSetting_frame cfg c
    refine ⟨hs, ?_⟩
    rintro (h | h)
    · exact .inl (hf ▸ h)
    · cases h
  | idle | again | volt | stepOn | stepSched =>
    exact ⟨⟨rfl, rfl, rfl, rfl, rfl⟩, fun h => .inl (h.resolve_right nofun)⟩
  | check | range | soc | typed | adapt =>
    simp only [powerSwitchStep]
    split_ifs <;> exact ⟨⟨rfl, rfl, rfl, rfl, rfl⟩, fun h => .inl (h.resolve_right nofun)⟩
  | update =>
    refine ⟨⟨rfl, rfl, rfl, rfl, rfl⟩, ?_⟩
    rintro (h | h)
    · exact .inl h
    · have hchr : decide (c.chrType = .wireless10w) = true := h
      refine .inl ?_
      unfold Chip.fast
      rw [hchr]
      rfl
  | psyGet type =>
    simp only [powerSwitchStep]
    split_ifs
    · exact ⟨⟨rfl, rfl, rfl, rfl, rfl⟩, fun h => .inl (h.resolve_right nofun)⟩
    · exact ⟨⟨rfl, rfl, rfl, rfl, rfl⟩, fun h => h⟩
  | chr type =>
    refine ⟨⟨rfl, rfl, rfl, rfl, rfl⟩, ?_⟩
    rintro (h | h)
    · obtain h | h := Bool.or_eq_true_iff.1 h
      · exact .inr h
      · exact .inl (Bool.or_eq_true_iff.2 (.inr h))
    · exact .inr h
  | psySet type =>
    refine ⟨⟨rfl, rfl, rfl, rfl, rfl⟩, ?_⟩
    rintro (h | h)
    · obtain h | h := Bool.or_eq_true_iff.1 h
      · exact .inl (Bool.or_eq_true_iff.2 (.inl h))
      · cases hset : env.psy.set with
        | true =>
          simp only [powerSwitchStep, hset, if_true] at h
          exact .inr h
        | false =>
          simp only [powerSwitchStep, hset, Bool.false_eq_true, if_false] at h
          exact .inl (Bool.or_eq_true_iff.2 (.inr h))
    · cases h

theorem adaptiveStep_frame (c : Chip) (env : Env) (p : AdaptivePc) :
    SameFlags c (adaptiveStep cfg c env p).1 ∧ (adaptiveStep cfg c env p).1.fast = c.fast := by
  cases p with
  | current => exact updateCurrentSetting_frame cfg c
  | ibus =>
    simp only [adaptiveStep]
    cases env.ibus with
    | none => exact ⟨SameFlags.refl c, rfl⟩
    | some ua =>
      simp only [adaptiveTarget]
      split_ifs <;> exact ⟨⟨rfl, rfl, rfl, rfl, rfl⟩, rfl⟩
  | idle | need | again => exact ⟨⟨rfl, rfl, rfl, rfl, rfl⟩, rfl⟩
  | fill | skip | done t =>
    simp only [adaptiveStep]
    split_ifs <;> exact ⟨⟨rfl, rfl, rfl, rfl, rfl⟩, rfl⟩

theorem stepStep_frame (c : Chip) (env : Env) (p : StepPc) :
    SameFlags c (stepStep cfg c env p).1 ∧ (stepStep cfg c env p).1.fast = c.fast := by
  cases p with
  | current => exact updateCurrentSetting_frame cfg c
  | idle | write t => exact ⟨⟨rfl, rfl, rfl, rfl, rfl⟩, rfl⟩
  | ramp | again =>
    simp only [stepStep]
    split_ifs <;> exact ⟨⟨rfl, rfl, rfl, rfl, rfl⟩, rfl⟩

/-- A step of a work that is not left over. -/
theorem Session.Inv.work {s : Session} (h : s.Inv) (hd : s.detached = false) {c : Chip}
    (hs : SameFlags s.chip c) {ps : PowerSwitchPc} (ad : AdaptivePc) (st : StepPc)
    (hf : c.fast = true ∨ ps.fast = true → s.chip.fast = true ∨ s.powerSwitch.fast = true) :
    ({ s with
      chip := c
      powerSwitch := ps
      adaptive := ad
      stepCharging := st } : Session).Inv := by
  constructor
  · intro hset
    exact (hs.online.trans (h.online hset)).trans hs.enabled.symm
  · rintro (hid | hid)
    · exact h.id (.inl (hs.id ▸ hid))
    · exact h.id (.inr hid)
  · rintro (hdev | hdev)
    · exact h.dev (.inl (hs.dev ▸ hdev))
    · exact h.dev (.inr hdev)
  · exact h.flags
  · exact fun hfast => h.fast (hf hfast)
  · exact h.slow
  · exact h.unsettled
  · intro hearly
    obtain ⟨⟨f1, f2, f3, f4, f5, f6⟩, hdone⟩ := h.early hearly
    have hslow : ¬ (c.fast = true ∨ ps.fast = true) := by
      intro hfast
      obtain hfast | hfast := hf hfast
      · rw [f5] at hfast
        cases hfast
      · rw [f6] at hfast
        cases hfast
    obtain ⟨h5, h6⟩ := not_or.1 hslow
    exact ⟨⟨hs.id.trans f1, hs.dev.trans f2, f3, f4, Bool.eq_false_iff.2 h5,
      Bool.eq_false_iff.2 h6⟩, hs.done.trans hdone⟩
  · exact fun hclear => hs.enabled.trans (h.clear hclear)
  · intro hdet
    rw [hd] at hdet
    cases hdet

/-- An event of a work whose thread is idle starts it, and else it goes a step. -/
theorem work_inv {s : Session} {e : Event} (h : s.Inv) (he : e.isWork = true) :
    ∃ effects s', sessionStep cfg s e = some (effects, s') ∧ s'.Inv ∧
      SessionKept s e effects s' := by
  have hstart : ∀ {c : Chip} {ps : PowerSwitchPc} (ad : AdaptivePc) (st : StepPc),
      s.detached = false → SameFlags s.chip c →
      (c.fast = true ∨ ps.fast = true → s.chip.fast = true ∨ s.powerSwitch.fast = true) →
      ∀ effects, ∃ effects' s', some (effects,
          ({ s with chip := c, powerSwitch := ps, adaptive := ad, stepCharging := st } : Session)) =
        some (effects', s') ∧ s'.Inv ∧ SessionKept s e effects' s' := by
    intro c ps ad st hd hs hf effects
    have hinv := h.work hd hs ad st hf
    refine ⟨_, _, rfl, hinv, hinv.kept ?_⟩
    intro hdet
    rw [hd] at hdet
    cases hdet
  cases hd : s.detached with
  | true =>
    -- nothing runs or is queued
    obtain ⟨-, -, -, -, ⟨q1, q2, q3⟩, ⟨i1, i2, i3⟩⟩ := h.gone hd
    have hquiet : sessionStep cfg s e = some ([], s) := by
      cases e with
      | powerSwitch env => simp [sessionStep, i1, q1]
      | adaptive env => simp [sessionStep, i2, q2]
      | stepCharging env => simp [sessionStep, i3, q3]
      | pg | doAlgorithm | powerSwitchStore | forceEnableCharge | intRead | int | init => cases he
    exact ⟨_, _, hquiet, h, h.kept fun _ _ => ⟨rfl, rfl⟩⟩
  | false =>
    have hsame : ∃ effects s', some (([] : List Effect), s) = some (effects, s') ∧ s'.Inv ∧
        SessionKept s e effects s' := ⟨_, _, rfl, h, h.kept fun _ _ => ⟨rfl, rfl⟩⟩
    cases e with
    | powerSwitch env =>
      simp only [sessionStep]
      split
      · split_ifs
        · refine hstart _ _ hd ?_ ?_ _
          · exact ⟨rfl, rfl, rfl, rfl, rfl⟩
          · exact fun hf => .inl (hf.resolve_right nofun)
        · exact hsame
      · obtain ⟨hs, hf⟩ := powerSwitchStep_frame cfg s.chip env s.powerSwitch
        exact hstart s.adaptive s.stepCharging hd hs hf _
    | adaptive env =>
      simp only [sessionStep]
      split
      · split_ifs
        · refine hstart _ _ hd ?_ ?_ _
          · exact ⟨rfl, rfl, rfl, rfl, rfl⟩
          · exact fun hf => hf
        · exact hsame
      · obtain ⟨hs, hf⟩ := adaptiveStep_frame cfg s.chip env s.adaptive
        exact hstart (adaptiveStep cfg s.chip env s.adaptive).2.1 s.stepCharging hd hs
          (fun h => h.imp_left fun h => hf ▸ h) _
    | stepCharging env =>
      simp only [sessionStep]
      split
      · split_ifs
        · refine hstart _ _ hd ?_ ?_ _
          · exact ⟨rfl, rfl, rfl, rfl, rfl⟩
          · exact fun hf => hf
        · exact hsame
      · obtain ⟨hs, hf⟩ := stepStep_frame cfg s.chip env s.stepCharging
        exact hstart s.adaptive (stepStep cfg s.chip env s.stepCharging).2.1 hd hs
          (fun h => h.imp_left fun h => hf ▸ h) _
    | pg | doAlgorithm | powerSwitchStore | forceEnableCharge | intRead | int | init => cases he

/-! ## Calls under the lock -/

/-- What a poll or a write of `power_switch` leaves: the flags, 10 W only after both
authentications, and the queue where the charger is offline. -/
structure PollFrame (c c' : Chip) : Prop where
  flags : SameFlags c c'
  fast : c'.fast = true → c.fast = true ∨
    c.txIdAuthenStatus = true ∧ c.txDevAuthenStatus = true
  queue : c.online = false → c.Unqueued → c'.Unqueued

theorem PollFrame.refl (c : Chip) : PollFrame c c := ⟨SameFlags.refl c, .inl, fun _ h => h⟩

theorem fastChargeEnable_frame (c : Chip) (en : Bool) :
    PollFrame c (fastChargeEnable cfg c en).1 := by
  simp only [fastChargeEnable]
  by_cases hon : c.online = true
  · rw [if_neg (not_not.2 hon)]
    by_cases hauth : ¬ c.txIdAuthenStatus = true ∨ ¬ c.txDevAuthenStatus = true
    · rw [if_pos hauth]
      exact ⟨⟨rfl, rfl, rfl, rfl, rfl⟩, .inl, fun _ h => ⟨rfl, h.adaptive, h.step⟩⟩
    · rw [if_neg hauth]
      obtain ⟨h1, h2⟩ := not_or.1 hauth
      refine ⟨⟨rfl, rfl, rfl, rfl, rfl⟩, fun _ => .inr ⟨not_not.1 h1, not_not.1 h2⟩, ?_⟩
      intro hoff
      rw [hon] at hoff
      cases hoff
  · rw [if_pos hon]
    exact PollFrame.refl c

theorem updateChargeType_frame (c : Chip) (type : ChrType) (psy : Psy) :
    SameFlags c (updateChargeType c type psy).1 ∧ (type ≠ .wireless10w →
      (updateChargeType c type psy).1.fast = true → c.fast = true) := by
  unfold updateChargeType
  split_ifs with hskip hset
  · exact ⟨SameFlags.refl c, fun _ h => h⟩
  · refine ⟨⟨rfl, rfl, rfl, rfl, rfl⟩, ?_⟩
    intro hne hfast
    obtain h | h := Bool.or_eq_true_iff.1 hfast <;> exact absurd (of_decide_eq_true h) hne
  · refine ⟨⟨rfl, rfl, rfl, rfl, rfl⟩, ?_⟩
    intro hne hfast
    obtain h | h := Bool.or_eq_true_iff.1 hfast
    · exact absurd (of_decide_eq_true h) hne
    · exact Bool.or_eq_true_iff.2 (.inr h)

theorem doAlgorithm_frame (c : Chip) (typeRead : Bool) (psy : Psy) :
    PollFrame c (doAlgorithm cfg c typeRead psy).chip := by
  unfold doAlgorithm
  by_cases hout : ¬ c.online = true ∨ c.forceSwitch = true ∨ ¬ c.txAuthenComplete = true
  · rw [if_pos hout]
    exact PollFrame.refl c
  · rw [if_neg hout]
    split_ifs
    · exact fastChargeEnable_frame cfg c true
    · obtain ⟨hf, ht⟩ := updateChargeType_frame c .wireless5w psy
      obtain ⟨hf', ht'⟩ := updateCurrentSetting_frame cfg (updateChargeType c .wireless5w psy).1
      refine ⟨⟨hf'.online.trans hf.online, hf'.enabled.trans hf.enabled, hf'.id.trans hf.id,
        hf'.dev.trans hf.dev, hf'.done.trans hf.done⟩, ?_, ?_⟩
      · intro hfast
        exact .inl (ht nofun (ht' ▸ hfast))
      · intro hoff
        exact absurd (.inl (Bool.eq_false_iff.1 hoff)) hout
    · exact PollFrame.refl c
    · exact PollFrame.refl c

theorem powerSwitchStore_frame (c : Chip) (power : Option Int) :
    PollFrame c (powerSwitchStore cfg c power).chip := by
  cases power with
  | none => exact PollFrame.refl c
  | some n =>
    simp only [powerSwitchStore]
    split_ifs
    · obtain ⟨⟨f1, f2, f3, f4, f5⟩, hfast, hqueue⟩ := fastChargeEnable_frame cfg
        { c with forceSwitch := n ≠ 0 } (n = 10)
      exact ⟨⟨f1, f2, f3, f4, f5⟩, hfast, fun hoff hq => hqueue hoff ⟨hq.1, hq.2, hq.3⟩⟩
    · exact ⟨⟨rfl, rfl, rfl, rfl, rfl⟩, .inl, fun _ h => ⟨h.powerSwitch, h.adaptive, h.step⟩⟩
    · exact PollFrame.refl c

theorem Session.Inv.poll {s : Session} (h : s.Inv) {c : Chip} (hf : PollFrame s.chip c)
    (left : Bool) : ({ s with chip := c, lockLeft := left } : Session).Inv := by
  obtain ⟨hs, hfast, hqueue⟩ := hf
  constructor
  · intro hset
    exact (hs.online.trans (h.online hset)).trans hs.enabled.symm
  · exact fun hid => h.id (hid.imp_left fun hid => hs.id ▸ hid)
  · exact fun hdev => h.dev (hdev.imp_left fun hdev => hs.dev ▸ hdev)
  · exact h.flags
  · rintro (hc | hw)
    · obtain hc | ⟨hid, hdev⟩ := hfast hc
      · exact h.fast (.inl hc)
      · exact ⟨h.id (.inl hid), h.dev (.inl hdev)⟩
    · exact h.fast (.inr hw)
  · exact h.slow
  · exact h.unsettled
  · intro hearly
    obtain ⟨⟨f1, f2, f3, f4, f5, f6⟩, hdone⟩ := h.early hearly
    refine ⟨⟨hs.id.trans f1, hs.dev.trans f2, f3, f4, Bool.eq_false_iff.2 ?_, f6⟩,
      hs.done.trans hdone⟩
    intro hc
    obtain hc | ⟨hid, -⟩ := hfast hc
    · rw [f5] at hc
      cases hc
    · rw [f1] at hid
      cases hid
  · exact fun hclear => hs.enabled.trans (h.clear hclear)
  · intro hdet
    obtain ⟨g1, g2, g3, g4, g5, g6⟩ := h.gone hdet
    exact ⟨g1, g2, hs.online.trans g3, hs.enabled.trans g4, hqueue g3 g5,
      ⟨g6.powerSwitch, g6.adaptive, g6.step⟩⟩

/-! ## Enabling and disabling -/

/-- What enabling or disabling the charging leaves. -/
structure FlowFrame (c : Chip) (en : Bool) (c' : Chip) : Prop where
  enabled : c'.isEnabled = en
  online : c.isEnabled = en ∨ en = true → c'.online = c.online
  off : c.isEnabled = true → en = false → c'.online = false ∧ c'.Unqueued
  id : c'.txIdAuthenStatus = true → c.txIdAuthenStatus = true
  dev : c'.txDevAuthenStatus = true → c.txDevAuthenStatus = true
  done : c'.getStatusDone = c.getStatusDone
  fast : c'.fast = true → c.fast = true
  queue : c.Unqueued → c'.Unqueued

theorem updateChargeType_queue (c : Chip) (type : ChrType) (psy : Psy) (h : c.Unqueued) :
    (updateChargeType c type psy).1.Unqueued := by
  unfold updateChargeType
  split_ifs <;> exact ⟨h.powerSwitch, h.adaptive, h.step⟩

theorem updateCurrentSetting_queue (c : Chip) (h : c.Unqueued) :
    (updateCurrentSetting cfg c).1.Unqueued := by
  unfold updateCurrentSetting
  cases inputCurrent cfg c with
  | none => exact h
  | some ua =>
    simp only
    by_cases hua : ua = c.prevInputCurrent
    · rw [if_pos hua]
      exact h
    · rw [if_neg hua]
      exact ⟨h.powerSwitch, h.adaptive, h.step⟩

/-- Clearing leaves nothing of 10 W in the driver. -/
theorem clear_fast {c : Chip} (h : (clearFastChargeSwitch cfg c).fast = true) : c.fast = true :=
  Bool.or_eq_true_iff.2 ((Bool.or_eq_true_iff.1 h).imp_left nofun)

theorem enableChargeFlow_frame (c : Chip) (en : Bool) (psy : Psy) :
    FlowFrame c en (enableChargeFlow cfg c en psy).1 := by
  unfold enableChargeFlow
  by_cases hsame : c.isEnabled = en
  · rw [if_pos hsame]
    refine ⟨hsame, fun _ => rfl, ?_, fun h => h, fun h => h, rfl, fun h => h, fun h => h⟩
    intro hon hen
    rw [hon, hen] at hsame
    cases hsame
  · rw [if_neg hsame]
    cases en with
    | true =>
      obtain ⟨hf, ht⟩ := updateChargeType_frame { c with isEnabled := true } .wireless psy
      obtain ⟨hf', ht'⟩ := updateCurrentSetting_frame cfg
        (updateChargeType { c with isEnabled := true } .wireless psy).1
      have hq := updateChargeType_queue { c with isEnabled := true } .wireless psy
      constructor
      · exact hf'.enabled.trans hf.enabled
      · exact fun _ => hf'.online.trans hf.online
      · exact fun _ hen => nomatch hen
      · exact fun hid => (hf'.id.trans hf.id) ▸ hid
      · exact fun hdev => (hf'.dev.trans hf.dev) ▸ hdev
      · exact hf'.done.trans hf.done
      · exact fun hfast => ht nofun (ht' ▸ hfast)
      · exact fun h => updateCurrentSetting_queue cfg _ (hq ⟨h.powerSwitch, h.adaptive, h.step⟩)
    | false =>
      obtain ⟨hf, ht⟩ := updateChargeType_frame
        { clearFastChargeSwitch cfg { c with isEnabled := false } with online := false } .unknown
        psy
      have hq := updateChargeType_queue
        { clearFastChargeSwitch cfg { c with isEnabled := false } with online := false } .unknown
        psy
        ⟨rfl, rfl, rfl⟩
      constructor
      · exact hf.enabled
      · rintro (hen | hen)
        · exact absurd hen hsame
        · cases hen
      · exact fun _ _ => ⟨hf.online, hq⟩
      · exact fun hid => nomatch hf.id.symm.trans hid
      · exact fun hdev => nomatch hf.dev.symm.trans hdev
      · exact hf.done
      · exact fun hfast => clear_fast cfg (ht nofun hfast)
      · exact fun _ => hq

theorem Session.Inv.force {s : Session} (h : s.Inv) {en : Bool} {c : Chip}
    (hf : FlowFrame s.chip en c)
    (hok : en = true → (s.settled = true → s.chip.online = true ∨ s.chip.isEnabled = true) ∧
      s.init ≠ .clear) : ({ s with chip := c } : Session).Inv := by
  have henabled : s.settled = true → en = true → s.chip.isEnabled = true := by
    intro hset hen
    obtain hon | hon := (hok hen).1 hset
    · exact (h.online hset).symm.trans hon
    · exact hon
  constructor
  · intro hset
    show c.online = c.isEnabled
    rw [hf.enabled]
    cases hen : en with
    | true =>
      have hon := henabled hset hen
      rw [hf.online (.inr hen), h.online hset, hon]
    | false =>
      cases hon : s.chip.isEnabled with
      | true => exact (hf.off hon hen).1
      | false => rw [hf.online (.inl (hon.trans hen.symm)), h.online hset, hon]
  · exact fun hid => h.id (hid.imp_left hf.id)
  · exact fun hdev => h.dev (hdev.imp_left hf.dev)
  · exact h.flags
  · exact fun hfast => h.fast (hfast.imp_left hf.fast)
  · exact h.slow
  · exact h.unsettled
  · intro hearly
    obtain ⟨⟨f1, f2, f3, f4, f5, f6⟩, hdone⟩ := h.early hearly
    refine ⟨⟨Bool.eq_false_iff.2 fun h => ?_, Bool.eq_false_iff.2 fun h => ?_, f3, f4,
      Bool.eq_false_iff.2 fun h => ?_, f6⟩, hf.done.trans hdone⟩
    · exact Bool.eq_false_iff.1 f1 (hf.id h)
    · exact Bool.eq_false_iff.1 f2 (hf.dev h)
    · exact Bool.eq_false_iff.1 f5 (hf.fast h)
  · intro hclear
    cases hen : en with
    | true => exact absurd hclear (hok hen).2
    | false => exact hf.enabled.trans hen
  · intro hdet
    obtain ⟨g1, g2, g3, g4, g5, g6⟩ := h.gone hdet
    have hen : en = false := by
      refine Bool.eq_false_iff.2 fun hen => ?_
      rw [henabled g2 hen] at g4
      cases g4
    exact ⟨g1, g2, (hf.online (.inl (g4.trans hen.symm))).trans g3, hf.enabled.trans hen,
      hf.queue g5, ⟨g6.powerSwitch, g6.adaptive, g6.step⟩⟩

/-! ## Power-good -/

/-- An attach that finds nothing left of an earlier session. -/
theorem Session.Inv.attach {s : Session} (hdone : s.init = .finished) (hfresh : Fresh s)
    {voutOk : Bool} (psy : Psy)
    (hok : (!cfg.useBuck || voutOk) = true ∨ s.chip.isEnabled = true) :
    (pgThread cfg s true voutOk psy).1.Inv := by
  have hf : FlowFrame { s.chip with online := true } (!cfg.useBuck || voutOk)
      (attachedVbus cfg s.chip voutOk psy).1 :=
    enableChargeFlow_frame cfg { s.chip with online := true } _ psy
  simp only [pgThread, if_true]
  generalize (attachedVbus cfg s.chip voutOk psy).1 = c at hf
  generalize (!cfg.useBuck || voutOk) = en at hf hok
  constructor
  · intro _
    show c.online = c.isEnabled
    rw [hf.enabled]
    cases en with
    | true => exact hf.online (.inr rfl)
    | false => exact (hf.off (hok.resolve_left nofun) rfl).1
  · rintro (hid | hid)
    · exact absurd (hf.id hid) (Bool.eq_false_iff.1 hfresh.id)
    · exact absurd hid (Bool.eq_false_iff.1 hfresh.intId)
  · rintro (hdev | hdev)
    · exact absurd (hf.dev hdev) (Bool.eq_false_iff.1 hfresh.dev)
    · exact absurd hdev (Bool.eq_false_iff.1 hfresh.intDev)
  · exact fun irq hirq => nomatch hdone.symm.trans hirq
  · rintro (hfast | hfast)
    · exact absurd (hf.fast hfast) (Bool.eq_false_iff.1 hfresh.type)
    · exact absurd hfast (Bool.eq_false_iff.1 hfresh.work)
  · exact (congrArg InitPc.fast hdone).trans rfl
  · exact fun h => nomatch (congrArg InitPc.unsettled hdone).symm.trans h
  · exact fun h => nomatch (congrArg InitPc.early hdone).symm.trans h
  · exact fun hclear => nomatch hdone.symm.trans hclear
  · exact fun h => nomatch h

/-- A detach that finds no work running. -/
theorem Session.Inv.detach {s : Session} (h : s.Inv) (hdone : s.init = .finished) (hidle : s.Idle)
    (voutOk : Bool) (psy : Psy)
    (hok : s.chip.isEnabled = true ∨ s.chip.online = false ∧ s.chip.Unqueued) :
    (pgThread cfg s false voutOk psy).1.Inv := by
  have hf : FlowFrame s.chip false (detachedVbus cfg s.chip psy).1 :=
    enableChargeFlow_frame cfg s.chip false psy
  simp only [pgThread, Bool.false_eq_true, if_false]
  generalize (detachedVbus cfg s.chip psy).1 = c at hf
  have hoff : c.online = false ∧ c.Unqueued := by
    cases hon : s.chip.isEnabled with
    | true => exact hf.off hon rfl
    | false =>
      obtain hok | ⟨hoff, hq⟩ := hok
      · rw [hon] at hok
        cases hok
      · exact ⟨(hf.online (.inl hon)).trans hoff, hf.queue hq⟩
  constructor
  · exact fun _ => hoff.1.trans hf.enabled.symm
  · exact fun hid => h.id (hid.imp_left hf.id)
  · exact fun hdev => h.dev (hdev.imp_left hf.dev)
  · exact h.flags
  · exact fun hfast => h.fast (hfast.imp_left hf.fast)
  · exact h.slow
  · exact fun h => nomatch (congrArg InitPc.unsettled hdone).symm.trans h
  · exact fun h => nomatch (congrArg InitPc.early hdone).symm.trans h
  · exact fun hclear => nomatch hdone.symm.trans hclear
  · exact fun _ => ⟨hdone, rfl, hoff.1, hf.enabled, hoff.2,
      ⟨hidle.powerSwitch, hidle.adaptive, hidle.step⟩⟩

/-! ## The chip interrupt -/

theorem intStep_frame (c : Chip) (p : IntPc) :
    (intStep c p).1.online = c.online ∧ (intStep c p).1.isEnabled = c.isEnabled ∧
      (intStep c p).1.getStatusDone = c.getStatusDone ∧ (intStep c p).1.fast = c.fast ∧
      (c.Unqueued → (intStep c p).1.Unqueued) := by
  cases p with
  | idle => exact ⟨rfl, rfl, rfl, rfl, fun h => h⟩
  | devFail irq | devSuccess irq | idFail irq | idSuccess irq =>
    simp only [intStep]
    split_ifs <;> exact ⟨rfl, rfl, rfl, rfl, fun h => ⟨h.powerSwitch, h.adaptive, h.step⟩⟩

/-- What the interrupt notes has been read. -/
theorem intStep_auth (c : Chip) (p : IntPc) :
    ((intStep c p).1.txIdAuthenStatus = true ∨ (intStep c p).2.id = true →
      c.txIdAuthenStatus = true ∨ p.id = true) ∧
    ((intStep c p).1.txDevAuthenStatus = true ∨ (intStep c p).2.dev = true →
      c.txDevAuthenStatus = true ∨ p.dev = true) := by
  cases p with
  | idle => exact ⟨fun h => h, fun h => h⟩
  | devFail irq =>
    simp only [intStep]
    split_ifs <;> exact ⟨fun h => h, fun h => h⟩
  | devSuccess irq =>
    simp only [intStep]
    split_ifs with hsucc
    · exact ⟨fun h => h, fun _ => .inr hsucc⟩
    · exact ⟨fun h => h, fun h => .inl (h.resolve_right nofun)⟩
  | idFail irq =>
    simp only [intStep]
    split_ifs <;> exact ⟨fun h => h, fun h => .inl (h.resolve_right nofun)⟩
  | idSuccess irq =>
    simp only [intStep]
    split_ifs with hsucc
    · exact ⟨fun _ => .inr hsucc, fun h => .inl (h.resolve_right nofun)⟩
    · exact ⟨fun h => .inl (h.resolve_right nofun), fun h => .inl (h.resolve_right nofun)⟩

theorem Session.Inv.int {s : Session} (h : s.Inv) :
    ({ s with
      chip := (intStep s.chip s.int).1
      int := (intStep s.chip s.int).2 } : Session).Inv := by
  obtain ⟨h1, h2, h3, h4, h5⟩ := intStep_frame s.chip s.int
  obtain ⟨hid, hdev⟩ := intStep_auth s.chip s.int
  constructor
  · exact fun hset => (h1.trans (h.online hset)).trans h2.symm
  · exact fun h' => h.id (hid h')
  · exact fun h' => h.dev (hdev h')
  · exact h.flags
  · exact fun hfast => h.fast (hfast.imp_left fun hfast => h4 ▸ hfast)
  · exact h.slow
  · exact h.unsettled
  · intro hearly
    obtain ⟨⟨f1, f2, f3, f4, f5, f6⟩, hdone⟩ := h.early hearly
    have hnid : ¬ (s.chip.txIdAuthenStatus = true ∨ s.int.id = true) := by simp [f1, f3]
    have hndev : ¬ (s.chip.txDevAuthenStatus = true ∨ s.int.dev = true) := by simp [f2, f4]
    obtain ⟨n1, n3⟩ := not_or.1 fun h' => hnid (hid h')
    obtain ⟨n2, n4⟩ := not_or.1 fun h' => hndev (hdev h')
    exact ⟨⟨Bool.eq_false_iff.2 n1, Bool.eq_false_iff.2 n2, Bool.eq_false_iff.2 n3,
      Bool.eq_false_iff.2 n4, h4.trans f5, f6⟩, h3.trans hdone⟩
  · exact fun hclear => h2.trans (h.clear hclear)
  · intro hdet
    obtain ⟨g1, g2, g3, g4, g5, g6⟩ := h.gone hdet
    exact ⟨g1, g2, h1.trans g3, h2.trans g4, h5 g5, ⟨g6.powerSwitch, g6.adaptive, g6.step⟩⟩

theorem intRead_done {c : Chip} {irq : Option Irq} {irq' : Irq}
    (h : intRead c irq = .devFail irq') : c.getStatusDone = true := by
  unfold intRead at h
  cases irq with
  | none => cases h
  | some irq =>
    simp only at h
    split_ifs at h with hdone
    exact hdone

theorem Session.Inv.intRead {s : Session} (h : s.Inv) (hdone : s.chip.getStatusDone = true)
    (irq : Irq) :
    ({ s with
      int := .devFail irq
      idOk := s.idOk || irq.idAuthSuccess
      devOk := s.devOk || irq.deviceAuthSuccess } : Session).Inv := by
  have hid : s.idOk = true → (s.idOk || irq.idAuthSuccess) = true :=
    fun h => Bool.or_eq_true_iff.2 (.inl h)
  have hdev : s.devOk = true → (s.devOk || irq.deviceAuthSuccess) = true :=
    fun h => Bool.or_eq_true_iff.2 (.inl h)
  constructor
  · exact h.online
  · rintro (h' | h')
    · exact hid (h.id (.inl h'))
    · exact Bool.or_eq_true_iff.2 (.inr h')
  · rintro (h' | h')
    · exact hdev (h.dev (.inl h'))
    · exact Bool.or_eq_true_iff.2 (.inr h')
  · exact fun irq' hirq => ⟨fun h' => hid ((h.flags irq' hirq).1 h'),
      fun h' => hdev ((h.flags irq' hirq).2 h')⟩
  · exact fun hfast => ⟨hid (h.fast hfast).1, hdev (h.fast hfast).2⟩
  · exact h.slow
  · exact h.unsettled
  · intro hearly
    rw [(h.early hearly).2] at hdone
    cases hdone
  · exact h.clear
  · intro hdet
    obtain ⟨g1, g2, g3, g4, g5, g6⟩ := h.gone hdet
    exact ⟨g1, g2, g3, g4, g5, ⟨g6.powerSwitch, g6.adaptive, g6.step⟩⟩

/-! ## The init work -/

/-- Where the init work goes on. -/
theorem Session.Inv.initTo {s : Session} (h : s.Inv) (hne : s.init ≠ .finished) {c : Chip}
    {i : InitPc} {settled : Bool} (honline : settled = true → c.online = c.isEnabled)
    (hid : c.txIdAuthenStatus = true → s.idOk = true)
    (hdev : c.txDevAuthenStatus = true → s.devOk = true) (hflags : ∀ irq, i ≠ .flags irq)
    (hfast : c.fast = true → s.chip.fast = true) (hslow : i.fast = false)
    (huns : i.unsettled = true → settled = false)
    (hearly : i.early = true → s.init.early = true ∧
      (c.txIdAuthenStatus = true → s.chip.txIdAuthenStatus = true) ∧
      (c.txDevAuthenStatus = true → s.chip.txDevAuthenStatus = true) ∧
      c.getStatusDone = s.chip.getStatusDone)
    (hclear : i = .clear → c.isEnabled = false) :
    ({ s with chip := c, init := i, settled := settled } : Session).Inv := by
  constructor
  · exact honline
  · rintro (h' | h')
    · exact hid h'
    · exact h.id (.inr h')
  · rintro (h' | h')
    · exact hdev h'
    · exact h.dev (.inr h')
  · exact fun irq hirq => absurd hirq (hflags irq)
  · exact fun hf => h.fast (hf.imp_left hfast)
  · exact hslow
  · exact huns
  · intro hi
    obtain ⟨he, h1, h2, h3⟩ := hearly hi
    obtain ⟨⟨f1, f2, f3, f4, f5, f6⟩, hdone⟩ := h.early he
    exact ⟨⟨Bool.eq_false_iff.2 fun h' => Bool.eq_false_iff.1 f1 (h1 h'),
      Bool.eq_false_iff.2 fun h' => Bool.eq_false_iff.1 f2 (h2 h'), f3, f4,
      Bool.eq_false_iff.2 fun h' => Bool.eq_false_iff.1 f5 (hfast h'), f6⟩, h3.trans hdone⟩
  · exact hclear
  · exact fun hdet => absurd (h.gone hdet).init hne

theorem updated_fast (type : ChrType) : (InitPc.updated type).fast = false ∧
    (InitPc.updated type).unsettled = false ∧ (InitPc.updated type).early = false ∧
    InitPc.updated type ≠ .clear ∧ ∀ irq, InitPc.updated type ≠ .flags irq := by
  unfold InitPc.updated
  split_ifs <;> exact ⟨rfl, rfl, rfl, nofun, nofun⟩

theorem Session.Inv.init {s : Session} (h : s.Inv) (env : InitEnv)
    (hok : SessionOk cfg s (.init env)) : (initStep cfg s env).1.Inv := by
  obtain ⟨hon, hoff⟩ := hok
  have hid : s.chip.txIdAuthenStatus = true → s.idOk = true := fun h' => h.id (.inl h')
  have hdev : s.chip.txDevAuthenStatus = true → s.devOk = true := fun h' => h.dev (.inl h')
  unfold initStep
  cases hi : s.init with
  | finished | off => exact h
  | queued =>
    have hset : s.settled = false := h.unsettled (hi ▸ rfl)
    simp only
    split_ifs
    · exact h.initTo (hi ▸ nofun) h.online hid hdev nofun (fun h => h) rfl nofun nofun nofun
    · exact h.initTo (hi ▸ nofun) h.online hid hdev nofun (fun h => h) rfl (fun _ => hset)
        (fun _ => ⟨hi ▸ rfl, fun h => h, fun h => h, rfl⟩) nofun
  | setOnline =>
    have hset : s.settled = false := h.unsettled (hi ▸ rfl)
    exact h.initTo (hi ▸ nofun) (fun h' => nomatch hset.symm.trans h') hid hdev nofun (fun h => h)
      rfl (fun _ => hset) (fun _ => ⟨hi ▸ rfl, fun h => h, fun h => h, rfl⟩) nofun
  | ready =>
    have hset : s.settled = false := h.unsettled (hi ▸ rfl)
    simp only
    split_ifs
    · exact h.initTo (hi ▸ nofun) h.online hid hdev nofun (fun h => h) rfl (fun _ => hset)
        (fun _ => ⟨hi ▸ rfl, fun h => h, fun h => h, rfl⟩) nofun
    · exact h.initTo (hi ▸ nofun) h.online hid hdev nofun (fun h => h) rfl (fun _ => hset)
        (fun _ => ⟨hi ▸ rfl, fun h => h, fun h => h, rfl⟩) nofun
  | status =>
    have hset : s.settled = false := h.unsettled (hi ▸ rfl)
    obtain ⟨⟨f1, f2, f3, f4, f5, f6⟩, -⟩ := h.early (hi ▸ rfl)
    cases env.irq with
    | none =>
      exact h.initTo (hi ▸ nofun) (fun h' => nomatch hset.symm.trans h') hid hdev nofun (fun h => h)
        rfl (fun _ => hset) nofun nofun
    | some irq =>
      -- the attach begins: nothing of an earlier authentication is left
      constructor
      · exact h.online
      · exact fun h' => by simp [f1, f3] at h'
      · exact fun h' => by simp [f2, f4] at h'
      · rintro irq' ⟨⟩
        exact ⟨fun h' => h', fun h' => h'⟩
      · exact fun h' => by simp [f5, f6] at h'
      · rfl
      · exact fun _ => hset
      · exact nofun
      · exact nofun
      · exact fun hdet => absurd (h.gone hdet).init (hi ▸ nofun)
  | flags irq =>
    have hset : s.settled = false := h.unsettled (hi ▸ rfl)
    obtain ⟨hirq1, hirq2⟩ := h.flags irq hi
    refine h.initTo (hi ▸ nofun) h.online ?_ ?_ nofun (fun h => h) rfl (fun _ => hset) nofun nofun
    · intro h'
      obtain h' | h' := Bool.or_eq_true_iff.1 h'
      · exact hid h'
      · exact hirq1 h'
    · intro h'
      obtain h' | h' := Bool.or_eq_true_iff.1 h'
      · exact hdev h'
      · exact hirq2 h'
  | attached | attach =>
    have hset : s.settled = false := h.unsettled (hi ▸ rfl)
    exact h.initTo (hi ▸ nofun) (fun h' => nomatch hset.symm.trans h') hid hdev nofun (fun h => h)
      rfl (fun _ => hset) nofun nofun
  | vout =>
    have hset : s.settled = false := h.unsettled (hi ▸ rfl)
    exact h.initTo (hi ▸ nofun) h.online hid hdev nofun (fun h => h) rfl (fun _ => hset) nofun nofun
  | flow en =>
    simp only
    by_cases hsame : s.chip.isEnabled = en
    · rw [if_pos hsame]
      refine h.initTo (hi ▸ nofun) ?_ hid hdev nofun (fun h => h) rfl nofun nofun nofun
      intro _
      cases en with
      | true => exact (hon hi).trans hsame.symm
      | false =>
        obtain hoff | hoff := hoff hi
        · rw [hsame] at hoff
          cases hoff
        · exact hoff.trans hsame.symm
    · rw [if_neg hsame]
      cases en with
      | true =>
        exact h.initTo (hi ▸ nofun) (fun _ => hon hi) hid hdev nofun (fun h => h) rfl nofun nofun
          nofun
      | false =>
        exact h.initTo (hi ▸ nofun) nofun hid hdev nofun (fun h => h) rfl (fun _ => rfl) nofun
          (fun _ => rfl)
  | clear =>
    exact h.initTo (hi ▸ nofun) (fun _ => (h.clear hi).symm) nofun nofun nofun
      (fun h' => clear_fast cfg (c := s.chip) h') rfl nofun nofun nofun
  | psyGet type =>
    have hslow : decide (type = .wireless10w) = false := by
      have := h.slow
      rw [hi] at this
      exact this
    obtain ⟨u1, u2, u3, u4, u5⟩ := updated_fast type
    simp only
    split_ifs
    · exact h.initTo (hi ▸ nofun) h.online hid hdev u5 (fun h => h) u1
        (fun h' => nomatch u2.symm.trans h') (fun h' => nomatch u3.symm.trans h')
        (fun h' => absurd h' u4)
    · exact h.initTo (hi ▸ nofun) h.online hid hdev nofun (fun h => h) hslow nofun nofun nofun
  | chr type =>
    have hslow : decide (type = .wireless10w) = false := by
      have := h.slow
      rw [hi] at this
      exact this
    refine h.initTo (hi ▸ nofun) h.online hid hdev nofun ?_ hslow nofun nofun nofun
    intro hfast
    obtain h' | h' := Bool.or_eq_true_iff.1 hfast
    · rw [show decide (type = .wireless10w) = true from h'] at hslow
      cases hslow
    · exact Bool.or_eq_true_iff.2 (.inr h')
  | psySet type =>
    have hslow : decide (type = .wireless10w) = false := by
      have := h.slow
      rw [hi] at this
      exact this
    obtain ⟨u1, u2, u3, u4, u5⟩ := updated_fast type
    refine h.initTo (hi ▸ nofun) h.online hid hdev u5 ?_ u1 (fun h' => nomatch u2.symm.trans h')
      (fun h' => nomatch u3.symm.trans h') (fun h' => absurd h' u4)
    intro hfast
    obtain h' | h' := Bool.or_eq_true_iff.1 hfast
    · exact Bool.or_eq_true_iff.2 (.inl h')
    · cases hset : env.psy.set with
      | true =>
        simp only [hset, if_true] at h'
        rw [h'] at hslow
        cases hslow
      | false =>
        simp only [hset, Bool.false_eq_true, if_false] at h'
        exact Bool.or_eq_true_iff.2 (.inr h')
  | current =>
    obtain ⟨hs, hf⟩ := updateCurrentSetting_frame cfg s.chip
    refine h.initTo (hi ▸ nofun) ?_ (fun h' => hid (hs.id ▸ h')) (fun h' => hdev (hs.dev ▸ h'))
      nofun (fun h' => hf ▸ h') rfl nofun nofun nofun
    exact fun hset => (hs.online.trans (h.online hset)).trans hs.enabled.symm
  | enable => exact h.initTo (hi ▸ nofun) h.online hid hdev nofun (fun h => h) rfl nofun nofun nofun

/-- **One event.** -/
theorem session_step {s : Session} {e : Event} (h : s.Inv) (hok : SessionOk cfg s e) :
    ∃ effects s', sessionStep cfg s e = some (effects, s') ∧ s'.Inv ∧
      SessionKept s e effects s' := by
  have hquiet : ∀ effects s', s'.Inv → e.isWork = false → ∃ effects' s'',
      some (effects, s') = some (effects', s'') ∧ s''.Inv ∧ SessionKept s e effects' s'' := by
    intro effects s' h' he
    refine ⟨_, _, rfl, h', h'.kept ?_⟩
    intro _ hwork
    rw [he] at hwork
    cases hwork
  cases e with
  | powerSwitch env | adaptive env | stepCharging env => exact work_inv cfg h rfl
  | pg high voutOk psy =>
    simp only [sessionStep]
    split_ifs with hout
    · exact hquiet _ _ h rfl
    · obtain ⟨hleft, hinit⟩ := not_or.1 hout
      have hdone := not_not.1 hinit
      have hok := hok (Bool.eq_false_iff.2 hleft) hdone
      cases high with
      | true =>
        obtain ⟨hfresh, hvout⟩ := hok
        exact hquiet _ _ (Session.Inv.attach cfg hdone hfresh psy hvout) rfl
      | false =>
        obtain ⟨hidle, hoff⟩ := hok
        exact hquiet _ _ (h.detach cfg hdone hidle voutOk psy hoff) rfl
  | doAlgorithm typeRead psy =>
    simp only [sessionStep]
    split_ifs
    · exact hquiet _ _ h rfl
    · exact hquiet _ _ (h.poll (doAlgorithm_frame cfg s.chip typeRead psy) _) rfl
  | powerSwitchStore power =>
    simp only [sessionStep]
    split_ifs
    · exact hquiet _ _ h rfl
    · exact hquiet _ _ (h.poll (powerSwitchStore_frame cfg s.chip power) _) rfl
  | forceEnableCharge en psy =>
    simp only [sessionStep]
    split_ifs with hleft
    · exact hquiet _ _ h rfl
    · exact hquiet _ _ (h.force (enableChargeFlow_frame cfg s.chip en psy)
        (hok (Bool.eq_false_iff.2 hleft))) rfl
  | intRead irq =>
    simp only [sessionStep]
    split
    · rename_i irq' _ hread
      exact hquiet _ _ (h.intRead (intRead_done hread) irq') rfl
    · exact hquiet _ _ h rfl
  | int => exact hquiet _ _ h.int rfl
  | init env => exact hquiet _ _ (h.init cfg env hok) rfl

end

theorem probe_inv (ua : Int) : (Session.probe ua).Inv := by
  constructor
  · exact nofun
  · rintro (h | h) <;> cases h
  · rintro (h | h) <;> cases h
  · exact nofun
  · rintro (h | h) <;> cases h
  · rfl
  · exact fun _ => rfl
  · exact fun _ => ⟨⟨rfl, rfl, rfl, rfl, rfl, rfl⟩, rfl⟩
  · exact nofun
  · exact nofun

/-- **A session.** In every run of events that go well, `online` and `is_enabled` agree once an
attach or a detach has completed, the charge type is 10 W only after both authentications since the
last attach, and between a detach and the next attach no work does anything (`SessionKept`). -/
theorem session_kept (cfg : Cfg) (ua : Int) (es : List Event)
    (hok : Sys.Along (sessionStep cfg) (SessionOk cfg) (Session.probe ua) es) :
    ∃ os s', Sys.run (sessionStep cfg) (Session.probe ua) es = some (os, s') ∧
      Sys.Trace SessionKept (Session.probe ua) os s' := by
  obtain ⟨os, s', hrun, -, htrace⟩ := Sys.run_sim id
    (fun s e hi hp => session_step cfg hi hp) es (Session.probe ua) (probe_inv ua) hok
  exact ⟨os, s', hrun, htrace⟩

/-- Settings with a buck converter. -/
def cfgBuck : Cfg :=
  ⟨true, ⟨6000, 6500, 7000⟩, ⟨8500, 9000, 9500⟩, 90, 200, 1100, 300, 500, 500, 200, 1100000, 1100,
    500000, 500000, true⟩

/-- The init work without a charger. -/
def initOff : List Event :=
  List.replicate 5 (.init ⟨false, false, true, none, true, ⟨true, true⟩⟩)

/-- An attach whose output voltage can be set, or not. -/
def attach (voutOk : Bool) : Event := .pg true voutOk ⟨true, true⟩

def detach : Event := .pg false true ⟨true, true⟩

/-- A reading with the voltage of 10 W, and half a charge. -/
def fastEnv : Env := ⟨true, true, 9000, 50, none, none, ⟨true, true⟩⟩

/-- An attach, both authentications and the power switch to 10 W. -/
def fastSession : List Event :=
  initOff ++ [attach true, .intRead (some ⟨false, true, false, true⟩), .int, .int, .int, .int,
    .doAlgorithm true ⟨true, true⟩] ++ List.replicate 13 (.powerSwitch fastEnv)

/-- A detach while 10 W are charged, works that come after it, and the next attach. -/
theorem session_kept_fast :
    (Sys.run (sessionStep cfgBuck) (Session.probe 1100000) fastSession).map
      (fun q => (q.2.chip.chrType, q.2.chip.psyType)) = some (.wireless10w, .wireless10w) ∧
    ∃ os s', Sys.run (sessionStep cfgBuck) (Session.probe 1100000) (fastSession ++
        [.adaptive fastEnv, .adaptive fastEnv, .adaptive fastEnv, .adaptive fastEnv,
          .adaptive fastEnv, .adaptive fastEnv, detach, .powerSwitch fastEnv, .adaptive fastEnv,
          .stepCharging fastEnv, attach true]) = some (os, s') ∧
      Sys.Trace SessionKept (Session.probe 1100000) os s' :=
  ⟨by decide, session_kept cfgBuck 1100000 _ (by decide +kernel)⟩

/-- A power switch that has started when the charger is detached. -/
def switchDetached : List Event :=
  initOff ++ [attach true, .intRead (some ⟨false, true, false, true⟩), .int, .int, .int, .int,
    .doAlgorithm true ⟨true, true⟩, .powerSwitch ⟨false, false, 0, 50, none, none, ⟨true, true⟩⟩,
    detach] ++ List.replicate 4 (.powerSwitch ⟨false, false, 0, 50, none, none, ⟨true, true⟩⟩)

/-- An attach whose output voltage cannot be set leaves the charger online and not enabled, and a
power switch that runs on after the detach switches the chip's voltage. -/
theorem session_fails :
    (Sys.run (sessionStep cfgBuck) (Session.probe 1100000) (initOff ++ [attach false])).map
      (fun q => (q.2.settled, q.2.chip.online, q.2.chip.isEnabled)) = some (true, true, false) ∧
    (Sys.run (sessionStep cfgBuck) (Session.probe 1100000) switchDetached).map
      (fun q => (q.2.detached, q.1.getLast?.map Prod.snd)) =
        some (true, some [.voltage 6500]) := by
  decide

end Wpc
