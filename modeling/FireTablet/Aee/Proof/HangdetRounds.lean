import FireTablet.Aee.Hangdet
import Mathlib.Tactic.SplitIfs

/-!
# Rounds of the hang detector

In a run whose steps are `Undisturbed` the lock is free after every step, `kick_bit` holds the CPUs
whose kicks were counted since a kick last ended a round, and a CPU whose offline callback is
through is not checked (`detector_rounds`). A kick that comes while the detector is `stopped` is not
counted.
-/

namespace Aee.Hangdet

variable {nr : Nat} {s : Detector nr}

/-- The CPU for which an event counts a kick. -/
def counts (s : Detector nr) : Event nr → Option (Fin nr)
  | .kick cpu k now _ _ =>
    if (s.phase cpu).running ∧ k ∉ s.arming ∧ cpu ∈ s.wkTsk ∧ stopped s (now 0) = false then some k
    else none
  | _ => none

/-- No kick is counted between the two updates of an offline callback, and no suspend comes while
the function of the dump timer waits for the lock. -/
def Undisturbed (s : Detector nr) : Event nr → Prop
  | .kick cpu k now ktime counter =>
    counts s (.kick cpu k now ktime counter) ≠ none → ∀ c, s.phase c ≠ .downFlag
  | .suspend => s.waiting = false
  | _ => True

instance (s : Detector nr) (i : Event nr) : Decidable (Undisturbed s i) :=
  match i with
  | .kick cpu k now ktime counter => inferInstanceAs (Decidable
      (counts s (.kick cpu k now ktime counter) ≠ none → ∀ c, s.phase c ≠ .downFlag))
  | .suspend => inferInstanceAs (Decidable (s.waiting = false))
  | .arm .. | .expire | .timer _ | .cpuUp _ | .onlineFlag _ | .onlinePlug .. | .cpuDown _
  | .offlineFlag _ | .offlinePlug _ => isTrue trivial

/-- The CPUs with a counted kick, after one more step. -/
def countKick (kicked : Finset (Fin nr)) (o : Out nr) : Finset (Fin nr) :=
  if o.ended then ∅
  else match o.counted with
    | some k => insert k kicked
    | none => kicked

/-- The CPUs with a counted kick since a kick last ended a round. -/
def kickedSince (es : List (Event nr × Out nr)) : Finset (Fin nr) :=
  es.foldl (fun kicked e => countKick kicked e.2) ∅

/-- What an event shows after the kicks of the round so far. -/
structure Shows (kicked : Finset (Fin nr)) (s : Detector nr) (i : Event nr) (o : Out nr) :
    Prop where
  counted : o.counted = counts s i
  ended : o.ended = true ↔ ∃ k, o.counted = some k ∧ s.cpusKickBit ⊆ insert k kicked
  dump : ∀ now, i = .timer now → o.dump = true →
    s.hangDetected = true ∧ ∃ c ∈ s.cpusKickBit, c ∉ kicked

/-- The detector between steps. -/
structure Ok (kicked : Finset (Fin nr)) (s : Detector nr) : Prop where
  free : s.locked = false
  kick : s.kickBit = kicked
  plug : ∀ c, s.phase c = .offline → c ∉ s.plugMask
  check : ∀ c, s.phase c = .offline ∨ s.phase c = .downFlag → c ∉ s.cpusKickBit

/-! ## A kick -/

theorem localBit_eq (s : Detector nr) (cpu k : Fin nr) : localBit s cpu k = insert k s.kickBit := by
  rw [localBit]
  split_ifs with h1 h2
  · rfl
  · rw [not_not.1 h1] at h2
    rw [Finset.insert_eq_of_mem h2]
  · rw [not_not.1 h1]

/-- What a kick leaves, where `kickBit` and `counted` depend on whether it counts. -/
structure Kicked (s : Detector nr) (cpu : Fin nr) (bits : Finset (Fin nr)) (s' : Detector nr) :
    Prop where
  free : s'.locked = false
  kick : s'.kickBit = bits
  plug : s'.plugMask = s.plugMask
  phase : s'.phase = s.phase
  check : ∀ c, c ∉ s.plugMask → c ≠ cpu → c ∉ s.cpusKickBit → c ∉ s'.cpusKickBit

theorem not_mem_checkLoop {cpu c : Fin nr} (hp : c ∉ s.plugMask) (hc : c ≠ cpu)
    (hn : c ∉ s.cpusKickBit) : c ∉ checkLoop s cpu := by
  simp [checkLoop, hp, hc, hn]

/-- A kick that comes after the detector has stopped. -/
theorem kwdtProcessKick_stopped (cpu k : Fin nr) (int : UInt64) (r : UInt32) {now : Nat → UInt64}
    (hl : s.locked = true) (hs : stopped s (now 0) = true) :
    ∃ d s', kwdtProcessKick s cpu k int r now = some (⟨none, false, d⟩, s') ∧
      Kicked s cpu s.kickBit s' ∧ s'.cpusKickBit = s.cpusKickBit := by
  rw [kwdtProcessKick, if_pos hs]
  by_cases hc : (!s.aeeDumpTimerC) = true
  · rw [if_pos hc]
    refine ⟨true, { s with aeeDumpTimerC := true, locked := false }, by simp [spinUnlock, hl],
      ⟨rfl, rfl, rfl, rfl, fun _ _ _ h => h⟩, rfl⟩
  · rw [if_neg hc]
    refine ⟨false, { s with locked := false }, by simp [spinUnlock, hl, Out.quiet],
      ⟨rfl, rfl, rfl, rfl, fun _ _ _ h => h⟩, rfl⟩

/-- A kick that counts, and ends the round when it is the last one. -/
theorem kwdtProcessKick_counted (cpu k : Fin nr) (int : UInt64) (r : UInt32) {now : Nat → UInt64}
    (hl : s.locked = true) (hs : stopped s (now 0) = false) :
    ∃ s', kwdtProcessKick s cpu k int r now =
        some (⟨some k, decide (s.cpusKickBit ⊆ insert k s.kickBit), false⟩, s') ∧
      Kicked s cpu (if s.cpusKickBit ⊆ insert k s.kickBit then ∅ else insert k s.kickBit) s' := by
  rw [kwdtProcessKick, if_neg (by simp [hs])]
  simp only [localBit_eq]
  generalize findHang s cpu k int r (now 1) = hang
  set s1 : Detector nr := if s.cpusKickBit ⊆ insert k s.kickBit then endRound s (now 2)
    else { s with hangDetected := hang.1, kickBit := insert k s.kickBit } with hs1
  have h1 : s1.locked = true ∧ s1.plugMask = s.plugMask ∧ s1.phase = s.phase ∧
      s1.cpusKickBit = s.cpusKickBit ∧ s1.kickBit =
        if s.cpusKickBit ⊆ insert k s.kickBit then ∅ else insert k s.kickBit := by
    rw [hs1]
    split_ifs <;> exact ⟨hl, rfl, rfl, rfl, rfl⟩
  obtain ⟨hl1, hp1, hph1, hc1, hk1⟩ := h1
  set s2 := skipMigrated { s1 with cpusKickBit := checkLoop s1 cpu } cpu k with hs2
  have h2 : s2.locked = s1.locked ∧ s2.plugMask = s1.plugMask ∧ s2.phase = s1.phase ∧
      s2.kickBit = s1.kickBit ∧ s2.cpusKickBit ⊆ checkLoop s1 cpu := by
    rw [hs2, skipMigrated]
    split_ifs
    · exact ⟨rfl, rfl, rfl, rfl, Finset.erase_subset ..⟩
    · exact ⟨rfl, rfl, rfl, rfl, Finset.Subset.refl _⟩
  obtain ⟨hl2, hp2, hph2, hk2, hc2⟩ := h2
  simp only [spinUnlock, hl2, hl1, if_true, Option.bind_eq_bind, Option.bind_some]
  refine ⟨_, rfl, ?_⟩
  have hkicked : Kicked s cpu (if s.cpusKickBit ⊆ insert k s.kickBit then ∅ else insert k s.kickBit)
      { s2 with locked := false } := by
    refine ⟨rfl, hk2.trans hk1, hp2.trans hp1, hph2.trans hph1, fun c hp hc hn hmem => ?_⟩
    exact not_mem_checkLoop (hp1 ▸ hp) hc (hc1 ▸ hn) (hc2 hmem)
  split_ifs at hkicked ⊢ <;> exact ⟨rfl, hkicked.kick, hkicked.plug, hkicked.phase, hkicked.check⟩

/-- **A round of a kicker thread** counts what `counts` says, and ends the round exactly when with
it every checked CPU has kicked. -/
theorem kick_shows {kicked : Finset (Fin nr)} (hok : Ok kicked s) {cpu k : Fin nr}
    {now ktime : Nat → UInt64} {counter : Option UInt32}
    (hrun : (s.phase cpu).running = true ∧ k ∉ s.arming)
    (hu : counts s (.kick cpu k now ktime counter) ≠ none → ∀ c, s.phase c ≠ .downFlag) :
    ∃ o s', kwdtThread s cpu k now ktime counter = some (o, s') ∧ Ok (countKick kicked o) s' ∧
      Shows kicked s (.kick cpu k now ktime counter) o := by
  have hcpu (c : Fin nr) (hc : s.phase c = .offline) : c ≠ cpu := by
    rintro rfl
    rw [hc] at hrun
    exact absurd hrun.1 (by decide)
  unfold kwdtThread
  simp only [spinLock, hok.free, Bool.false_eq_true, if_false, Option.bind_eq_bind,
    Option.bind_some]
  by_cases hw : cpu ∈ s.wkTsk
  swap
  · rw [if_neg hw]
    refine ⟨.quiet, { s with locked := false }, rfl, ⟨rfl, hok.kick, hok.plug, hok.check⟩, ?_⟩
    exact ⟨by simp [counts, hw, Out.quiet], by simp [Out.quiet], fun _ h => by cases h⟩
  rw [if_pos hw]
  -- the thread's own interval changes nothing that the kick records
  have hint : ∃ n int, (if s.kickBit ∩ s.cpusKickBit = ∅ then
        ({ s with locked := true, nxtKickTime := ktime 0 + kintervalUs }, kintervalUs)
      else ({ s with locked := true }, s.nxtKickTime - ktime 0)) =
        ({ s with locked := true, nxtKickTime := n }, int) := by
    split_ifs
    · exact ⟨_, _, rfl⟩
    · exact ⟨s.nxtKickTime, _, rfl⟩
  obtain ⟨n, int, hint⟩ := hint
  rw [hint]
  simp only
  set s1 : Detector nr := { s with locked := true, nxtKickTime := n } with hs1
  generalize (if int > kintervalUs then kintervalUs else int) = int'
  generalize rCounter counter = r
  have hok' {s' : Detector nr} {bits : Finset (Fin nr)} (hk : Kicked s1 cpu bits s')
      (hc : (∀ c, s.phase c ≠ .downFlag) ∨ s'.cpusKickBit = s.cpusKickBit) : Ok bits s' := by
    refine ⟨hk.free, hk.kick, fun c h => ?_, fun c h => ?_⟩
    · rw [hk.plug]
      exact hok.plug c (hk.phase ▸ h)
    · rw [hk.phase] at h
      rcases hc with hc | hc
      · have hoff := h.resolve_right (hc c)
        exact hk.check c (hok.plug c hoff) (hcpu c hoff) (hok.check c h)
      · rw [hc]
        exact hok.check c h
  have hs : stopped s1 (now 0) = stopped s (now 0) := rfl
  have hkb : s1.kickBit = kicked := hok.kick
  cases hst : stopped s (now 0) with
  | true =>
    obtain ⟨d, s', h, hk, hc⟩ := kwdtProcessKick_stopped cpu k int' r rfl (hs.trans hst)
    refine ⟨_, s', h, ?_, ?_⟩
    · have := hok' hk (.inr hc)
      rwa [hkb] at this
    · exact ⟨by simp [counts, hst], by simp, fun _ h => by cases h⟩
  | false =>
    obtain ⟨s', h, hk⟩ := kwdtProcessKick_counted cpu k int' r rfl (hs.trans hst)
    have hcounts : counts s (.kick cpu k now ktime counter) = some k := by
      simp [counts, hst, hw, hrun.1, hrun.2]
    rw [hkb] at h hk
    refine ⟨_, s', h, ?_, ?_⟩
    · have := hok' hk (.inl (hu (by simp [hcounts])))
      simpa [countKick, s1] using this
    · exact ⟨hcounts.symm, by simp [s1], fun _ h => by cases h⟩

/-! ## The other steps -/

/-- A step that counts no kick. -/
theorem shows_quiet (kicked : Finset (Fin nr)) {i : Event nr} (hi : counts s i = none)
    (ht : ∀ now, i ≠ .timer now) : Shows kicked s i .quiet :=
  ⟨hi.symm, by simp [Out.quiet], fun now h => absurd h (ht now)⟩

/-- A change of what the invariant does not read. -/
theorem Ok.same {kicked : Finset (Fin nr)} (hok : Ok kicked s) {s' : Detector nr}
    (hl : s'.locked = false) (hk : s'.kickBit = s.kickBit) (hp : s'.plugMask = s.plugMask)
    (hc : s'.cpusKickBit = s.cpusKickBit) (hph : s'.phase = s.phase) : Ok kicked s' :=
  ⟨hl, hk.trans hok.kick, fun c h => hp ▸ hok.plug c (hph ▸ h),
    fun c h => hc ▸ hok.check c (hph ▸ h)⟩

/-- A CPU goes to another phase, with what that phase asks of the masks. -/
theorem Ok.setPhase {kicked : Finset (Fin nr)} (hok : Ok kicked s) (cpu : Fin nr) (p : Phase)
    {s' : Detector nr} (hl : s'.locked = false) (hk : s'.kickBit = s.kickBit)
    (hph : s'.phase = s.phase) (hp : ∀ c, c ≠ cpu → c ∈ s'.plugMask → c ∈ s.plugMask)
    (hc : s'.cpusKickBit ⊆ s.cpusKickBit) (hcpu : p = .offline → cpu ∉ s'.plugMask)
    (hcpu' : p = .offline ∨ p = .downFlag → cpu ∉ s'.cpusKickBit) :
    Ok kicked (s'.setPhase cpu p) := by
  have hphase (c : Fin nr) : (s'.setPhase cpu p).phase c = if c = cpu then p else s.phase c := by
    rw [Detector.setPhase, ← hph]
    exact Function.update_apply ..
  refine ⟨hl, hk.trans hok.kick, fun c h => ?_, fun c h => ?_⟩
  · rw [hphase] at h
    split_ifs at h with he
    · exact he ▸ hcpu h
    · exact fun hm => hok.plug c h (hp c he hm)
  · rw [hphase] at h
    split_ifs at h with he
    · exact he ▸ hcpu' h
    · exact fun hm => hok.check c h (hc hm)

/-- **The dump timer** dumps when a hang is pending and a checked CPU has not kicked. -/
theorem timer_shows {kicked : Finset (Fin nr)} (hok : Ok kicked s) (now : Nat → UInt64) :
    ∃ d s', aeeDumpTimerFunc s now = some (d, s') ∧ Ok kicked s' ∧
      (d = true → s.hangDetected = true ∧ ∃ c ∈ s.cpusKickBit, c ∉ kicked) := by
  unfold aeeDumpTimerFunc
  simp only [spinLock, hok.free, Bool.false_eq_true, if_false, Option.bind_eq_bind,
    Option.bind_some]
  split_ifs with h1 h2 h3 h4
  · exact ⟨false, _, rfl, hok.same rfl rfl rfl rfl rfl, fun h => by cases h⟩
  · exact ⟨false, _, rfl, hok.same rfl rfl rfl rfl rfl, fun h => by cases h⟩
  · exact ⟨false, _, rfl, hok.same rfl rfl rfl rfl rfl, fun h => by cases h⟩
  · exact ⟨false, _, rfl, hok.same rfl rfl rfl rfl rfl, fun h => by cases h⟩
  · refine ⟨true, _, rfl, hok.same rfl rfl rfl rfl rfl, fun _ => ?_⟩
    rw [not_or, Bool.not_eq_true', Bool.not_eq_false, Finset.inter_eq_right, hok.kick] at h4
    exact ⟨h4.1, Finset.not_subset.1 h4.2⟩

/-- **One step** of the detector. -/
theorem step_shows {kicked : Finset (Fin nr)} (hok : Ok kicked s) (i : Event nr)
    (hu : Undisturbed s i) :
    ∃ o s', step s i = some (o, s') ∧ Ok (countKick kicked o) s' ∧ Shows kicked s i o := by
  have hidle (hi : counts s i = none) (ht : ∀ now, i ≠ .timer now) {s' : Detector nr}
      (h : Ok kicked s') : ∃ o t, some (Out.quiet, s') = some (o, t) ∧ Ok (countKick kicked o) t ∧
        Shows kicked s i o := ⟨.quiet, s', rfl, h, shows_quiet kicked hi ht⟩
  cases i with
  | kick cpu k now ktime counter =>
    rw [step]
    split_ifs with h
    · exact kick_shows hok h hu
    · exact hidle (if_neg fun hc => h ⟨hc.1, hc.2.1⟩) (fun _ h => by cases h) hok
  | arm k now =>
    have hq := @hidle rfl (fun _ h => by cases h)
    rw [step]
    split_ifs with h
    · rw [armDumpTimer]
      simp only [spinLock, hok.free, Bool.false_eq_true, if_false, Option.bind_eq_bind,
        Option.bind_some]
      split_ifs
      · exact hq (hok.same rfl rfl rfl rfl rfl)
      · exact hq (hok.same rfl rfl rfl rfl rfl)
    · exact hq hok
  | expire =>
    have hq := @hidle rfl (fun _ h => by cases h)
    rw [step]
    split_ifs
    · exact hq (hok.same hok.free rfl rfl rfl rfl)
    · exact hq hok
  | timer now =>
    rw [step]
    split_ifs with h
    · obtain ⟨d, s', ht, hok', hd⟩ := timer_shows hok now
      exact ⟨⟨none, false, d⟩, s', by rw [ht]; rfl, hok', rfl, by simp, fun _ _ => hd⟩
    · exact ⟨.quiet, s, rfl, hok, rfl, by simp [Out.quiet], fun _ _ h => by cases h⟩
  | cpuUp cpu =>
    have hq := @hidle rfl (fun _ h => by cases h)
    rw [step]
    split_ifs
    · exact hq (hok.setPhase cpu .up hok.free rfl rfl (fun _ _ => id) (Finset.Subset.refl _)
        (fun h => by cases h) (fun h => by simp at h))
    · exact hq hok
  | onlineFlag cpu =>
    have hq := @hidle rfl (fun _ h => by cases h)
    rw [step]
    split_ifs
    · simp only [wkCpuUpdateBitFlag, spinLock, hok.free, Bool.false_eq_true, if_false, if_true,
        Option.bind_eq_bind, Option.bind_some]
      exact hq (hok.setPhase cpu .upFlag rfl rfl rfl (fun _ _ => id) (Finset.Subset.refl _)
        (fun h => by cases h) (fun h => by simp at h))
    · exact hq hok
  | onlinePlug cpu now =>
    have hq := @hidle rfl (fun _ h => by cases h)
    rw [step]
    split_ifs
    · exact hq (hok.setPhase cpu .online hok.free rfl rfl
        (fun c hc hm => Finset.mem_of_mem_insert_of_ne hm hc) (Finset.Subset.refl _)
        (fun h => by cases h) (fun h => by simp at h))
    · exact hq hok
  | cpuDown cpu =>
    have hq := @hidle rfl (fun _ h => by cases h)
    rw [step]
    split_ifs
    · exact hq (hok.setPhase cpu .down hok.free rfl rfl (fun _ _ => id) (Finset.Subset.refl _)
        (fun h => by cases h) (fun h => by simp at h))
    · exact hq hok
  | offlineFlag cpu =>
    have hq := @hidle rfl (fun _ h => by cases h)
    rw [step]
    split_ifs
    · simp only [wkCpuUpdateBitFlag, spinLock, hok.free, Bool.false_eq_true, if_false,
        Option.bind_eq_bind, Option.bind_some]
      exact hq (hok.setPhase cpu .downFlag rfl rfl rfl (fun _ _ => id) (Finset.erase_subset ..)
        (fun h => by cases h) (fun _ => Finset.notMem_erase cpu s.cpusKickBit))
    · exact hq hok
  | offlinePlug cpu =>
    have hq := @hidle rfl (fun _ h => by cases h)
    rw [step]
    split_ifs with h
    · exact hq (hok.setPhase cpu .offline hok.free rfl rfl (fun c _ => Finset.mem_of_mem_erase)
        (Finset.Subset.refl _) (fun _ => Finset.notMem_erase cpu s.plugMask)
        (fun _ => hok.check cpu (.inr h)))
    · exact hq hok
  | suspend =>
    have hq := @hidle rfl (fun _ h => by cases h)
    have hw : s.waiting = false := hu
    simp only [step, wdtPmSuspend, spinLock, hok.free, Bool.false_eq_true, if_false,
      Option.bind_eq_bind, Option.bind_some, hw]
    exact hq (hok.same rfl rfl rfl rfl rfl)

/-! ## Runs -/

theorem init_ok (online : Finset (Fin nr)) : Ok ∅ (.init online) := by
  have hp (c : Fin nr) :
      (Detector.init online).phase c = if c ∈ online then .online else .offline := rfl
  refine ⟨rfl, rfl, fun c h hm => ?_, fun c h hm => ?_⟩
  · have hm : c ∈ online := hm
    rw [hp, if_pos hm] at h
    cases h
  · have hm : c ∈ online := hm
    rw [hp, if_pos hm] at h
    simp at h

/-- **Rounds of the hang detector**: in an undisturbed run the lock is free after every step, the
kick bits are those of the CPUs whose kicks were counted since the round began, a CPU whose offline
callback is through is not checked, and every next step shows what `Shows` says. -/
theorem detector_rounds (online : Finset (Fin nr)) (is : List (Event nr))
    (h : Sys.Along step Undisturbed (.init online) is) :
    ∃ es s', Sys.run step (.init online) is = some (es, s') ∧ s'.locked = false ∧
      s'.kickBit = kickedSince es ∧ (∀ c, s'.phase c = .offline → c ∉ s'.cpusKickBit) ∧
      ∀ i, Undisturbed s' i → ∃ o s'', step s' i = some (o, s'') ∧ s''.locked = false ∧
        Shows (kickedSince es) s' i o := by
  obtain ⟨es, s', hrun, hok⟩ := Sys.run_hist_along (I := fun es s => Ok (kickedSince es) s)
    (P := Undisturbed) (fun es s i hok hu => by
      obtain ⟨o, s', h, hok', -⟩ := step_shows hok i hu
      refine ⟨o, s', h, ?_⟩
      rwa [kickedSince, List.foldl_append]) is [] (.init online) (init_ok online) h
  refine ⟨es, s', hrun, hok.free, hok.kick, fun c hc => hok.check c (.inl hc), fun i hu => ?_⟩
  obtain ⟨o, s'', h, hok', hs⟩ := step_shows hok i hu
  exact ⟨o, s'', h, hok'.free, hs⟩

/-- Two CPUs: a round, then a hang of CPU 1 while its timer is armed, and CPU 1 taken offline. -/
theorem detector_rounds_two :
    let is : List (Event 2) := [.kick 0 0 (fun _ => 1) (fun _ => 0) none,
      .kick 1 1 (fun _ => 2) (fun _ => 0) none, .kick 0 0 (fun _ => 3) (fun _ => 0) none,
      .kick 0 0 (fun _ => 20000000000) (fun _ => 0) none, .arm 0 20000000000, .expire,
      .timer (fun _ => 28000000001), .cpuDown 1, .offlineFlag 1, .offlinePlug 1]
    ∃ es s', Sys.run step (.init {0, 1}) is = some (es, s') ∧ s'.locked = false ∧
      s'.kickBit = kickedSince es ∧ (∀ c, s'.phase c = .offline → c ∉ s'.cpusKickBit) ∧
      ∀ i, Undisturbed s' i → ∃ o s'', step s' i = some (o, s'') ∧ s''.locked = false ∧
        Shows (kickedSince es) s' i o :=
  detector_rounds {0, 1} _ (by decide +kernel)

/-- A kick of CPU 1 after the detector has stopped is not counted; a kick between the updates of an
offline callback brings the CPU's check back; and a suspend while the timer's function waits for the
lock does not come back. -/
theorem detector_disturbed :
    ((Sys.run step (.init {0, 1} : Detector 2) [.kick 0 0 (fun _ => 1) (fun _ => 0) none,
      .kick 0 0 (fun _ => 20000000000) (fun _ => 0) none, .arm 0 20000000000, .expire,
      .timer (fun _ => 28000000001), .kick 1 1 (fun _ => 34000000000) (fun _ => 0) none]).map
        fun q => (q.1.map fun e => (e.2.counted, e.2.ended), q.2.cpusKickBit, q.2.kickBit)) =
      some ([(some 0, false), (some 0, false), (none, false), (none, false), (none, false),
        (none, false)], {0, 1}, {0}) ∧
    ((Sys.run step (.init {0, 1} : Detector 2) [.cpuDown 1, .offlineFlag 1,
      .kick 0 0 (fun _ => 1) (fun _ => 0) none, .offlinePlug 1]).map
        fun q => (q.2.phase 1, q.2.cpusKickBit)) = some (.offline, {0, 1}) ∧
    (Sys.run step (.init {0, 1} : Detector 2) [.kick 0 0 (fun _ => 1) (fun _ => 0) none,
      .kick 0 0 (fun _ => 20000000000) (fun _ => 0) none, .arm 0 20000000000, .expire,
      .suspend]).isNone := by
  decide +kernel

end Aee.Hangdet
