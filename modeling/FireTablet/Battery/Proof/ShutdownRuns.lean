import FireTablet.Battery.Shutdown

/-!
# What the shutdown controller keeps

`Ran` says what one run of the handler can do, and `ran` that it does nothing else; everything
below is derived from it. The invariant of a history (`Watched`) is about the three times: a charge
condition that is set has been set at every event since its time, and while the time of a displayed
charge of 0 runs, every run since then saw a battery that may be switched off.
-/

namespace Battery.Shutdown

/-- The charge conditions are at most cleared. -/
def Sdc.clear (s : Sdc) (soc uisoc : Bool) : Sdc :=
  { s with
    isSocZeroPercent := soc && s.isSocZeroPercent
    isUisocOnePercent := uisoc && s.isUisocOnePercent }

/-- The outcomes of a run of the handler. -/
inductive Ran (r : Reading) (s : Sdc) : Option Cause × Int × Sdc → Prop
  | socZero (secs : Int) : s.isSocZeroPercent = true → r.uiSoc = 0 →
      shutdownTime ≤ tvSec (r.now - s.preSoc) → Ran r s (some .socZero, secs, s)
  | uisocOne (secs : Int) (a : Bool) : s.isUisocOnePercent = true → r.uiSoc = 0 →
      shutdownTime ≤ tvSec (r.now - s.preUisoc) → Ran r s (some .uisocOne, secs, s.clear a true)
  | cleared : s.isUisocOnePercent = true → r.uiSoc ≠ 0 → 0 < r.nowCurrent → 0 < r.soc →
      Ran r s (none, 0, s.clear false false)
  | dlpt (a : Bool) : s.isDlptShutdown = true →
      shutdownTime ≤ tvSec (r.now - s.preDlpt) → Ran r s (none, 10, s.clear a true)
  | unwatched (polling : Int) (a : Bool) : s.isUnderShutdownVoltage = false →
      ((s.clear a true).Pending → 0 < polling) →
      Ran r s (none, nextWaketime polling, s.clear a true)
  | off (secs : Int) (a : Bool) : s.isUnderShutdownVoltage = true →
      (sampleVbat r (s.clear a true)).avgvbat < batVoltageLowBound → r.uiSoc = 0 →
      shutdownTime ≤ tvSec (r.now - (noteLowAverage r (sampleVbat r (s.clear a true))).preVolt) →
      Ran r s (some .lowBat, secs, noteLowAverage r (sampleVbat r (s.clear a true)))
  | low (a : Bool) : s.isUnderShutdownVoltage = true →
      (sampleVbat r (s.clear a true)).avgvbat < batVoltageLowBound →
      Ran r s (none, 10,
        { noteLowAverage r (sampleVbat r (s.clear a true)) with batidx := s.batidx + 1 })
  | high (a : Bool) : s.isUnderShutdownVoltage = true →
      batVoltageLowBound ≤ (sampleVbat r (s.clear a true)).avgvbat →
      Ran r s (none, 10,
        { sampleVbat r (s.clear a true) with
          downToLowBat := false
          uiZeroTimeFlag := false
          preVolt := 0
          lowbatteryshutdown := false
          batidx := s.batidx + 1 })

/-! ## One run -/

theorem Sdc.clear_true (s : Sdc) : s.clear true true = s := by
  simp [Sdc.clear]

theorem nextWaketime_pos {polling : Int} (h : 0 < polling) : nextWaketime polling = 10 :=
  if_neg (by omega)

/-- Below the bound only four fields change: the time starts at the first displayed charge of 0. -/
theorem noteLowAverage_eq (r : Reading) (s : Sdc) :
    noteLowAverage r s = { s with
      lowbatteryshutdown := true
      downToLowBat := s.downToLowBat || decide (5 ≤ r.tmp) || decide (s.avgvbat ≤ 3350)
      preVolt := if r.uiSoc = 0 ∧ ¬ s.uiZeroTimeFlag = true then r.later else s.preVolt
      uiZeroTimeFlag := s.uiZeroTimeFlag || decide (r.uiSoc = 0) } := by
  unfold noteLowAverage
  by_cases hc : r.uiSoc = 0 ∧ ¬ s.uiZeroTimeFlag = true
  · simp [hc.1, hc.2]
  · by_cases hui : r.uiSoc = 0
    · have hf : s.uiZeroTimeFlag = true := by
        by_contra hf
        exact hc ⟨hui, hf⟩
      simp [hui, hf]
    · simp [hui]

theorem socZeroCheck_cases (r : Reading) (s : Sdc) :
    (s.isSocZeroPercent = true ∧ r.uiSoc = 0 ∧ shutdownTime ≤ tvSec (r.now - s.preSoc) ∧
      socZeroCheck r 0 s = .ret (some .socZero) (nextWaketime 1) s) ∨
    ∃ (a : Bool) (polling : Int), 0 ≤ polling ∧
      ((s.clear a true).isSocZeroPercent = true → 0 < polling) ∧
      (r.uiSoc ≠ 0 → 0 < r.soc → s.clear a true = s.clear false true) ∧
      socZeroCheck r 0 s = .next polling (s.clear a true) := by
  unfold socZeroCheck
  by_cases hz : s.isSocZeroPercent = true
  · rw [if_pos hz]
    by_cases hui : r.uiSoc = 0
    · rw [if_pos hui]
      by_cases ht : shutdownTime ≤ tvSec (r.now - s.preSoc)
      · exact Or.inl ⟨hz, hui, ht, if_pos ht⟩
      · refine Or.inr ⟨true, 1, by decide, fun _ => by decide, fun h => absurd hui h, ?_⟩
        rw [if_neg ht, s.clear_true]
        rfl
    · rw [if_neg hui]
      by_cases hs : 0 < r.soc
      · refine Or.inr ⟨false, 0, Int.le_refl _, nofun, fun _ _ => rfl, ?_⟩
        rw [if_pos hs]
        simp [Sdc.clear]
      · refine Or.inr ⟨true, 1, by decide, fun _ => by decide, fun _ h => absurd h hs, ?_⟩
        rw [if_neg hs, s.clear_true]
        rfl
  · refine Or.inr ⟨true, 0, Int.le_refl _, fun h => ?_, fun _ _ => ?_, ?_⟩
    · rw [s.clear_true] at h
      exact absurd h hz
    · simp [Sdc.clear, hz]
    · rw [if_neg hz, s.clear_true]

theorem uisocOneCheck_cases (r : Reading) (polling : Int) (s : Sdc) (hp : 0 ≤ polling) :
    (s.isUisocOnePercent = true ∧ r.uiSoc = 0 ∧ shutdownTime ≤ tvSec (r.now - s.preUisoc) ∧
      uisocOneCheck r polling s = .ret (some .uisocOne) (nextWaketime polling) s) ∨
    (s.isUisocOnePercent = true ∧ r.uiSoc ≠ 0 ∧ 0 < r.nowCurrent ∧ 0 < r.soc ∧
      uisocOneCheck r polling s = .ret none 0 (s.clear true false)) ∨
    ∃ polling', polling ≤ polling' ∧ (s.isUisocOnePercent = true → 0 < polling') ∧
      uisocOneCheck r polling s = .next polling' s := by
  unfold uisocOneCheck
  by_cases ho : s.isUisocOnePercent = true
  · rw [if_pos ho]
    by_cases hui : r.uiSoc = 0
    · rw [if_pos hui]
      by_cases ht : shutdownTime ≤ tvSec (r.now - s.preUisoc)
      · exact Or.inl ⟨ho, hui, ht, if_pos ht⟩
      · exact Or.inr (Or.inr ⟨polling + 1, by omega, fun _ => by omega, if_neg ht⟩)
    · rw [if_neg hui]
      by_cases hc : 0 < r.nowCurrent ∧ 0 < r.soc
      · refine Or.inr (Or.inl ⟨ho, hui, hc.1, hc.2, ?_⟩)
        rw [if_pos hc]
        simp [Sdc.clear, nextWaketime]
      · exact Or.inr (Or.inr ⟨polling + 1, by omega, fun _ => by omega, if_neg hc⟩)
  · exact Or.inr (Or.inr ⟨polling, Int.le_refl _, fun h => absurd h ho, if_neg ho⟩)

theorem dlptCheck_cases (r : Reading) (polling : Int) (s : Sdc) (hp : 0 ≤ polling) :
    (s.isDlptShutdown = true ∧ shutdownTime ≤ tvSec (r.now - s.preDlpt) ∧
      dlptCheck r polling s = .ret none 10 s) ∨
    ∃ polling', polling ≤ polling' ∧ (s.isDlptShutdown = true → 0 < polling') ∧
      dlptCheck r polling s = .next polling' s := by
  unfold dlptCheck
  by_cases hd : s.isDlptShutdown = true
  · rw [if_pos hd]
    by_cases ht : shutdownTime ≤ tvSec (r.now - s.preDlpt)
    · refine Or.inl ⟨hd, ht, ?_⟩
      rw [if_pos ht, nextWaketime_pos (by omega)]
    · exact Or.inr ⟨polling + 1, by omega, fun _ => by omega, if_neg ht⟩
  · exact Or.inr ⟨polling, Int.le_refl _, fun h => absurd h hd, if_neg hd⟩

/-- The voltage is looked at last. -/
theorem ran_voltage {r : Reading} {s : Sdc} (a : Bool) (polling : Int)
    {out : Option Cause × Int × Sdc} (hp : 0 ≤ polling)
    (hpend : s.isUnderShutdownVoltage = false → (s.clear a true).Pending → 0 < polling)
    (h : out = match underVoltageCheck r polling (s.clear a true) with
      | .ret off secs s => (off, secs, s)
      | .next polling s => (none, nextWaketime polling, s)) : Ran r s out := by
  unfold underVoltageCheck at h
  have hu : (s.clear a true).isUnderShutdownVoltage = s.isUnderShutdownVoltage := rfl
  rw [hu] at h
  by_cases harm : s.isUnderShutdownVoltage = true
  · rw [if_pos harm] at h
    by_cases havg : (sampleVbat r (s.clear a true)).avgvbat < batVoltageLowBound
    · rw [if_pos havg] at h
      by_cases hoff : r.uiSoc = 0 ∧ shutdownTime ≤
          tvSec (r.now - (noteLowAverage r (sampleVbat r (s.clear a true))).preVolt)
      · rw [if_pos hoff] at h
        subst h
        exact .off _ a harm havg hoff.1 hoff.2
      · rw [if_neg hoff] at h
        simp only [nextWaketime_pos (show 0 < polling + 2 by omega)] at h
        subst h
        have hidx : (noteLowAverage r (sampleVbat r (s.clear a true))).batidx = s.batidx := by
          rw [noteLowAverage_eq]
          rfl
        rw [hidx]
        exact .low a harm havg
    · rw [if_neg havg] at h
      simp only [nextWaketime_pos (show 0 < polling + 2 by omega)] at h
      subst h
      exact .high a harm (by omega)
  · rw [if_neg harm] at h
    subst h
    have harm : s.isUnderShutdownVoltage = false := by simpa using harm
    exact .unwatched polling a harm (hpend harm)

/-- The handler does one of these things. -/
theorem ran (r : Reading) (s : Sdc) : Ran r s (shutdownEventHandler r s) := by
  unfold shutdownEventHandler
  obtain ⟨hz, hui, ht, he⟩ | ⟨a, p1, hp1, hpoll1, hclear, he⟩ := socZeroCheck_cases r s
  · rw [he]
    exact .socZero _ hz hui ht
  rw [he]
  simp only [Flow.bind]
  obtain ⟨ho, hui, ht, he⟩ | ⟨ho, hui, hc, hs, he⟩ | ⟨p2, hp2, hpoll2, he⟩ :=
    uisocOneCheck_cases r p1 (s.clear a true) hp1
  · rw [he]
    exact .uisocOne _ a (by simpa [Sdc.clear] using ho) hui ht
  · rw [he, hclear hui hs]
    have hcc : (s.clear false true).clear true false = s.clear false false := by
      simp [Sdc.clear]
    simp only [hcc]
    exact .cleared (by simpa [Sdc.clear] using ho) hui hc hs
  rw [he]
  simp only
  obtain ⟨hd, ht, he⟩ | ⟨p3, hp3, hpoll3, he⟩ := dlptCheck_cases r p2 (s.clear a true) (by omega)
  · rw [he]
    exact .dlpt a hd ht
  rw [he]
  refine ran_voltage a p3 (by omega) (fun hun hpend => ?_) rfl
  rcases hpend with hz | ho | hv | hd
  · have := hpoll1 hz
    omega
  · have := hpoll2 ho
    omega
  · exact absurd (show s.isUnderShutdownVoltage = true from hv) (by simp [hun])
  · exact hpoll3 hd

/-! ## The invariant of a history -/

/-- What holds of the controller after the events `pre`. -/
structure Watched (pre : List Seen) (x : Ctl) : Prop where
  past : ∀ q ∈ pre, q.time ≤ x.clock
  soc : x.sdc.isSocZeroPercent = true → ∀ q ∈ pre, x.sdc.preSoc < q.time → q.socSet = true
  uisoc : x.sdc.isUisocOnePercent = true → ∀ q ∈ pre, x.sdc.preUisoc < q.time → q.uisocSet = true
  volt : x.sdc.uiZeroTimeFlag = true → x.sdc.isUnderShutdownVoltage = true ∧
    x.sdc.windowAvg < batVoltageLowBound ∧ ∀ q ∈ pre, x.sdc.preVolt < q.time → q.LowRun

/-- Forty seconds since a time are more than the time of a recent event. -/
theorem recent_lt {q : Seen} {now start : Int} (hq : q.Recent now)
    (ht : shutdownTime ≤ tvSec (now - start)) : start < q.time := by
  unfold Seen.Recent shutdownTime at *
  unfold tvSec at ht
  omega

theorem sampleVbat_avg {r : Reading} {s : Sdc}
    (h : CInt.IsI32 (sampleVbat r s).batdata.toList.sum) :
    (sampleVbat r s).avgvbat = (sampleVbat r s).windowAvg :=
  congrArg (Int.tdiv · 30) (CInt.i32_eq h)

/-- What one event must do for the invariant. -/
theorem Watched.snoc {pre : List Seen} {x x' : Ctl} {q : Seen} (h : Watched pre x)
    (hclock : x.clock ≤ q.time) (hlater : q.time ≤ x'.clock)
    (hsoc : x'.sdc.isSocZeroPercent = true →
      (x.sdc.isSocZeroPercent = true ∧ q.socSet = true ∧ x'.sdc.preSoc = x.sdc.preSoc) ∨
        q.time ≤ x'.sdc.preSoc)
    (huisoc : x'.sdc.isUisocOnePercent = true →
      (x.sdc.isUisocOnePercent = true ∧ q.uisocSet = true ∧ x'.sdc.preUisoc = x.sdc.preUisoc) ∨
        q.time ≤ x'.sdc.preUisoc)
    (hvolt : x'.sdc.uiZeroTimeFlag = true → x'.sdc.isUnderShutdownVoltage = true ∧
      x'.sdc.windowAvg < batVoltageLowBound ∧
      ((x.sdc.uiZeroTimeFlag = true ∧ q.LowRun ∧ x'.sdc.preVolt = x.sdc.preVolt) ∨
        q.time ≤ x'.sdc.preVolt)) : Watched (pre ++ [q]) x' where
  past := by
    refine List.forall_mem_append.2 ⟨fun p hp => ?_, List.forall_mem_singleton.2 hlater⟩
    have := h.past p hp
    omega
  soc hs := by
    refine List.forall_mem_append.2 ⟨fun p hp hlt => ?_, List.forall_mem_singleton.2 fun hlt => ?_⟩
    · have := h.past p hp
      rcases hsoc hs with ⟨hs', -, he⟩ | hle
      · exact h.soc hs' p hp (he ▸ hlt)
      · omega
    · rcases hsoc hs with ⟨-, hq, -⟩ | hle
      · exact hq
      · omega
  uisoc hs := by
    refine List.forall_mem_append.2 ⟨fun p hp hlt => ?_, List.forall_mem_singleton.2 fun hlt => ?_⟩
    · have := h.past p hp
      rcases huisoc hs with ⟨hs', -, he⟩ | hle
      · exact h.uisoc hs' p hp (he ▸ hlt)
      · omega
    · rcases huisoc hs with ⟨-, hq, -⟩ | hle
      · exact hq
      · omega
  volt hf := by
    obtain ⟨harm, havg, hcase⟩ := hvolt hf
    refine ⟨harm, havg, List.forall_mem_append.2 ⟨fun p hp hlt => ?_,
      List.forall_mem_singleton.2 fun hlt => ?_⟩⟩
    · have := h.past p hp
      rcases hcase with ⟨hf', -, he⟩ | hle
      · exact (h.volt hf').2.2 p hp (he ▸ hlt)
      · omega
    · rcases hcase with ⟨-, hq, -⟩ | hle
      · exact hq
      · omega

/-! ## One run keeps it -/

/-- What is noted of a run. -/
def runNote (r : Reading) (s : Sdc) (out : Option Cause × Int × Sdc) : Seen :=
  ⟨r.now, s.isSocZeroPercent, s.isUisocOnePercent, out.1, some (r, s, out.2.2, out.2.1)⟩

theorem runNote_lowRun {r : Reading} {s : Sdc} (out : Option Cause × Int × Sdc)
    (harm : s.isUnderShutdownVoltage = true) (havg : out.2.2.windowAvg < batVoltageLowBound)
    (hui : r.uiSoc = 0) : (runNote r s out).LowRun :=
  ⟨harm, havg, hui⟩

/-- What a run leaves of the time of a displayed charge of 0, if it leaves it running. -/
def TimeKept (r : Reading) (s : Sdc) (out : Option Cause × Int × Sdc) : Prop :=
  out.2.2.uiZeroTimeFlag = true → out.2.2.isUnderShutdownVoltage = true ∧
    out.2.2.windowAvg < batVoltageLowBound ∧
    ((s.uiZeroTimeFlag = true ∧ (runNote r s out).LowRun ∧ out.2.2.preVolt = s.preVolt) ∨
      r.later ≤ out.2.2.preVolt)

/-- A run that does not look at the voltage. -/
theorem timeKept_same {pre : List Seen} {x : Ctl} {r : Reading} (off : Option Cause) (secs : Int)
    (a b : Bool) (h : Watched pre x) (hui : x.sdc.uiZeroTimeFlag = true → r.uiSoc = 0) :
    TimeKept r x.sdc (off, secs, x.sdc.clear a b) := by
  intro hf
  have hf : x.sdc.uiZeroTimeFlag = true := hf
  obtain ⟨harm, havg, -⟩ := h.volt hf
  exact ⟨harm, havg, Or.inl ⟨hf, runNote_lowRun _ harm havg (hui hf), rfl⟩⟩

/-- A run that finds the average below the bound. -/
theorem timeKept_low {r : Reading} {s : Sdc} {off : Option Cause} {secs : Int} {a : Bool}
    {i : Fin 30} (harm : s.isUnderShutdownVoltage = true)
    (hi32 : CInt.IsI32 (sampleVbat r s).batdata.toList.sum) (hkeeps : keepsTime r s)
    (havg : (sampleVbat r (s.clear a true)).avgvbat < batVoltageLowBound) :
    TimeKept r s
      (off, secs, { noteLowAverage r (sampleVbat r (s.clear a true)) with batidx := i }) := by
  rw [noteLowAverage_eq]
  rw [sampleVbat_avg (s := s.clear a true) hi32] at havg
  intro hf
  refine ⟨harm, havg, ?_⟩
  by_cases hf' : s.uiZeroTimeFlag = true
  · refine Or.inl ⟨hf', ?_, if_neg fun hn => hn.2 hf'⟩
    rcases hkeeps hf' with hui | ⟨hge, -⟩
    · exact runNote_lowRun _ harm havg hui
    · exact absurd havg (Int.not_lt.2 hge)
  · have hui : r.uiSoc = 0 := by
      simpa [sampleVbat, Sdc.clear, hf'] using hf
    exact Or.inr (Int.le_of_eq (if_pos ⟨hui, hf'⟩).symm)

/-- While the time runs, every run finds the displayed charge at 0 or ends it. -/
theorem ran_time {pre : List Seen} {x : Ctl} {r : Reading} {out : Option Cause × Int × Sdc}
    (h : Watched pre x) (hok : ShutdownOk x (.run r)) (hran : Ran r x.sdc out) :
    TimeKept r x.sdc out := by
  obtain ⟨hkeeps, hi32, huisoc⟩ := hok
  cases hran with
  | socZero secs hz hui ht =>
    have hs := timeKept_same (some .socZero) secs true true h
      fun _ => hui
    rwa [Sdc.clear_true] at hs
  | uisocOne secs a ho hui ht => exact timeKept_same _ _ _ _ h fun _ => hui
  | cleared ho hui hc hs =>
    refine timeKept_same _ _ _ _ h fun hf => ?_
    have harm := (huisoc ho hui hc hs).2
    rw [(h.volt hf).1] at harm
    cases harm
  | dlpt a hd ht =>
    refine timeKept_same _ _ _ _ h fun hf => ?_
    rcases hkeeps hf with hui | ⟨-, hn⟩
    · exact hui
    · exact absurd ⟨hd, ht⟩ hn
  | unwatched polling a harm hp =>
    refine timeKept_same _ _ _ _ h fun hf => ?_
    rw [(h.volt hf).1] at harm
    cases harm
  | off secs a harm havg hui ht =>
    have hidx : noteLowAverage r (sampleVbat r (x.sdc.clear a true)) =
        { noteLowAverage r (sampleVbat r (x.sdc.clear a true)) with batidx := x.sdc.batidx } := by
      rw [noteLowAverage_eq]
      rfl
    rw [hidx]
    exact timeKept_low harm hi32 hkeeps havg
  | low a harm havg => exact timeKept_low harm hi32 hkeeps havg
  | high a harm havg => exact nofun

/-- A run only clears the charge conditions. -/
theorem ran_conds {r : Reading} {s : Sdc} {out : Option Cause × Int × Sdc} (hran : Ran r s out) :
    (out.2.2.isSocZeroPercent = true → s.isSocZeroPercent = true) ∧
      out.2.2.preSoc = s.preSoc ∧
      (out.2.2.isUisocOnePercent = true → s.isUisocOnePercent = true) ∧
      out.2.2.preUisoc = s.preUisoc := by
  cases hran with
  | socZero | uisocOne | cleared | dlpt | unwatched | high =>
    simp [Sdc.clear, sampleVbat]
  | off secs a harm havg hui ht =>
    rw [noteLowAverage_eq]
    simp [Sdc.clear, sampleVbat]
  | low a harm havg =>
    rw [noteLowAverage_eq]
    simp [Sdc.clear, sampleVbat]

/-- What a run may do is what the controller is for. -/
theorem ran_kept {pre : List Seen} {x : Ctl} {r : Reading} {out : Option Cause × Int × Sdc}
    (h : Watched pre x) (hlater : r.now ≤ r.later) (hok : ShutdownOk x (.run r))
    (hran : Ran r x.sdc out) : ShutdownKept pre (runNote r x.sdc out) where
  low_bat hoff := by
    have hlow := ran_time h hok hran
    cases hran with
    | off secs a harm havg hui ht =>
      obtain ⟨-, havg', hcase⟩ := hlow (by rw [noteLowAverage_eq]; simp [hui])
      have hq := runNote_lowRun (r := r)
        (some .lowBat, secs, noteLowAverage r (sampleVbat r (x.sdc.clear a true)))
        harm havg' hui
      rcases hcase with ⟨hf, -, hpre⟩ | hle
      · refine List.forall_mem_append.2 ⟨fun q hq hrec => ?_,
          List.forall_mem_singleton.2 fun _ => hq⟩
        exact (h.volt hf).2.2 q hq (recent_lt hrec (hpre ▸ ht))
      · -- the time has just begun
        unfold shutdownTime tvSec at ht
        simp only at hle
        omega
    | socZero | uisocOne | cleared | dlpt | unwatched | low | high => cases hoff
  soc_zero hoff := by
    cases hran with
    | socZero secs hz hui ht =>
      exact List.forall_mem_append.2 ⟨fun q hq hrec => h.soc hz q hq (recent_lt hrec ht),
        List.forall_mem_singleton.2 fun _ => hz⟩
    | off | uisocOne | cleared | dlpt | unwatched | low | high => cases hoff
  uisoc_one hoff := by
    cases hran with
    | uisocOne secs a ho hui ht =>
      exact List.forall_mem_append.2 ⟨fun q hq hrec => h.uisoc ho q hq (recent_lt hrec ht),
        List.forall_mem_singleton.2 fun _ => ho⟩
    | off | socZero | cleared | dlpt | unwatched | low | high => cases hoff
  charge_zero hoff := by
    cases hran with
    | off secs a harm havg hui ht => exact hui
    | socZero secs hz hui ht => exact hui
    | uisocOne secs a ho hui ht => exact hui
    | cleared | dlpt | unwatched | low | high => simp [runNote] at hoff
  wakes := by
    intro hoff hpend
    cases hran with
    | off | socZero | uisocOne => cases hoff
    | cleared ho hui hc hs =>
      obtain ⟨-, -, huisoc⟩ := hok
      obtain ⟨hd, hu⟩ := huisoc ho hui hc hs
      simp [Sdc.Pending, Sdc.clear, hd, hu] at hpend
    | dlpt => exact (by decide : (10 : Int) ≠ 0)
    | unwatched polling a harm hp =>
      rw [nextWaketime_pos (hp hpend)]
      exact (by decide : (10 : Int) ≠ 0)
    | low => exact (by decide : (10 : Int) ≠ 0)
    | high => exact (by decide : (10 : Int) ≠ 0)

/-! ## All events -/

/-- An event that is no run of the handler powers off at once or not at all. -/
theorem kept_no_run {pre : List Seen} {q : Seen} (hrun : q.run = none)
    (hoff : q.off = none ∨ q.off = some .atOnce) : ShutdownKept pre q := by
  have hne : ∀ c, c ≠ .atOnce → q.off ≠ some c := by
    intro c hc he
    rcases hoff with h | h
    · rw [h] at he
      cases he
    · rw [h] at he
      cases he
      exact hc rfl
  refine ⟨fun h => absurd h (hne _ (by decide)), fun h => absurd h (hne _ (by decide)),
    fun h => absurd h (hne _ (by decide)), ?_, ?_⟩
  · rintro (h | h | h)
    · exact absurd h (hne _ (by decide))
    · exact absurd h (hne _ (by decide))
    · exact absurd h (hne _ (by decide))
  · unfold Seen.Wakes
    rw [hrun]
    trivial

/-- Such an event leaves the time of a displayed charge of 0 and what belongs to it. -/
theorem Watched.other {pre : List Seen} {x x' : Ctl} {q : Seen} (h : Watched pre x)
    (hclock : x.clock ≤ q.time) (hlater : q.time ≤ x'.clock) (hrun : q.run = none)
    (hq : q.socSet = x.sdc.isSocZeroPercent) (hq' : q.uisocSet = x.sdc.isUisocOnePercent)
    (hsoc : x'.sdc.isSocZeroPercent = true →
      (x.sdc.isSocZeroPercent = true ∧ x'.sdc.preSoc = x.sdc.preSoc) ∨ q.time ≤ x'.sdc.preSoc)
    (huisoc : x'.sdc.isUisocOnePercent = true →
      (x.sdc.isUisocOnePercent = true ∧ x'.sdc.preUisoc = x.sdc.preUisoc) ∨
        q.time ≤ x'.sdc.preUisoc)
    (hflag : x'.sdc.uiZeroTimeFlag = x.sdc.uiZeroTimeFlag) (hpre : x'.sdc.preVolt = x.sdc.preVolt)
    (hwin : x.sdc.uiZeroTimeFlag = true →
      x'.sdc.isUnderShutdownVoltage = x.sdc.isUnderShutdownVoltage ∧
        x'.sdc.batdata = x.sdc.batdata) : Watched (pre ++ [q]) x' := by
  refine h.snoc hclock hlater (fun hz => (hsoc hz).imp_left fun hz' => ⟨hz'.1, hq ▸ hz'.1, hz'.2⟩)
    (fun ho => (huisoc ho).imp_left fun ho' => ⟨ho'.1, hq' ▸ ho'.1, ho'.2⟩) fun hf => ?_
  rw [hflag] at hf
  obtain ⟨harm, havg, -⟩ := h.volt hf
  obtain ⟨harm', hbat⟩ := hwin hf
  refine ⟨harm'.trans harm, by rw [Sdc.windowAvg, hbat]; exact havg, Or.inl ⟨hf, ?_, hpre⟩⟩
  unfold Seen.LowRun
  rw [hrun]
  trivial

theorem setShutdownCond_cases (c : Cond) (r : SetReading) (s : Sdc) :
    setShutdownCond c r s = (none, s) ∨ setShutdownCond c r s = (some .atOnce, s) ∨
    setShutdownCond c r s = (some .atOnce, { s with isOverheat := true }) ∨
    setShutdownCond c r s = (none, { s with isSocZeroPercent := true, preSoc := r.now }) ∨
    setShutdownCond c r s = (none, { s with isUisocOnePercent := true, preUisoc := r.now }) ∨
    (s.isUnderShutdownVoltage = false ∧ setShutdownCond c r s = (none, { s with
      isUnderShutdownVoltage := true
      batdata := Vector.replicate 30 vbat2Det
      batidx := 0 })) ∨
    setShutdownCond c r s = (none, { s with isDlptShutdown := true, preDlpt := r.now }) := by
  unfold setShutdownCond
  cases c <;> grind

theorem step_kept (pre : List (Ev × Seen)) (x : Ctl) (e : Ev) (q : Seen) (x' : Ctl)
    (h : Watched (pre.map Prod.snd) x) (hok : ShutdownOk x e) (hs : step x e = some (q, x')) :
    ShutdownKept (pre.map Prod.snd) q ∧ Watched ((pre ++ [(e, q)]).map Prod.snd) x' := by
  rw [List.map_append, List.map_singleton]
  unfold step at hs
  by_cases hen : x.off = true ∨ e.time < x.clock
  · rw [if_pos hen] at hs
    cases hs
  rw [if_neg hen] at hs
  have hclock : x.clock ≤ e.time := by
    by_contra hn
    exact hen (Or.inr (by omega))
  cases e with
  | run r =>
    simp only at hs
    by_cases hlater : r.later < r.now
    · rw [if_pos hlater] at hs
      cases hs
    rw [if_neg hlater] at hs
    cases hs
    have hran := ran r x.sdc
    obtain ⟨hz, hzt, ho, hot⟩ := ran_conds hran
    refine ⟨ran_kept h (by omega) hok hran, h.snoc hclock (by simp only [Ev.time]; omega)
      (fun hz' => Or.inl ⟨hz hz', hz hz', hzt⟩) (fun ho' => Or.inl ⟨ho ho', ho ho', hot⟩)
      fun hf => ?_⟩
    obtain ⟨harm, havg, hcase⟩ := ran_time h hok hran hf
    refine ⟨harm, havg, hcase.imp_right fun hle => ?_⟩
    exact Int.le_trans (Int.not_lt.1 hlater) hle
  | set c r =>
    have hcases := setShutdownCond_cases c r x.sdc
    simp only at hs
    generalize setShutdownCond c r x.sdc = out at hs hcases
    obtain ⟨off, s'⟩ := out
    cases hs
    rcases hcases with he | he | he | he | he | ⟨hu, he⟩ | he
    case inr.inr.inr.inr.inr.inl =>
      -- the voltage watch is armed only when it is not, and then no time runs
      cases he
      refine ⟨kept_no_run rfl (Or.inl rfl), h.other hclock (Int.le_refl _) rfl rfl rfl
        (fun hz => Or.inl ⟨hz, rfl⟩) (fun ho => Or.inl ⟨ho, rfl⟩) rfl rfl fun hf => ?_⟩
      rw [(h.volt hf).1] at hu
      cases hu
    all_goals
      cases he
      refine ⟨kept_no_run rfl (by simp), h.other hclock (Int.le_refl _) rfl rfl rfl ?_ ?_ rfl rfl
        fun _ => ⟨rfl, rfl⟩⟩
      · exact fun hz => by first | exact Or.inl ⟨hz, rfl⟩ | exact Or.inr (Int.le_refl _)
      · exact fun ho => by first | exact Or.inl ⟨ho, rfl⟩ | exact Or.inr (Int.le_refl _)
  | disable c now =>
    cases hs
    refine ⟨kept_no_run rfl (Or.inl rfl), ?_⟩
    unfold disableShutdownCond
    by_cases hc : c = .lowBatVolt
    · rw [if_pos hc]
      refine h.other hclock (Int.le_refl _) rfl rfl rfl (fun hz => Or.inl ⟨hz, rfl⟩)
        (fun ho => Or.inl ⟨ho, rfl⟩) rfl rfl fun hf => ?_
      rw [hok hc] at hf
      cases hf
    · rw [if_neg hc]
      exact h.other hclock (Int.le_refl _) rfl rfl rfl (fun hz => Or.inl ⟨hz, rfl⟩)
        (fun ho => Or.inl ⟨ho, rfl⟩) rfl rfl fun _ => ⟨rfl, rfl⟩
  | setFlag v now =>
    cases hs
    exact ⟨kept_no_run rfl (Or.inl rfl), h.other hclock (Int.le_refl _) rfl rfl rfl
      (fun hz => Or.inl ⟨hz, rfl⟩) (fun ho => Or.inl ⟨ho, rfl⟩) rfl rfl fun _ => ⟨rfl, rfl⟩⟩

/-- In every run whose events meet the condition the handler powers off only when its condition has
lasted for 40 seconds, and looks again as long as one is pending. -/
theorem shutdown_kept (evs : List Ev) (hok : Sys.Along step ShutdownOk probe evs)
    (es : List (Ev × Seen)) (x : Ctl) (hrun : Sys.run step probe evs = some (es, x))
    (pre : List (Ev × Seen)) (e : Ev × Seen) (post : List (Ev × Seen))
    (hes : es = pre ++ e :: post) : ShutdownKept (pre.map Prod.snd) e.2 := by
  have hstart : Watched (([] : List (Ev × Seen)).map Prod.snd) probe :=
    ⟨by simp, fun h => (Bool.false_ne_true h).elim, fun h => (Bool.false_ne_true h).elim,
      fun h => (Bool.false_ne_true h).elim⟩
  have hstep : ∀ (pre : List (Ev × Seen)) (x : Ctl) (e : Ev) (q : Seen) (x' : Ctl),
      Watched (pre.map Prod.snd) x → ShutdownOk x e → step x e = some (q, x') →
      ShutdownKept (pre.map Prod.snd) (e, q).2 ∧ Watched ((pre ++ [(e, q)]).map Prod.snd) x' :=
    step_kept
  exact (Sys.run_events (I := fun pre x => Watched (pre.map Prod.snd) x)
    (G := fun pre e => ShutdownKept (pre.map Prod.snd) e.2) hstep evs [] es probe x hstart hok
    hrun).1 pre e post hes

/-- A run of the handler at 1000 mV, `sec` seconds after the start. -/
def runAt (sec uiSoc soc nowCurrent : Int) : Ev :=
  .run ⟨sec * 1000000000, sec * 1000000000, uiSoc, soc, 1000, nowCurrent, 25⟩

/-- A condition set while the battery is discharged. -/
def setAt (sec : Int) (c : Cond) : Ev := .set c ⟨sec * 1000000000, -1, false⟩

/-- A low voltage and a displayed charge of 0 for 40 seconds. -/
def lowRuns : List Ev :=
  [setAt 0 .lowBatVolt, runAt 10 0 0 (-1), runAt 30 0 0 (-1), runAt 50 0 0 (-1)]

/-- The displayed charge rises for a while and is 0 again when the voltage is still low. -/
def staleRuns : List Ev :=
  [setAt 0 .lowBatVolt, runAt 10 0 0 (-1), runAt 30 5 0 (-1), runAt 50 0 0 (-1)]

/-- The last percent is charged away while the voltage watch is armed. -/
def hiddenRuns : List Ev :=
  [setAt 0 .lowBatVolt, setAt 0 .uisocOnePercent, runAt 10 1 1 1]

/-- Whether the last event of a run did what it may. -/
def lastKept (evs : List Ev) : Option Bool :=
  (Sys.run step probe evs).bind fun p =>
    p.1.getLast?.map fun e => decide (ShutdownKept (p.1.dropLast.map Prod.snd) e.2)

theorem lastKept_eq {evs : List Ev} {b : Bool} (h : lastKept evs = some b) :
    ∃ pre e x, Sys.run step probe evs = some (pre ++ [e], x) ∧
      decide (ShutdownKept (pre.map Prod.snd) e.2) = b := by
  obtain ⟨⟨es, x⟩, hrun, hlast⟩ := Option.bind_eq_some_iff.1 h
  obtain ⟨e, he, hb⟩ := Option.map_eq_some_iff.1 hlast
  exact ⟨es.dropLast, e, x, by rw [hrun, List.dropLast_append_getLast? _ he], hb⟩

theorem shutdown_kept_low :
    Sys.Along step ShutdownOk probe lowRuns ∧
      ∃ pre e x, Sys.run step probe lowRuns = some (pre ++ [e], x) ∧
        ShutdownKept (pre.map Prod.snd) e.2 := by
  have hok : Sys.Along step ShutdownOk probe lowRuns := by decide +kernel
  obtain ⟨pre, e, x, hrun, -⟩ := lastKept_eq (show lastKept lowRuns = some true by decide +kernel)
  exact ⟨hok, pre, e, x, hrun, shutdown_kept lowRuns hok _ x hrun pre e [] rfl⟩

/-- The first run powers off 20 seconds after a run with a displayed charge of 5; the second one
ends with the voltage watch armed and no time to look again. -/
theorem shutdown_kept_fails :
    (∃ pre e x, Sys.run step probe staleRuns = some (pre ++ [e], x) ∧
      ¬ ShutdownKept (pre.map Prod.snd) e.2) ∧
    ∃ pre e x, Sys.run step probe hiddenRuns = some (pre ++ [e], x) ∧
      ¬ ShutdownKept (pre.map Prod.snd) e.2 := by
  obtain ⟨pre, e, x, hrun, hb⟩ := lastKept_eq (show lastKept staleRuns = some false by decide +kernel)
  obtain ⟨pre', e', x', hrun', hb'⟩ :=
    lastKept_eq (show lastKept hiddenRuns = some false by decide +kernel)
  exact ⟨⟨pre, e, x, hrun, of_decide_eq_false hb⟩, pre', e', x', hrun', of_decide_eq_false hb'⟩

end Battery.Shutdown
