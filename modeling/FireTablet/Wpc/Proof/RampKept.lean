import FireTablet.Lib.Run
import FireTablet.Wpc.Ramp

/-!
# One controller at a time

What a run of each work does to the input current (`stepChargingWork_spec`,
`adaptiveCurrentLimitWork_spec`, `powerSwitchWork_spec`), and from it that a ramp never runs beside
the adaptive controller, only rises, and stops.
-/

namespace Wpc

open CInt

/-! ## Runs of a thread -/

section
variable {P : Type} {step : Chip → P → Chip × P × List Effect}

/-- What every step keeps is kept by a run. -/
theorem finish_inv {I : Chip → P → Prop}
    (hstep : ∀ c p, I c p → I (step c p).1 (step c p).2.1) :
    ∀ (n : Nat) (q : Chip × P), I q.1 q.2 → I (finish step n q).1 (finish step n q).2
  | 0, _, h => h
  | n + 1, q, h => finish_inv hstep n _ (hstep q.1 q.2 h)

/-- A run is at its end after as many steps as there are program points before it. -/
theorem finish_end {rank : P → Nat} (hstep : ∀ c p, rank (step c p).2.1 ≤ rank p - 1) :
    ∀ (n : Nat) (q : Chip × P), rank q.2 ≤ n → rank (finish step n q).2 = 0
  | 0, _, h => Nat.le_zero.1 h
  | n + 1, q, h => finish_end hstep n _ (Nat.le_trans (hstep q.1 q.2) (Nat.sub_le_of_le_add h))

end

/-- The steps to the end of each work. -/
def PowerSwitchPc.rank : PowerSwitchPc → Nat
  | .idle => 0
  | .adapt | .volt => 1
  | .current | .again => 2
  | .psySet _ => 3
  | .chr _ => 4
  | .psyGet _ => 5
  | .update => 6
  | .stepSched => 7
  | .stepOn => 8
  | .soc => 9
  | .typed => 10
  | .range => 11
  | .check => 12

def AdaptivePc.rank : AdaptivePc → Nat
  | .idle => 0
  | .again => 1
  | .current => 2
  | .done _ => 3
  | .ibus => 4
  | .skip => 5
  | .fill => 6
  | .need => 7

section
variable (cfg : Cfg)

theorem powerSwitchStep_rank (env : Env) (c : Chip) (p : PowerSwitchPc) :
    (powerSwitchStep cfg c env p).2.1.rank ≤ p.rank - 1 := by
  cases p <;> simp only [powerSwitchStep] <;> (try split_ifs) <;> simp [PowerSwitchPc.rank]

theorem adaptiveStep_rank (env : Env) (c : Chip) (p : AdaptivePc) :
    (adaptiveStep cfg c env p).2.1.rank ≤ p.rank - 1 := by
  cases p with
  | ibus =>
    simp only [adaptiveStep]
    cases env.ibus <;> simp [AdaptivePc.rank]
  | idle | need | fill | skip | done t | current | again =>
    simp only [adaptiveStep]
    try split_ifs
    all_goals simp [AdaptivePc.rank]

/-! ## The step work -/

theorem updateCurrentSetting_eq (c : Chip) :
    ∃ ua, (updateCurrentSetting cfg c).1 = { c with prevInputCurrent := ua } := by
  unfold updateCurrentSetting
  cases inputCurrent cfg c with
  | none => exact ⟨c.prevInputCurrent, rfl⟩
  | some ua =>
    simp only
    by_cases hua : ua = c.prevInputCurrent
    · rw [if_pos hua]
      exact ⟨c.prevInputCurrent, rfl⟩
    · rw [if_neg hua]
      exact ⟨ua, rfl⟩

/-- The ramp's next current. -/
def rampTarget (c : Chip) : Int :=
  let target := i32 (c.inputCurrent10w + i32 (cfg.stepMa * 1000))
  if target > cfg.stepMaxUa then cfg.stepMaxUa else target

/-- **A run of the step work** that is queued. -/
theorem stepChargingWork_spec {c : Chip} (h : c.stepPending = true) (env : Env) :
    (stepChargingWork cfg c env).onAdaptive = c.onAdaptive ∧
      (c.inputCurrent10w < cfg.stepMaxUa →
        (stepChargingWork cfg c env).inputCurrent10w = rampTarget cfg c ∧
          (stepChargingWork cfg c env).onStepCharging = c.onStepCharging ∧
          (stepChargingWork cfg c env).stepPending = env.pgEnd) ∧
      (¬ c.inputCurrent10w < cfg.stepMaxUa →
        (stepChargingWork cfg c env).inputCurrent10w = c.inputCurrent10w ∧
          (stepChargingWork cfg c env).onStepCharging = false ∧
          (stepChargingWork cfg c env).stepPending = false) := by
  unfold stepChargingWork
  rw [if_pos h]
  by_cases hlt : c.inputCurrent10w < cfg.stepMaxUa
  · obtain ⟨ua, hua⟩ := updateCurrentSetting_eq cfg
      { c with stepPending := false, inputCurrent10w := rampTarget cfg c }
    simp only [rampTarget] at hua
    simp only [finish, stepStep, if_pos hlt, hua]
    refine ⟨?_, fun _ => ⟨?_, ?_, ?_⟩, fun h => absurd hlt h⟩
    · cases env.pgEnd <;> rfl
    · cases env.pgEnd <;> rfl
    · cases env.pgEnd <;> rfl
    · cases env.pgEnd <;> rfl
  · simp only [finish, stepStep, if_neg hlt]
    exact ⟨trivial, fun h => absurd h hlt, fun _ => ⟨trivial, trivial, trivial⟩⟩

/-- A step within the machine's integers raises the current, to the largest one at most. -/
theorem rampTarget_bounds {c : Chip} (hstep : 0 < cfg.stepMa)
    (hlt : c.inputCurrent10w < cfg.stepMaxUa)
    (hno : i32 (c.inputCurrent10w + i32 (cfg.stepMa * 1000)) = c.inputCurrent10w +
      cfg.stepMa * 1000) :
    c.inputCurrent10w < rampTarget cfg c ∧ rampTarget cfg c ≤ cfg.stepMaxUa := by
  unfold rampTarget
  rw [hno]
  simp only
  split_ifs with hmax <;> omega

/-! ## The adaptive work -/

/-- A target is between the limits, or -1 for none. -/
def TargetOk (target : Int) : Prop :=
  target = -1 ∨ cfg.minCurrentLimit ≤ target ∧ target ≤ cfg.maxCurrentLimit

theorem clamp_ok (hlim : cfg.minCurrentLimit ≤ cfg.maxCurrentLimit) (t : Int) :
    TargetOk cfg (clamp cfg t) := by
  unfold TargetOk clamp
  simp only
  split_ifs <;> right <;> omega

theorem adaptiveTarget_frame (c : Chip) (env : Env) (ibus : Int) :
    (adaptiveTarget cfg c env ibus).1.onStepCharging = c.onStepCharging ∧
      (adaptiveTarget cfg c env ibus).1.stepPending = c.stepPending ∧
      (adaptiveTarget cfg c env ibus).1.inputCurrent10w = c.inputCurrent10w ∧
      (adaptiveTarget cfg c env ibus).1.onAdaptive = c.onAdaptive := by
  unfold adaptiveTarget
  simp only
  split_ifs <;> exact ⟨rfl, rfl, rfl, rfl⟩

theorem adaptiveTarget_ok (hlim : cfg.minCurrentLimit ≤ cfg.maxCurrentLimit) (c : Chip) (env : Env)
    (ibus : Int) : TargetOk cfg (adaptiveTarget cfg c env ibus).2 := by
  unfold adaptiveTarget
  simp only
  split_ifs
  · exact .inl rfl
  · exact clamp_ok cfg hlim _

/-- A run finds the adaptive controller on, or may switch it on. -/
def MayAdapt (c0 : Chip) (env : Env) : Prop :=
  c0.onAdaptive = true ∨ c0.onStepCharging = false ∧ env.uisoc ≥ cfg.startSoc

/-- The flags of the step controller and the current are those of the run's start. -/
structure Untouched (c0 c : Chip) : Prop where
  step : c.onStepCharging = c0.onStepCharging
  pending : c.stepPending = c0.stepPending
  current : c.inputCurrent10w = c0.inputCurrent10w

/-- What a run of the adaptive work leaves: the current of its start, a target between the limits,
or the start current where power-good was lost. -/
structure AdaptiveOut (c0 : Chip) (env : Env) (c : Chip) : Prop where
  step : c.onStepCharging = c0.onStepCharging
  pending : c.stepPending = c0.stepPending
  on : c.onAdaptive = true → c0.onAdaptive = true ∨ MayAdapt cfg c0 env
  current : c.inputCurrent10w = c0.inputCurrent10w ∨
    (MayAdapt cfg c0 env ∧ ∃ t, cfg.minCurrentLimit ≤ t ∧ t ≤ cfg.maxCurrentLimit ∧
      c.inputCurrent10w = i32 (t * 1000)) ∨
    (c0.chrType = .wireless10w ∧ env.pg = true ∧ env.pgEnd = false ∧ c.onAdaptive = false ∧
      c.inputCurrent10w = i32 (cfg.adaptiveStartMa * 1000))

/-- What holds at each point of a run of the adaptive work. -/
def AdaptiveAt (c0 : Chip) (env : Env) (c : Chip) : AdaptivePc → Prop
  | .need => Untouched c0 c ∧ c.onAdaptive = c0.onAdaptive ∧ c.chrType = c0.chrType
  | .fill | .skip => Untouched c0 c ∧ c.onAdaptive = c0.onAdaptive ∧
      c0.chrType = .wireless10w ∧ env.pg = true
  | .ibus => Untouched c0 c ∧ MayAdapt cfg c0 env ∧ c0.chrType = .wireless10w ∧ env.pg = true
  | .done t => Untouched c0 c ∧ (c.onAdaptive = true → MayAdapt cfg c0 env) ∧
      (t = -1 ∨ MayAdapt cfg c0 env ∧ TargetOk cfg t) ∧ c0.chrType = .wireless10w ∧ env.pg = true
  | .current | .again | .idle => AdaptiveOut cfg c0 env c

theorem adaptiveStep_at (hlim : cfg.minCurrentLimit ≤ cfg.maxCurrentLimit) {c0 : Chip} {env : Env}
    (c : Chip) (p : AdaptivePc) (h : AdaptiveAt cfg c0 env c p) :
    AdaptiveAt cfg c0 env (adaptiveStep cfg c env p).1 (adaptiveStep cfg c env p).2.1 := by
  cases p with
  | idle => exact h
  | need =>
    obtain ⟨hu, ha, hc⟩ := h
    simp only [adaptiveStep]
    split_ifs with hneed
    · exact ⟨hu.step, hu.pending, fun hon => .inl (ha ▸ hon), .inl hu.current⟩
    · obtain ⟨hpg, hchr⟩ := not_or.1 hneed
      exact ⟨hu, ha, hc ▸ not_not.1 hchr, not_not.1 hpg⟩
  | fill =>
    obtain ⟨hu, ha, hc, hpg⟩ := h
    simp only [adaptiveStep]
    split_ifs
    · exact ⟨⟨hu.step, hu.pending, hu.current⟩, ha, hc, hpg⟩
    · exact ⟨hu, ha, hc, hpg⟩
  | skip =>
    obtain ⟨hu, ha, hc, hpg⟩ := h
    simp only [adaptiveStep]
    split_ifs with hon hstep hsoc
    · exact ⟨hu, .inl (ha ▸ hon), hc, hpg⟩
    · exact ⟨hu, fun hon' => absurd hon' hon, .inl rfl, hc, hpg⟩
    · have hoff : c0.onStepCharging = false := by
        rw [← hu.step]
        exact Bool.eq_false_iff.2 hstep
      exact ⟨⟨hu.step, hu.pending, hu.current⟩, .inr ⟨hoff, hsoc⟩, hc, hpg⟩
    · exact ⟨hu, fun hon' => absurd hon' hon, .inl rfl, hc, hpg⟩
  | ibus =>
    obtain ⟨hu, hmay, hc, hpg⟩ := h
    simp only [adaptiveStep]
    cases env.ibus with
    | none => exact ⟨hu, fun _ => hmay, .inl rfl, hc, hpg⟩
    | some ua =>
      obtain ⟨h1, h2, h3, -⟩ := adaptiveTarget_frame cfg c env (ua.tdiv 1000)
      exact ⟨⟨h1.trans hu.step, h2.trans hu.pending, h3.trans hu.current⟩, fun _ => hmay,
        .inr ⟨hmay, adaptiveTarget_ok cfg hlim c env _⟩, hc, hpg⟩
  | done t =>
    obtain ⟨hu, hon, ht, hc, hpg⟩ := h
    simp only [adaptiveStep]
    split_ifs with hend hpos
    · obtain rfl | ⟨hmay, ht⟩ := ht
      · omega
      · obtain rfl | ht := ht
        · omega
        · exact ⟨hu.step, hu.pending, fun h => .inr (hon h), .inr (.inl ⟨hmay, t, ht.1, ht.2, rfl⟩)⟩
    · exact ⟨hu.step, hu.pending, fun h => .inr (hon h), .inl hu.current⟩
    · exact ⟨hu.step, hu.pending, (fun h => nomatch h),
        .inr (.inr ⟨hc, hpg, Bool.eq_false_iff.2 hend, rfl, rfl⟩)⟩
  | current =>
    obtain ⟨ua, hua⟩ := updateCurrentSetting_eq cfg c
    simp only [adaptiveStep, hua]
    exact ⟨h.step, h.pending, h.on, h.current⟩
  | again => exact ⟨h.step, h.pending, h.on, h.current⟩

/-- **A run of the adaptive work.** -/
theorem adaptiveCurrentLimitWork_spec (hlim : cfg.minCurrentLimit ≤ cfg.maxCurrentLimit) {c : Chip}
    (h : c.adaptivePending = true) (env : Env) :
    AdaptiveOut cfg c env (adaptiveCurrentLimitWork cfg c env) := by
  have hstart : AdaptiveAt cfg c env { c with adaptivePending := false } .need :=
    ⟨⟨rfl, rfl, rfl⟩, rfl, rfl⟩
  have hend := finish_end (fun c p => adaptiveStep_rank cfg env c p) 7
    ({ c with adaptivePending := false }, .need) (Nat.le_refl _)
  have hinv := finish_inv (fun c p => adaptiveStep_at cfg hlim c p) 7
    ({ c with adaptivePending := false }, .need) hstart
  unfold adaptiveCurrentLimitWork
  rw [if_pos h]
  generalize finish (fun c => adaptiveStep cfg c env) 7 _ = q at hend hinv
  cases hq : q.2 with
  | idle =>
    rw [hq] at hinv
    exact hinv
  | need | fill | skip | ibus | done t | current | again =>
    rw [hq] at hend
    cases hend

/-! ## The power switch -/

/-- A run of the power switch that starts the step controller. -/
def StartsStep (c : Chip) (env : Env) : Prop :=
  ¬ 2 < c.switchDetctCount ∧ (c.switchVthLow ≤ env.vout ∧ env.vout ≤ c.switchVthHigh) ∧
    c.chrType = .wireless10w ∧ ¬ env.uisoc ≥ cfg.startSoc ∧ c.stepLoadEn = true

instance (c : Chip) (env : Env) : Decidable (StartsStep cfg c env) :=
  inferInstanceAs (Decidable (_ ∧ _))

/-- What the power switch reads before it starts a controller is as at the start of its run. -/
structure Unswitched (c0 c : Chip) : Prop where
  adaptive : c.onAdaptive = c0.onAdaptive
  step : c.onStepCharging = c0.onStepCharging
  pending : c.stepPending = c0.stepPending
  low : c.switchVthLow = c0.switchVthLow
  high : c.switchVthHigh = c0.switchVthHigh
  chr : c.chrType = c0.chrType
  load : c.stepLoadEn = c0.stepLoadEn

/-- What a run of the power switch leaves: the step controller as it was, or started. -/
structure PowerSwitchOut (c0 : Chip) (env : Env) (c : Chip) : Prop where
  adaptive : c.onAdaptive = c0.onAdaptive
  step : c.onStepCharging = c0.onStepCharging ∧ c.stepPending = c0.stepPending ∨
    StartsStep cfg c0 env ∧ c.onStepCharging = true

/-- What holds at each point of a run of the power switch. -/
def PowerSwitchAt (c0 : Chip) (env : Env) (c : Chip) : PowerSwitchPc → Prop
  | .check => Unswitched c0 c ∧ c.switchDetctCount = c0.switchDetctCount
  | .range => Unswitched c0 c ∧ ¬ 2 < c0.switchDetctCount
  | .typed => Unswitched c0 c ∧ ¬ 2 < c0.switchDetctCount ∧
      (c0.switchVthLow ≤ env.vout ∧ env.vout ≤ c0.switchVthHigh)
  | .soc => Unswitched c0 c ∧ ¬ 2 < c0.switchDetctCount ∧
      (c0.switchVthLow ≤ env.vout ∧ env.vout ≤ c0.switchVthHigh) ∧ c0.chrType = .wireless10w
  | .stepOn => c.onAdaptive = c0.onAdaptive ∧ StartsStep cfg c0 env
  | .stepSched => c.onAdaptive = c0.onAdaptive ∧ StartsStep cfg c0 env ∧ c.onStepCharging = true
  | .again | .volt | .update | .psyGet _ | .chr _ | .psySet _ | .current | .adapt
  | .idle => PowerSwitchOut cfg c0 env c

theorem Unswitched.out {c0 c : Chip} {env : Env} (h : Unswitched c0 c) :
    PowerSwitchOut cfg c0 env c := ⟨h.adaptive, .inl ⟨h.step, h.pending⟩⟩

theorem powerSwitchStep_at {c0 : Chip} {env : Env} (c : Chip) (p : PowerSwitchPc)
    (h : PowerSwitchAt cfg c0 env c p) :
    PowerSwitchAt cfg c0 env (powerSwitchStep cfg c env p).1 (powerSwitchStep cfg c env p).2.1 := by
  cases p with
  | check =>
    obtain ⟨⟨h1, h2, h3, h4, h5, h6, h7⟩, hcount⟩ := h
    simp only [powerSwitchStep]
    split_ifs with hlt
    · exact Unswitched.out cfg ⟨h1, h2, h3, h4, h5, h6, h7⟩
    · exact ⟨⟨h1, h2, h3, h4, h5, h6, h7⟩, hcount ▸ hlt⟩
  | range =>
    obtain ⟨⟨h1, h2, h3, h4, h5, h6, h7⟩, hcount⟩ := h
    simp only [powerSwitchStep]
    split_ifs with hrange
    · exact ⟨⟨h1, h2, h3, h4, h5, h6, h7⟩, hcount, h4 ▸ h5 ▸ hrange⟩
    · exact Unswitched.out cfg ⟨h1, h2, h3, h4, h5, h6, h7⟩
  | typed =>
    obtain ⟨hu, hcount, hrange⟩ := h
    simp only [powerSwitchStep]
    split_ifs with hchr
    · exact ⟨hu, hcount, hrange, hu.chr ▸ hchr⟩
    · exact hu.out cfg
  | soc =>
    obtain ⟨hu, hcount, hrange, hchr⟩ := h
    simp only [powerSwitchStep]
    split_ifs with hsoc hload
    · exact ⟨hu.adaptive, .inl ⟨hu.step, hu.pending⟩⟩
    · exact ⟨hu.adaptive, hcount, hrange, hchr, hsoc, hu.load ▸ hload⟩
    · exact hu.out cfg
  | stepOn => exact ⟨h.1, h.2, rfl⟩
  | stepSched => exact ⟨h.1, .inr h.2⟩
  | again | psySet type | chr type => exact ⟨h.adaptive, h.step⟩
  | idle | volt | update => exact h
  | psyGet type =>
    simp only [powerSwitchStep]
    split_ifs
    · exact h
    · exact h
  | current =>
    obtain ⟨ua, hua⟩ := updateCurrentSetting_eq cfg c
    simp only [powerSwitchStep, hua]
    exact ⟨h.adaptive, h.step⟩
  | adapt =>
    simp only [powerSwitchStep]
    split_ifs
    · exact ⟨h.adaptive, h.step⟩
    · exact h

/-- **A run of the power switch** that is queued. -/
theorem powerSwitchWork_spec {c : Chip} (h : c.powerSwitchPending = true) (env : Env) :
    PowerSwitchOut cfg c env (powerSwitchWork cfg c env) := by
  have hstart : PowerSwitchAt cfg c env { c with powerSwitchPending := false } .check :=
    ⟨⟨rfl, rfl, rfl, rfl, rfl, rfl, rfl⟩, rfl⟩
  have hend := finish_end (fun c p => powerSwitchStep_rank cfg env c p) 12
    ({ c with powerSwitchPending := false }, .check) (Nat.le_refl _)
  have hinv := finish_inv (fun c p => powerSwitchStep_at cfg c p) 12
    ({ c with powerSwitchPending := false }, .check) hstart
  unfold powerSwitchWork
  rw [if_pos h]
  generalize finish (fun c => powerSwitchStep cfg c env) 12 _ = q at hend hinv
  cases hq : q.2 with
  | idle =>
    rw [hq] at hinv
    exact hinv
  | check | range | again | volt | typed | soc | stepOn | stepSched | update | psyGet t | chr t
  | psySet t | current | adapt =>
    rw [hq] at hend
    cases hend

/-! ## Events -/

/-- Where the step work is queued the step controller is on, and then the adaptive one is off and
has been since the last attach. -/
structure RampInv (s : Ramp) : Prop where
  queued : s.chip.stepPending = true → s.chip.onStepCharging = true
  alone : s.chip.onStepCharging = true → s.adapted = false ∧ s.chip.onAdaptive = false

/-- When an event goes well: a power switch starts the step controller only where the adaptive one
is off and has been since the last attach, a step of the ramp stays within the machine's integers,
and power-good is not lost in the middle of an adaptive run beside the step controller. -/
def RampOk (s : Ramp) : RampEvent → Prop
  | .powerSwitch env => s.chip.powerSwitchPending = true → StartsStep cfg s.chip env →
      s.adapted = false ∧ s.chip.onAdaptive = false
  | .stepCharging _ => s.chip.stepPending = true → s.chip.inputCurrent10w < cfg.stepMaxUa →
      i32 (s.chip.inputCurrent10w + i32 (cfg.stepMa * 1000)) =
        s.chip.inputCurrent10w + cfg.stepMa * 1000
  | .adaptive env => s.chip.adaptivePending = true → s.chip.onStepCharging = true →
      s.chip.chrType = .wireless10w → env.pg = true → env.pgEnd = false →
        s.chip.inputCurrent10w = i32 (cfg.adaptiveStartMa * 1000)
  | _ => True

/-- The runs of the step work that are left, where no power switch comes. -/
def left (c : Chip) : Nat :=
  if c.stepPending then (cfg.stepMaxUa - c.inputCurrent10w).toNat + 1 else 0

/-- What an event does to the input current. -/
structure RampKept (s : Ramp) (e : RampEvent) (ran : Bool) (s' : Ramp) : Prop where
  /-- Once the adaptive controller has been on, the step work changes nothing. -/
  once : ∀ env, e = .stepCharging env → s.adapted = true ∨ s.chip.onAdaptive = true →
    s'.chip.inputCurrent10w = s.chip.inputCurrent10w
  /-- Beside the step controller, the adaptive work changes nothing. -/
  beside : ∀ env, e = .adaptive env → s.chip.onStepCharging = true →
    s'.chip.inputCurrent10w = s.chip.inputCurrent10w
  /-- The ramp only rises, to the largest current at most. -/
  rises : ∀ env, e = .stepCharging env → s'.chip.inputCurrent10w = s.chip.inputCurrent10w ∨
    s.chip.inputCurrent10w < s'.chip.inputCurrent10w ∧ s'.chip.inputCurrent10w ≤ cfg.stepMaxUa
  /-- An adaptive value is between the limits. -/
  limited : ∀ env, e = .adaptive env → s'.chip.inputCurrent10w = s.chip.inputCurrent10w ∨
    (∃ t, cfg.minCurrentLimit ≤ t ∧ t ≤ cfg.maxCurrentLimit ∧
      s'.chip.inputCurrent10w = i32 (t * 1000)) ∨
    env.pgEnd = false ∧ s'.chip.inputCurrent10w = i32 (cfg.adaptiveStartMa * 1000)
  /-- At most one of the controllers is on. -/
  one : ¬ (s'.chip.onAdaptive = true ∧ s'.chip.onStepCharging = true)
  /-- The ramp comes nearer to its end. -/
  ends : (∀ env, e ≠ .powerSwitch env) →
    left cfg s'.chip + (if ran then 1 else 0) ≤ left cfg s.chip

/-- The controllers are as they were. -/
structure Calm (c c' : Chip) : Prop where
  current : c'.inputCurrent10w = c.inputCurrent10w
  adaptive : c'.onAdaptive = c.onAdaptive
  step : c'.onStepCharging = c.onStepCharging
  pending : c'.stepPending = c.stepPending

theorem Calm.trans {c c1 c2 : Chip} (h : Calm c c1) (h' : Calm c1 c2) : Calm c c2 :=
  ⟨h'.current.trans h.current, h'.adaptive.trans h.adaptive, h'.step.trans h.step,
    h'.pending.trans h.pending⟩

/-- An event that leaves the controllers as they are, or off. -/
def Quiet (c c' : Chip) : Prop :=
  Calm c c' ∨ c'.onAdaptive = false ∧ c'.onStepCharging = false ∧ c'.stepPending = false

theorem Quiet.kept {s : Ramp} {c' : Chip} {e : RampEvent} {adapted : Bool} (hq : Quiet s.chip c')
    (h : RampInv s) (ha : adapted = true → s.adapted = true) (hs : ∀ env, e ≠ .stepCharging env)
    (hd : ∀ env, e ≠ .adaptive env) :
    RampInv ⟨c', adapted⟩ ∧ RampKept cfg s e false ⟨c', adapted⟩ := by
  have hadapted : s.adapted = false → adapted = false := by
    intro hf
    cases adapted with
    | false => rfl
    | true => rw [ha rfl] at hf; cases hf
  have hinv : RampInv ⟨c', adapted⟩ := by
    obtain ⟨-, h2, h3, h4⟩ | ⟨h2, h3, h4⟩ := hq
    · constructor
      · intro hp
        exact h3.trans (h.queued (h4 ▸ hp))
      · intro hon
        obtain ⟨h5, h6⟩ := h.alone (h3 ▸ hon)
        exact ⟨hadapted h5, h2.trans h6⟩
    · constructor
      · intro hp
        rw [h4] at hp
        cases hp
      · intro hon
        rw [h3] at hon
        cases hon
  refine ⟨hinv, ?_⟩
  constructor
  · exact fun env he => absurd he (hs env)
  · exact fun env he => absurd he (hd env)
  · exact fun env he => absurd he (hs env)
  · exact fun env he => absurd he (hd env)
  · rintro ⟨hon, hstep⟩
    rw [(hinv.alone hstep).2] at hon
    cases hon
  · intro _
    unfold left
    obtain ⟨h1, -, -, h4⟩ | ⟨-, -, h4⟩ := hq
    · rw [h1, h4]
      exact Nat.le_refl _
    · rw [h4]
      exact Nat.zero_le _

theorem updateChargeType_calm (c : Chip) (type : ChrType) (psy : Psy) :
    Calm c (updateChargeType c type psy).1 := by
  unfold updateChargeType
  split_ifs <;> exact ⟨rfl, rfl, rfl, rfl⟩

theorem updateCurrentSetting_calm (c : Chip) : Calm c (updateCurrentSetting cfg c).1 := by
  obtain ⟨ua, hua⟩ := updateCurrentSetting_eq cfg c
  rw [hua]
  exact ⟨rfl, rfl, rfl, rfl⟩

theorem enableChargeFlow_quiet (c : Chip) (en : Bool) (psy : Psy) :
    Quiet c (enableChargeFlow cfg c en psy).1 := by
  unfold enableChargeFlow
  by_cases hsame : c.isEnabled = en
  · rw [if_pos hsame]
    exact .inl ⟨rfl, rfl, rfl, rfl⟩
  · rw [if_neg hsame]
    cases en with
    | true =>
      have h := (updateChargeType_calm { c with isEnabled := true } .wireless psy).trans
        (updateCurrentSetting_calm cfg _)
      exact .inl ⟨h.current, h.adaptive, h.step, h.pending⟩
    | false =>
      have h := updateChargeType_calm
        { clearFastChargeSwitch cfg { c with isEnabled := false } with online := false } .unknown
        psy
      exact .inr ⟨h.adaptive, h.step, h.pending⟩

theorem fastChargeEnable_calm (c : Chip) (en : Bool) : Calm c (fastChargeEnable cfg c en).1 := by
  simp only [fastChargeEnable]
  split_ifs <;> exact ⟨rfl, rfl, rfl, rfl⟩

theorem intThread_calm (c : Chip) (irq : Option Irq) : Calm c (intThread c irq) := by
  unfold intThread
  refine finish_inv (I := fun c' _ => Calm c c') ?_ 4 (c, intRead c irq) ⟨rfl, rfl, rfl, rfl⟩
  intro c' p h
  cases p <;> simp only [intStep] <;> (try split_ifs) <;>
    exact ⟨h.current, h.adaptive, h.step, h.pending⟩

/-- A power switch that goes well. -/
theorem powerSwitch_kept {s : Ramp} {env : Env} (h : RampInv s)
    (hok : RampOk cfg s (.powerSwitch env)) :
    RampInv { s with chip := powerSwitchWork cfg s.chip env } ∧
      RampKept cfg s (.powerSwitch env) false
        { s with chip := powerSwitchWork cfg s.chip env } := by
  have hinv : RampInv { s with chip := powerSwitchWork cfg s.chip env } := by
    cases hp : s.chip.powerSwitchPending with
    | false =>
      have he : powerSwitchWork cfg s.chip env = s.chip := by
        unfold powerSwitchWork
        rw [if_neg (Bool.eq_false_iff.1 hp)]
      rw [he]
      exact h
    | true =>
      obtain ⟨hon, ⟨hstep, hpend⟩ | ⟨hstarts, hstep⟩⟩ := powerSwitchWork_spec cfg hp env
      · constructor
        · intro hq
          exact hstep.trans (h.queued (hpend ▸ hq))
        · intro hq
          obtain ⟨h1, h2⟩ := h.alone (hstep ▸ hq)
          exact ⟨h1, hon.trans h2⟩
      · obtain ⟨h1, h2⟩ := hok hp hstarts
        exact ⟨fun _ => hstep, fun _ => ⟨h1, hon.trans h2⟩⟩
  refine ⟨hinv, ?_⟩
  constructor
  · exact fun env he => nomatch he
  · exact fun env he => nomatch he
  · exact fun env he => nomatch he
  · exact fun env he => nomatch he
  · rintro ⟨hon, hstep⟩
    rw [(hinv.alone hstep).2] at hon
    cases hon
  · exact fun hne => absurd rfl (hne env)

/-- An adaptive run that goes well. -/
theorem adaptive_kept (hlim : cfg.minCurrentLimit ≤ cfg.maxCurrentLimit) {s : Ramp} {env : Env}
    (h : RampInv s) (hok : RampOk cfg s (.adaptive env)) :
    RampInv ⟨adaptiveCurrentLimitWork cfg s.chip env, s.adapted || adapts cfg s.chip env⟩ ∧
      RampKept cfg s (.adaptive env) false
        ⟨adaptiveCurrentLimitWork cfg s.chip env, s.adapted || adapts cfg s.chip env⟩ := by
  have hout : AdaptiveOut cfg s.chip env (adaptiveCurrentLimitWork cfg s.chip env) ∧
      (s.chip.onStepCharging = true → (adaptiveCurrentLimitWork cfg s.chip env).inputCurrent10w =
        s.chip.inputCurrent10w) := by
    cases hp : s.chip.adaptivePending with
    | false =>
      have he : adaptiveCurrentLimitWork cfg s.chip env = s.chip := by
        unfold adaptiveCurrentLimitWork
        rw [if_neg (Bool.eq_false_iff.1 hp)]
      rw [he]
      exact ⟨⟨rfl, rfl, fun hon => .inl hon, .inl rfl⟩, fun _ => rfl⟩
    | true =>
      have hspec := adaptiveCurrentLimitWork_spec cfg hlim hp env
      refine ⟨hspec, ?_⟩
      intro hstep
      obtain hcur | ⟨hmay, -⟩ | ⟨hchr, hpg, hend, -, hcur⟩ := hspec.current
      · exact hcur
      · obtain hon | ⟨hoff, -⟩ := hmay
        · rw [(h.alone hstep).2] at hon
          cases hon
        · rw [hoff] at hstep
          cases hstep
      · exact hcur.trans (hok hp hstep hchr hpg hend).symm
  obtain ⟨hspec, hbeside⟩ := hout
  have hinv : RampInv
      ⟨adaptiveCurrentLimitWork cfg s.chip env, s.adapted || adapts cfg s.chip env⟩ := by
    constructor
    · intro hq
      exact hspec.step.trans (h.queued (hspec.pending ▸ hq))
    · intro hq
      have hstep : s.chip.onStepCharging = true := hspec.step ▸ hq
      obtain ⟨h1, h2⟩ := h.alone hstep
      have hadapts : adapts cfg s.chip env = false := by
        unfold adapts
        rw [h2, hstep]
        simp
      refine ⟨?_, Bool.eq_false_iff.2 ?_⟩
      · rw [h1, hadapts]
        rfl
      · intro hon
        obtain hon | hon | ⟨hoff, -⟩ := hspec.on hon
        · rw [h2] at hon
          cases hon
        · rw [h2] at hon
          cases hon
        · rw [hoff] at hstep
          cases hstep
  refine ⟨hinv, ?_⟩
  constructor
  · exact fun env he => nomatch he
  · exact fun _ _ hstep => hbeside hstep
  · exact fun env he => nomatch he
  · rintro _ ⟨⟩
    obtain hcur | ⟨-, t, hmin, hmax, hcur⟩ | ⟨-, -, hend, -, hcur⟩ := hspec.current
    · exact .inl hcur
    · exact .inr (.inl ⟨t, hmin, hmax, hcur⟩)
    · exact .inr (.inr ⟨hend, hcur⟩)
  · rintro ⟨hon, hstep⟩
    rw [(hinv.alone hstep).2] at hon
    cases hon
  · intro _
    unfold left
    simp only [hspec.pending, Bool.false_eq_true, if_false, Nat.add_zero]
    split_ifs with hpend
    · have heq := hbeside (h.queued hpend)
      exact Nat.le_of_eq (congrArg (fun cur => (cfg.stepMaxUa - cur).toNat + 1) heq)
    · exact Nat.le_refl _

/-- A run of the step work that goes well. -/
theorem stepCharging_kept (hstep : 0 < cfg.stepMa) {s : Ramp} {env : Env} (h : RampInv s)
    (hok : RampOk cfg s (.stepCharging env)) :
    RampInv { s with chip := stepChargingWork cfg s.chip env } ∧
      RampKept cfg s (.stepCharging env) s.chip.stepPending
        { s with chip := stepChargingWork cfg s.chip env } := by
  cases hp : s.chip.stepPending with
  | false =>
    have he : stepChargingWork cfg s.chip env = s.chip := by
      unfold stepChargingWork
      rw [if_neg (Bool.eq_false_iff.1 hp)]
    rw [he]
    refine ⟨h, fun _ _ _ => rfl, (fun _ he => nomatch he), fun _ _ => .inl rfl,
      (fun _ he => nomatch he), ?_, fun _ => Nat.le_refl _⟩
    rintro ⟨hon, hs⟩
    rw [(h.alone hs).2] at hon
    cases hon
  | true =>
    obtain ⟨hon, hbelow, htop⟩ := stepChargingWork_spec cfg hp env
    have hcharging := h.queued hp
    obtain ⟨hadapted, hoff⟩ := h.alone hcharging
    have hrise : (stepChargingWork cfg s.chip env).inputCurrent10w = s.chip.inputCurrent10w ∧
          (stepChargingWork cfg s.chip env).stepPending = false ∨
        s.chip.inputCurrent10w < (stepChargingWork cfg s.chip env).inputCurrent10w ∧
          (stepChargingWork cfg s.chip env).inputCurrent10w ≤ cfg.stepMaxUa := by
      by_cases hlt : s.chip.inputCurrent10w < cfg.stepMaxUa
      · obtain ⟨h1, -, -⟩ := hbelow hlt
        rw [h1]
        exact .inr (rampTarget_bounds cfg hstep hlt (hok hp hlt))
      · obtain ⟨h1, -, h3⟩ := htop hlt
        exact .inl ⟨h1, h3⟩
    refine ⟨⟨?_, fun _ => ⟨hadapted, hon.trans hoff⟩⟩, ?_, (fun _ he => nomatch he), ?_,
      (fun _ he => nomatch he), ?_, ?_⟩
    · intro hq
      by_cases hlt : s.chip.inputCurrent10w < cfg.stepMaxUa
      · exact (hbelow hlt).2.1.trans hcharging
      · rw [(htop hlt).2.2] at hq
        cases hq
    · rintro - - (hhas | hhas)
      · rw [hadapted] at hhas
        cases hhas
      · rw [hoff] at hhas
        cases hhas
    · intro _ _
      obtain ⟨h1, -⟩ | h1 := hrise
      · exact .inl h1
      · exact .inr h1
    · rintro ⟨hon', -⟩
      rw [hon, hoff] at hon'
      cases hon'
    · intro _
      unfold left
      simp only [hp, if_true]
      obtain ⟨-, h2⟩ | ⟨h1, h2⟩ := hrise
      · rw [h2]
        simp
      · split_ifs <;> omega

/-- **One event.** -/
theorem rampStep_kept (hstep : 0 < cfg.stepMa)
    (hlim : cfg.minCurrentLimit ≤ cfg.maxCurrentLimit) {s : Ramp} {e : RampEvent} (h : RampInv s)
    (hok : RampOk cfg s e) :
    ∃ ran s', rampStep cfg s e = some (ran, s') ∧ RampInv s' ∧ RampKept cfg s e ran s' := by
  have hcalm : ∀ c', Calm s.chip c' → (∀ env, e ≠ .stepCharging env) → (∀ env, e ≠ .adaptive env) →
      RampInv ⟨c', s.adapted⟩ ∧ RampKept cfg s e false ⟨c', s.adapted⟩ :=
    fun c' hc h1 h2 => Quiet.kept cfg (.inl hc) h (fun ha => ha) h1 h2
  cases e with
  | statusDone => exact ⟨_, _, rfl, hcalm _ ⟨rfl, rfl, rfl, rfl⟩ (by simp) (by simp)⟩
  | attach voutOk psy =>
    have hq : Quiet s.chip (attachedVbus cfg s.chip voutOk psy).1 := by
      unfold attachedVbus
      obtain ⟨h1, h2, h3, h4⟩ | hoff := enableChargeFlow_quiet cfg { s.chip with online := true }
        (!cfg.useBuck || voutOk) psy
      · exact .inl ⟨h1, h2, h3, h4⟩
      · exact .inr hoff
    exact ⟨_, _, rfl, Quiet.kept cfg hq h nofun (by simp) (by simp)⟩
  | detach psy =>
    exact ⟨_, _, rfl, Quiet.kept cfg (enableChargeFlow_quiet cfg s.chip false psy) h (fun ha => ha)
      (by simp) (by simp)⟩
  | interrupt irq => exact ⟨_, _, rfl, hcalm _ (intThread_calm s.chip irq) (by simp) (by simp)⟩
  | fastCharge en =>
    exact ⟨_, _, rfl, hcalm _ (fastChargeEnable_calm cfg s.chip en) (by simp) (by simp)⟩
  | stepLoadEn en => exact ⟨_, _, rfl, hcalm _ ⟨rfl, rfl, rfl, rfl⟩ (by simp) (by simp)⟩
  | powerSwitch env => exact ⟨_, _, rfl, powerSwitch_kept cfg h hok⟩
  | adaptive env => exact ⟨_, _, rfl, adaptive_kept cfg hlim h hok⟩
  | stepCharging env => exact ⟨_, _, rfl, stepCharging_kept cfg hstep h hok⟩

/-- Without a power switch the step work runs finitely often. -/
theorem ramp_stops {s s' : Ramp} {os : List (RampEvent × Bool)}
    (h : Sys.Trace (RampKept cfg) s os s') (hne : ∀ q ∈ os, ∀ env, q.1 ≠ .powerSwitch env) :
    (os.filter Prod.snd).length + left cfg s'.chip ≤ left cfg s.chip := by
  induction h with
  | nil => simp
  | @cons t t' t'' e ran os hr _ ih =>
    have h1 := hr.ends (hne _ (List.mem_cons_self ..))
    have h2 := ih fun q hq => hne q (List.mem_cons_of_mem _ hq)
    cases ran with
    | true =>
      simp only [List.filter_cons_of_pos, List.length_cons, if_true] at h1 ⊢
      omega
    | false =>
      simp only [List.filter_cons_of_neg, Bool.false_eq_true, not_false_eq_true, if_false] at h1 ⊢
      omega

end

/-- **The current ramp.** In every run of events that go well the controllers keep off each other's
current, the ramp only rises and an adaptive value is between its limits (`RampKept`), and from any
point on, the step work runs finitely often where no power switch comes. -/
theorem ramp_kept (cfg : Cfg) (ua : Int) (hstep : 0 < cfg.stepMa)
    (hlim : cfg.minCurrentLimit ≤ cfg.maxCurrentLimit) (es : List RampEvent)
    (hok : Sys.Along (rampStep cfg) (RampOk cfg) ⟨probe ua, false⟩ es) :
    ∃ os s', Sys.run (rampStep cfg) ⟨probe ua, false⟩ es = some (os, s') ∧
      Sys.Trace (RampKept cfg) ⟨probe ua, false⟩ os s' ∧
      ∀ pre post s1, os = pre ++ post → Sys.Trace (RampKept cfg) ⟨probe ua, false⟩ pre s1 →
        Sys.Trace (RampKept cfg) s1 post s' → (∀ q ∈ post, ∀ env, q.1 ≠ .powerSwitch env) →
        (post.filter Prod.snd).length ≤ left cfg s1.chip := by
  have hinit : RampInv ⟨probe ua, false⟩ := ⟨nofun, nofun⟩
  obtain ⟨os, s', hrun, -, htrace⟩ := Sys.run_sim id
    (fun s e hi hp => rampStep_kept cfg hstep hlim hi hp) es ⟨probe ua, false⟩ hinit hok
  refine ⟨os, s', hrun, htrace, ?_⟩
  intro pre post s1 _ _ hpost hne
  have := ramp_stops cfg hpost hne
  omega

/-- The default settings. -/
def cfgDefault : Cfg :=
  ⟨false, ⟨6000, 6500, 7000⟩, ⟨8500, 9000, 9500⟩, 90, 200, 1100, 300, 500, 500, 200, 1100000, 1100,
    500000, 500000, true⟩

/-- What a work reads at 9 V and a charge. -/
def envAt (uisoc : Int) : Env := ⟨true, true, 9000, uisoc, some 400000, some 400000, ⟨true, true⟩⟩

/-- A session up to the switch to 10 W. -/
def switchOn : List RampEvent :=
  [.statusDone, .attach true ⟨true, true⟩, .interrupt (some ⟨false, true, false, true⟩),
    .fastCharge true]

theorem ramp_kept_two :
    ∃ os s', Sys.run (rampStep cfgDefault) ⟨probe 1100000, false⟩
        (switchOn ++ [.powerSwitch (envAt 50), .stepCharging (envAt 50)]) = some (os, s') ∧
      Sys.Trace (RampKept cfgDefault) ⟨probe 1100000, false⟩ os s' ∧
      ∀ pre post s1, os = pre ++ post →
        Sys.Trace (RampKept cfgDefault) ⟨probe 1100000, false⟩ pre s1 →
        Sys.Trace (RampKept cfgDefault) s1 post s' →
        (∀ q ∈ post, ∀ env, q.1 ≠ .powerSwitch env) →
        (post.filter Prod.snd).length ≤ left cfgDefault s1.chip := by
  refine ramp_kept cfgDefault 1100000 (by decide) (by decide) _ ?_
  refine Sys.along_cons trivial rfl (Sys.along_cons trivial rfl (Sys.along_cons trivial rfl
    (Sys.along_cons trivial rfl (Sys.along_cons (fun _ _ => ⟨rfl, rfl⟩) rfl
      (Sys.along_cons (fun _ _ => by decide) rfl trivial)))))

/-- A second power switch in the session, after the charge has fallen: both controllers are on, and
the ramp raises the current that the adaptive controller has to hold. -/
theorem ramp_fails :
    (Sys.run (rampStep cfgDefault) ⟨probe 1100000, false⟩
      (switchOn ++ [.powerSwitch (envAt 95), .adaptive (envAt 95), .fastCharge true,
        .powerSwitch (envAt 80), .stepCharging (envAt 80)])).map (fun q =>
          (q.2.chip.onAdaptive, q.2.chip.onStepCharging, q.2.chip.inputCurrent10w)) =
      some (true, true, 700000) := by
  decide

end Wpc
