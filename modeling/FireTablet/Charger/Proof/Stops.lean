import FireTablet.Charger.Proof.Steps

/-!
# Reasons to stop charging

A pass stops charging exactly when one of its reasons holds (`mayCharge_stop`), and writes the
enable bit only when its decision changes. So the bit stays off while the cached flag is off, as
long as nobody else switches it on: `current_cmd` does. A verdict on a charger is cleared when a
pass sees another one; an unplugging that no pass has seen, and a weak charger without the
end-of-charge protection, keep it.
-/

namespace Charger

/-! ## What stops a pass -/

/-- The reasons to stop, at the check of a pass. -/
inductive StopReason (c : Conf) (r : StatusReading) (i : Info) : Prop
  | bcm : i.set.bcmFlag = true → StopReason c r i
  | zone : i.set.enableSwJeita = true →
      (doSwJeitaStateMachine c.thres c.cv r.stage r.batteryTemp i.swJeita).charging = false →
      StopReason c r i
  | temperature : i.set.enableSwJeita = false →
      (thermalCheck c.thermal r.batteryTemp i.thermalSm).1 = false → StopReason c r i
  | vbusHigh : c.maxChargerVoltage < r.vbusUv → r.wpcOnline = false → StopReason c r i
  | vbusLow : r.vbusUv < c.vbusUvloVoltage → 0 < r.vbusUv → StopReason c r i
  | batteryId : r.batteryId = false → StopReason c r i
  | discharging : i.cmdDischarging = true → StopReason c r i
  | safetyTimeout : i.safetyTimeout = true → StopReason c r i
  | vbusov : i.vbusovStat = true → StopReason c r i
  | eoc : c.eoc.enableBatEocProtect = true →
      i.eoc.batEocProtect = true ∨ i.eoc.dpmDisableCharging = true → StopReason c r i
  | weak : i.lim.invalidChargerDetWeak = true → StopReason c r i

theorem flagged_iff {c : Conf} {i : Info} : flagged c i = true ↔
    i.cmdDischarging = true ∨ i.safetyTimeout = true ∨ i.vbusovStat = true ∨
      (c.eoc.enableBatEocProtect = true ∧
        (i.eoc.batEocProtect = true ∨ i.eoc.dpmDisableCharging = true)) ∨
      i.lim.invalidChargerDetWeak = true := by
  simp [flagged, or_assoc]

theorem StopReason.of_flagged {c : Conf} {r : StatusReading} {i : Info} (h : flagged c i = true) :
    StopReason c r i := by
  rcases flagged_iff.1 h with h | h | h | ⟨h, h'⟩ | h
  · exact .discharging h
  · exact .safetyTimeout h
  · exact .vbusov h
  · exact .eoc h h'
  · exact .weak h

theorem vbusCheck_normal {c : Conf} {r : StatusReading} : vbusCheck c r = .normal ↔
    ¬ (c.maxChargerVoltage < r.vbusUv ∧ r.wpcOnline = false) ∧
      ¬ (r.vbusUv < c.vbusUvloVoltage ∧ 0 < r.vbusUv) := by
  unfold vbusCheck
  by_cases ho : c.maxChargerVoltage < r.vbusUv ∧ ¬ r.wpcOnline = true
  · simp [ho]
  · have ho' : ¬ (c.maxChargerVoltage < r.vbusUv ∧ r.wpcOnline = false) := by simpa using ho
    rw [if_neg ho]
    by_cases hu : r.vbusUv < c.vbusUvloVoltage ∧ 0 < r.vbusUv
    · simp [hu]
    · simp only [if_neg hu, true_iff]
      exact ⟨ho', hu⟩

/-- The input voltage is looked at only without a verdict on the charger, and the flags stay. -/
theorem mtkChgCheckVbus_spec (c : Conf) (r : StatusReading) (i : Info) :
    ((mtkChgCheckVbus c r i).1 = true ↔
      i.lim.invalidChargerDetWeak = true ∨ vbusCheck c r = .normal) ∧
    flagged c (mtkChgCheckVbus c r i).2 = flagged c i := by
  unfold mtkChgCheckVbus
  by_cases hw : i.lim.invalidChargerDetWeak = true
  · simp [hw]
  · rw [if_neg hw]
    refine ⟨?_, rfl⟩
    simp [hw]

theorem temperatureCheck_spec (c : Conf) (r : StatusReading) (i : Info) :
    ((temperatureCheck c r i).1 = false ↔
      (i.set.enableSwJeita = true ∧
        (doSwJeitaStateMachine c.thres c.cv r.stage r.batteryTemp i.swJeita).charging = false) ∨
      (i.set.enableSwJeita = false ∧
        (thermalCheck c.thermal r.batteryTemp i.thermalSm).1 = false)) ∧
    flagged c (temperatureCheck c r i).2 = flagged c i ∧
    (temperatureCheck c r i).2.lim = i.lim := by
  unfold temperatureCheck
  by_cases hj : i.set.enableSwJeita = true
  · rw [if_pos hj]
    exact ⟨by simp [hj], rfl, rfl⟩
  · rw [if_neg hj]
    exact ⟨by simp [hj], rfl, rfl⟩

/-- **The decision**: a pass stops charging exactly when a reason holds. -/
theorem mayCharge_stop (c : Conf) (r : StatusReading) (i : Info) :
    (mayCharge c r i).1 = false ↔ StopReason c r i := by
  obtain ⟨htemp, htflag, htlim⟩ := temperatureCheck_spec c r i
  obtain ⟨hvbus, hvflag⟩ := mtkChgCheckVbus_spec c r (temperatureCheck c r i).2
  rw [htflag] at hvflag
  rw [htlim, vbusCheck_normal] at hvbus
  unfold mayCharge
  by_cases hb : i.set.bcmFlag = true
  · rw [if_pos hb]
    exact ⟨fun _ => .bcm hb, fun _ => rfl⟩
  rw [if_neg hb]
  simp only
  by_cases ht : (temperatureCheck c r i).1 = true
  · rw [if_neg (by simp [ht])]
    have ht : ¬ ((i.set.enableSwJeita = true ∧
        (doSwJeitaStateMachine c.thres c.cv r.stage r.batteryTemp i.swJeita).charging = false) ∨
      (i.set.enableSwJeita = false ∧
        (thermalCheck c.thermal r.batteryTemp i.thermalSm).1 = false)) := by
      rw [← htemp, ht]
      decide
    by_cases hv : (mtkChgCheckVbus c r (temperatureCheck c r i).2).1 = true
    · rw [if_neg (by simp [hv])]
      by_cases hid : r.batteryId = true
      · rw [if_neg (by simp [hid])]
        simp only [hvflag, Bool.not_eq_false']
        refine ⟨StopReason.of_flagged, fun h => flagged_iff.2 ?_⟩
        cases h with
        | bcm h => exact absurd h hb
        | zone h h' => exact absurd (Or.inl ⟨h, h'⟩) ht
        | temperature h h' => exact absurd (Or.inr ⟨h, h'⟩) ht
        | vbusHigh h h' =>
          rcases hvbus.1 hv with hw | hn
          · exact Or.inr (Or.inr (Or.inr (Or.inr hw)))
          · exact absurd ⟨h, h'⟩ hn.1
        | vbusLow h h' =>
          rcases hvbus.1 hv with hw | hn
          · exact Or.inr (Or.inr (Or.inr (Or.inr hw)))
          · exact absurd ⟨h, h'⟩ hn.2
        | batteryId h => exact absurd h (by simp [hid])
        | discharging h => exact Or.inl h
        | safetyTimeout h => exact Or.inr (Or.inl h)
        | vbusov h => exact Or.inr (Or.inr (Or.inl h))
        | eoc h h' => exact Or.inr (Or.inr (Or.inr (Or.inl ⟨h, h'⟩)))
        | weak h => exact Or.inr (Or.inr (Or.inr (Or.inr h)))
      · rw [if_pos (by simp [hid])]
        exact ⟨fun _ => .batteryId (by simpa using hid), fun _ => rfl⟩
    · rw [if_pos (by simp [hv])]
      refine ⟨fun _ => ?_, fun _ => rfl⟩
      by_contra hn
      refine hv (hvbus.2 (Or.inr ⟨fun h => hn (.vbusHigh h.1 h.2), fun h => hn (.vbusLow h.1 h.2)⟩))
  · rw [if_pos (by simp [ht])]
    refine ⟨fun _ => ?_, fun _ => rfl⟩
    rcases htemp.1 (by simpa using ht) with ⟨h, h'⟩ | ⟨h, h'⟩
    · exact .zone h h'
    · exact .temperature h h'

/-! ## What must hold between passes -/

/-- The condition on an event: `current_cmd` switches the charger on only while charging is allowed,
and another charger is plugged in only after a pass has seen the unplugging or with no timeout and
overvoltage noted, and with the protection that resets the verdict of a weak charger or without such
a verdict. -/
def StopOk (c : Conf) (x : Ctl) : Ev → Prop
  | .currentCmd _ d => d = 0 → x.info.canCharging = true
  | .plugIn _ =>
    (x.info.chrType = .unknown ∨ x.info.safetyTimeout = false ∧ x.info.vbusovStat = false) ∧
      (c.eoc.enableBatEocProtect = true ∨ x.info.lim.invalidChargerDetWeak = false)
  | _ => True

instance (c : Conf) (x : Ctl) (e : Ev) : Decidable (StopOk c x e) := by
  unfold StopOk
  split <;> infer_instance

/-- What holds between passes, and of every pass with a charger that can come next. -/
structure StopsKept (c : Conf) (x : Ctl) : Prop where
  off : x.info.canCharging = false → x.info.enabled = false
  stopped : ∀ r q x', step c x (.pass r) = some (q, x') → r.chrType ≠ .unknown →
    StopReason c r.status (x.info.atCheck r) → x'.info.canCharging = false
  own_safety : ∀ r q x', step c x (.pass r) = some (q, x') → r.chrType ≠ .unknown →
    (x.info.atCheck r).safetyTimeout = true → x.safetyOf = x.charger
  own_vbusov : ∀ r q x', step c x (.pass r) = some (q, x') → r.chrType ≠ .unknown →
    (x.info.atCheck r).vbusovStat = true → x.vbusovOf = x.charger
  own_weak : ∀ r q x', step c x (.pass r) = some (q, x') → r.chrType ≠ .unknown →
    (x.info.atCheck r).lim.invalidChargerDetWeak = true → x.weakOf = x.charger

/-- The invariant. The driver's type is known only of the present charger. -/
structure Owned (c : Conf) (x : Ctl) : Prop where
  off : x.info.canCharging = false → x.info.enabled = false
  safety : x.info.chrType ≠ .unknown → x.info.safetyTimeout = true → x.safetyOf = x.charger
  vbusov : x.info.chrType ≠ .unknown → x.info.vbusovStat = true → x.vbusovOf = x.charger
  weak : x.info.lim.invalidChargerDetWeak = true → x.weakOf = x.charger
  plugged : c.eoc.enableBatEocProtect = true → x.info.eoc.plugged = x.online

/-! ## A pass -/

theorem atCheck_chrType {r : PassReading} {i : Info} (hr : r.chrType ≠ .unknown) :
    (i.atCheck r).chrType ≠ .unknown := by
  unfold Info.atCheck
  rcases mtkIsChargerOn_cases r.chrType i with
    ⟨h, -⟩ | ⟨h, -⟩ | ⟨-, -, -, h⟩ | ⟨-, -, -, h⟩ | ⟨-, -, h⟩
  · exact absurd h hr
  · exact absurd h hr
  all_goals
    rw [h]
    exact hr

/-- At the check, a flag that is set was found on the charger whose type the driver had. -/
theorem atCheck_owned {r : PassReading} {i : Info} (hc : (i.atCheck r).chrType ≠ .unknown) :
    ((i.atCheck r).safetyTimeout = true → i.safetyTimeout = true ∧ i.chrType ≠ .unknown) ∧
    ((i.atCheck r).vbusovStat = true → i.vbusovStat = true ∧ i.chrType ≠ .unknown) := by
  unfold Info.atCheck at *
  rcases mtkIsChargerOn_cases r.chrType i with
    ⟨-, -, h⟩ | ⟨-, hi, h⟩ | ⟨-, -, -, h⟩ | ⟨-, -, hi, h⟩ | ⟨-, -, h⟩
  · rw [h] at hc
    exact absurd rfl hc
  · rw [h] at hc
    exact absurd hi hc
  · rw [h]
    exact ⟨nofun, nofun⟩
  · rw [h]
    exact ⟨fun h => ⟨h, hi⟩, fun h => ⟨h, hi⟩⟩
  · rw [h]
    exact ⟨nofun, nofun⟩

/-- Looking at the cable keeps the enable bit off with the flag. -/
theorem atCheck_off {r : PassReading} {i : Info} (h : i.canCharging = false → i.enabled = false) :
    (i.atCheck r).canCharging = false → (i.atCheck r).enabled = false := by
  unfold Info.atCheck
  rcases mtkIsChargerOn_cases r.chrType i with
    ⟨-, -, he⟩ | ⟨-, -, he⟩ | ⟨-, -, -, he⟩ | ⟨-, -, -, he⟩ | ⟨-, -, he⟩
  · rw [he]
    exact fun _ => rfl
  · rw [he]
    exact h
  · rw [he]
    exact nofun
  · rw [he]
    exact h
  · rw [he]
    exact nofun

theorem enabledBy_off {i : Info} (h : i.canCharging = false → i.enabled = false) :
    enabledBy false i = false := by
  unfold enabledBy
  by_cases hc : i.canCharging = false
  · rw [if_neg (by simp [hc]), h hc]
  · rw [if_pos (by simpa using hc)]

/-- What a part of a pass leaves of the flags. -/
structure SameFlags (i i' : Info) : Prop where
  chrType : i'.chrType = i.chrType
  safety : i'.safetyTimeout = i.safetyTimeout
  vbusov : i'.vbusovStat = i.vbusovStat
  plugged : i'.eoc.plugged = i.eoc.plugged

theorem SameFlags.trans {i i' i'' : Info} (h : SameFlags i i') (h' : SameFlags i' i'') :
    SameFlags i i'' :=
  ⟨h'.chrType.trans h.chrType, h'.safety.trans h.safety, h'.vbusov.trans h.vbusov,
    h'.plugged.trans h.plugged⟩

/-- The decision: the flag is the decision, and the bit is off with it. -/
theorem chargerCheckStatus_flag (c : Conf) (r : StatusReading) (chrType : ChrType) (i : Info) :
    SameFlags i (chargerCheckStatus c r chrType i).2 ∧
    (chrType ≠ .unknown →
      (chargerCheckStatus c r chrType i).2.canCharging = (mayCharge c r i).1) ∧
    ((i.canCharging = false → i.enabled = false) →
      (chargerCheckStatus c r chrType i).2.canCharging = false →
      (chargerCheckStatus c r chrType i).2.enabled = false) := by
  obtain ⟨_, _, _, _, hm, -⟩ := mayCharge_frame c r i
  rcases chargerCheckStatus_cases c r chrType i with ⟨hc, he⟩ | ⟨hc, hmay, he⟩ | ⟨hc, hmay, he⟩
  · rw [he]
    exact ⟨⟨rfl, rfl, rfl, rfl⟩, fun h => absurd hc h, id⟩
  · rw [he, hm]
    exact ⟨⟨rfl, rfl, rfl, rfl⟩, fun _ => hmay.symm, fun _ h => nomatch h⟩
  · rw [he, hm]
    exact ⟨⟨rfl, rfl, rfl, rfl⟩, fun _ => hmay.symm, fun hoff _ => enabledBy_off hoff⟩

@[simp] theorem batteryProtectAlgo_plugged (c : Conf) (r : EocReading) (s : Settings)
    (chrType : ChrType) (jeitaCv customCv : Int) (e : Eoc) :
    (batteryProtectAlgo c r s chrType jeitaCv customCv e).plugged = e.plugged := by
  unfold batteryProtectAlgo
  simp only
  split_ifs <;> rfl

@[simp] theorem checkDpmEocState_plugged (c : Conf) (r : EocReading) (e : Eoc) :
    (checkDpmEocState c r e).plugged = e.plugged := by
  unfold checkDpmEocState
  simp only
  split_ifs <;> rfl

/-- The protections leave the flag and the bit alone. -/
theorem protectedBy_flag (c : Conf) (r : PassReading) (i : Info) :
    SameFlags (i.decided c r) (i.protectedBy c r) ∧
    (i.protectedBy c r).canCharging = (i.decided c r).canCharging ∧
    (i.protectedBy c r).enabled = (i.decided c r).enabled := by
  obtain ⟨k, he, -⟩ := chargerTopOffMode_frame c r.status (i.decided c r)
  unfold Info.protectedBy
  simp only [he]
  exact ⟨⟨rfl, rfl, rfl, by simp⟩, trivial, trivial⟩

/-- **A pass** keeps the flags as they are at its check, decides by its reasons, and leaves the bit
off with the flag. -/
theorem pass_flag (c : Conf) (r : PassReading) (i : Info)
    (hoff : i.canCharging = false → i.enabled = false) :
    SameFlags (i.atCheck r) (pass c r i).2 ∧
    (r.chrType ≠ .unknown →
      (pass c r i).2.canCharging = (mayCharge c r.status (i.atCheck r)).1) ∧
    ((pass c r i).2.canCharging = false → (pass c r i).2.enabled = false) := by
  obtain ⟨hsame, hcan, hbit⟩ := chargerCheckStatus_flag c r.status r.chrType (i.atCheck r)
  obtain ⟨hsame', hcan', hbit'⟩ := protectedBy_flag c r i
  have hsame := hsame.trans hsame'
  rcases pass_cases c r i with ⟨hch, he⟩ | ⟨-, he⟩
  · -- the algorithm runs only while charging is allowed
    obtain ⟨_, _, ha, -⟩ := doAlgorithm_frame c r.alg (i.protectedBy c r)
    rw [he, ha]
    refine ⟨hsame.trans ⟨rfl, rfl, rfl, rfl⟩, fun h => hcan'.trans (hcan h), fun h => ?_⟩
    have hno : (i.protectedBy c r).canCharging = false := h
    rw [hch.2.2] at hno
    cases hno
  · rw [he]
    refine ⟨hsame, fun h => hcan'.trans (hcan h), fun h => ?_⟩
    rw [hcan'] at h
    exact hbit'.trans (hbit (atCheck_off hoff) h)

/-! ## One event -/

/-- A weak charger that an event finds is the present one. -/
theorem noted_weak {x : Ctl} (h : x.info.lim.invalidChargerDetWeak = true → x.weakOf = x.charger)
    (i : Info) (hi : i.lim.invalidChargerDetWeak = true) : (x.noted i).weakOf = x.charger := by
  unfold Ctl.noted
  by_cases hw : x.info.lim.invalidChargerDetWeak = true
  · simp [hw, h hw]
  · simp [hw, hi]

/-- The plug handler changes the protection and the verdict, and clears the verdict whenever the
cable has changed. -/
theorem externalPowerChanged_spec (c : Conf) (online : Bool) (now : Int) (i : Info) :
    ∃ e weak done, externalPowerChanged c online now i = { i with
        eoc := e
        lim := { i.lim with invalidChargerDetWeak := weak, invalidChargerDetDone := done } } ∧
      (weak = true → i.lim.invalidChargerDetWeak = true) ∧
      (c.eoc.enableBatEocProtect = true →
        e.plugged = online ∧ (i.eoc.plugged ≠ online → weak = false)) := by
  unfold externalPowerChanged handlePlugState
  by_cases hsame : ¬ c.eoc.enableBatEocProtect = true ∨ i.eoc.plugged = online
  · rw [if_pos hsame]
    refine ⟨i.eoc, i.lim.invalidChargerDetWeak, i.lim.invalidChargerDetDone, rfl, id, fun h => ?_⟩
    have hp := hsame.resolve_left fun hn => hn h
    exact ⟨hp, fun hne => absurd hp hne⟩
  · rw [if_neg hsame]
    cases online with
    | false => exact ⟨_, false, false, rfl, nofun, fun _ => ⟨rfl, fun _ => rfl⟩⟩
    | true =>
      simp only [if_pos]
      generalize ((now - i.eoc.disconnectTime).tdiv 1000000).tdiv 1000 = duration
      by_cases hreset : (i.eoc.batEocProtect = true ∨ i.eoc.dpmDisableCharging = true) ∧
          c.eoc.batEocProtectResetTime ≤ duration
      · simp only [if_pos hreset]
        exact ⟨_, false, false, rfl, nofun, fun _ => ⟨rfl, fun _ => rfl⟩⟩
      · simp only [if_neg hreset]
        exact ⟨_, false, false, rfl, nofun, fun _ => ⟨rfl, fun _ => rfl⟩⟩

/-- **One event** that meets the condition keeps the invariant. -/
theorem Owned.step {c : Conf} {x x' : Ctl} {e : Ev} {q : Seen} (h : Owned c x)
    (hok : StopOk c x e) (hs : step c x e = some (q, x')) : Owned c x' := by
  have hst := stepped hs
  generalize hout : (q, x') = out at hst
  cases hst with
  | pass r hon =>
    obtain ⟨hsame, -, hoff⟩ := pass_flag c r x.info h.off
    cases hout
    refine ⟨hoff, fun hc hf => ?_, fun hc hf => ?_, noted_weak h.weak _, fun hen => ?_⟩
    · have hc : (pass c r x.info).2.chrType ≠ .unknown := hc
      have hf : (pass c r x.info).2.safetyTimeout = true := hf
      rw [hsame.chrType] at hc
      rw [hsame.safety] at hf
      obtain ⟨hf', hc'⟩ := (atCheck_owned hc).1 hf
      exact h.safety hc' hf'
    · have hc : (pass c r x.info).2.chrType ≠ .unknown := hc
      have hf : (pass c r x.info).2.vbusovStat = true := hf
      rw [hsame.chrType] at hc
      rw [hsame.vbusov] at hf
      obtain ⟨hf', hc'⟩ := (atCheck_owned hc).2 hf
      exact h.vbusov hc' hf'
    · have hp := h.plugged hen
      obtain ⟨_, _, _, _, _, _, _, he, -⟩ := atCheck_frame r x.info
      have hpl := hsame.plugged
      rw [he] at hpl
      exact hpl.trans hp
  | plugIn now hon hnow =>
    obtain ⟨e, weak, done, he, hw, hpl⟩ := externalPowerChanged_spec c true now x.info
    have hweak : ¬ weak = true := by
      intro hwt
      rcases hok.2 with hen | hno
      · rw [(hpl hen).2 (by rw [h.plugged hen, hon]; decide)] at hwt
        cases hwt
      · rw [hno] at hw
        exact absurd (hw hwt) (by decide)
    cases hout
    rw [he]
    refine ⟨h.off, fun hc hf => ?_, fun hc hf => ?_, fun hwt => absurd hwt hweak,
      fun hen => (hpl hen).1⟩
    · have hf : x.info.safetyTimeout = true := hf
      rw [(hok.1.resolve_left hc).1] at hf
      cases hf
    · have hf : x.info.vbusovStat = true := hf
      rw [(hok.1.resolve_left hc).2] at hf
      cases hf
  | plugOut now hon hnow =>
    obtain ⟨e, weak, done, he, hw, hpl⟩ := externalPowerChanged_spec c false now x.info
    cases hout
    rw [he]
    exact ⟨h.off, h.safety, h.vbusov, fun hi => noted_weak h.weak _ hi, fun hen => (hpl hen).1⟩
  | changed now hnow =>
    obtain ⟨e, weak, done, he, hw, hpl⟩ := externalPowerChanged_spec c x.online now x.info
    cases hout
    rw [he]
    exact ⟨h.off, h.safety, h.vbusov, fun hi => noted_weak h.weak _ hi, fun hen => (hpl hen).1⟩
  | currentCmd u d =>
    cases hout
    unfold mtkChgCurrentCmdWrite
    simp only
    by_cases h1 : d = 1
    · rw [if_pos h1]
      exact ⟨fun _ => rfl, h.safety, h.vbusov, noted_weak h.weak _, h.plugged⟩
    · rw [if_neg h1]
      by_cases h0 : d = 0
      · rw [if_pos h0]
        refine ⟨fun hc => ?_, h.safety, h.vbusov, noted_weak h.weak _, h.plugged⟩
        have hc : x.info.canCharging = false := hc
        rw [hok h0] at hc
        cases hc
      · rw [if_neg h0]
        exact ⟨h.off, h.safety, h.vbusov, noted_weak h.weak _, h.plugged⟩
  | safetyTimeout =>
    cases hout
    exact ⟨h.off, fun _ _ => rfl, h.vbusov, noted_weak h.weak _, h.plugged⟩
  | vbusOvp stat =>
    cases hout
    exact ⟨h.off, h.safety, fun _ _ => rfl, noted_weak h.weak _, h.plugged⟩
  | wakeUp =>
    cases hout
    exact h
  | settings | limits | changeSetting =>
    cases hout
    exact ⟨h.off, h.safety, h.vbusov, noted_weak h.weak _, h.plugged⟩

/-- The invariant says what is wanted, of the state and of every pass that can follow. -/
theorem Owned.kept {c : Conf} {x : Ctl} (h : Owned c x) : StopsKept c x where
  off := h.off
  stopped r q x' hs hr hstop := by
    have hcan := (pass_flag c r x.info h.off).2.1 hr
    rw [(mayCharge_stop c r.status (x.info.atCheck r)).2 hstop] at hcan
    have hst := stepped hs
    generalize hout : (q, x') = out at hst
    cases hst
    cases hout
    exact hcan
  own_safety r _ _ _ hr hf := by
    obtain ⟨hf', hc'⟩ := (atCheck_owned (atCheck_chrType hr)).1 hf
    exact h.safety hc' hf'
  own_vbusov r _ _ _ hr hf := by
    obtain ⟨hf', hc'⟩ := (atCheck_owned (atCheck_chrType hr)).2 hf
    exact h.vbusov hc' hf'
  own_weak r _ _ _ _ hf := by
    obtain ⟨_, _, l, _, _, _, _, he, hl⟩ := atCheck_frame r x.info
    rw [he] at hf
    exact h.weak (hl ▸ hf)

/-! ## Every run -/

theorem owned_start (c : Conf) (s : Settings) : Owned c (Ctl.start c s) where
  off _ := rfl
  safety _ := nofun
  vbusov _ := nofun
  weak := nofun
  plugged _ := rfl

/-- **Every run** whose events meet the condition: the charger is off while charging is not allowed,
every pass with a reason stops charging, and no pass is stopped by what was found on a charger that
is gone. -/
theorem charging_stops (c : Conf) (s : Settings) (evs : List Ev)
    (hok : Sys.Along (step c) (StopOk c) (Ctl.start c s) evs) (es : List (Ev × Seen)) (x : Ctl)
    (hrun : Sys.run (step c) (Ctl.start c s) evs = some (es, x)) : StopsKept c x :=
  (Sys.run_inv (I := Owned c) (fun _ _ _ _ h hok hs => h.step hok hs) evs _ x es
    (owned_start c s) hok hrun).kept

/-- A charger that is unplugged, which a pass sees, and another one; then a hot battery. -/
def swapRun : List Ev :=
  [.plugIn 1, .pass (.plain .usbDcp 25), .safetyTimeout, .pass (.plain .usbDcp 25), .plugOut 2,
    .pass (.plain .unknown 25), .plugIn 3, .pass (.plain .usbDcp 25), .pass (.plain .usbDcp 60)]

/-- A hot battery, and then `current_cmd` with `0 0`. -/
def hotRun : List Ev :=
  [.plugIn 1, .pass (.plain .usbDcp 60), .currentCmd 0 0, .pass (.plain .usbDcp 60)]

/-- The charger is changed between two passes after a safety timeout. -/
def unseenRun : List Ev :=
  [.plugIn 1, .pass (.plain .usbDcp 25), .safetyTimeout, .plugOut 2, .plugIn 3]

/-- A pass that finds the charger weak. -/
def weakPass : PassReading :=
  let r := PassReading.plain .usbDcp 25
  { r with alg := { r.alg with current := { r.alg.current with vbusUv := 4400000 } } }

/-- The charger is weak, and a pass sees that it is unplugged. -/
def weakRun : List Ev :=
  [.plugIn 1, .pass weakPass, .plugOut 2, .pass (.plain .unknown 25), .plugIn 3]

/-- The state after a run of the default driver. -/
def stateAfter (evs : List Ev) : Option Ctl :=
  (Sys.run (step .defaults) (Ctl.start .defaults (.defaults false)) evs).map Prod.snd

theorem stateAfter_some (evs : List Ev) (p : Ctl → Bool)
    (h : (stateAfter evs).map p = some true) :
    ∃ es x, Sys.run (step .defaults) (Ctl.start .defaults (.defaults false)) evs = some (es, x) ∧
      p x = true := by
  obtain ⟨x, hx, hp⟩ := Option.map_eq_some_iff.1 h
  obtain ⟨⟨es, x'⟩, hrun, rfl⟩ := Option.map_eq_some_iff.1 hx
  exact ⟨es, x', hrun, hp⟩

theorem charging_stops_swap :
    Sys.Along (step .defaults) (StopOk .defaults) (Ctl.start .defaults (.defaults false)) swapRun ∧
    ∃ es x, Sys.run (step .defaults) (Ctl.start .defaults (.defaults false)) swapRun = some (es, x) ∧
      StopsKept .defaults x := by
  have hok : Sys.Along (step .defaults) (StopOk .defaults) (Ctl.start .defaults (.defaults false))
      swapRun := by decide +kernel
  obtain ⟨es, x, hrun, -⟩ := stateAfter_some swapRun (fun _ => true)
    (by decide +kernel)
  exact ⟨hok, es, x, hrun, charging_stops .defaults _ swapRun hok es x hrun⟩

/-- The next pass sees a charger, and is stopped by what was found on the one before. -/
theorem not_own {x : Ctl} {r : PassReading} (hr : r.chrType ≠ .unknown)
    (hs : (step .defaults x (.pass r)).isSome = true)
    (h : ((x.info.atCheck r).safetyTimeout = true ∧ x.safetyOf ≠ x.charger) ∨
      ((x.info.atCheck r).lim.invalidChargerDetWeak = true ∧ x.weakOf ≠ x.charger)) :
    ¬ StopsKept .defaults x := by
  intro hk
  obtain ⟨⟨q, x'⟩, hs⟩ := Option.isSome_iff_exists.1 hs
  rcases h with ⟨hf, hne⟩ | ⟨hf, hne⟩
  · exact hne (hk.own_safety r q x' hs hr hf)
  · exact hne (hk.own_weak r q x' hs hr hf)

/-- Charging is switched on while it is not allowed, and stays on; a timeout and a weak charger are
held against another charger. -/
theorem charging_stops_fails :
    (∃ es x, Sys.run (step .defaults) (Ctl.start .defaults (.defaults false)) hotRun = some (es, x) ∧
      ¬ StopsKept .defaults x) ∧
    (∃ es x, Sys.run (step .defaults) (Ctl.start .defaults (.defaults false)) unseenRun =
      some (es, x) ∧ ¬ StopsKept .defaults x) ∧
    ∃ es x, Sys.run (step .defaults) (Ctl.start .defaults (.defaults false)) weakRun = some (es, x) ∧
      ¬ StopsKept .defaults x := by
  let r := PassReading.plain .usbDcp 25
  obtain ⟨es, x, hrun, hx⟩ := stateAfter_some hotRun
    (fun x => !x.info.canCharging && x.info.enabled) (by decide +kernel)
  obtain ⟨es', x', hrun', hx'⟩ := stateAfter_some unseenRun
    (fun x => (step .defaults x (.pass r)).isSome && (x.info.atCheck r).safetyTimeout &&
      decide (x.safetyOf ≠ x.charger)) (by decide +kernel)
  obtain ⟨es'', x'', hrun'', hx''⟩ := stateAfter_some weakRun
    (fun x => (step .defaults x (.pass r)).isSome &&
      (x.info.atCheck r).lim.invalidChargerDetWeak && decide (x.weakOf ≠ x.charger))
    (by decide +kernel)
  simp only [Bool.and_eq_true, Bool.not_eq_true', decide_eq_true_eq] at hx hx' hx''
  refine ⟨⟨es, x, hrun, fun hk => ?_⟩, ⟨es', x', hrun', ?_⟩, es'', x'', hrun'', ?_⟩
  · rw [hk.off hx.1] at hx
    exact absurd hx.2 (by decide)
  · exact not_own (r := r) (by decide) hx'.1.1 (Or.inl ⟨hx'.1.2, hx'.2⟩)
  · exact not_own (r := r) (by decide) hx''.1.1 (Or.inr ⟨hx''.1.2, hx''.2⟩)

end Charger
