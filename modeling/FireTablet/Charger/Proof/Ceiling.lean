import FireTablet.Charger.Proof.Steps

/-!
# The voltage that is programmed

`select_cv` takes the voltage of the JEITA zone in the place of the battery's and then the smallest
of that, the top-off voltage and the demo voltage. So both places that program its result stay below
each of the three (`charging_voltage`); they stay below the battery's voltage where the zone's is
not above it. Detection by overcurrent is the exception: it programs the voltage of a new battery to
draw more power, and then what it has read back from the charger.
-/

namespace Charger

/-! ## What a voltage must stay below -/

/-- The voltages of a configuration are `int`s that are not negative. -/
structure Conf.Voltages (c : Conf) : Prop where
  battery : ∀ st, 0 ≤ mtkGetBatteryCv c.cv st ∧ mtkGetBatteryCv c.cv st < 2147483648
  jeita : ∀ st z, 0 ≤ (c.cv.inForce st).jeitaCv z ∧ (c.cv.inForce st).jeitaCv z < 2147483648
  topOff : ∀ v ∈ c.topOffCvs, 0 ≤ v ∧ v < 2147483648

/-- The voltage in force without top-off and demo mode: the zone's if JEITA has set one. -/
def CvWrite.zoneCv (c : Conf) (w : CvWrite) : Int :=
  swJeitaCv (mtkGetBatteryCv c.cv w.stage) w.set.enableSwJeita w.jeita.cv

/-- What a voltage must not be above. -/
def CvWrite.ceilings (c : Conf) (w : CvWrite) : List Int :=
  w.zoneCv c :: ((if w.customCv ≠ -1 then [w.customCv] else []) ++
    if w.set.customChargingMode then [demoChargingCv] else [])

/-- `v` is the smallest of a list. -/
def Lowest (v : Int) (vs : List Int) : Prop := v ∈ vs ∧ ∀ u ∈ vs, v ≤ u

instance (v : Int) (vs : List Int) : Decidable (Lowest v vs) := inferInstanceAs (Decidable (_ ∧ _))

/-- A JEITA voltage is that of its zone, for the ageing stage at the time. -/
def JeitaSet (c : Conf) (j : SwJeita) : Prop :=
  j.cv ≠ 0 → ∃ st, j.cv = (c.cv.inForce st).jeitaCv j.sm

/-- A write by `charger_check_status` or `do_algorithm`. -/
structure CvWrite.Kept (c : Conf) (w : CvWrite) : Prop where
  jeita : JeitaSet c w.jeita
  top_off : w.customCv = -1 ∨ w.customCv ∈ c.topOffCvs
  lowest : w.source ≠ .detection → Lowest w.uV (w.ceilings c)
  battery : w.source ≠ .detection → w.zoneCv c ≤ mtkGetBatteryCv c.cv w.stage →
    w.uV ≤ mtkGetBatteryCv c.cv w.stage

/-- What the charger answered when an event read back its voltage. -/
def Ev.bakCvUv : Ev → Option Int
  | .pass r => some r.alg.current.bakCvUv
  | .changeSetting r => some r.bakCvUv
  | _ => none

/-- The voltages that detection programs. -/
def detected (ws : List CvWrite) : List Int :=
  (ws.filter fun w => decide (w.source = .detection)).map CvWrite.uV

/-- What an event may program. -/
structure WritesKept (c : Conf) (e : Ev × Seen) : Prop where
  each : ∀ w ∈ e.2.writes, w.Kept c
  detection : detected e.2.writes = [] ∨
    ∃ bak, e.1.bakCvUv = some bak ∧ detected e.2.writes = [c.cv.fresh.batteryCv, bak]

/-! ## The voltage that is chosen -/

theorem Lowest.lower {v : Int} {vs : List Int} (h : Lowest v vs) (p : Prop) [Decidable p] (u : Int) :
    Lowest (if p ∧ u < v then u else v) (vs ++ if p then [u] else []) := by
  obtain ⟨hmem, hle⟩ := h
  by_cases hp : p
  · rw [if_pos hp]
    by_cases hu : u < v
    · rw [if_pos ⟨hp, hu⟩]
      refine ⟨by simp, List.forall_mem_append.2 ⟨fun x hx => ?_, by simp⟩⟩
      have := hle x hx
      omega
    · rw [if_neg fun h => hu h.2]
      exact ⟨List.mem_append_left _ hmem, List.forall_mem_append.2 ⟨hle, by simpa using hu⟩⟩
  · rw [if_neg hp, if_neg fun h => hp h.1, List.append_nil]
    exact ⟨hmem, hle⟩

/-- The voltage of the zone or of the battery is an `int` that is not negative. -/
theorem swJeitaCv_int {c : Conf} (hc : c.Voltages) {j : SwJeita} (hj : JeitaSet c j)
    (stage : Option Int) (en : Bool) :
    0 ≤ swJeitaCv (mtkGetBatteryCv c.cv stage) en j.cv ∧
      swJeitaCv (mtkGetBatteryCv c.cv stage) en j.cv < 2147483648 := by
  unfold swJeitaCv
  by_cases h : en = true ∧ j.cv ≠ 0
  · obtain ⟨st, hst⟩ := hj h.2
    rw [if_pos h, hst]
    exact hc.jeita st j.sm
  · rw [if_neg h]
    exact hc.battery stage

theorem selectCv_lowest {c : Conf} (hc : c.Voltages) {j : SwJeita} (hj : JeitaSet c j) {k : Int}
    (hk : k = -1 ∨ k ∈ c.topOffCvs) (stage : Option Int) (s : Settings) (source : CvSource) :
    Lowest (selectCv c stage s j k)
      (CvWrite.ceilings c ⟨source, selectCv c stage s j k, stage, j, k, s⟩) := by
  obtain ⟨hz0, hz⟩ := swJeitaCv_int hc hj stage s.enableSwJeita
  have hzone : (if s.enableSwJeita = true ∧ j.cv ≠ 0 then CInt.u32 j.cv
      else CInt.u32 (mtkGetBatteryCv c.cv stage)) =
      swJeitaCv (mtkGetBatteryCv c.cv stage) s.enableSwJeita j.cv := by
    rw [← CInt.u32_eq hz0 (by omega)]
    unfold swJeitaCv
    split <;> rfl
  have hk0 : k ≠ -1 → 0 ≤ k ∧ CInt.u32 k = k := by
    intro hne
    obtain ⟨h0, h31⟩ := hc.topOff k (hk.resolve_left hne)
    exact ⟨h0, CInt.u32_eq h0 (by omega)⟩
  unfold CvWrite.ceilings CvWrite.zoneCv selectCv
  simp only [hzone]
  generalize swJeitaCv (mtkGetBatteryCv c.cv stage) s.enableSwJeita j.cv = zone at hz0 hz
  have hcustom : (if k ≠ -1 ∧ CInt.u32 k < zone then CInt.u32 k else zone) =
      if k ≠ -1 ∧ k < zone then k else zone := by
    by_cases hne : k ≠ -1
    · rw [(hk0 hne).2]
    · rw [if_neg fun h => hne h.1, if_neg fun h => hne h.1]
  have hlow := ((show Lowest zone [zone] by simp [Lowest]).lower (k ≠ -1) k).lower
    (s.customChargingMode = true) demoChargingCv
  rw [hcustom]
  generalize hv : (if s.customChargingMode = true ∧
      demoChargingCv < (if k ≠ -1 ∧ k < zone then k else zone) then demoChargingCv
    else if k ≠ -1 ∧ k < zone then k else zone) = v at hlow
  rw [List.append_assoc] at hlow
  -- the result is one of the voltages and not above the zone's: no conversion changes it
  have hv0 : 0 ≤ v := by
    unfold demoChargingCv at hv
    by_cases hne : k ≠ -1
    · have := (hk0 hne).1
      split_ifs at hv <;> omega
    · simp only [hne, false_and, if_false] at hv
      split_ifs at hv <;> omega
  have hvz : v ≤ zone := hlow.2 zone (by simp)
  rw [CInt.i32_eq ⟨by omega, by omega⟩]
  exact hlow

/-! ## One event -/

/-- The invariant: the voltages that `select_cv` reads come from the configuration. -/
structure Chosen (c : Conf) (i : Info) : Prop where
  jeita : JeitaSet c i.swJeita
  top_off : i.customChargingCv = -1 ∨ i.customChargingCv ∈ c.topOffCvs

theorem jeitaSet_step (c : Conf) (r : StatusReading) (j : SwJeita) :
    JeitaSet c (doSwJeitaStateMachine c.thres c.cv r.stage r.batteryTemp j) :=
  fun _ => ⟨r.stage, rfl⟩

/-- What `select_cv` has chosen may be programmed. -/
theorem Chosen.kept {c : Conf} (hc : c.Voltages) {i : Info} (h : Chosen c i) (source : CvSource)
    (stage : Option Int) : (i.cvWrite source (i.selectCv c stage) stage).Kept c := by
  have hlow := selectCv_lowest hc h.jeita h.top_off stage i.set source
  exact ⟨h.jeita, h.top_off, fun _ => hlow,
    fun _ hle => Int.le_trans (hlow.2 _ (List.mem_cons_self ..)) hle⟩

theorem Chosen.atCheck {c : Conf} {i : Info} (h : Chosen c i) (r : PassReading) :
    Chosen c (i.atCheck r) := by
  obtain ⟨_, _, _, _, _, _, _, he, -⟩ := atCheck_frame r i
  rw [he]
  exact ⟨h.jeita, h.top_off⟩

theorem Chosen.mayCharge {c : Conf} {i : Info} (h : Chosen c i) (r : StatusReading) :
    Chosen c (mayCharge c r i).2 := by
  obtain ⟨j, _, _, _, he, hj⟩ := mayCharge_frame c r i
  rw [he]
  refine ⟨?_, h.top_off⟩
  rcases hj with rfl | rfl
  · exact h.jeita
  · exact jeitaSet_step c r i.swJeita

/-- The decision programs at most what was chosen. -/
theorem chargerCheckStatus_writes {c : Conf} (hc : c.Voltages) {i : Info} (h : Chosen c i)
    (r : StatusReading) (chrType : ChrType) :
    (∀ w ∈ (chargerCheckStatus c r chrType i).1, w.Kept c) ∧
      detected (chargerCheckStatus c r chrType i).1 = [] ∧
      Chosen c (chargerCheckStatus c r chrType i).2 := by
  have hm := h.mayCharge r
  rcases chargerCheckStatus_cases c r chrType i with ⟨-, he⟩ | ⟨-, -, he⟩ | ⟨-, -, he⟩
  · rw [he]
    exact ⟨by simp, rfl, h⟩
  · rw [he]
    exact ⟨by simp, rfl, hm.jeita, hm.top_off⟩
  · rw [he]
    exact ⟨List.forall_mem_singleton.2 (hm.kept hc _ _), rfl, hm.jeita, hm.top_off⟩

theorem Chosen.protectedBy {c : Conf} {i : Info} {r : PassReading}
    (h : Chosen c (i.decided c r)) : Chosen c (i.protectedBy c r) := by
  obtain ⟨k, he, hk⟩ := chargerTopOffMode_frame c r.status (i.decided c r)
  unfold Info.protectedBy
  simp only [he]
  refine ⟨h.jeita, ?_⟩
  rcases hk with rfl | rfl | hk
  · exact h.top_off
  · exact Or.inl rfl
  · exact Or.inr hk

/-- Detection programs two voltages or none. -/
theorem ocpWrites_kept {c : Conf} {i : Info} (h : Chosen c i) (r : CurrentReading) (b : Bool) :
    (∀ w ∈ ocpWrites c r i b, w.Kept c) ∧
      (detected (ocpWrites c r i b) = [] ∨
        detected (ocpWrites c r i b) = [c.cv.fresh.batteryCv, r.bakCvUv]) := by
  have hkept : ∀ uV, (i.cvWrite .detection uV r.stage).Kept c := fun uV =>
    ⟨h.jeita, h.top_off, fun hd => absurd rfl hd, fun hd => absurd rfl hd⟩
  cases b with
  | false => exact ⟨by simp [ocpWrites], Or.inl rfl⟩
  | true => exact ⟨by simp [ocpWrites, hkept], Or.inr rfl⟩

theorem detected_append (ws ws' : List CvWrite) :
    detected (ws ++ ws') = detected ws ++ detected ws' := by
  simp [detected]

theorem doAlgorithm_writes {c : Conf} (hc : c.Voltages) {i : Info} (h : Chosen c i)
    (r : AlgReading) :
    (∀ w ∈ (doAlgorithm c r i).1, w.Kept c) ∧
      (detected (doAlgorithm c r i).1 = [] ∨
        detected (doAlgorithm c r i).1 = [c.cv.fresh.batteryCv, r.current.bakCvUv]) ∧
      Chosen c (doAlgorithm c r i).2 := by
  obtain ⟨_, ws, he, hws⟩ := doAlgorithm_frame c r i
  obtain ⟨hkept, hdet⟩ := ocpWrites_kept h r.current (r.select c i).byOcp
  have hcv : (r.select c i).lim.setting.cv = i.selectCv c r.current.stage :=
    selectChargingCurrentLimit_cv c _ i.chrType i.lim i.set i.swJeita i.customChargingCv
  rw [he]
  simp only
  rw [detected_append]
  refine ⟨List.forall_mem_append.2 ⟨hkept, ?_⟩, ?_, h.jeita, h.top_off⟩
  · rcases hws with rfl | rfl
    · simp
    · rw [hcv]
      exact List.forall_mem_singleton.2 (h.kept hc _ _)
  · have hnone : detected ws = [] := by
      rcases hws with rfl | rfl <;> rfl
    rwa [hnone, List.append_nil]

/-- A pass programs what it may. -/
theorem pass_writes {c : Conf} (hc : c.Voltages) {i : Info} (h : Chosen c i) (r : PassReading) :
    (∀ w ∈ (pass c r i).1, w.Kept c) ∧
      (detected (pass c r i).1 = [] ∨
        detected (pass c r i).1 = [c.cv.fresh.batteryCv, r.alg.current.bakCvUv]) ∧
      Chosen c (pass c r i).2 := by
  obtain ⟨hkept, hdet, hdec⟩ := chargerCheckStatus_writes hc (h.atCheck r) r.status r.chrType
  have hprot : Chosen c (i.protectedBy c r) := hdec.protectedBy
  rcases pass_cases c r i with ⟨-, he⟩ | ⟨-, he⟩
  · obtain ⟨hkept', hdet', hch⟩ := doAlgorithm_writes hc hprot r.alg
    rw [he]
    refine ⟨List.forall_mem_append.2 ⟨hkept, hkept'⟩, ?_, hch⟩
    simp only
    rwa [detected_append, hdet, List.nil_append]
  · rw [he]
    exact ⟨hkept, Or.inl hdet, hprot⟩

/-- Outside the passes only a change of the setting programs a voltage. -/
theorem quiet_kept {c : Conf} {e : Ev} {q : Seen} (h : q.writes = []) : WritesKept c (e, q) := by
  refine ⟨fun w hw => ?_, Or.inl ?_⟩
  · rw [h] at hw
    cases hw
  · rw [h]
    rfl

/-- **One event** programs what it may and keeps the invariant. -/
theorem step_writes {c : Conf} (hc : c.Voltages) {x x' : Ctl} {e : Ev} {q : Seen}
    (h : Chosen c x.info) (hs : step c x e = some (q, x')) :
    WritesKept c (e, q) ∧ Chosen c x'.info := by
  have hst := stepped hs
  generalize hout : (q, x') = out at hst
  cases hst with
  | pass r hon =>
    obtain ⟨hkept, hdet, hch⟩ := pass_writes hc h r
    cases hout
    exact ⟨⟨hkept, hdet.imp_right fun hd => ⟨_, rfl, hd⟩⟩, hch⟩
  | changeSetting r =>
    obtain ⟨hkept, hdet⟩ := ocpWrites_kept h r (selectChargingCurrentLimit c r x.info.set
      x.info.chrType x.info.swJeita x.info.customChargingCv x.info.lim).byOcp
    cases hout
    exact ⟨⟨hkept, hdet.imp_right fun hd => ⟨_, rfl, hd⟩⟩, h.jeita, h.top_off⟩
  | currentCmd u d =>
    cases hout
    refine ⟨quiet_kept rfl, ?_⟩
    simp only [Ctl.noted, mtkChgCurrentCmdWrite]
    split_ifs <;> exact ⟨h.jeita, h.top_off⟩
  | plugIn | plugOut | changed | safetyTimeout | vbusOvp | wakeUp | settings | limits =>
    cases hout
    exact ⟨quiet_kept rfl, h.jeita, h.top_off⟩

/-! ## Every run -/

/-- **Every run** from the start programs only what it may. -/
theorem charging_voltage (c : Conf) (hc : c.Voltages) (s : Settings) (evs : List Ev)
    (es : List (Ev × Seen)) (x : Ctl)
    (hrun : Sys.run (step c) (Ctl.start c s) evs = some (es, x)) :
    ∀ e ∈ es, WritesKept c e := by
  have hstart : Chosen c (Ctl.start c s).info := ⟨fun h => absurd rfl h, Or.inl rfl⟩
  have hall := (Sys.run_events (I := fun _ x => Chosen c x.info) (P := fun _ _ => True)
    (G := fun _ e => WritesKept c e) (fun _ _ _ _ _ hi _ hs => step_writes hc hi hs) evs [] es
    (Ctl.start c s) x hstart (Sys.along_of_forall (fun _ _ => trivial) _ _) hrun).1
  intro e he
  obtain ⟨l, post, rfl⟩ := List.append_of_mem he
  exact hall l e post rfl

/-- The defaults, with a top-off voltage for the second stage and with adapter detection. -/
def detConf : Conf :=
  { Conf.defaults with
    topOffModeCvAging2 := 3900000
    det := ⟨true, 1500000, 2000000, 1000000, 1500000, 1800000, 2400000, 3000000⟩ }

/-- A pass of an adapter whose power is to be measured, in the cool of zone `t1` to `t2`. -/
def coolPass (stage : Option Int) : PassReading :=
  let r := PassReading.plain .usbDcp 8
  { r with
    status := { r.status with stage := stage }
    alg := { r.alg with current := { r.alg.current with
      stage := stage, tcpcFound := true, bakCvUv := 4100000, ocpAicl := some 1700000 } } }

theorem detConf_voltages : detConf.Voltages where
  battery st := by
    unfold mtkGetBatteryCv CvData.inForce
    split
    · decide
    · split <;> decide
  jeita st z := by
    unfold CvData.inForce
    split
    · cases z <;> decide
    · split <;> cases z <;> decide
  topOff := by decide

theorem charging_voltage_cool :
    detConf.Voltages ∧ ∃ es x,
      Sys.run (step detConf) (Ctl.start detConf (.defaults true))
        [.plugIn 1, .pass (coolPass none)] = some (es, x) ∧ ∀ e ∈ es, WritesKept detConf e := by
  have hsome : (Sys.run (step detConf) (Ctl.start detConf (.defaults true))
      [.plugIn 1, .pass (coolPass none)]).isSome = true := by decide +kernel
  obtain ⟨⟨es, x⟩, hrun⟩ := Option.isSome_iff_exists.1 hsome
  exact ⟨detConf_voltages, es, x, hrun, charging_voltage detConf detConf_voltages _ _ es x hrun⟩

/-- What the voltage would have to stay below with the battery's voltage in every zone. -/
def CvWrite.BelowAll (c : Conf) (w : CvWrite) : Prop :=
  w.uV ≤ mtkGetBatteryCv c.cv w.stage ∧ ∀ v ∈ w.ceilings c, w.uV ≤ v

instance (c : Conf) (w : CvWrite) : Decidable (w.BelowAll c) :=
  inferInstanceAs (Decidable (_ ∧ _))

/-- Whether every voltage of a run by `source` stays below everything. -/
def allBelow (c : Conf) (s : Settings) (evs : List Ev) (source : CvSource) : Option Bool :=
  (Sys.run (step c) (Ctl.start c s) evs).map fun p =>
    p.1.all fun e => e.2.writes.all fun w => decide (w.source = source → w.BelowAll c)

/-- Detection programs 4.4 V in a zone of 4.24 V; and the voltage of the zone, 4.24 V by default in
every stage, is programmed for a battery whose voltage is 4 V. -/
theorem charging_voltage_above :
    allBelow detConf (.defaults true) [.plugIn 1, .pass (coolPass none)] .detection = some false ∧
    allBelow detConf (.defaults true) [.plugIn 1, .pass (coolPass (some 2))] .doAlgorithm =
      some false := by
  decide +kernel

end Charger
