import FireTablet.Lib.CInt
import Mathlib.Data.List.Basic

/-!
# USB PD charging (`mtk_pd.c`, `mtk_pd_hal.c`)

The algorithm chooses one of the capabilities that the adapter offers, requests it, and programs the
currents of one or two chargers. The table of the capabilities is read again in every step, and five
indices into it are remembered from step to step. Every function also gives the indices with which
it reads or requests a capability, the prints in the log apart.

The port controller reports capabilities of several types, from which the fixed ones are copied
into the table of the charging algorithm. An access behind the end of an array is `none`.
-/

namespace Pd

open CInt

def pdFailCurrent : Int := 500000
def pdVbusIrDropThreshold : Int := 1200
def pdCapMaxNr : Nat := 10

/-! ## The adapter and the chargers -/

/-- A capability of an adapter. -/
structure Cap where
  minMv : Int
  maxMv : Int
  ma : Int
  maxwatt : Int
  deriving DecidableEq, Repr

/-- An adapter that is plugged in: its capabilities, and the index it last accepted. -/
structure Adapter where
  caps : List Cap
  accepted : Option Int
  le : caps.length ≤ pdCapMaxNr

/-- The registers of a charger. -/
structure Charger where
  chargingCurrent : Int
  inputCurrent : Int
  mivr : Int
  enabled : Bool
  chipEnabled : Bool
  deriving DecidableEq, Repr

/-- `struct pd_power_cap`. -/
structure PowerCap where
  selectedCapIdx : Nat
  nr : Nat
  entry : Int → Cap

/-- `enum pd_state_enum`. -/
inductive State
  | hwUninit
  | hwFail
  | hwReady
  | taNotSupport
  | run
  | tuning
  | postcc
  deriving DecidableEq, Repr

/-- `enum chg_alg_state`. -/
inductive Alg
  | initFail
  | taChecking
  | taNotSupport
  | notReady
  | ready
  | running
  | done
  deriving DecidableEq, Repr

/-- The settings of `mtk_pd_parse_dt`, and whether two chargers work in series. -/
structure Dt where
  vbusL : Int
  vbusH : Int
  vsysWatt : Int
  ibusErr : Int
  slaveMivrDiff : Int
  minChargerVoltage : Int
  pdStopBatterySoc : Int
  scInputCurrent : Int
  scChargerCurrent : Int
  dcsInputCurrent : Int
  dcsChg1ChargerCurrent : Int
  dcsChg2ChargerCurrent : Int
  dualChargersInSeries : Bool

/-- `struct mtk_pd` with the hardware. -/
structure Dev where
  state : State
  cv : Int
  inputCurrentLimit1 : Int
  inputCurrentLimit2 : Int
  chargingCurrentLimit1 : Int
  chargingCurrentLimit2 : Int
  inputCurrent1 : Int
  chargingCurrent1 : Int
  chargingCurrent2 : Int
  cap : PowerCap
  pdCapMaxWatt : Int
  pdIdx : Int
  pdResetIdx : Int
  pdBoostIdx : Int
  pdBuckIdx : Int
  chg1 : Charger
  chg2 : Charger
  adapter : Option Adapter

/-- The answer to a request and what a set-up reads of the chargers before. -/
structure Probe where
  mivr1 : Int
  mivr2 : Int
  chip2 : Bool
  oldMivr : Int
  inputCurrent : Int
  ret : Int

/-- What a call reads of the hardware: the type of the adapter's connection (`none` while it is
being checked), the index the adapter has selected, the charge, the bus, the chargers' loops and
smallest currents (-1 where a charger does not tell), and the set-ups. -/
structure Env where
  pdReady : Option Bool
  selected : Nat
  uisoc : Int
  ibus : Option Int
  vbus : Int
  mivrState1 : Bool
  mivrState2 : Bool
  mivr1 : Int
  mivr2 : Int
  chip2 : Bool
  enabled2 : Bool
  ichg2 : Int
  minChargingCurrent1 : Int
  minChargingCurrent2 : Int
  minInputCurrent1 : Int
  resetProbe : Probe
  probe : Probe

/-! ## The hardware layer -/

/-- `pd_hal_is_pd_adapter_ready`. -/
def pdHalIsPdAdapterReady (d : Dev) (env : Env) : Alg :=
  match d.adapter, env.pdReady with
  | some _, some true => .ready
  | some _, some false => .taNotSupport
  | _, _ => .taChecking

/-- `pd_hal_set_input_current` for the first charger. -/
def setInputCurrent1 (d : Dev) (ua : Int) : Dev :=
  { d with chg1 := { d.chg1 with inputCurrent := ua } }

/-- `pd_hal_set_input_current` for the second charger writes the first one, too. -/
def setInputCurrent2 (d : Dev) (ua : Int) : Dev :=
  { d with
    chg1 := { d.chg1 with inputCurrent := ua }
    chg2 := { d.chg2 with inputCurrent := ua } }

/-- `pd_hal_set_charging_current` for the first charger. -/
def setChargingCurrent1 (d : Dev) (ua : Int) : Dev :=
  { d with chg1 := { d.chg1 with chargingCurrent := ua } }

/-- `pd_hal_set_charging_current` for the second charger writes the first one, too. -/
def setChargingCurrent2 (d : Dev) (ua : Int) : Dev :=
  { d with
    chg1 := { d.chg1 with chargingCurrent := ua }
    chg2 := { d.chg2 with chargingCurrent := ua } }

/-- `pd_hal_enable_charger` for the second charger. -/
def enableCharger2 (d : Dev) (en : Bool) : Dev := { d with chg2 := { d.chg2 with enabled := en } }

/-- `pd_hal_charger_enable_chip` for the second charger. -/
def chargerEnableChip2 (d : Dev) (en : Bool) : Dev :=
  { d with chg2 := { d.chg2 with chipEnabled := en } }

/-- `pd_hal_set_mivr`. -/
def setMivr (dt : Dt) (d : Dev) (chip2 : Bool) (uv : Int) : Dev :=
  let d := { d with chg1 := { d.chg1 with mivr := uv } }
  if chip2 then { d with chg2 := { d.chg2 with mivr := uv + dt.slaveMivrDiff } } else d

/-! ## The table and its indices -/

/-- `pd_hal_get_adapter_cap`: all ten entries are copied. -/
def Adapter.powerCap (a : Adapter) (selected : Nat) : PowerCap :=
  ⟨selected % 256, a.caps.length, fun i => if 0 ≤ i then a.caps.getD i.toNat ⟨0, 0, 0, 0⟩
    else ⟨0, 0, 0, 0⟩⟩

/-- `__mtk_pdc_init_table`; without an adapter that is ready the entries stay. -/
def mtkPdcInitTable (d : Dev) (env : Env) : Dev :=
  match d.adapter, pdHalIsPdAdapterReady d env with
  | some a, .ready => { d with cap := a.powerCap env.selected }
  | _, _ => { d with cap := { d.cap with nr := 0, selectedCapIdx := 255 } }

/-- The indices of the table. -/
def PowerCap.indices (cap : PowerCap) : List Int := (List.range cap.nr).map Int.ofNat

/-- `__mtk_pdc_get_reset_idx`: the last capability at the lower bound of the voltage. -/
def mtkPdcGetResetIdx (dt : Dt) (d : Dev) : Dev :=
  if d.pdResetIdx = -1 then
    { d with pdResetIdx := d.cap.indices.foldl (fun idx i =>
        if (d.cap.entry i).minMv = dt.vbusL ∧ (d.cap.entry i).maxMv = dt.vbusL then i else idx) 0 }
  else d

/-- `__mtk_pdc_get_cap_max_watt`. -/
def mtkPdcGetCapMaxWatt (dt : Dt) (d : Dev) : Dev :=
  if d.pdCapMaxWatt = -1 then
    { d with pdCapMaxWatt := d.cap.indices.foldl (fun watt i =>
        let c := d.cap.entry i
        if c.minMv ≤ dt.vbusH ∧ c.minMv ≥ dt.vbusL ∧ c.maxMv ≤ dt.vbusH ∧ c.maxMv ≥ dt.vbusL ∧
          c.maxwatt > watt then c.maxwatt else watt) (-1) }
  else d

/-- A capability within the bounds of the voltage. -/
def InBounds (dt : Dt) (c : Cap) : Prop :=
  ¬ (c.minMv < dt.vbusL ∨ c.maxMv < dt.vbusL) ∧ ¬ (c.minMv > dt.vbusH ∨ c.maxMv > dt.vbusH)

instance (dt : Dt) (c : Cap) : Decidable (InBounds dt c) := inferInstanceAs (Decidable (_ ∧ _))

/-- The next capability from the selected one in an order of the powers: the first one beyond it,
then any that is nearer. -/
def nextIdx (dt : Dt) (cap : PowerCap) (lt : Int → Int → Bool) (selected : Int) : Int :=
  let watt := fun i => (cap.entry i).maxwatt
  cap.indices.foldl (fun idx i =>
    if ¬ InBounds dt (cap.entry i) then idx
    else if idx = selected then if lt (watt idx) (watt i) then i else idx
    else if lt (watt i) (watt idx) ∧ lt (watt selected) (watt i) then i else idx) selected

/-- `__mtk_pdc_get_idx`, into the indices for more and for less power. -/
def mtkPdcGetIdx (dt : Dt) (d : Dev) (selected : Int) : Dev :=
  if selected < 0 then { d with pdBoostIdx := 0, pdBuckIdx := 0 }
  else
    { d with
      pdBoostIdx := nextIdx dt d.cap (fun x y => x < y) selected
      pdBuckIdx := nextIdx dt d.cap (fun x y => y < x) selected }

/-! ## Requests -/

/-- The voltage is far enough above the limit at which the charger lets it drop. -/
def forceUpdate (dt : Dt) (maxMv : Int) (p : Probe) : Prop :=
  u32 (maxMv - p.mivr1 / 1000) > pdVbusIrDropThreshold ∨
    (dt.dualChargersInSeries = true ∧ p.chip2 = true ∧
      u32 (maxMv - p.mivr2 / 1000) >
        u32 (pdVbusIrDropThreshold - dt.slaveMivrDiff.tdiv 1000))

instance (dt : Dt) (maxMv : Int) (p : Probe) : Decidable (forceUpdate dt maxMv p) :=
  inferInstanceAs (Decidable (_ ∨ _))

/-- The adapter accepts a capability. -/
def accept (d : Dev) (idx : Int) : Dev :=
  { d with adapter := d.adapter.map fun a => { a with accepted := some idx } }

/-- The request of `__mtk_pdc_setup`, with the currents and voltages around it. -/
def requestCap (dt : Dt) (d : Dev) (idx : Int) (p : Probe) : Dev :=
  let c := d.cap.entry idx
  let d := setMivr dt d p.chip2 dt.minChargerVoltage
  let oldMa := p.inputCurrent / 1000
  let d := if oldMa > u32 c.ma then setInputCurrent1 d (c.ma * 1000) else d
  if p.ret = 0 then
    let d := accept d idx
    let d := if oldMa < u32 c.ma then setInputCurrent1 d (c.ma * 1000) else d
    let mivr := dt.minChargerVoltage.tdiv 1000
    let drop := c.maxMv - pdVbusIrDropThreshold
    setMivr dt d p.chip2 ((if u32 drop > mivr then drop else mivr) * 1000)
  else
    let d := if oldMa > u32 c.ma then setInputCurrent1 d (oldMa * 1000) else d
    setMivr dt d p.chip2 p.oldMivr

/-- `__mtk_pdc_setup`. -/
def mtkPdcSetup (dt : Dt) (d : Dev) (idx : Int) (p : Probe) : Dev × List Int :=
  let d :=
    if d.pdIdx ≠ idx ∨ forceUpdate dt (d.cap.entry idx).maxMv p then
      mtkPdcGetIdx dt (requestCap dt d idx p) idx
    else d
  ({ d with pdIdx := idx }, [idx])

/-- `mtk_pdc_reset`. -/
def mtkPdcReset (dt : Dt) (d : Dev) (env : Env) : Dev × List Int :=
  let d := mtkPdcGetResetIdx dt (mtkPdcInitTable d env)
  mtkPdcSetup dt d d.pdResetIdx env.resetProbe

/-- A new choice: the current of a capability in mA, and its index. -/
structure Setting where
  cur : Int
  idx : Int
  deriving DecidableEq, Repr

/-- The choice of `__mtk_pdc_get_setting` by the power in use; the powers are `unsigned int`. -/
def chooseIdx (dt : Dt) (d : Dev) (env : Env) (ibus : Int) : Setting × List Int :=
  let cap := d.cap
  let selected : Int := if pdCapMaxNr ≤ cap.selectedCapIdx then 0 else cap.selectedCapIdx
  let c := cap.entry selected
  let b := cap.entry d.pdBuckIdx
  let pdMaxWatt := u32 (c.maxMv * (c.ma.tdiv 100 * (100 - dt.ibusErr) - 100))
  let nowMaxWatt := u32 (c.maxMv * ibus)
  let pdMinWatt := u32 ((i32 (b.maxMv * b.ma)).tdiv 100 * (100 - dt.ibusErr) - dt.vsysWatt)
  let pdMinWatt := if pdMinWatt ≤ 5000000 then 5000000 else pdMinWatt
  let mivr2 := dt.dualChargersInSeries && env.chip2 && env.mivrState2
  let idx :=
    if nowMaxWatt ≥ pdMaxWatt ∨ env.mivrState1 = true ∨ mivr2 = true then d.pdBoostIdx
    else if nowMaxWatt ≤ pdMinWatt then d.pdBuckIdx
    else selected
  (⟨(cap.entry idx).ma, idx⟩, [selected, d.pdBuckIdx, idx])

/-- A charger holds the bus voltage, and it has dropped further. -/
def dropped (mivrState : Bool) (vbus mivr : Int) : Prop :=
  mivrState = true ∧ u32 vbus < u32 (mivr / 1000 - 500)

instance (mivrState : Bool) (vbus mivr : Int) : Decidable (dropped mivrState vbus mivr) :=
  inferInstanceAs (Decidable (_ ∧ _))

/-- `__mtk_pdc_get_setting`. -/
def mtkPdcGetSetting (dt : Dt) (d : Dev) (env : Env) : (Option Setting × Dev) × List Int :=
  let d := mtkPdcGetCapMaxWatt dt (mtkPdcGetResetIdx dt (mtkPdcInitTable d env))
  if d.cap.nr = 0 then ((none, d), [])
  else
    match env.ibus with
    | none => ((none, d), [])
    | some ibus =>
      let ibus := if ibus.tdiv 1000 = 0 then 1000 else ibus.tdiv 1000
      if dropped env.mivrState1 env.vbus env.mivr1 ∨ (dt.dualChargersInSeries = true ∧
          env.chip2 = true ∧ dropped env.mivrState2 env.vbus env.mivr2) then
        let r := mtkPdcReset dt d env
        ((some ⟨(r.1.cap.entry r.1.pdResetIdx).ma, r.1.pdResetIdx⟩, r.1), r.2 ++ [r.1.pdResetIdx])
      else
        let r := chooseIdx dt d env ibus
        ((some r.1, d), r.2)

/-! ## The chargers -/

/-- A current under a limit and above a smallest one. -/
def limited (configured limit smallest : Int) : Int :=
  if limit ≠ -1 ∧ limit < configured then if limit < smallest then 0 else limit else configured

/-- `pd_sc_set_charger`; `false` is its -1. -/
def pdScSetCharger (dt : Dt) (d : Dev) (env : Env) : Bool × Dev :=
  if d.inputCurrentLimit1 = 0 ∨ d.chargingCurrentLimit1 = 0 then (false, d)
  else
    let d :=
      if d.chargingCurrentLimit1 ≠ -1 then
        let d := if d.chargingCurrentLimit1 < dt.scChargerCurrent then
          { d with chargingCurrent1 := d.chargingCurrentLimit1 } else d
        if d.chargingCurrentLimit1 < env.minChargingCurrent1 then { d with chargingCurrent1 := 0 }
        else d
      else { d with chargingCurrent1 := dt.scChargerCurrent }
    let d := { d with
      inputCurrent1 := limited dt.scInputCurrent d.inputCurrentLimit1 env.minInputCurrent1 }
    if d.inputCurrent1 = 0 ∨ d.chargingCurrent1 = 0 then (false, d)
    else (true, setInputCurrent1 (setChargingCurrent1 d d.chargingCurrent1) d.inputCurrent1)

/-- `pd_dcs_set_charger`; `false` is its -1. -/
def pdDcsSetCharger (dt : Dt) (d : Dev) (env : Env) : Bool × Dev :=
  if d.inputCurrentLimit1 = 0 ∨ d.chargingCurrentLimit1 = 0 ∨ d.chargingCurrentLimit2 = 0 then
    (false, d)
  else
    let current2 := if d.state = .run then dt.dcsChg2ChargerCurrent else d.chargingCurrent2
    let d := { d with
      inputCurrent1 := limited dt.dcsInputCurrent d.inputCurrentLimit1 env.minInputCurrent1
      chargingCurrent1 :=
        limited dt.dcsChg1ChargerCurrent d.chargingCurrentLimit1 env.minChargingCurrent1
      chargingCurrent2 := limited current2 d.chargingCurrentLimit2 env.minChargingCurrent2 }
    if d.inputCurrent1 = 0 ∨ d.chargingCurrent1 = 0 ∨ d.chargingCurrent2 = 0 then
      (false, chargerEnableChip2 (enableCharger2 d false) false)
    else
      let up := fun d => enableCharger2 (if env.chip2 then d else chargerEnableChip2 d true) true
      let d :=
        match d.state with
        | .run =>
          setChargingCurrent2 (setInputCurrent2 (up d) d.chargingCurrent2) d.chargingCurrent2
        | .tuning => up d
        | _ => d
      (true, setInputCurrent1 (setChargingCurrent1 d d.chargingCurrent1) d.inputCurrent1)

/-- The limits that a choice brings. -/
def limitBy (d : Dev) : Option Setting → Dev
  | some s =>
    if d.inputCurrentLimit1 ≠ -1 ∧ d.inputCurrentLimit1 < s.cur * 1000 then d
    else { d with inputCurrentLimit1 := s.cur * 1000 }
  | none => { d with inputCurrentLimit1 := pdFailCurrent, chargingCurrentLimit1 := pdFailCurrent }

/-- The chargers of the configuration. -/
def setCharger (dt : Dt) (d : Dev) (env : Env) : Bool × Dev :=
  if dt.dualChargersInSeries then pdDcsSetCharger dt d env else pdScSetCharger dt d env

/-- `__pd_run`. -/
def pdRun (dt : Dt) (d : Dev) (env : Env) : (Alg × Dev) × List Int :=
  let r := mtkPdcGetSetting dt d env
  let setting := r.1.1.filter fun s => s.idx ≠ -1
  let d := limitBy r.1.2 setting
  let u := match setting with
    | some s => mtkPdcSetup dt d s.idx env.probe
    | none => (d, [])
  let q := setCharger dt u.1 env
  ((if q.1 then .running else .done, q.2), r.2 ++ u.2)

/-! ## The calls -/

/-- The limits and the charge leave the algorithm free to run. -/
def free (dt : Dt) (d : Dev) (env : Env) : Bool :=
  d.inputCurrentLimit1 = -1 ∧ d.chargingCurrentLimit1 = -1 ∧ d.inputCurrentLimit2 = -1 ∧
    d.chargingCurrentLimit2 = -1 ∧ env.uisoc < dt.pdStopBatterySoc

/-- `_pd_is_algo_ready`. -/
def pdIsAlgoReady (dt : Dt) (d : Dev) (env : Env) : Alg × Dev :=
  match d.state with
  | .hwUninit | .hwFail => (.initFail, d)
  | .hwReady =>
    match pdHalIsPdAdapterReady d env with
    | .ready => (if free dt d env then .ready else .notReady, d)
    | .taChecking => (.taChecking, d)
    | r => (r, { d with state := .taNotSupport })
  | .taNotSupport => (.taNotSupport, d)
  | .run | .tuning | .postcc => (.running, d)

/-- `_pd_start_algo`. -/
def pdStartAlgo (dt : Dt) (d : Dev) (env : Env) : (Alg × Dev) × List Int :=
  match d.state with
  | .hwUninit | .hwFail => ((.initFail, d), [])
  | .hwReady =>
    match pdHalIsPdAdapterReady d env with
    | .taNotSupport => ((.taNotSupport, { d with state := .taNotSupport }), [])
    | .ready =>
      if free dt d env then pdRun dt { d with state := .run } env else ((.notReady, d), [])
    | r => ((r, d), [])
  | .taNotSupport => ((.taNotSupport, d), [])
  | .run | .tuning | .postcc => pdRun dt d env

/-- The second charger is switched off where there are two. -/
def disable2 (dt : Dt) (d : Dev) : Dev :=
  if dt.dualChargersInSeries then chargerEnableChip2 (enableCharger2 d false) false else d

/-- `_pd_stop_algo`. -/
def pdStopAlgo (dt : Dt) (d : Dev) (env : Env) : Dev × List Int :=
  match d.state with
  | .run | .tuning | .postcc =>
    let r := mtkPdcReset dt d env
    let d := setInputCurrent1 (setChargingCurrent1 r.1 pdFailCurrent) pdFailCurrent
    (disable2 dt { d with state := .hwReady }, r.2)
  | _ => (d, [])

/-- `pd_full_evt`. -/
def pdFullEvt (dt : Dt) (d : Dev) (env : Env) : Dev :=
  match d.state with
  | .run | .tuning | .postcc =>
    if dt.dualChargersInSeries then
      if ¬ env.enabled2 ∨ ¬ env.chip2 then { d with state := .hwReady }
      else if env.ichg2 - 500000 ≤ env.minChargingCurrent2 then
        enableCharger2 { d with state := .postcc } false
      else
        let d := { d with
          state := .tuning
          chargingCurrent2 := if d.chargingCurrent2 ≥ 500000 then env.ichg2 - 500000
            else d.chargingCurrent2 }
        setChargingCurrent2 d d.chargingCurrent2
    else if d.state = .run then { d with state := .hwReady } else d
  | _ => d

/-- `pd_plugout_reset`, when the adapter has gone. -/
def pdPlugoutReset (dt : Dt) (d : Dev) : Dev :=
  let d := { d with adapter := none }
  match d.state with
  | .hwUninit | .hwFail | .hwReady => d
  | .taNotSupport => { d with state := .hwReady }
  | .run | .tuning | .postcc =>
    let d := disable2 dt { d with state := .hwReady }
    { d with
      pdCapMaxWatt := -1
      pdIdx := -1
      pdResetIdx := -1
      pdBoostIdx := 0
      pdBuckIdx := 0 }

/-- `struct chg_limit_setting`. -/
structure LimitSetting where
  cv : Int
  inputCurrentLimit1 : Int
  inputCurrentLimit2 : Int
  chargingCurrentLimit1 : Int
  chargingCurrentLimit2 : Int

/-- `_pd_set_setting`. -/
def pdSetSetting (d : Dev) (s : LimitSetting) : Dev :=
  { d with
    cv := s.cv
    inputCurrentLimit1 := s.inputCurrentLimit1
    inputCurrentLimit2 := s.inputCurrentLimit2
    chargingCurrentLimit1 := s.chargingCurrentLimit1
    chargingCurrentLimit2 := s.chargingCurrentLimit2 }

/-- What happens: an adapter is plugged in, a call with what it reads, a setting, or the adapter is
plugged out. -/
inductive Event
  | plugIn (caps : List Cap) (le : caps.length ≤ pdCapMaxNr)
  | isAlgoReady (env : Env)
  | startAlgo (env : Env)
  | stopAlgo (env : Env)
  | full (env : Env)
  | plugOut
  | setSetting (s : LimitSetting)

/-- What a call returns, and the indices it used. -/
structure Out where
  ret : Option Alg
  used : List Int

/-- One event. -/
def step (dt : Dt) (d : Dev) : Event → Option (Out × Dev)
  | .plugIn caps le =>
    some (⟨none, []⟩, if d.adapter.isSome then d else { d with adapter := some ⟨caps, none, le⟩ })
  | .isAlgoReady env =>
    let r := pdIsAlgoReady dt d env
    some (⟨some r.1, []⟩, r.2)
  | .startAlgo env =>
    let r := pdStartAlgo dt d env
    some (⟨some r.1.1, r.2⟩, r.1.2)
  | .stopAlgo env =>
    let r := pdStopAlgo dt d env
    some (⟨none, r.2⟩, r.1)
  | .full env => some (⟨none, []⟩, pdFullEvt dt d env)
  | .plugOut => some (⟨none, []⟩, pdPlugoutReset dt d)
  | .setSetting s => some (⟨none, []⟩, pdSetSetting d s)

/-- `_pd_init_algo` with the hardware found, from a zeroed structure. -/
def initAlgo (chg1 chg2 : Charger) : Dev :=
  ⟨.hwReady, 0, 0, 0, 0, 0, 0, 0, 0, ⟨0, 0, fun _ => ⟨0, 0, 0, 0⟩⟩, -1, -1, -1, 0, 0, chg1, chg2,
    none⟩

/-! ## The capabilities that an adapter reports (`mtk_pd_adapter.c`, `mtk_pd_hal.c`) -/

def pdoMaxNr : Nat := 7
def adapterCapMaxNr : Nat := 10

/-- `MTK_PD`, as `type` of a capability. -/
def mtkPd : Nat := 2

/-- A capability of `struct tcpm_remote_power_cap`; the type 0 is a fixed one. -/
structure RemoteCap where
  maxMv : Int
  minMv : Int
  ma : Int
  type : Nat

/-- `struct tcpm_remote_power_cap`; the index counts from 1. -/
structure RemotePowerCap where
  selectedCapIdx : Fin 256
  caps : List RemoteCap

/-- `struct adapter_power_cap`, of which entries are written. -/
structure AdapterPowerCap where
  selectedCapIdx : Fin 256
  nr : Nat
  maxMv : Nat → Int
  minMv : Nat → Int
  ma : Nat → Int
  maxwatt : Nat → Int
  minwatt : Nat → Int
  type : Nat → Nat

def set {α : Type} (f : Nat → α) (j : Nat) (x : α) : Nat → α := fun k => if k = j then x else f k

/-- The body of the loop over the remote capabilities, with `j` fixed ones before. The current in
the powers is read at the position of the remote capability. -/
def copyCap (s : AdapterPowerCap × Nat) (x : RemoteCap × Nat) :
    Option (AdapterPowerCap × Nat) :=
  let (t, j) := s
  let (c, i) := x
  if pdoMaxNr ≤ i then none
  else if c.type = 0 ∧ j < adapterCapMaxNr then
    if adapterCapMaxNr ≤ i then none
    else
      let ma := set t.ma j c.ma
      some ({ t with
        type := set t.type j mtkPd
        ma := ma
        maxMv := set t.maxMv j c.maxMv
        minMv := set t.minMv j c.minMv
        maxwatt := set t.maxwatt j (i32 (c.maxMv * ma i))
        minwatt := set t.minwatt j (i32 (c.minMv * ma i)) }, j + 1)
  else some (t, j)

/-- `pd_get_cap` for `MTK_PD`. -/
def pdGetCap (tacap : AdapterPowerCap) (remote : RemotePowerCap) : Option AdapterPowerCap :=
  if remote.caps = [] then some tacap
  else do
    let (t, j) ← remote.caps.zipIdx.foldlM copyCap
      ({ tacap with selectedCapIdx := remote.selectedCapIdx - 1 }, 0)
    return { t with nr := j }

/-- A zeroed structure. -/
def AdapterPowerCap.zero : AdapterPowerCap :=
  ⟨0, 0, fun _ => 0, fun _ => 0, fun _ => 0, fun _ => 0, fun _ => 0, fun _ => 0⟩

/-- `pd_hal_get_adapter_cap` into the table of the algorithm, of which ten entries are copied. -/
def pdHalGetAdapterCap (remote : RemotePowerCap) : Option PowerCap :=
  (pdGetCap .zero remote).map fun t =>
    ⟨t.selectedCapIdx, t.nr, fun i =>
      if 0 ≤ i ∧ i < 10 then ⟨t.minMv i.toNat, t.maxMv i.toNat, t.ma i.toNat, t.maxwatt i.toNat⟩
      else ⟨0, 0, 0, 0⟩⟩

end Pd
