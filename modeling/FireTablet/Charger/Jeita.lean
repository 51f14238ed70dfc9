import Mathlib

/-!
# The temperature zones of the charger (`mtk_charger.c`)

With SW JEITA the battery temperature lies between five thresholds `t0` to `t4`. The state machine
keeps a zone from one pass to the next, so that a zone near the middle is entered only when the
temperature has passed a hysteresis point behind the threshold. Each zone has a charging voltage of
its own, also for the two stages of an aged battery.
-/

namespace Charger

/-- `enum sw_jeita_state_enum`. -/
inductive JeitaZone
  | belowT0
  | t0ToT1
  | t1ToT2
  | t2ToT3
  | t3ToT4
  | aboveT4
  deriving DecidableEq

/-- The voltages of one ageing stage, in microvolts. -/
structure CvSet where
  batteryCv : Int
  jeitaTempAboveT4Cv : Int
  jeitaTempT3ToT4Cv : Int
  jeitaTempT1ToT2Cv : Int
  jeitaTempT0ToT1Cv : Int
  jeitaTempBelowT0Cv : Int

/-- The thresholds and hysteresis points of `struct charger_custom_data`, in degrees. -/
structure JeitaThres where
  tempT4Thres : Int
  tempT4ThresMinusXDegree : Int
  tempT3Thres : Int
  tempT3ThresMinusXDegree : Int
  tempT2Thres : Int
  tempT2ThresPlusXDegree : Int
  tempT1Thres : Int
  tempT1ThresPlusXDegree : Int
  tempT0Thres : Int
  tempT0ThresPlusXDegree : Int

/-- The voltages of the new battery and of the two stages of `CONFIG_MTK_USE_AGING_ZCV`. -/
structure CvData where
  fresh : CvSet
  aging1 : CvSet
  aging2 : CvSet

/-- The set in force: `stage` is what `get_use_aging_zcv` answers, if it is compiled in. -/
def CvData.inForce (data : CvData) (stage : Option Int) : CvSet :=
  if stage = some 1 then data.aging1
  else if stage = some 2 then data.aging2
  else data.fresh

/-- `mtk_get_battery_cv`. -/
def mtkGetBatteryCv (data : CvData) (stage : Option Int) : Int :=
  (data.inForce stage).batteryCv

/-- The voltage of a zone. In the normal range it is 0: there the voltage is adjusted elsewhere. -/
def CvSet.jeitaCv (c : CvSet) : JeitaZone → Int
  | .aboveT4 => c.jeitaTempAboveT4Cv
  | .t3ToT4 => c.jeitaTempT3ToT4Cv
  | .t2ToT3 => 0
  | .t1ToT2 => c.jeitaTempT1ToT2Cv
  | .t0ToT1 => c.jeitaTempT0ToT1Cv
  | .belowT0 => c.jeitaTempBelowT0Cv

/-- `struct sw_jeita_data`. -/
structure SwJeita where
  sm : JeitaZone
  preSm : JeitaZone
  cv : Int
  charging : Bool
  deriving DecidableEq

/-- The zone and the permission to charge at a temperature, by the zone of the pass before. -/
def jeitaZone (d : JeitaThres) (batteryTemp : Int) (sm : JeitaZone) : JeitaZone × Bool :=
  if d.tempT4Thres ≤ batteryTemp then (.aboveT4, false)
  else if d.tempT3Thres ≤ batteryTemp then
    if sm = .aboveT4 ∧ d.tempT4ThresMinusXDegree ≤ batteryTemp then (sm, false)
    else (.t3ToT4, true)
  else if d.tempT2Thres ≤ batteryTemp then
    if (sm = .t3ToT4 ∧ d.tempT3ThresMinusXDegree ≤ batteryTemp) ∨
        (sm = .t1ToT2 ∧ batteryTemp ≤ d.tempT2ThresPlusXDegree) then (sm, true)
    else (.t2ToT3, true)
  else if d.tempT1Thres ≤ batteryTemp then
    if (sm = .t0ToT1 ∨ sm = .belowT0) ∧ batteryTemp ≤ d.tempT1ThresPlusXDegree then
      -- below `t0` before, the battery is not charged yet; between `t0` and `t1` it is
      (sm, decide (sm ≠ .belowT0))
    else (.t1ToT2, true)
  else if d.tempT0Thres ≤ batteryTemp then
    if sm = .belowT0 ∧ batteryTemp ≤ d.tempT0ThresPlusXDegree then (sm, false)
    else (.t0ToT1, true)
  else (.belowT0, false)

/-- `do_sw_jeita_state_machine`. -/
def doSwJeitaStateMachine (d : JeitaThres) (data : CvData) (stage : Option Int) (batteryTemp : Int)
    (j : SwJeita) : SwJeita :=
  let (sm, charging) := jeitaZone d batteryTemp j.sm
  { sm := sm, preSm := j.sm, cv := (data.inForce stage).jeitaCv sm, charging := charging }

/-- The state after passes that read the given ageing stages and temperatures. -/
def jeitaRun (d : JeitaThres) (data : CvData) (readings : List (Option Int × Int)) (j : SwJeita) :
    SwJeita :=
  readings.foldl (fun j r => doSwJeitaStateMachine d data r.1 r.2 j) j

/-! ## What the zones are for -/

/-- The thresholds are in order, each hysteresis point is on the inner side of its threshold, in
the zone beside it. -/
structure JeitaThres.Ordered (d : JeitaThres) : Prop where
  t0_le_t1 : d.tempT0Thres ≤ d.tempT1Thres
  t1_le_t2 : d.tempT1Thres ≤ d.tempT2Thres
  t2_le_t3 : d.tempT2Thres ≤ d.tempT3Thres
  t3_le_t4 : d.tempT3Thres ≤ d.tempT4Thres
  t0_plus : d.tempT0Thres ≤ d.tempT0ThresPlusXDegree ∧ d.tempT0ThresPlusXDegree ≤ d.tempT1Thres
  t1_plus : d.tempT1Thres ≤ d.tempT1ThresPlusXDegree ∧ d.tempT1ThresPlusXDegree ≤ d.tempT2Thres
  t2_plus : d.tempT2Thres ≤ d.tempT2ThresPlusXDegree ∧ d.tempT2ThresPlusXDegree ≤ d.tempT3Thres
  t3_minus : d.tempT2Thres ≤ d.tempT3ThresMinusXDegree ∧ d.tempT3ThresMinusXDegree ≤ d.tempT3Thres
  t4_minus : d.tempT3Thres ≤ d.tempT4ThresMinusXDegree ∧ d.tempT4ThresMinusXDegree ≤ d.tempT4Thres

/-- The temperatures of a zone. -/
def JeitaThres.Contains (d : JeitaThres) (temp : Int) : JeitaZone → Prop
  | .belowT0 => temp < d.tempT0Thres
  | .t0ToT1 => d.tempT0Thres ≤ temp ∧ temp < d.tempT1Thres
  | .t1ToT2 => d.tempT1Thres ≤ temp ∧ temp < d.tempT2Thres
  | .t2ToT3 => d.tempT2Thres ≤ temp ∧ temp < d.tempT3Thres
  | .t3ToT4 => d.tempT3Thres ≤ temp ∧ temp < d.tempT4Thres
  | .aboveT4 => d.tempT4Thres ≤ temp

/-- The temperature is in the zone one step nearer to the middle, but has not passed the hysteresis
point there. -/
def JeitaThres.Kept (d : JeitaThres) (temp : Int) : JeitaZone → Prop
  | .belowT0 => d.Contains temp .t0ToT1 ∧ temp ≤ d.tempT0ThresPlusXDegree
  | .t0ToT1 => d.Contains temp .t1ToT2 ∧ temp ≤ d.tempT1ThresPlusXDegree
  | .t1ToT2 => d.Contains temp .t2ToT3 ∧ temp ≤ d.tempT2ThresPlusXDegree
  | .t2ToT3 => False
  | .t3ToT4 => d.Contains temp .t2ToT3 ∧ d.tempT3ThresMinusXDegree ≤ temp
  | .aboveT4 => d.Contains temp .t3ToT4 ∧ d.tempT4ThresMinusXDegree ≤ temp

/-- The code also keeps the coldest zone when the temperature rose over two thresholds at once. -/
def JeitaThres.KeptCold (d : JeitaThres) (temp : Int) (z : JeitaZone) : Prop :=
  z = .belowT0 ∧ d.Contains temp .t1ToT2 ∧ temp ≤ d.tempT1ThresPlusXDegree

/-- The temperatures at which a pass from zone `z` allows charging. -/
def JeitaThres.allowed (d : JeitaThres) (z : JeitaZone) : Set Int :=
  {temp | (jeitaZone d temp z).2 = true}

/-- What one pass does, for a rule `kept` by which a zone is kept. -/
structure JeitaPass (d : JeitaThres) (data : CvData) (kept : Int → JeitaZone → Prop)
    (stage : Option Int) (temp : Int) (j j' : SwJeita) : Prop where
  zone_kept : kept temp j.sm → j'.sm = j.sm
  zone_contains : ¬ kept temp j.sm → d.Contains temp j'.sm
  charging_off : j'.charging = false ↔ temp < d.tempT0Thres ∨ d.tempT4Thres ≤ temp ∨
    ((j.sm = .belowT0 ∨ j.sm = .aboveT4) ∧ kept temp j.sm)
  cv_eq : j'.cv = (data.inForce stage).jeitaCv j'.sm
  again : ∃ z, doSwJeitaStateMachine d data stage temp j' = { j' with preSm := z }

end Charger
