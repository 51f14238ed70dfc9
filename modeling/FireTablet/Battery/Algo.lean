import Mathlib.Data.List.Basic
import FireTablet.Lib.CInt

/-!
# The fuel gauge algorithm (`mtk_battery_algo.c`)

Charges are in units of 0.01 %, the coulomb counter and capacities in 0.1 mAh. The counter can read
anything every time it is read: an event brings the readings that its handlers make, in order.
`none` is a division by zero in one of the two functions that divide by the charge or the capacity.
-/

namespace Battery

open CInt

def carMinGap : Int := 15

/-- Division of two `int`s. -/
def div (a b : Int) : Option Int := if b = 0 then none else some (i32 (a.tdiv b))

/-! ## The battery table -/

/-- An entry of the profile that is constructed for the temperature. -/
structure Node where
  mah : Nat
  voltage : Nat

/-- What is constructed for a temperature: the profile and the full capacity. -/
structure Table where
  nodes : List Node
  qmax : Int
  nonempty : nodes ≠ []
  pos : 0 < qmax

/-- An entry of the profile in use, with its depth of discharge as an `unsigned short`. -/
structure Point where
  voltage : Int
  percentage : Int

/-- The percentages for a capacity, in `unsigned int` arithmetic. -/
def Table.points (t : Table) : List Point :=
  t.nodes.map fun n => ⟨n.voltage % 65536, u32 (n.mah * 10000) / t.qmax % 65536⟩

/-- `interpolation`; `lookup` calls it with the keys of a miss and of a hit, which differ. -/
def interpolation (i1 b1 i2 b2 i : Int) : Int :=
  i32 ((i32 (i32 (b2 - b1) * i32 (i - i1))).tdiv (i2 - i1) + b1)

/-- The value at `x`: that of the first entry if it is hit, of the last one if none is, and between
the first entry that is hit and the one before it otherwise. -/
def lookup (hit : Point → Bool) (key value : Point → Int) (x : Int) : List Point → Int
  | [] => 0
  | p :: ps => if hit p then value p else go p ps
where
  go (prev : Point) : List Point → Int
    | [] => value prev
    | p :: ps =>
      if hit p then interpolation (key prev) (value prev) (key p) (value p) x else go p ps

/-- `SOC_to_OCV_c`. -/
def socToOcvC (ps : List Point) (soc : Int) : Int :=
  let dod := i32 (10000 - soc)
  lookup (fun p => dod ≤ p.percentage) Point.percentage Point.voltage dod ps

/-- `DOD_to_OCV_c`. -/
def dodToOcvC (ps : List Point) (dod : Int) : Int :=
  lookup (fun p => dod ≤ p.percentage) Point.percentage Point.voltage dod ps

/-- `OCV_to_DOD_c`. -/
def ocvToDodC (ps : List Point) (ocv : Int) : Int :=
  lookup (fun p => p.voltage ≤ ocv) Point.voltage Point.percentage ocv ps

/-- `OCV_to_SOC_c`. -/
def ocvToSocC (ps : List Point) (ocv : Int) : Int := i32 (10000 - ocvToDodC ps ocv)

/-! ## The state -/

/-- The settings of `struct fuel_gauge_custom_data` that the algorithm reads. -/
structure Cust where
  agingSel : Int
  d0Sel : Int
  diffSocSetting : Int
  vbat2DetVoltage1 : Int
  vbat2DetVoltage2 : Int
  vbat2DetVoltage3 : Int

/-- `struct mtk_battery_algo`. -/
structure Algo where
  points : List Point
  qmaxT0maTb1 : Int
  agingFactor : Int
  quseTb1 : Int
  car : Int
  prevCarBat0 : Int
  htGap : Int
  ltGap : Int
  fgBatInt1Gap : Int
  soc : Int
  uiSoc : Int
  fgCD0Ocv : Int
  fgCD0Dod : Int
  fgCD0Soc : Int
  fgCDod : Int
  fgCSoc : Int
  lowTrackingEnable : Bool
  fgVbat2Lt : Int
  fgVbat2Ht : Int
  dodInitDone : Bool

/-- The parts of `struct mtk_battery` in use: the algorithm, the charge and the displayed charge in
percent, and what is kept in the gauge for the next start. -/
structure Gm where
  algo : Algo
  soc : Int
  uiSoc : Int
  rtcUiSoc : Int
  con0Soc : Int

/-! ## Capacity and thresholds -/

section
variable (cust : Cust)

/-- The capacity in use, `fgr_update_quse(gm, 1)`. -/
def quse (qmax agingFactor : Int) : Int :=
  (i32 (qmax * if cust.agingSel = 1 then 0 else agingFactor)).tdiv 10000

def fgrUpdateQuse (a : Algo) : Algo :=
  { a with quseTb1 := quse cust a.qmaxT0maTb1 a.agingFactor }

/-- The gap up to the next rise. -/
def htGapOf (q uiSoc : Int) : Int :=
  let gap := q.tdiv 100
  let gap := if gap < q.tdiv 1000 then q.tdiv 1000 else gap
  let gap := if uiSoc ≤ 100 then q.tdiv 200 else gap
  if gap < carMinGap then carMinGap else gap

/-- The gap down to the next fall, from its quotient by the displayed charge. -/
def ltGapOf (q uiSoc quotient : Int) : Int :=
  let gap := if quotient < q.tdiv 1000 then q.tdiv 1000 else quotient
  let gap := if uiSoc ≤ 100 then q.tdiv 200 else gap
  if gap < carMinGap then carMinGap else gap

/-- `fgr_update_uisoc_threshold`, with the reading of the counter. -/
def fgrUpdateUisocThreshold (a : Algo) (car : Int) : Option Algo :=
  let a := fgrUpdateQuse cust { a with car := car }
  let dRemain := (i32 (a.soc * a.quseTb1)).tdiv 10000
  (div (i32 (dRemain * cust.diffSocSetting)) a.uiSoc).map fun quotient =>
    { a with
      htGap := htGapOf a.quseTb1 a.uiSoc
      ltGap := ltGapOf a.quseTb1 a.uiSoc quotient }

/-- `Set_fg_c_d0_by_ocv`. -/
def setFgCD0ByOcv (a : Algo) (ocv : Int) : Algo :=
  { a with
    fgCD0Ocv := ocv
    fgCD0Dod := ocvToDodC a.points ocv
    fgCD0Soc := i32 (10000 - ocvToDodC a.points ocv) }

/-- `fgr_update_c_dod`. -/
def fgrUpdateCDod (a : Algo) (car : Int) : Option Algo :=
  let a := fgrUpdateQuse cust { a with car := car }
  let a := setFgCD0ByOcv a a.fgCD0Ocv
  (div (i32 (a.car * 10000)) a.quseTb1).map fun quotient =>
    let dod := i32 (a.fgCD0Dod - quotient)
    { a with
      fgCDod := dod
      fgCSoc := i32 (10000 - dod) }

/-- `fgr_set_soc_by_vc_mode`. -/
def fgrSetSocByVcMode (a : Algo) : Algo := { a with soc := a.fgCSoc }

/-- `fgr_update_fg_bat_int1_threshold`. -/
def fgrUpdateFgBatInt1Threshold (a : Algo) : Algo :=
  let gap := (i32 (a.quseTb1 * cust.diffSocSetting)).tdiv 10000
  { a with fgBatInt1Gap := if gap < carMinGap then carMinGap else gap }

/-! ## The handlers -/

/-- The hundredfold distance of two readings. -/
def moved (prev car : Int) : Int :=
  let delta := i32 (prev - car)
  i32 (i32 (if delta < 0 then -delta else delta) * 100)

/-- `fgr_construct_table_by_temp` and `fgr_construct_vboot` put the table for the temperature in
use. -/
def fgrConstructTable (t : Table) (a : Algo) : Algo :=
  { a with
    points := t.points
    qmaxT0maTb1 := t.qmax
    agingFactor := if a.agingFactor > 10000 then 10000 else a.agingFactor }

/-- `fgr_temp_c_int_handler`. -/
def fgrTempCIntHandler (t : Table) (a : Algo) (c : Nat → Int) : Option Algo :=
  (fgrUpdateCDod cust (fgrConstructTable t a) (c 0)).map fgrSetSocByVcMode

/-- `fgr_bat_int1_handler`. -/
def fgrBatInt1Handler (a : Algo) (c : Nat → Int) : Option Algo :=
  (fgrUpdateCDod cust a (c 0)).map fun a =>
    fgrSetSocByVcMode (fgrUpdateFgBatInt1Threshold cust a)

/-- The thresholds after a change of the displayed charge, `fgr_update_uisoc_ht` and
`fgr_update_uisoc_lt`. -/
def fgrUpdateUisocGaps (a : Algo) (c : Nat → Int) : Option Algo := do
  let a ← fgrUpdateUisocThreshold cust a (c 0)
  fgrUpdateUisocThreshold cust a (c 1)

/-- `fgr_bat_int2_h_handler`. -/
def fgrBatInt2HHandler (a : Algo) (c : Nat → Int) : Option Algo := do
  let a ← fgrUpdateUisocThreshold cust a (c 1)
  let gap := (moved a.prevCarBat0 (c 0)).tdiv a.htGap
  let gap := if gap > 100 then 100 else gap
  let a := if gap > 0 then { a with prevCarBat0 := c 0 } else a
  let ui := if a.uiSoc ≥ 10000 then 10000
    else if i32 (a.uiSoc + gap) ≥ 10000 then 10000 else i32 (a.uiSoc + gap)
  fgrUpdateUisocGaps cust { a with uiSoc := ui } fun n => c (n + 2)

/-- The fall of `fgr_bat_int2_l_handler` for a distance. -/
def fallGap (a : Algo) (distance : Int) : Int :=
  let gap := distance.tdiv a.ltGap
  let gap := if a.uiSoc > a.soc ∧ a.soc ≥ 100 then (i32 (gap * a.uiSoc)).tdiv a.soc else gap
  let gap := if gap > 100 then 100 else gap
  if gap < 0 then 0 else gap

/-- The displayed charge after a fall: without a charger it stops at 1 %. -/
def fallTo (charger : Bool) (uiSoc gap : Int) : Int :=
  if charger then i32 (uiSoc - gap)
  else if uiSoc ≤ 100 then if uiSoc = 0 then 0 else 100
  else if i32 (uiSoc - gap) < 100 then 100 else i32 (uiSoc - gap)

/-- `fgr_bat_int2_l_handler`. -/
def fgrBatInt2LHandler (charger : Bool) (a : Algo) (c : Nat → Int) : Option Algo := do
  let a ← fgrUpdateUisocThreshold cust a (c 1)
  let gap := fallGap a (moved a.prevCarBat0 (c 0))
  let a := if gap > 0 then { a with prevCarBat0 := c 0 } else a
  fgrUpdateUisocGaps cust { a with uiSoc := fallTo charger a.uiSoc gap } fun n => c (n + 2)

/-- `fgr_bat_int2_handler`. -/
def fgrBatInt2Handler (charger : Bool) (a : Algo) (c : Nat → Int) : Option Algo :=
  if c 0 > a.prevCarBat0 then fgrBatInt2HHandler cust a fun n => c (n + 1)
  else if c 0 < a.prevCarBat0 then fgrBatInt2LHandler cust charger a fun n => c (n + 1)
  else some a

/-- `fgr_time_handler`. -/
def fgrTimeHandler (charger : Bool) (a : Algo) : Algo :=
  if a.lowTrackingEnable ∧ ¬ charger then
    if i32 (a.uiSoc - 100) ≤ 0 then { a with uiSoc := 0, lowTrackingEnable := false }
    else { a with uiSoc := i32 (a.uiSoc - 100) }
  else a

/-- `fgr_vbat2_h_int_handler`. -/
def fgrVbat2HIntHandler (a : Algo) : Algo := { a with fgVbat2Lt := cust.vbat2DetVoltage1 }

/-- `fgr_vbat2_l_int_handler`. -/
def fgrVbat2LIntHandler (a : Algo) : Algo :=
  if a.fgVbat2Lt = cust.vbat2DetVoltage1 then
    { a with fgVbat2Lt := cust.vbat2DetVoltage2, fgVbat2Ht := cust.vbat2DetVoltage3 }
  else a

/-! ## Publishing -/

/-- `uisoc_set`: the displayed charge is published in percent. -/
def uisocSet (g : Gm) (val : Int) : Gm :=
  { g with uiSoc := (i32 ((if val < 0 then 0 else val) + 50)).tdiv 100 }

/-- The charge kept for the next start, where it counts as full from `full` on. -/
def con0 (soc full : Int) : Int := if soc ≤ 100 then 100 else if soc ≥ full then 10000 else soc

/-- The charges are published and kept for the next start. -/
def publish (full : Int) (g : Gm) : Gm :=
  { uisocSet g g.algo.uiSoc with
    soc := (i32 (g.algo.soc + 50)).tdiv 100
    rtcUiSoc := (i32 (g.algo.uiSoc + 50)).tdiv 100
    con0Soc := con0 g.algo.soc full }

/-- `fgr_int_end_flow`. -/
def fgrIntEndFlow (g : Gm) (car shutdownCond : Int) : Gm :=
  let g := { g with algo := { g.algo with car := car } }
  let g := if g.algo.dodInitDone then publish 10000 g else g
  if shutdownCond ≠ 1 then { g with algo := { g.algo with lowTrackingEnable := false } } else g

/-- `fgr_dlpt_sd_handler`. -/
def fgrDlptSdHandler (g : Gm) : Gm :=
  let g := { g with uiSoc := 0, algo := { g.algo with lowTrackingEnable := false } }
  uisocSet g g.algo.uiSoc

/-! ## Events -/

/-- The interrupts. -/
inductive Intr
  | batTmpCHt
  | batTmpCLt
  | batInt1Ht
  | batInt1Lt
  | batInt2Ht
  | batInt2Lt
  | fgTime
  | shutdown
  | dlptSd
  | vbat2H
  | vbat2L
  | other
  deriving DecidableEq, Repr

/-- An event: the interrupt, the readings of the counter while it is handled, whether a charger is
present, the shutdown condition, and the table for the temperature. -/
structure Event where
  intr : Intr
  coulomb : Nat → Int
  charger : Bool
  shutdownCond : Int
  table : Table

/-- `do_fg_algo`. -/
def doFgAlgo (g : Gm) (e : Event) : Option Gm :=
  let c := e.coulomb
  let last := fun (n : Nat) (a : Algo) => fgrIntEndFlow { g with algo := a } (c n) e.shutdownCond
  match e.intr with
  | .batTmpCHt | .batTmpCLt => (fgrTempCIntHandler cust e.table g.algo c).map (last 1)
  | .batInt1Ht | .batInt1Lt => do
    let a ← fgrBatInt1Handler cust g.algo c
    let a ← fgrBatInt2Handler cust e.charger a fun n => c (n + 1)
    pure (last 6 a)
  | .batInt2Ht => do
    let a ← fgrBatInt2HHandler cust g.algo c
    let a ← fgrBatInt1Handler cust a fun n => c (n + 4)
    pure (last 5 a)
  | .batInt2Lt => do
    let a ← fgrBatInt2LHandler cust e.charger g.algo c
    let a ← fgrBatInt1Handler cust a fun n => c (n + 4)
    pure (last 5 a)
  | .fgTime => some (last 0 (fgrTimeHandler e.charger g.algo))
  | .shutdown => some (last 0 { g.algo with lowTrackingEnable := true })
  | .dlptSd => some (fgrIntEndFlow (fgrDlptSdHandler g) (c 0) e.shutdownCond)
  | .vbat2H => some (last 0 (fgrVbat2HIntHandler cust g.algo))
  | .vbat2L => some (last 0 (fgrVbat2LIntHandler cust g.algo))
  | .other => some g

/-- One event. -/
def step (g : Gm) (e : Event) : Option (Unit × Gm) := (doFgAlgo cust g e).map fun g => ((), g)

/-! ## The start -/

/-- What the start reads: the table, the charges kept in the gauge, the battery voltage, and the
counter. -/
structure Start where
  table : Table
  con0Soc : Int
  con0Uisoc : Int
  ptimVoltage : Int
  coulomb : Nat → Int

/-- The displayed charge to start from, and the charge. -/
def Start.d0 (st : Start) : Int × Int :=
  let rtc := i32 (100 * st.con0Uisoc)
  if rtc = 0 ∨ st.con0Soc = 0 then
    let soc := ocvToSocC st.table.points (i32 (st.ptimVoltage * 10))
    (if soc < 0 then 0 else soc, soc)
  else (rtc, i32 (100 * st.con0Soc))

/-- `fgr_dod_init`. -/
def fgrDodInit (st : Start) (a : Algo) (car : Int) : Option Algo :=
  let a := setFgCD0ByOcv a (socToOcvC a.points st.d0.2)
  -- the customer's functions for a start of its own return their argument
  let a := if cust.d0Sel = 1 then setFgCD0ByOcv a (socToOcvC a.points a.fgCD0Soc) else a
  (fgrUpdateCDod cust a car).map fun a =>
    { fgrSetSocByVcMode { a with uiSoc := st.d0.1 } with dodInitDone := true }

/-- `fgr_set_int1`. -/
def fgrSetInt1 (g : Gm) (c : Nat → Int) : Option Gm :=
  let a := fgrUpdateFgBatInt1Threshold cust (fgrUpdateQuse cust g.algo)
  (fgrUpdateUisocGaps cust { a with prevCarBat0 := c 0 } fun n => c (n + 1)).map fun a =>
    publish 12000 { g with algo := { a with fgVbat2Lt := cust.vbat2DetVoltage1 } }

/-- `battery_algo_init` with a battery. -/
def batteryAlgoInit (g : Gm) (st : Start) : Option Gm := do
  let a := fgrConstructTable st.table { g.algo with agingFactor := 10000 }
  let a ← fgrDodInit cust st a (st.coulomb 0)
  fgrSetInt1 cust { g with algo := a } fun n => st.coulomb (n + 1)

end

end Battery
