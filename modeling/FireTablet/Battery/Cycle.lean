import FireTablet.Lib.CInt

/-!
# Battery cycles counted in software (`mtk_battery_daemon.c`, `mtk_battery.c`)

`fg_sw_bat_cycle_accu` adds what the coulomb counter fell since the last call to an accumulator,
and wakes the fuel gauge algorithm when that reaches a threshold. `reset_set` has it called before
it resets the counter.
-/

namespace Battery

open CInt

/-- `GAUGE_HW_V1000`. -/
def gaugeHwV1000 : Int := 1000

/-- `GAUGE_HW_V2000`. -/
def gaugeHwV2000 : Int := 2000

/-- The fields of `struct mtk_battery` that count cycles. -/
structure CycleCount where
  batCycleThr : Int
  batCycleCar : Int
  batCycleNcar : Int
  deriving DecidableEq

/-- `fg_sw_bat_cycle_accu`, given the gauge's version and its counter: whether the algorithm is
woken with `FG_INTR_BAT_CYCLE`. -/
def fgSwBatCycleAccu (gaugeVersion : Int) (gm : CycleCount) (fgCoulomb : Int) : Bool × CycleCount :=
  let diffCar := i32 (fgCoulomb - gm.batCycleCar)
  let gm :=
    if diffCar > 0 then { gm with batCycleCar := fgCoulomb }
    else { gm with
      batCycleNcar := i32 (gm.batCycleNcar + i32 diffCar.natAbs), batCycleCar := fgCoulomb }
  if gaugeVersion ≥ gaugeHwV1000 ∧ gaugeVersion < gaugeHwV2000 then
    if gm.batCycleThr > 0 ∧ gm.batCycleNcar ≥ gm.batCycleThr then
      (true, { gm with batCycleNcar := 0 })
    else (false, gm)
  else (false, gm)

/-- `reset_set`, which resets the counter. -/
def resetSet (disableGM30 : Bool) (gaugeVersion : Int) (gm : CycleCount) (fgCoulomb : Int) :
    Bool × CycleCount :=
  if disableGM30 then (false, gm)
  else
    let r := fgSwBatCycleAccu gaugeVersion gm fgCoulomb
    (r.1, { r.2 with batCycleCar := 0 })

/-- A call, with the counter that it reads. -/
inductive CycleIn
  | accu (fgCoulomb : Int)
  | reset (fgCoulomb : Int)
  deriving DecidableEq

/-- A call: whether it wakes the algorithm. -/
def cycleStep (disableGM30 : Bool) (gaugeVersion : Int) (gm : CycleCount) :
    CycleIn → Option (Bool × CycleCount)
  | .accu fgCoulomb => some (fgSwBatCycleAccu gaugeVersion gm fgCoulomb)
  | .reset fgCoulomb => some (resetSet disableGM30 gaugeVersion gm fgCoulomb)

end Battery
