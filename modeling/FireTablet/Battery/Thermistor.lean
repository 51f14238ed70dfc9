import FireTablet.Battery.Profile

/-!
# The battery's thermistor (`mtk_battery.c`, `mtk_battery_daemon.c`)

A table gives the resistance at 21 temperatures. `adc_battemp` converts a resistance to a
temperature and `TempConverBattThermistor` a temperature to a resistance. The voltage at the
thermistor is compensated for what the battery current adds to it, by `force_get_tbat_internal` when
it is measured and by `TempToBattVolt` when it is predicted. `none` is a division by zero.
-/

namespace Battery

open CInt

/-- `struct fg_temp`. -/
structure FgTemp where
  batteryTemp : Int
  temperatureR : Int
  deriving DecidableEq

/-- The loop of both searches, with `n` rows left from row `i` on: the last row that is not hit and
the first one that is. -/
def findRow (hit : FgTemp → Bool) (ptable : Nat → FgTemp) : Nat → Nat → FgTemp → FgTemp × FgTemp
  | 0, _, prev => (prev, ⟨0, 0⟩)
  | n + 1, i, prev =>
    if hit (ptable i) then (prev, ptable i) else findRow hit ptable n (i + 1) (ptable i)

/-- `adc_battemp`, in tenths of a degree. -/
def adcBattemp (ptable : Nat → FgTemp) (res : Int) : Option Int :=
  if res ≥ (ptable 0).temperatureR then some (-400)
  else if res ≤ (ptable 20).temperatureR then some 600
  else
    let (p, q) := findRow (fun row => res ≥ row.temperatureR) ptable 21 0 (ptable 0)
    div (i32 (((res - q.temperatureR) * p.batteryTemp + (p.temperatureR - res) * q.batteryTemp) * 10))
      (i32 (p.temperatureR - q.temperatureR))

/-- `TempConverBattThermistor`. -/
def tempConverBattThermistor (ptable : Nat → FgTemp) (temp : Int) : Option Int :=
  if temp ≥ (ptable 20).batteryTemp then some (u32 (ptable 20).temperatureR)
  else if temp ≤ (ptable 0).batteryTemp then some (u32 (ptable 0).temperatureR)
  else
    let (p, q) := findRow (fun row => temp ≤ row.batteryTemp) ptable 21 0 (ptable 0)
    (tryInterpolation p.batteryTemp p.temperatureR q.batteryTemp q.temperatureR temp).map u32

/-- What of `struct mtk_battery` the compensation uses. -/
structure Therm where
  tmpTable : Nat → FgTemp
  rbatPullUpR : Int
  rbatPullUpVolt : Int
  comRFgValue : Int
  comFgMeterResistance : Int
  noBatTempCompensate : Int

/-- `fg_meter_res_value`. -/
def Therm.fgMeterResValue (gm : Therm) : Int :=
  if gm.noBatTempCompensate = 0 then gm.comFgMeterResistance else 0

/-- What `TempToBattVolt` adds for a current, in 0.1 mV. -/
def Therm.irAdded (gm : Therm) (fgCurrentTemp : Int) : Int :=
  let ir := (i32 (fgCurrentTemp * (gm.fgMeterResValue + gm.comRFgValue))).tdiv 10000
  if fgCurrentTemp ≤ 0 then -ir else ir

/-- `TempToBattVolt` for a current: the voltage of the divider and what is returned for it. -/
def Therm.tempToBattVolt (gm : Therm) (temp fgCurrentTemp : Int) : Option (Int × Int) := do
  let rNtc ← tempConverBattThermistor gm.tmpTable temp
  let base := u32 (rNtc + gm.rbatPullUpR)
  if base = 0 then none
  else
    let vin := u64 (rNtc * i32 gm.rbatPullUpVolt * 10) / base
    some (vin, u32 (vin + gm.irAdded fgCurrentTemp))

/-- What `force_get_tbat_internal` takes away from a measured voltage for a current, in mV. -/
def Therm.irTaken (gm : Therm) (fgCurrentTemp : Int) : Int :=
  let ir := (i32 ((i32 fgCurrentTemp.natAbs).tdiv 10 *
    (gm.fgMeterResValue + gm.comRFgValue))).tdiv 10000
  if fgCurrentTemp > 0 then ir else -ir

/-- `volttotemp`, where `vbif28Raw` is the reference voltage if the gauge reports it. -/
def Therm.volttotemp (gm : Therm) (vbif28Raw : Option Int) (dwVolt voltCali : Int) : Option Int :=
  let vbif28 := match vbif28Raw with
    | some raw => i32 (raw + voltCali)
    | none => i32 gm.rbatPullUpVolt
  let deltaV := i32 (i32 (vbif28 - dwVolt)).natAbs
  let deltaV := if deltaV = 0 then 1 else deltaV
  adcBattemp gm.tmpTable (i32 ((gm.rbatPullUpR * dwVolt).tdiv deltaV))

/-- `force_get_tbat_internal` with a measurement: the compensated voltage and the temperature in
degrees. -/
def Therm.forceGetTbatInternal (gm : Therm) (vbif28Raw : Option Int)
    (batTemperatureVolt fgCurrentTemp : Int) : Option (Int × Int) :=
  if batTemperatureVolt ≠ 0 then do
    let taken := gm.irTaken fgCurrentTemp
    let volt := i32 (batTemperatureVolt - taken)
    let val ← gm.volttotemp vbif28Raw volt (-taken)
    some (volt, val.tdiv 10)
  else some (0, 0)

end Battery
