import FireTablet.Battery.Profile
import Mathlib.Data.List.Range

/-!
# The capacity at the boot voltage (`mtk_battery_algo.c`)

The capacity of a constructed profile is what has been drawn when the battery comes down to the
voltage below which the system does not boot. The percentages are shares of that capacity.
-/

namespace Battery

open CInt

/-- A profile is an array of a hundred rows, of which the first `fgGetSaddles` are the table. -/
def rowsMax : Nat := 100

def bmlogErrorLevel : Int := 3
def bmlogDebugLevel : Int := 7

/-- The capacities of `struct mtk_battery_algo` for the two constructed profiles. -/
structure CapacityAlgo where
  qmaxT0ma : Int
  qmaxT0maTb1 : Int

/-- What the two constructions leave, with the rows that were read. -/
structure Construct where
  data : TableData
  algo : CapacityAlgo
  reads : List Nat

/-! ## Percentages -/

/-- The loop that sets the percentages, in `unsigned int` arithmetic. -/
def setPercentages (qmax : Int) (rows : Nat → Row) : Option (Nat → Row) :=
  if u32 qmax = 0 then none
  else some fun i =>
    if i < rowsMax then
      { rows i with percentage := toShort (u32 ((rows i).mah * 10000) / u32 qmax) }
    else rows i

/-- `fg_construct_battery_profile_by_qmax`; `none` is a division by zero. -/
def fgConstructBatteryProfileByQmax (d : TableData) (a : CapacityAlgo) (qmax idx : Int) :
    Option Construct :=
  match d.fgGetProfile idx with
  | none => some ⟨d, a, []⟩
  | some loc =>
    if idx = d.temperatureTb0 then do
      let rows ← setPercentages qmax (d.rowsAt loc)
      return ⟨d.setRows rows loc, { a with qmaxT0ma := qmax }, List.range rowsMax⟩
    else if idx = d.temperatureTb1 then do
      let rows ← setPercentages qmax (d.rowsAt loc)
      return ⟨d.setRows rows loc, { a with qmaxT0maTb1 := qmax }, List.range rowsMax⟩
    else some ⟨d, a, []⟩

/-- The loop over the voltages: the first row that is below. -/
def firstBelow (rows : Nat → Row) (vboot : Int) : Nat :=
  ((List.range rowsMax).find? fun j => (rows j).voltage < vboot).getD rowsMax

/-- The capacity at the row that the loop ends with, and the rows read for it. -/
def qmaxAt (rows : Nat → Row) (vboot : Int) (j : Nat) : Option (Int × List Nat) :=
  if j = 0 then some (i32 (rows 0).mah, [0])
  else if rowsMax ≤ j then some (i32 (rows 99).mah, [99])
  else (tryInterpolation (rows j).voltage (i32 (rows j).mah) (rows (j - 1)).voltage
    (i32 (rows (j - 1)).mah) vboot).map fun q => (q, [j, j - 1])

/-- The branch of `fg_construct_battery_profile_by_vboot` for one table. The messages that announce
3000 and 50000 are all that happens to a capacity out of range; they print the row's voltage. -/
def constructByVboot (level : Int) (rows : Nat → Row) (vboot : Int) (j : Nat) :
    Option ((Nat → Row) × Int × List Nat) := do
  let (qmax, read) ← qmaxAt rows vboot j
  let said := if bmlogErrorLevel ≤ level ∧ (qmax < 3000 ∨ 50000 < qmax) then [j] else []
  let rows ← setPercentages qmax rows
  return (rows, qmax, read ++ said ++ List.range rowsMax)

/-- `fg_construct_battery_profile_by_vboot`; `none` is a division by zero, or no such profile. -/
def fgConstructBatteryProfileByVboot (level : Int) (d : TableData) (a : CapacityAlgo)
    (vboot idx : Int) : Option Construct := do
  let loc ← d.fgGetProfile idx
  let j := firstBelow (d.rowsAt loc) vboot
  let scanned := List.range (min (j + 1) rowsMax)
  let debug := if bmlogDebugLevel ≤ level then [j] else []
  if idx = d.temperatureTb0 then do
    let (rows, qmax, reads) ← constructByVboot level (d.rowsAt loc) vboot j
    return ⟨d.setRows rows loc, { a with qmaxT0ma := qmax }, scanned ++ reads ++ debug⟩
  else if idx = d.temperatureTb1 then do
    let (rows, qmax, reads) ← constructByVboot level (d.rowsAt loc) vboot j
    return ⟨d.setRows rows loc, { a with qmaxT0maTb1 := qmax }, scanned ++ reads ++ debug⟩
  else return ⟨d, a, scanned ++ debug⟩

/-! ## The voltage that comes down to a target under load -/

/-- The resistances of the settings, and the ratio for that of the battery. -/
structure IrCust where
  dcRatio : Int
  rFgValue : Int
  fgMeterResistance : Int

/-- `ret_compensate_value`: what the current adds to the voltage, rounded. -/
def irCompensation (cust : IrCust) (curr resistance : Int) : Int :=
  let total := i32 ((i32 (resistance * cust.dcRatio)).tdiv 100 + cust.rFgValue +
    cust.fgMeterResistance)
  (i32 ((i32 (curr * total)).tdiv 1000 + 5)).tdiv 10

/-- What `fg_compensate_battery_voltage_from_low` returns and leaves in `fg_resistance_bat`, the
upper row and the percentage it prints for a hit, and the rows that were read. -/
structure Compensated where
  volt : Int
  resistanceBat : Int
  hit : Option (Nat × Int)
  reads : List Nat

section
variable (rows : Nat → Row) (cust : IrCust) (curr oriv : Int)

/-- `fg_volt_withIR > oriv`. -/
def withIrOver (volt resistance : Int) : Bool :=
  oriv < i32 (volt + irCompensation cust curr resistance)

/-- The first loop, with the rows read: `high` is a row behind one that is not yet empty. -/
def findHigh : Nat → Nat × List Nat
  | size + 1 =>
    if 1 ≤ size then
      if (rows (size - 1)).percentage < 10000 then (size, [size - 1, size])
      else ((findHigh size).1, (size - 1) :: (findHigh size).2)
    else (0, [])
  | 0 => (0, [])

/-- The second loop: down to the row behind one whose voltage is over the target. -/
def findOver : Nat → Nat × List Nat
  | high + 1 =>
    if withIrOver cust curr oriv (rows high).voltage (rows high).resistance then
      (high + 1, [high, high + 1])
    else ((findOver high).1, high :: (findOver high).2)
  | 0 => (0, [])

/-- The percentages that the last loop steps through, by 0.1 %. -/
def percentGrid (high low : Int) : List Int :=
  (List.range (if low ≤ high then ((high - low) / 10).toNat + 1 else 0)).map fun (t : Nat) =>
    high - 10 * (t : Int)

/-- The last loop, over what it interpolates at the percentages left. -/
def fineScan (high : Nat) (last : Int × Int) : List Int → Option ((Int × Int) × Option (Nat × Int))
  | [] => some (last, none)
  | i :: is => do
    let lo := rows (high - 1)
    let hi := rows high
    let volt ← tryInterpolation lo.percentage lo.voltage hi.percentage hi.voltage i
    let resistance ← tryInterpolation lo.percentage lo.resistance hi.percentage hi.resistance i
    if withIrOver cust curr oriv volt resistance then some ((volt, resistance), some (high, i))
    else fineScan high (volt, resistance) is

/-- `fg_compensate_battery_voltage_from_low` for a profile. When no row is over the target, `high`
is 0 and the last loop, with both percentages 0, reads the row before the first. -/
def compensateFromLow (size : Nat) : Option Compensated := do
  let (high, read) := findHigh rows size
  let (high, readOver) := findOver rows cust curr oriv high
  if high = 0 then none
  else do
    let lo := rows (high - 1)
    let (last, hit) ← fineScan rows cust curr oriv high (lo.voltage, lo.resistance)
      (percentGrid (rows high).percentage lo.percentage)
    return ⟨last.1, last.2, hit, read ++ readOver ++ [high - 1, high]⟩

end

/-- `fg_compensate_battery_voltage_from_low`; without a profile it returns 0. `none` is a division
by zero or a row outside the array. -/
def fgCompensateBatteryVoltageFromLow (d : TableData) (cust : IrCust) (resistanceBat : Int)
    (oriv curr tablei : Int) : Option Compensated :=
  match d.fgGetProfile tablei with
  | none => some ⟨0, resistanceBat, none, []⟩
  | some loc => compensateFromLow (d.rowsAt loc) cust curr oriv d.fgGetSaddles

end Battery
