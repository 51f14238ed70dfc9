import FireTablet.Battery.Algo
import Mathlib.Algebra.GroupWithZero.Nat
import Mathlib.Logic.Function.Basic

/-!
# The profile for a temperature (`mtk_battery_algo.c`)

Up to ten profiles are given, each measured at a temperature, in rising or in falling order. The
profile in use is interpolated between the two whose temperatures are next to that of the battery.
-/

namespace Battery

open CInt

-- for the numerals of the two widths of a row
scoped instance neZero_u16 : NeZero 65536 := ⟨by decide⟩
scoped instance neZero_u32 : NeZero 4294967296 := ⟨by decide⟩

/-- `struct fuelgauge_profile_struct`. -/
structure Row where
  mah : Fin 4294967296
  voltage : Fin 65536
  resistance : Fin 65536
  resistance2 : Fin 65536
  percentage : Fin 65536
  deriving DecidableEq

/-- `struct fuel_gauge_table`; the rows are an array. -/
structure TempProfile where
  temperature : Int
  qMax : Int
  qMaxHCurrent : Int
  pseudo1 : Int
  pseudo100 : Int
  shutdownHlZcv : Int
  size : Int
  rows : Nat → Row
  temperature_int : IsI32 temperature

/-- `struct fuel_gauge_table_custom_data`, with the active ones of its profiles. -/
structure TableData where
  profiles : List TempProfile
  temperatureTb0 : Int
  temperatureTb1 : Int
  rowsTb0 : Nat → Row
  rowsTb1 : Nat → Row

/-- What `struct mtk_battery_algo` keeps of a profile. -/
structure TempAlgo where
  lastTemp : Int
  tTable : Int
  tTableC : Int
  batteryPseudo1H : Int
  batteryPseudo100 : Int
  qmaxT0maH : Int
  qmaxTNmaH : Int
  shutdownHlZcv : Int
  qmaxT0maHTb1 : Int
  qmaxTNmaHTb1 : Int

/-- The settings of `struct fuel_gauge_custom_data` that are read here. -/
structure PseudoCust where
  pseudo1En : Bool
  pseudo100En : Bool

/-- `interpolation` between any keys; `none` is a division by zero. -/
def tryInterpolation (i1 b1 i2 b2 i : Int) : Option Int :=
  (div (i32 (i32 (b2 - b1) * i32 (i - i1))) (i32 (i2 - i1))).map fun q => i32 (q + b1)

/-! ## Finding a profile -/

/-- What `fg_get_profile` points to. -/
inductive Loc where
  | profile (i : Nat)
  | tb0
  | tb1
  deriving DecidableEq

section
variable (d : TableData)

/-- `fg_get_profile`. -/
def TableData.fgGetProfile (temperature : Int) : Option Loc :=
  match d.profiles.findIdx? (·.temperature = temperature) with
  | some i => some (.profile i)
  | none =>
    if d.temperatureTb0 = temperature then some .tb0
    else if d.temperatureTb1 = temperature then some .tb1
    else none

/-- The rows at a pointer. -/
def TableData.rowsAt : Loc → Nat → Row
  | .profile i => ((d.profiles[i]?).map TempProfile.rows).getD d.rowsTb0
  | .tb0 => d.rowsTb0
  | .tb1 => d.rowsTb1

/-- Write the rows at a pointer. -/
def TableData.setRows (rows : Nat → Row) : Loc → TableData
  | .profile i => { d with profiles := d.profiles.modify i fun p => { p with rows := rows } }
  | .tb0 => { d with rowsTb0 := rows }
  | .tb1 => { d with rowsTb1 := rows }

def TableData.fgGetSaddles : Nat := ((d.profiles.head?).map fun p => p.size.toNat).getD 0

def TableData.temperatures : List Int := d.profiles.map TempProfile.temperature

end

/-! ## The order of the temperatures -/

/-- The first loop over `(is_ascending, is_descending)`. -/
def scanAscending : List Int → Bool × Bool → Bool × Bool
  | s :: t :: ts, flags => if s > t then flags else scanAscending (t :: ts) (true, false)
  | _, flags => flags

/-- The second loop. -/
def scanDescending : List Int → Bool × Bool → Bool × Bool
  | s :: t :: ts, flags => if s < t then flags else scanDescending (t :: ts) (false, true)
  | _, flags => flags

/-- `fg_check_temperature_order`. -/
def fgCheckTemperatureOrder (ts : List Int) : Option (Bool × Bool) :=
  let flags := scanDescending ts (scanAscending ts (false, false))
  if flags.1 = false ∧ flags.2 = false then none else some flags

/-- The first profile behind the first one that is hit, or else the last one, and the one before. -/
def neighbours (hit : TempProfile → Bool) : List TempProfile → Option (TempProfile × TempProfile)
  | p :: q :: ps => if hit q || ps.isEmpty then some (p, q) else neighbours hit (q :: ps)
  | _ => none

/-! ## Interpolating -/

/-- A value stored in an `unsigned short`. -/
def toShort (x : Int) : Fin 65536 := ⟨(u16 x).toNat, by unfold u16; omega⟩

/-- A value stored in an `unsigned int`. -/
def toWord (x : Int) : Fin 4294967296 := ⟨(u32 x).toNat, by unfold u32; omega⟩

/-- The body of the loop over the rows. -/
def fillRow (lowTemp highTemp temperature : Int) (low high row : Row) : Option Row := do
  let mah ← tryInterpolation lowTemp (i32 low.mah) highTemp (i32 high.mah) temperature
  let voltage ← tryInterpolation lowTemp low.voltage highTemp high.voltage temperature
  let resistance ← tryInterpolation lowTemp low.resistance highTemp high.resistance temperature
  let resistance2 ←
    tryInterpolation lowTemp low.resistance2 highTemp high.resistance2 temperature
  return {
    mah := toWord mah
    voltage := toShort voltage
    resistance := toShort resistance
    resistance2 := toShort resistance2
    percentage := row.percentage }

/-- The loop over the first rows. The row that is written is read before, so the rows written to
may be those of a neighbour. -/
def fillRows (lowTemp highTemp temperature : Int) (low high rows : Nat → Row) :
    Nat → Option (Nat → Row)
  | 0 => some rows
  | i + 1 => do
    let filled ← fillRows lowTemp highTemp temperature low high rows i
    let row ← fillRow lowTemp highTemp temperature (low i) (high i) (rows i)
    return Function.update filled i row

/-- What else is interpolated, for the two tables. -/
def fillAlgo (cust : PseudoCust) (d : TableData) (low high : TempProfile) (temperature idx : Int)
    (a : TempAlgo) : Option TempAlgo :=
  let blend (lo hi : Int) := tryInterpolation low.temperature lo high.temperature hi temperature
  let scaled (field : TempProfile → Int) := blend (i32 (10 * field low)) (i32 (10 * field high))
  if idx = d.temperatureTb0 then do
    let pseudo1 ← if cust.pseudo1En then blend low.pseudo1 high.pseudo1 else some a.batteryPseudo1H
    let pseudo100 ←
      if cust.pseudo100En then blend low.pseudo100 high.pseudo100 else some a.batteryPseudo100
    let qmax ← scaled TempProfile.qMax
    let qmaxH ← scaled TempProfile.qMaxHCurrent
    let shutdown ← scaled TempProfile.shutdownHlZcv
    return { a with
      batteryPseudo1H := pseudo1
      batteryPseudo100 := pseudo100
      qmaxT0maH := qmax
      qmaxTNmaH := qmaxH
      shutdownHlZcv := shutdown }
  else if idx = d.temperatureTb1 then do
    let qmax ← scaled TempProfile.qMax
    let qmaxH ← scaled TempProfile.qMaxHCurrent
    return { a with qmaxT0maHTb1 := qmax, qmaxTNmaHTb1 := qmaxH }
  else some a

/-- The temperature, no further than those of the neighbours. -/
def clampTemp (low high temperature : Int) : Int :=
  if temperature < low then low else if temperature > high then high else temperature

/-- `fgr_construct_battery_profile` with the neighbours. -/
def constructBetween (cust : PseudoCust) (d : TableData) (low high : TempProfile) (target : Loc)
    (idx : Int) (a : TempAlgo) : Option (TableData × TempAlgo) := do
  let lowLoc ← d.fgGetProfile low.temperature
  let highLoc ← d.fgGetProfile high.temperature
  let temperature := clampTemp low.temperature high.temperature a.lastTemp
  let a := { a with
    tTable := if idx = 255 then temperature else a.tTable
    tTableC := if idx = 254 then temperature else a.tTableC }
  let rows ← fillRows low.temperature high.temperature temperature (d.rowsAt lowLoc)
    (d.rowsAt highLoc) (d.rowsAt target) d.fgGetSaddles
  let a ← fillAlgo cust d low high temperature idx a
  return (d.setRows rows target, a)

/-- `fgr_construct_battery_profile`; `none` is a division by zero. -/
def fgrConstructBatteryProfile (cust : PseudoCust) (d : TableData) (idx : Int) (a : TempAlgo) :
    Option (TableData × TempAlgo) :=
  match d.fgGetProfile idx with
  | none => some (d, a)
  | some target =>
    match fgCheckTemperatureOrder d.temperatures with
    | none => some (d, a)
    | some (ascending, _) => do
      let hit (p : TempProfile) : Bool :=
        if ascending then a.lastTemp ≤ p.temperature else a.lastTemp ≥ p.temperature
      let (p, q) ← neighbours hit d.profiles
      if ascending then constructBetween cust d p q target idx a
      else constructBetween cust d q p target idx a

end Battery
