import FireTablet.Battery.Profile

/-!
# Profiles from the device tree (`mtk_battery.c`)

A profile is a property of 32-bit cells, three or four to a row. The rows that are read are stored
in the table, and the last of them fills the rest of its hundred rows.
-/

namespace Battery

open CInt

/-- A value of the type `u32`. -/
abbrev Cell := Fin 4294967296

/-- The properties of the tables of a battery; `none` is one that is missing. -/
structure ProfileDts where
  num : Nat → Option Cell
  col : Nat → Option Cell
  profile : Nat → Option (List Cell)

/-- `of_property_read_u32_index` into an `int`. -/
def readU32Index (cells : List Cell) (idx : Nat) : Option Int :=
  cells[idx]?.map fun v : Cell => i32 v

/-- The variables of `fg_custom_parse_table`; `none` is one without a value. -/
structure RowVars where
  mah : Option Int
  voltage : Option Int
  resistance : Option Int
  resistance2 : Option Int

/-- The values of a row, stored with their types. The percentage stays. -/
def Row.store (row : Row) (mah voltage resistance resistance2 : Int) : Row :=
  { row with
    mah := toWord mah
    voltage := toShort voltage
    resistance := toShort resistance
    resistance2 := toShort resistance2 }

/-- Store the variables at `profile_p`. It is `none` if one has no value, or if there is no such
row. -/
def RowVars.store (v : RowVars) (k : Nat) (rows : Nat → Row) : Option (Nat → Row) := do
  let mah ← v.mah
  let voltage ← v.voltage
  let resistance ← v.resistance
  let resistance2 ← v.resistance2
  if k < 100 then
    return Function.update rows k ((rows k).store mah voltage resistance resistance2)
  else none

/-- What the first loop ends with. -/
structure Parsed where
  idx : Nat
  vars : RowVars
  count : Nat
  rows : Nat → Row

/-- The first loop; `bound` is `saddles * column`. A value that is missing leaves its variable. -/
def parseLoop (cells : List Cell) (bound : Int) (column : Nat) :
    Nat → Nat → RowVars → Nat → (Nat → Row) → Option Parsed
  | 0, _, _, _, _ => none
  | fuel + 1, idx, v, k, rows =>
    match readU32Index cells idx with
    | none => some ⟨idx, v, k, rows⟩
    | some mah => do
      let voltage := (readU32Index cells (idx + 1)).or v.voltage
      let resistance := (readU32Index cells (idx + 2)).or v.resistance
      let fourth := readU32Index cells (idx + 3)
      let next := if column = 4 ∧ fourth.isSome then idx + 4 else idx + 3
      let v := {
        mah := some mah
        voltage := voltage
        resistance := resistance
        resistance2 := if column = 4 then fourth.or v.resistance2 else resistance }
      let rows ← v.store k rows
      if (next : Int) ≥ bound then return ⟨next, v, k + 1, rows⟩
      else parseLoop cells bound column fuel next v (k + 1) rows

/-- The second loop, which counts in cells. -/
def padLoop (column : Nat) (v : RowVars) : Nat → Nat → Nat → (Nat → Row) → Option (Nat → Row)
  | 0, _, _, _ => none
  | fuel + 1, idx, k, rows =>
    if idx < 100 * column then do
      let rows ← v.store k rows
      padLoop column v fuel (idx + column) (k + 1) rows
    else some rows

/-- `fg_custom_parse_table`; `none` is a use of an uninitialised value or a write behind the last
row. -/
def fgCustomParseTable (saddles : Int) (cells : List Cell) (column : Nat) (rows : Nat → Row) :
    Option (Nat → Row) := do
  let p ← parseLoop cells (i32 (saddles * column)) column (cells.length + 1) 0
    ⟨none, none, none, none⟩ 0 rows
  if p.idx = 0 then return p.rows
  else padLoop column p.vars 102 p.idx p.count p.rows

/-- `column`, after the correction. -/
def ProfileDts.column (dts : ProfileDts) (i : Nat) : Nat :=
  let column := ((dts.col i).map fun v : Cell => i32 v).getD 3
  if column < 3 ∨ column > 4 then 3 else column.toNat

/-- `size`, which stays if the property is missing. -/
def ProfileDts.size (dts : ProfileDts) (t : Nat → TempProfile) (i : Nat) : Int :=
  ((dts.num i).map fun v : Cell => i32 v).getD (t i).size

/-- The body of the loop over the tables in `fg_custom_init_from_dts`; `none` as well for a table
behind the last one. -/
def fgCustomInitTable (dts : ProfileDts) (i : Nat) (t : Nat → TempProfile) :
    Option (Nat → TempProfile) :=
  if i < 10 then do
    let t := Function.update t i { t i with size := dts.size t i }
    let rows ← fgCustomParseTable (t 0).size ((dts.profile i).getD []) (dts.column i) (t i).rows
    return Function.update t i { t i with rows := rows }
  else none

/-- The loop over the first tables. -/
def fgCustomInitTables (dts : ProfileDts) : Nat → (Nat → TempProfile) → Option (Nat → TempProfile)
  | 0, t => some t
  | n + 1, t => (fgCustomInitTables dts n t).bind (fgCustomInitTable dts n)

/-- The profiles of `fg_custom_init_from_dts`, for `active_table_number`. -/
def fgCustomInitProfiles (dts : ProfileDts) (activeTableNumber : Int) (t : Nat → TempProfile) :
    Option (Nat → TempProfile) := fgCustomInitTables dts activeTableNumber.toNat t

end Battery
