import FireTablet.Lib.CInt
import Mathlib.Data.List.Sort

/-!
# The thermal budget cooler (`virtual_sensor_cooler_budget.c`)

The limit on the CPU's power is the smaller of a budget that is written and the smallest level of
the coolers, which is kept and computed anew only when a cooler changes its state. Levels are `int`s
and states `unsigned long`s. An index outside of a cooler's table of levels gives `none`.
-/

namespace Thermal.Budget

open CInt

/-- `MAXIMUM_CPU_POWER`, which stands for no limit. -/
def maximumCpuPower : Int := 4600

/-- `THERMAL_MAX_TRIPS`. -/
def maxTrips : Nat := 12

def einval : Int := 22
def enomem : Int := 12

/-- `struct vs_cooler_platform_data`, as a registered cooler has it. -/
structure Cooler where
  id : Nat
  state : Nat
  maxState : Nat
  level : Int
  levels : List Int
  length_eq : levels.length = maxTrips

/-- The list of coolers, the static variables and what `vs_set_cooling_level` was given last. -/
structure State where
  coolers : List Cooler
  next : Nat
  budget : Int
  budgetCooler : Int
  budgetCpu : Int
  applied : Int

/-- After the probe. -/
def State.init : State := ⟨[], 0, maximumCpuPower, maximumCpuPower, maximumCpuPower, 0⟩

/-- The limit in force. -/
def State.limit (s : State) : Int := if s.applied = 0 then maximumCpuPower else s.applied

/-- The level of a cooler at its state. -/
def Cooler.current (c : Cooler) : Int :=
  if c.state = 0 then maximumCpuPower else (c.levels[c.state - 1]?).getD 0

/-! ## Notifications -/

/-- `_thermal_budget_notify`. -/
def State.notify (s : State) (budget1 budget2 : Int) : State :=
  let budget := min budget1 budget2
  if budget = s.budget then s
  else
    { s with
      budget := budget
      applied := if budget < maximumCpuPower then budget else 0 }

/-- `thermal_budget_notify`. -/
def thermalBudgetNotify (s : State) (budget : Int) : State :=
  let s := { s with budgetCpu := if budget = 0 then maximumCpuPower else budget }
  s.notify s.budgetCpu s.budgetCooler

/-- `thermal_budget_write`, of the number that the text is, if it is one. -/
def thermalBudgetWrite (s : State) (parsed : Option Nat) : State :=
  let budget := parsed.getD 0
  if budget ≠ 0 then thermalBudgetNotify s (i32 budget) else thermalBudgetNotify s maximumCpuPower

/-! ## Coolers -/

/-- `level_cmp` does not put the first cooler behind the second. -/
def LevelLe (a b : Cooler) : Prop := i32 (a.level - b.level) ≤ 0

instance : DecidableRel LevelLe := fun _ _ => inferInstanceAs (Decidable (_ ≤ _))

/-- `thermal_level_compare`: the list sorted by `level_cmp`, and its first level. `list_sort` keeps
the order of equals. -/
def thermalLevelCompare (cs : List Cooler) : List Cooler × Int :=
  let cs := cs.insertionSort LevelLe
  (cs, (cs.head?.map Cooler.level).getD (-einval))

def State.setCooler (s : State) (c : Cooler) : State :=
  { s with coolers := s.coolers.map fun d => if d.id = c.id then c else d }

/-- `thermal_budget_set_cur_state`. -/
def setCurState (s : State) (c : Cooler) (state : Nat) : Option State :=
  if c.state = state then some s
  else
    let state := if state > c.maxState then c.maxState else state
    let entry := if state = 0 then some maximumCpuPower else c.levels[state - 1]?
    entry.map fun level =>
      let s := s.setCooler { c with state := state, level := level }
      let (cs, level) := thermalLevelCompare s.coolers
      let s := { s with coolers := cs, budgetCooler := level }
      s.notify s.budgetCpu level

/-- `levels_store`, of the two numbers in the text. -/
def levelsStore (s : State) (c : Cooler) (parsed : Option (Int × Int)) : Option (Int × State) :=
  match parsed with
  | none => some (-einval, s)
  | some (state, level) =>
    if u64 state ≥ c.maxState then some (-einval, s)
    else if 0 ≤ state ∧ state.toNat < maxTrips then
      some (0, s.setCooler { c with
        levels := c.levels.set state.toNat level
        length_eq := by rw [List.length_set, c.length_eq] })
    else none

/-- What the device tree says of a cooler. -/
structure Config where
  state : Nat
  maxState : Nat
  level : Int
  levels : List Int
  length_eq : levels.length = maxTrips

/-- `budget_cooler_probe`; without memory for the list entry the cooler is unregistered. -/
def budgetCoolerProbe (s : State) (c : Config) (mem : Bool) : Int × State :=
  if mem then
    (0, { s with
      coolers := ⟨s.next, c.state, c.maxState, c.level, c.levels, c.length_eq⟩ :: s.coolers
      next := s.next + 1 })
  else (-enomem, s)

/-- `budget_cooler_remove`. -/
def budgetCoolerRemove (s : State) (id : Nat) : State :=
  { s with coolers := s.coolers.eraseP fun c => c.id = id }

/-! ## Steps -/

inductive Event where
  | write (parsed : Option Nat)
  | notify (budget : Int)
  | register (c : Config) (mem : Bool)
  | setCurState (id state : Nat)
  | levelsStore (id : Nat) (parsed : Option (Int × Int))
  | remove (id : Nat)

/-- One call; those for a cooler that is not registered do nothing. -/
def step (s : State) : Event → Option (Int × State)
  | .write parsed => some (0, thermalBudgetWrite s parsed)
  | .notify budget => some (0, thermalBudgetNotify s budget)
  | .register c mem => some (budgetCoolerProbe s c mem)
  | .setCurState id state =>
    match s.coolers.find? fun c => c.id = id with
    | none => some (-einval, s)
    | some c => (setCurState s c state).map fun s => (0, s)
  | .levelsStore id parsed =>
    match s.coolers.find? fun c => c.id = id with
    | none => some (-einval, s)
    | some c => levelsStore s c parsed
  | .remove id => some (0, budgetCoolerRemove s id)

end Thermal.Budget
