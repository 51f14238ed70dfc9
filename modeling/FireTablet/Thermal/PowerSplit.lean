import FireTablet.Lib.CInt

/-!
# CPU power to frequency (`virtual_sensor_interface.c`)

A power budget becomes a limit on the frequency of each CPU cluster: the budget is split between
the clusters, a cluster's share is divided by its CPUs, and the table of the cluster's energy model
is searched from above for a level that one CPU's share pays for. With one cluster there is no
split, and a share of 0 stands for no limit.
-/

namespace Thermal.PowerSplit

open CInt

/-- `struct em_cap_state`. -/
structure EmCapState where
  frequency : Nat
  power : Nat
  deriving DecidableEq, Repr

/-- `struct vs_cpufreq_cdev` with the energy model and the CPUs of its policy. `em_create_pd` takes
only tables of ascending frequencies and of powers that are positive and fit into 16 bits;
frequencies are `unsigned int`s for the policy, and a policy has a CPU and at most `NR_CPUS`. -/
structure VsCpufreqCdev where
  maxLevel : Nat
  table : List EmCapState
  relatedCpus : Nat
  maxLevel_lt : maxLevel < table.length
  frequency_asc : table.Pairwise (fun a b => a.frequency < b.frequency)
  frequency_lt : ∀ e ∈ table, e.frequency < 4294967296
  power_fits : ∀ e ∈ table, 0 < e.power ∧ e.power ≤ 65535
  cpus_fit : 0 < relatedCpus ∧ relatedCpus ≤ 4096

namespace VsCpufreqCdev

/-- `em->table[i].frequency`. -/
def frequency (c : VsCpufreqCdev) (i : Nat) : Nat := (c.table[i]?.map EmCapState.frequency).getD 0

/-- `em->table[i].power`. -/
def power (c : VsCpufreqCdev) (i : Nat) : Nat := (c.table[i]?.map EmCapState.power).getD 0

/-- The level at which the search from level `n` downwards stops. -/
def levelFrom (c : VsCpufreqCdev) (power : Nat) : Nat → Nat
  | 0 => 0
  | i + 1 => if c.power (i + 1) ≤ power then i + 1 else c.levelFrom power i

/-- `vs_cpu_power_to_freq` of the build for two clusters. -/
def vsCpuPowerToFreq (c : VsCpufreqCdev) (power : Nat) : Nat :=
  c.frequency (c.levelFrom power c.maxLevel) % 4294967296

/-- `get_cpu_cluster_max_power`. -/
def getCpuClusterMaxPower (c : VsCpufreqCdev) : Int := i32 (c.power c.maxLevel * c.relatedCpus)

/-- `get_cpu_cluster_min_power`. -/
def getCpuClusterMinPower (c : VsCpufreqCdev) : Int := i32 (c.power 0 * c.relatedCpus)

end VsCpufreqCdev

/-! ## Two clusters -/

/-- `cpufreq_cdev`, a pointer for each cluster. -/
structure Cdevs where
  little : Option VsCpufreqCdev
  large : Option VsCpufreqCdev

/-- `cpufreq_cdev` after the call to initialise it, which is made unless the first is there and
leaves `fresh`. -/
def Cdevs.init (s fresh : Cdevs) : Cdevs := if s.little.isSome then s else fresh

/-- `cpu_budget` of `set_cpufreq_thermal_power`: the shares of the two clusters. -/
def cpuBudget (little large : VsCpufreqCdev) (budget : Int) : Int × Int :=
  let littleMax := u32 little.getCpuClusterMaxPower
  let littleMin := little.getCpuClusterMinPower
  let largeMin := large.getCpuClusterMinPower
  let share := u32 littleMin
  let remainBudget := i32 (budget - (littleMin + largeMin))
  if 0 < remainBudget then
    if u32 remainBudget ≤ u32 (littleMax - share) then (u32 (share + remainBudget), u32 largeMin)
    else (littleMax, u32 (budget - littleMax))
  else (share, u32 largeMin)

/-- `set_cpufreq_thermal_power`: the pointers, the value returned and the frequencies that are
requested for the two clusters; none where it reads through a NULL pointer. -/
def setCpufreqThermalPower (s fresh : Cdevs) (budget : Int) : Option (Cdevs × Int × Nat × Nat) :=
  let s := s.init fresh
  match s.little, s.large with
  | some little, some large =>
    let budget := if budget = 0 then
      u32 (little.getCpuClusterMaxPower + large.getCpuClusterMaxPower) else budget
    let shares := cpuBudget little large budget
    some (s, 0, little.vsCpuPowerToFreq (shares.1.toNat / little.relatedCpus),
      large.vsCpuPowerToFreq (shares.2.toNat / large.relatedCpus))
  | _, _ => none

/-! ## One cluster -/

namespace Single

/-- `vs_cpu_power_to_freq` of the build for one cluster. -/
def vsCpuPowerToFreq (c : VsCpufreqCdev) (power : Nat) : Nat :=
  if power = 0 then c.frequency c.maxLevel % 4294967296
  else c.frequency (c.levelFrom power c.maxLevel) % 4294967296

/-- The value returned and `cpufreq_cdev` after the call to initialise it, which is made unless it
is there, and returns and leaves `fresh`. -/
def init (cdev : Option VsCpufreqCdev) (fresh : Int × Option VsCpufreqCdev) :
    Int × Option VsCpufreqCdev :=
  if cdev.isSome then (0, cdev) else fresh

/-- `set_cpufreq_thermal_power` of the build for one cluster: the pointer, the value returned and
the frequency that is requested, if one is. -/
def setCpufreqThermalPower (cdev : Option VsCpufreqCdev) (fresh : Int × Option VsCpufreqCdev)
    (budget : Nat) : Option VsCpufreqCdev × Int × Option Nat :=
  let (ret, cdev) := init cdev fresh
  match cdev with
  | some c => (cdev, ret, some (vsCpuPowerToFreq c (budget / c.relatedCpus)))
  | none => (cdev, -1, none)

end Single

end Thermal.PowerSplit
