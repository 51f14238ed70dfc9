import FireTablet.Lib.CInt
import Mathlib.Logic.Function.Basic

/-!
# The virtual sensor's thermal governor (`virtual_sensor_gov.c`)

One pass of `virtual_sensor_throttle` for trip 0 of a zone. A cooling device has an instance for
each trip of the zone that it is bound to, in the order of the bindings; the pass visits the devices
with an instance of trip 0 in the order in which the zone lists these. The local variable `target`
is set to zero once, before the first device. An index outside of the zone's array of trips gives
`none`.

A cooling device that is bound to trips of several zones has one list of instances. A pass of
`virtual_sensor_throttle` for one zone walks the whole list, takes every instance for a trip of its
own zone, and clears the targets of all that it walks over. Passes do not overlap. An index outside
of a zone's array of trips gives `none`.
-/

namespace Thermal

/-- `struct trip_t`: the temperature as `get_trip_temp` gives it, an `int`, and the hysteresis, an
`unsigned long`. -/
structure Trip where
  temp : Int
  hyst : Int

/-- A zone: its trips, what the array holds behind them, and the temperature. -/
structure Zone where
  trips : List Trip
  spare : List Trip
  temperature : Int

/-- `struct thermal_instance`; `none` is `THERMAL_NO_TARGET`. -/
structure Instance (num : Nat) where
  trip : Fin num
  target : Option Nat

/-- The deeper of a state and what an instance asks for. -/
def Instance.deeper {num : Nat} (target : Nat) (i : Instance num) : Nat :=
  match i.target with
  | none => target
  | some t => if t > target then t else target

/-- A cooling device with the operations of the virtual sensor's coolers. A trip is bound once. -/
structure Cdev (num : Nat) where
  maxState : Nat
  curState : Nat
  updated : Bool
  instances : List (Instance num)
  nodup : (instances.map Instance.trip).Nodup

namespace Cdev

variable {num : Nat}

/-- The instances with other targets. -/
def setTargets (d : Cdev num) (f : Fin num → Option Nat) : Cdev num where
  maxState := d.maxState
  curState := d.curState
  updated := d.updated
  instances := d.instances.map fun i => ⟨i.trip, f i.trip⟩
  nodup := by
    rw [List.map_map]
    exact d.nodup

/-- The deepest state that an instance asks for. -/
def deepest (d : Cdev num) : Nat := d.instances.foldl Instance.deeper 0

/-- `thermal_cdev_update`, with `set_cur_state`. -/
def thermalCdevUpdate (d : Cdev num) : Cdev num :=
  if d.updated then d
  else { d with curState := min d.deepest d.maxState, updated := true }

/-- Whether the zone lists an instance of trip 0 for the device. -/
def Visited (d : Cdev num) : Prop := ∃ i ∈ d.instances, i.trip.val = 0

instance (d : Cdev num) : Decidable d.Visited := List.decidableBEx ..

end Cdev

variable (z : Zone)

/-- The loop over the instances of a device: the level of the last trip that is satisfied, or what
`target` was. -/
def scan (target : Nat) (is : List (Instance z.trips.length)) : Nat :=
  is.foldl (fun target i =>
    if z.temperature ≥ z.trips[i.trip].temp then i.trip + 1 else target) target

/-- Entry `i` of the array of trips. -/
def entry (i : Nat) : Option Trip := (z.trips ++ z.spare)[i]?

/-- The comparison with a hysteresis point, in `unsigned long`. -/
def belowHyst (p : Trip) : Bool := CInt.u64 z.temperature ≤ CInt.u64 (p.temp - p.hyst)

/-- A device's instance of trip 0 gets a target and the device is updated. -/
def apply (d : Cdev z.trips.length) (target : Nat) : Cdev z.trips.length :=
  { d.setTargets fun i => if i.val = 0 then some target else none with
    updated := false }.thermalCdevUpdate

/-- The visit of a device: what `target` is afterwards, and the device. -/
def visit (target : Nat) (d : Cdev z.trips.length) : Option (Nat × Cdev z.trips.length) :=
  let target := scan z target d.instances
  let target := if target > d.maxState then d.maxState else target
  if d.curState < target then some (target, apply z d target)
  else if d.curState > target then do
    let p ← entry z (d.curState - 1)
    if belowHyst z p then some (target, apply z d target)
    else some (d.curState, d.setTargets fun _ => none)
  else some (target, d.setTargets fun _ => none)

/-- The loop over the devices. -/
def visitAll (target : Nat) : List (Cdev z.trips.length) → Option (List (Cdev z.trips.length))
  | [] => some []
  | d :: ds =>
    if d.Visited then do
      let (target, d) ← visit z target d
      let ds ← visitAll target ds
      some (d :: ds)
    else do
      let ds ← visitAll target ds
      some (d :: ds)

/-- `virtual_sensor_throttle` for trip 0; for any other trip it returns at once. -/
def virtualSensorThrottle (ds : List (Cdev z.trips.length)) :
    Option (List (Cdev z.trips.length)) :=
  visitAll z 0 ds

end Thermal

/-! ## Cooling devices of several zones (`virtual_sensor_gov.c`, `thermal_helpers.c`) -/

namespace Thermal.Shared

abbrev ZoneId := Nat

abbrev DevId := Nat

/-- The zones: their trips, what the arrays hold behind them, and the devices that a zone lists, in
its order. -/
structure Config where
  trips : ZoneId → List Trip
  spare : ZoneId → List Trip
  devices : ZoneId → List DevId
  nodup : ∀ z, (devices z).Nodup

/-- A zone at a temperature. -/
def Config.zone (c : Config) (z : ZoneId) (temperature : Int) : Zone :=
  ⟨c.trips z, c.spare z, temperature⟩

/-- `struct thermal_instance`; `none` is `THERMAL_NO_TARGET`. -/
structure Instance (c : Config) where
  zone : ZoneId
  trip : Fin (c.trips zone).length
  target : Option Nat

variable {c : Config}

/-- The deeper of a state and what an instance asks for. -/
def Instance.deeper (target : Nat) (i : Instance c) : Nat :=
  match i.target with
  | none => target
  | some t => if t > target then t else target

/-- A cooling device. A trip is bound once. -/
structure Cdev (c : Config) where
  maxState : Nat
  curState : Nat
  updated : Bool
  instances : List (Instance c)
  nodup : (instances.map fun i => (i.zone, i.trip.val)).Nodup

namespace Cdev

/-- The instances with other targets. -/
def setTargets (d : Cdev c) (f : Instance c → Option Nat) : Cdev c where
  maxState := d.maxState
  curState := d.curState
  updated := d.updated
  instances := d.instances.map fun i => ⟨i.zone, i.trip, f i⟩
  nodup := by
    rw [List.map_map]
    exact d.nodup

/-- The deepest state that an instance asks for. -/
def deepest (d : Cdev c) : Nat := d.instances.foldl Instance.deeper 0

/-- `thermal_cdev_update`, with `set_cur_state`. -/
def thermalCdevUpdate (d : Cdev c) : Cdev c :=
  if d.updated then d
  else { d with curState := min d.deepest d.maxState, updated := true }

/-- Whether a zone lists an instance of its trip 0 for the device. -/
def Visited (z : ZoneId) (d : Cdev c) : Prop := ∃ i ∈ d.instances, i.zone = z ∧ i.trip.val = 0

instance (z : ZoneId) (d : Cdev c) : Decidable (d.Visited z) := List.decidableBEx ..

end Cdev

variable (z : ZoneId) (temperature : Int)

/-- The loop over the instances of a device, of whichever zone: the level of the last trip that is
satisfied, or what `target` was. A trip that the zone does not have is skipped. -/
def scan (target : Nat) (is : List (Instance c)) : Nat :=
  is.foldl (fun target i =>
    match (c.trips z)[i.trip.val]? with
    | none => target
    | some p => if temperature ≥ p.temp then i.trip.val + 1 else target) target

/-- What the loop leaves of the target of an instance. -/
def cleared (i : Instance c) : Option Nat :=
  if i.trip.val < (c.trips z).length then none else i.target

/-- A device's instance of the zone's trip 0 gets a target and the device is updated. -/
def apply (d : Cdev c) (target : Nat) : Cdev c :=
  { d.setTargets fun i => if i.zone = z ∧ i.trip.val = 0 then some target else cleared z i with
    updated := false }.thermalCdevUpdate

/-- The visit of a device: what `target` is afterwards, and the device. -/
def visit (target : Nat) (d : Cdev c) : Option (Nat × Cdev c) :=
  let target := scan z temperature target d.instances
  let target := if target > d.maxState then d.maxState else target
  if d.curState < target then some (target, apply z d target)
  else if d.curState > target then do
    let p ← entry (c.zone z temperature) (d.curState - 1)
    if belowHyst (c.zone z temperature) p then some (target, apply z d target)
    else some (d.curState, d.setTargets (cleared z))
  else some (target, d.setTargets (cleared z))

/-- The loop over the devices of a zone. -/
def visitAll (target : Nat) : List DevId → (DevId → Cdev c) → Option (DevId → Cdev c)
  | [], devs => some devs
  | d :: ds, devs =>
    if (devs d).Visited z then do
      let (target, x) ← visit z temperature target (devs d)
      visitAll target ds (Function.update devs d x)
    else visitAll target ds devs

/-! ## Runs -/

/-- The last temperature of each zone, and the devices. -/
structure State (c : Config) where
  temperature : ZoneId → Option Int
  devs : DevId → Cdev c

/-- Devices that are bound, before any pass: `thermal_zone_bind_cooling_device` gives no target. -/
def start (devs : DevId → Cdev c) : State c where
  temperature := fun _ => none
  devs := fun d => (devs d).setTargets fun _ => none

/-- A pass of a zone at a temperature. -/
structure Pass where
  zone : ZoneId
  temperature : Int

/-- `virtual_sensor_throttle` for trip 0 of a zone. -/
def step (s : State c) (p : Pass) : Option (Unit × State c) :=
  (visitAll p.zone p.temperature 0 (c.devices p.zone) s.devs).map fun devs =>
    ((), ⟨Function.update s.temperature p.zone (some p.temperature), devs⟩)

end Thermal.Shared
