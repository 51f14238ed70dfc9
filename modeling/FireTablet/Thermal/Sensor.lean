import FireTablet.Lib.CInt
import FireTablet.Lib.Run

/-!
# Virtual sensors (`virtual_sensor_tablet_thermal.c`)

A zone's temperature is a weighted sum over its sensors. Each reading goes through an exponential
filter. In the zone that watches for foreign objects on the wireless charger a weighted sensor's
reading is first replaced by its slope over a window of the last readings, a ring of list entries
that the head of the list is part of. Polls, the charger's work and writes to sysfs come in any
order.
-/

namespace Thermal.Sensor

open CInt

/-- `DMF`. -/
def dmf : Int := 1000

def einval : Int := 22
def enomem : Int := 12

/-! ## The filter -/

/-- A value that comes to the filter, and `struct thermal_dev_params` at that time. -/
structure Sample where
  temp : Int
  offset : Int
  alpha : Int
  weight : Int

/-- What the filter keeps of a `struct thermal_dev`. -/
structure TDev where
  offTemp : Int
  firstDataGet : Bool
  deriving DecidableEq, Repr

/-- The filter of `virtual_sensor_thermal_get_temp`; `fod` for the zone `virtual_sensor4`. -/
def TDev.filter (fod : Bool) (d : TDev) (x : Sample) : TDev :=
  if d.firstDataGet then
    { d with
      offTemp := (i64 (x.alpha * (x.temp - x.offset) + (dmf - x.alpha) * d.offTemp)).tdiv dmf }
  else ⟨if fod ∧ x.weight ≠ 0 then 0 else i64 (x.temp - x.offset), true⟩

/-- `wpc_online_work` without a charger and `virtual_sensor_thermal_set_mode` make the next value
the first one. -/
def TDev.restart (d : TDev) : TDev := { d with firstDataGet := false }

/-- What the sensor adds to `tempv`. -/
def TDev.share (d : TDev) (weight : Int) : Int := (i64 (weight * d.offTemp)).tdiv dmf

/-! ## The window -/

/-- The entries of `fod_temp`, the head first, and the one that `cur_list` points to. -/
structure Window where
  temps : List Int
  cur : Nat
  cur_lt : cur < temps.length

namespace Window

/-- The temperature of the current entry. -/
def temperature (w : Window) : Int := w.temps.get ⟨w.cur, w.cur_lt⟩

/-- The temperature is stored in the current entry. -/
def store (w : Window) (data : Int) : Window :=
  ⟨w.temps.set w.cur data, w.cur, by rw [List.length_set]; exact w.cur_lt⟩

/-- `cur_list = cur_list->next`. -/
def next (w : Window) : Window :=
  ⟨w.temps, if w.cur + 1 < w.temps.length then w.cur + 1 else 0, by
    have := w.cur_lt
    split <;> omega⟩

/-- `cur_list` points to the `list_first_entry`, which is the head of an empty list. -/
def first (w : Window) : Window :=
  ⟨w.temps, if 1 < w.temps.length then 1 else 0, by
    have := w.cur_lt
    split <;> omega⟩

/-- Every entry is deleted and freed, and `cur_list` points to the head. -/
def clear (w : Window) : Window :=
  ⟨w.temps.take 1, 0, by
    have := w.cur_lt
    rw [List.length_take]
    omega⟩

/-- `list_add_tail` of `n` entries one after another, as `kzalloc` gives them. -/
def addTail (w : Window) (n : Nat) : Window :=
  ⟨w.temps ++ List.replicate n 0, w.cur, by
    have := w.cur_lt
    rw [List.length_append]
    omega⟩

end Window

/-! ## The slope -/

/-- `struct timespec64`. -/
structure Time where
  sec : Int
  nsec : Int

/-- `struct fod_algo`, the thermal zone's `polling_delay` and `timer_start`. -/
structure Fod where
  workDelay : Nat
  windowSize : Nat
  pollingInterval : Int
  wpcOnlineStatus : Int
  fodTempCnt : Nat
  window : Window
  locked : Bool
  timerStart : Time
  pollingDelay : Int

/-- A division by zero, a NULL pointer read through, or a wait for a lock that is never released. -/
inductive Fault where
  | divisionByZero
  | nullPointer
  | deadlock
  deriving DecidableEq, Repr

namespace Fod

/-- Before the first sample `calculate_raising_rate` starts the timer, or waits until `work_delay`
seconds have passed. -/
def waits (g : Fod) (now : Time) : Prop :=
  g.fodTempCnt = 0 ∧ (g.timerStart.sec = 0 ∨ g.timerStart.nsec = 0 ∨
    u32 (i32 (now.sec - g.timerStart.sec)) < g.workDelay)

instance (g : Fod) (now : Time) : Decidable (g.waits now) := inferInstanceAs (Decidable (_ ∧ _))

/-- The period of the window in seconds, by which a difference is divided. -/
def period (g : Fod) (delay : Int) : Int := i32 (u32 (delay * u32 (g.windowSize - 1)) / dmf)

/-- The slope from the temperature `first` to the temperature `last`. -/
def slope (g : Fod) (delay first last : Int) : Int :=
  i32 ((i32 (i32 (last - first) * 60)).tdiv (g.period delay))

/-- `calculate_raising_rate`. -/
def calculateRaisingRate (g : Fod) (data delay : Int) (now : Time) : Except Fault (Fod × Int) :=
  if delay = 0 then .ok (g, 0)
  else if g.waits now then
    .ok (if g.timerStart.sec = 0 ∨ g.timerStart.nsec = 0 then { g with timerStart := now } else g,
      0)
  else
    let window := g.window.store data
    if (g.fodTempCnt : Int) ≤ u32 (g.windowSize - 1) then
      .ok ({ g with window := window.next, fodTempCnt := g.fodTempCnt + 1 }, 0)
    else
      let window := window.next
      if g.period delay = 0 then .error .divisionByZero
      else .ok ({ g with window }, g.slope delay window.temperature data)

/-- The part of a poll that holds `fod_lock`. -/
def poll (g : Fod) (data : Int) (now : Time) : Except Fault (Fod × Int) :=
  if g.locked then .error .deadlock else g.calculateRaisingRate data g.pollingDelay now

/-! ## The charger -/

/-- `wpc_online_event` with the property that it reads. -/
def wpcOnlineEvent (g : Fod) (intval : Int) : Fod := { g with wpcOnlineStatus := u32 intval }

/-- `wpc_online_work`. -/
def wpcOnlineWork (g : Fod) : Except Fault Fod :=
  if g.wpcOnlineStatus ≠ 0 then
    .ok (if g.pollingDelay = 0 then { g with pollingDelay := i32 g.pollingInterval } else g)
  else if g.locked then .error .deadlock
  else
    .ok { g with
      pollingInterval := if g.pollingInterval = 0 then u32 g.pollingDelay else g.pollingInterval
      pollingDelay := 0
      window := g.window.first
      timerStart := ⟨0, 0⟩
      fodTempCnt := 0 }

/-! ## Writes -/

/-- `polling_store` of the number that the text is, if it is one. -/
def pollingStore (g : Fod) (parsed : Option Int) : Fod × Int :=
  match parsed with
  | none => (g, -einval)
  | some delay =>
    if delay < 0 then (g, -einval)
    else ({ g with pollingDelay := delay, pollingInterval := u32 delay }, 0)

/-- `fod_delay_store`. -/
def fodDelayStore (g : Fod) (parsed : Option UInt32) : Fod × Int :=
  match parsed with
  | none => (g, -einval)
  | some delay => ({ g with workDelay := delay.toNat }, 0)

/-- `window_size_store`, where the first `allocs` calls of `kzalloc` succeed. -/
def windowSizeStore (g : Fod) (parsed : Option UInt32) (allocs : Nat) : Except Fault (Fod × Int) :=
  match parsed with
  | none => .ok (g, -einval)
  | some size =>
    let size := size.toNat
    if size < 2 then .ok (g, -einval)
    else if g.locked then .error .deadlock
    else if size - 1 ≤ allocs then
      .ok ({ g with
        windowSize := size
        window := g.window.clear.addTail (size - 1)
        fodTempCnt := 0 }, 0)
    else
      -- the return leaves `fod_lock` held
      .ok ({ g with
        windowSize := size
        window := g.window.clear.addTail allocs
        locked := true }, -enomem)

end Fod

/-- `virtual_sensor_fod_init`, where `power_supply_reg_notifier` returns `ret` and the first
`allocs` calls of `kzalloc` for the list succeed: the `g_fod` it leaves, with the zone's polling
delay. What it does to undo a failure reads through `g_fod`, which is not set yet. -/
def fodInit (ret : Int) (allocs : Nat) (delay : Int) : Except Fault (Option Fod × Int) :=
  if ret < 0 then .ok (none, ret)
  else if allocs < 4 then .error .nullPointer
  else
    .ok (some ⟨0, 5, 2000, 0, 0, ⟨List.replicate 5 0, 0, by decide⟩, false, ⟨0, 0⟩, delay⟩, ret)

/-! ## Runs -/

/-- What happens to the zone of the wireless charger. -/
inductive Event where
  | poll (data : Int) (now : Time)
  | wpcOnlineEvent (intval : Int)
  | wpcOnlineWork
  | pollingStore (parsed : Option Int)
  | fodDelayStore (parsed : Option UInt32)
  | windowSizeStore (parsed : Option UInt32) (allocs : Nat)

/-- One event: the value returned and the state after it. -/
def handle (g : Fod) : Event → Except Fault (Int × Fod)
  | .poll data now => (g.poll data now).map fun r => (r.2, r.1)
  | .wpcOnlineEvent intval => .ok (0, g.wpcOnlineEvent intval)
  | .wpcOnlineWork => g.wpcOnlineWork.map fun g => (0, g)
  | .pollingStore parsed => .ok ((g.pollingStore parsed).2, (g.pollingStore parsed).1)
  | .fodDelayStore parsed => .ok ((g.fodDelayStore parsed).2, (g.fodDelayStore parsed).1)
  | .windowSizeStore parsed allocs => (g.windowSizeStore parsed allocs).map fun r => (r.2, r.1)

/-- The turn of one sensor in `virtual_sensor_thermal_get_temp`: the slope in place of the reading
where there is one, the filter and what it adds to `tempv`. -/
def sensorTurn (fod : Bool) (g : Fod) (d : TDev) (x : Sample) (now : Time) :
    Except Fault (Fod × TDev × Int) :=
  if fod ∧ x.weight ≠ 0 then
    (g.poll x.temp now).map fun r =>
      let d := d.filter fod { x with temp := r.2 }
      (r.1, d, d.share x.weight)
  else
    let d := d.filter fod x
    .ok (g, d, d.share x.weight)

end Thermal.Sensor
