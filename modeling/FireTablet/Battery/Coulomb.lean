import Mathlib.Data.List.Sort
import FireTablet.Lib.CInt

/-!
# The coulomb service (`mtk_battery_coulomb_service.c`)

Consumers wait for the coulomb counter in two lists, one for a rise and one for a fall, and the
gauge has an interrupt for each. A step is what one party does while it holds `coulomb_lock`, or
between two locks. The list for a fall is the list for a rise with all signs changed: `Side.key`
changes them.
-/

namespace Battery

open CInt

/-- The list of a consumer: for a rise, or for a fall. -/
inductive Side
  | plus
  | minus
  deriving DecidableEq, Repr

/-- A value of the counter as a list compares it. -/
def Side.key : Side → Int → Int
  | .plus, x => x
  | .minus, x => -x

/-- A queued `struct gauge_consumer` with its `end`, which has 64 bits, and the gap it was started
with. -/
structure Consumer where
  id : Nat
  stop : Int
  gap : Int
  deriving DecidableEq, Repr

/-- Where the service thread is: it waits, it has been woken, or it is in a callback of one of the
lists, after it read the counter. -/
inductive Thread
  | waiting
  | woken
  | callback (side : Side) (car : Int)
  deriving DecidableEq, Repr

/-- Where a reset of the counter is. -/
inductive Reset
  | none
  | zeroed
  | noted
  | cleared
  deriving DecidableEq, Repr

/-- `struct mtk_coulomb_service` with the gauge: the counter and where its interrupts are armed.
`wakes` and `wakesArmed` count the calls of `wake_up_gauge_coulomb` before the thresholds are
written and before the thread is woken. -/
structure Service where
  list : Side → List Consumer
  counter : Int
  armed : Side → Int
  coulombThreadTimeout : Bool
  wakes : Nat
  wakesArmed : Nat
  thread : Thread
  reset : Reset
  resetCoulomb : Int

/-- A callback: the consumer and the counter value that was read. -/
structure Call where
  side : Side
  consumer : Consumer
  car : Int
  deriving DecidableEq, Repr

namespace Service

/-- An interrupt is armed at the counter plus (or minus) a value. -/
def arm (s : Service) (side : Side) (v : Int) : Service :=
  { s with armed := Function.update s.armed side (side.key (side.key s.counter + i32 v)) }

/-- A consumer is due when the counter has reached its end. -/
def Due (side : Side) (car : Int) (c : Consumer) : Prop := side.key c.stop ≤ side.key car

instance (side : Side) (car : Int) (c : Consumer) : Decidable (Due side car c) :=
  inferInstanceAs (Decidable (_ ≤ _))

/-- `list_del_init`. -/
def unlink (id : Nat) (l : List Consumer) : List Consumer := l.filter fun c => c.id ≠ id

/-- A consumer is added before the first one with a later end. -/
def link (side : Side) (c : Consumer) (l : List Consumer) : List Consumer :=
  l.orderedInsert (fun a b => side.key a.stop < side.key b.stop) c

/-- The consumer where the loop over the due ones stops: the first that is not due, or the last. -/
def firstLeft (side : Side) (car : Int) : List Consumer → Option Consumer
  | [] => none
  | c :: cs => if Due side car c then (firstLeft side car cs).or (some c) else some c

/-- The list for a gap. -/
def sideOf (car : Int) : Side := if car > 0 then .plus else .minus

/-- A consumer is linked again, with a gap from the counter on. -/
def relink (s : Service) (id : Nat) (car : Int) : Service :=
  let l := fun side => unlink id (s.list side)
  let side := sideOf car
  { s with list := Function.update l side (link side ⟨id, s.counter + car, car⟩ (l side)) }

/-- The interrupt of a list is armed where the loop over the due consumers stops. -/
def rearm (s : Service) (side : Side) : Service :=
  match firstLeft side s.counter (s.list side) with
  | some c => s.arm side (side.key c.stop - side.key s.counter)
  | none => s

/-- The first consumer is due already. -/
def headDue (s : Service) (side : Side) : Bool :=
  (s.list side).head?.any fun c => Due side s.counter c

/-- `gauge_coulomb_start`; a wake-up follows where the first consumer is due already. -/
def start (s : Service) (id : Nat) (car : Int) : Service :=
  if car = 0 then s
  else
    let s := (s.relink id car).rearm (sideOf car)
    if s.headDue (sideOf car) then { s with wakes := s.wakes + 1 } else s

/-- `gauge_coulomb_stop`. -/
def stop (s : Service) (id : Nat) : Service :=
  { s with list := fun side => unlink id (s.list side) }

section
variable (callback : Nat → Bool)

/-- The due consumers at the head of a list are unlinked, up to the first with a callback. -/
def scan (side : Side) (car : Int) : List Consumer → List Consumer × Option Consumer
  | [] => ([], none)
  | c :: cs =>
    if Due side car c then if callback c.id then (cs, some c) else scan side car cs
    else (c :: cs, none)

/-- `gauge_coulomb_int_handler` for one list: up to the next callback, or with the interrupt armed
for the first consumer. -/
def handleSide (s : Service) (side : Side) (car : Int) : Service × Option Call :=
  let r := scan callback side car (s.list side)
  let s := { s with list := Function.update s.list side r.1 }
  match r.2 with
  | some c => ({ s with thread := .callback side car }, some ⟨side, c, car⟩)
  | none =>
    match r.1.head? with
    | some c => (s.arm side (side.key c.stop - side.key car), none)
    | none => (s, none)

/-- The list for a fall, and the end of the handler. -/
def handleMinus (s : Service) (car : Int) : Service × Option Call :=
  match s.handleSide callback .minus car with
  | (s, some c) => (s, some c)
  | (s, none) => ({ s with thread := .waiting }, none)

/-- Both lists. -/
def handlePlus (s : Service) (car : Int) : Service × Option Call :=
  match s.handleSide callback .plus car with
  | (s, some c) => (s, some c)
  | (s, none) => s.handleMinus callback car

/-- `gauge_coulomb_thread` up to where it drops the lock or waits for it. -/
def threadStep (s : Service) : Service × Option Call :=
  match s.thread with
  | .waiting =>
    if s.coulombThreadTimeout then
      ({ s with coulombThreadTimeout := false, thread := .woken }, none)
    else (s, none)
  | .woken => s.handlePlus callback s.counter
  | .callback .plus car => s.handlePlus callback car
  | .callback .minus car => s.handleMinus callback car

/-- The steps: calls of `gauge_coulomb_start` and `gauge_coulomb_stop`, from callbacks too; an
interrupt, and the two steps of `wake_up_gauge_coulomb`; the thread; a move of the counter; and
those of a reset, `gauge_coulomb_before_reset`, the reset itself and `gauge_coulomb_after_reset`. -/
inductive Event
  | start (id : Nat) (car : Int)
  | stop (id : Nat)
  | interrupt
  | wakeArm
  | wakeThread
  | thread
  | move (car : Int)
  | beforeZero
  | beforeNote
  | clear
  | after

/-- The ends after a reset. -/
def shift (now : Int) (c : Consumer) : Consumer := { c with stop := c.stop - now }

/-- One step; a step that its party cannot make leaves the state. -/
def step (s : Service) : Event → Option (Option Call × Service)
  | .start id car => some (none, s.start id car)
  | .stop id => some (none, s.stop id)
  | .interrupt => some (none, { s with wakes := s.wakes + 1 })
  | .wakeArm =>
    some (none, if s.wakes = 0 then s
      else { (s.arm .plus 300).arm .minus 300 with
        wakes := s.wakes - 1
        wakesArmed := s.wakesArmed + 1 })
  | .wakeThread =>
    some (none, if s.wakesArmed = 0 then s
      else { s with wakesArmed := s.wakesArmed - 1, coulombThreadTimeout := true })
  | .thread =>
    let r := s.threadStep callback
    some (r.2, r.1)
  | .move car => some (none, { s with counter := i32 car })
  | .beforeZero =>
    some (none, if s.reset = .none then { (s.arm .plus 0).arm .minus 0 with reset := .zeroed }
      else s)
  | .beforeNote =>
    some (none, if s.reset = .zeroed then
      { s with reset := .noted, resetCoulomb := s.counter } else s)
  | .clear =>
    some (none, if s.reset = .noted then { s with reset := .cleared, counter := 0 } else s)
  | .after =>
    some (none, if s.reset = .cleared then
      { s with
        reset := .none
        list := fun side => (s.list side).map (shift s.resetCoulomb)
        wakes := s.wakes + 1 }
      else s)

end

/-- The service after its initialisation. -/
def init (counter : Int) (armed : Side → Int) : Service :=
  ⟨fun _ => [], counter, armed, false, 0, 0, .waiting, .none, 0⟩

end Service

end Battery
