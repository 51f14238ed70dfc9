import FireTablet.Lib.CInt
import Mathlib.Data.List.Sort
import Mathlib.Data.Finset.Basic
import Mathlib.Algebra.Group.Nat.Defs

/-!
# The low-battery service (`pmic_lbat_service.c`)

A user waits for three thresholds: after the high one for `lv1`, after `lv1` for the high one and
for `lv2`, after `lv2` for the high one. The thresholds that are waited for are linked in two sorted
lists; the first of each list is cached and its voltage is the limit that the hardware compares
with. An interrupt unlinks the first threshold of its list and delivers it to the user, at once or
after a debounce. A user has one debounce slot for both directions.

The registration of `Lbat.Service` with the memory that it takes: a user and three thresholds, each
from `kzalloc`, which may fail. All its exits but the first are taken with the mutex held, and only
the exit of a success unlocks it.
-/

namespace Lbat

def thdVoltMax : Nat := 5400
def thdVoltMin : Nat := 2650
def voltFull : Nat := 1800
def userSize : Nat := 16
def einval : Int := 22
def enomem : Int := 12

/-- Which of its user's thresholds a threshold is. -/
inductive Role
  | hv
  | lv1
  | lv2
  deriving DecidableEq, Repr

/-- `struct lbat_thd_t`, of the user with index `user` in `lbat_user_table`. -/
structure Thd where
  user : Nat
  role : Role
  volt : Nat
  lt : volt < thdVoltMax
  deriving DecidableEq, Repr

/-- The voltages of a registered user. -/
structure Thds where
  idx : Nat
  hvVolt : Nat
  lv1Volt : Nat
  lv2Volt : Nat
  hv_lt : hvVolt < thdVoltMax
  lv1_le : lv1Volt ≤ hvVolt
  lv2_le : lv2Volt ≤ lv1Volt
  deriving DecidableEq, Repr

namespace Thds

def hv (u : Thds) : Thd := ⟨u.idx, .hv, u.hvVolt, u.hv_lt⟩
def lv1 (u : Thds) : Thd := ⟨u.idx, .lv1, u.lv1Volt, Nat.lt_of_le_of_lt u.lv1_le u.hv_lt⟩
def lv2 (u : Thds) : Thd :=
  ⟨u.idx, .lv2, u.lv2Volt, Nat.lt_of_le_of_lt (Nat.le_trans u.lv2_le u.lv1_le) u.hv_lt⟩

end Thds

/-- `struct lbat_user`. `debWork` is the delay with which the debounce work is queued, if it is, and
`last` the threshold of the last callback. -/
structure LbatUser where
  thds : Thds
  debCnt : Nat
  debThdPtr : Option Thd
  hvDebPrd : Nat
  hvDebTimes : Nat
  lvDebPrd : Nat
  lvDebTimes : Nat
  debWork : Option Nat
  last : Option Thd
  deriving DecidableEq, Repr

/-- One of the two directions: its list, its cached first entry, and the limit and the enable bits
of the hardware. -/
structure Dir where
  list : List Thd
  cur : Option Thd
  limit : Nat
  en : Bool
  deriving DecidableEq, Repr

/-- The service. `held` says that the mutex is held by a registration that has returned. -/
structure Service where
  users : List LbatUser
  hv : Dir
  lv : Dir
  en : Bool
  held : Bool
  deriving DecidableEq, Repr

/-- The service before the first user. -/
def Service.init : Service := ⟨[], ⟨[], none, 0, false⟩, ⟨[], none, 0, false⟩, false, false⟩

/-- The two values of `r_ratio`. -/
abbrev Ratio := Nat × Nat

/-- The voltage at full scale, the divisor of `VOLT_TO_RAW`. -/
def fullScale (r : Ratio) : Nat := voltFull * r.1 % 2 ^ 32 / r.2

/-- `VOLT_TO_RAW`. -/
def voltToRawWhole (r : Ratio) (volt : Nat) : Nat := volt * 2 ^ 12 % 2 ^ 32 / fullScale r

/-- The 12 bits of it that the limit register holds. -/
def voltToRaw (r : Ratio) (volt : Nat) : Nat := voltToRawWhole r volt % 2 ^ 12

/-- `lbat_read_volt`, from the bits of the ADC register. -/
def lbatReadVolt (r : Ratio) (adcOut : Nat) : Nat :=
  adcOut % 2 ^ 12 * voltFull * r.1 % 2 ^ 32 / r.2 / 2 ^ 12

/-! ## The lists -/

/-- `hv_list_cmp`. -/
def hvListCmp (a b : Thd) : Int := CInt.i32 (a.volt - b.volt)

/-- `lv_list_cmp`. -/
def lvListCmp (a b : Thd) : Int := CInt.i32 (b.volt - a.volt)

/-- Linking a threshold: it is added at the head, the list is sorted (stably), and the hardware gets
the limit of a new first entry. Linking a threshold twice, which would corrupt the list, makes it
occur twice. -/
def Dir.link (r : Ratio) (cmp : Thd → Thd → Int) (d : Dir) (thd : Thd) : Dir :=
  let l := (thd :: d.list).insertionSort fun a b => cmp a b ≤ 0
  if d.cur = l.head? then { d with list := l }
  else { d with
    list := l
    cur := l.head?
    limit := (l.head?.map fun t => voltToRaw r t.volt).getD d.limit }

/-- What an interrupt handler does after its threshold is unlinked. -/
def Dir.renew (r : Ratio) (d : Dir) : Dir :=
  match d.list with
  | [] => { d with cur := none }
  | thd :: _ => { d with cur := some thd, limit := voltToRaw r thd.volt }

/-- `list_del_init`. -/
def Dir.unlink (d : Dir) (thd : Thd) : Dir := { d with list := d.list.erase thd }

/-- `modify_lbat_list(LBAT_HV, thd)`. -/
def linkHv (r : Ratio) (s : Service) (thd : Thd) : Service :=
  { s with hv := s.hv.link r hvListCmp thd }

/-- `modify_lbat_list(LBAT_LV, thd)`. -/
def linkLv (r : Ratio) (s : Service) (thd : Thd) : Service :=
  { s with lv := s.lv.link r lvListCmp thd }

/-- `lbat_set_next_thd`. -/
def lbatSetNextThd (r : Ratio) (s : Service) (user : Thds) (thd : Thd) : Service :=
  if thd = user.hv then
    let s := linkLv r s user.lv1
    if user.lv2 ∈ s.lv.list then { s with lv := s.lv.unlink user.lv2 } else s
  else if thd = user.lv1 then
    let s := linkHv r s user.hv
    if user.lv2 ∈ s.lv.list then s else linkLv r s user.lv2
  else s

/-! ## The handlers -/

/-- `lbat_irq_enable`. -/
def lbatIrqEnable (s : Service) : Service :=
  { s with
    hv := if s.hv.cur ≠ none then { s.hv with en := true } else s.hv
    lv := if s.lv.cur ≠ none then { s.lv with en := true } else s.lv
    en := true }

/-- `lbat_irq_disable`. -/
def lbatIrqDisable (s : Service) : Service :=
  { s with hv := { s.hv with en := false }, lv := { s.lv with en := false }, en := false }

/-- The user at an index is replaced. -/
def Service.setUser (s : Service) (i : Nat) (user : LbatUser) : Service :=
  { s with users := s.users.set i user }

/-- `queue_delayed_work`: work that is queued stays as it is. -/
def LbatUser.queue (user : LbatUser) (prd : Nat) : LbatUser :=
  { user with debWork := some (user.debWork.getD prd) }

/-- An event at `thd` goes to its user, with the debounce settings of its direction. -/
def event (r : Ratio) (s : Service) (user : LbatUser) (thd : Thd) (prd times : Nat) : Service :=
  if times ≠ 0 then
    s.setUser thd.user ({ user with debCnt := 0, debThdPtr := some thd }.queue prd)
  else
    (lbatSetNextThd r s user.thds thd).setUser thd.user { user with last := some thd }

/-- `bat_h_int_handler`. -/
def batHIntHandler (r : Ratio) (s : Service) : Option Service :=
  match s.hv.cur with
  | none => some { s with hv := { s.hv with en := false } }
  | some cur =>
    if s.held then none
    else (s.users[cur.user]?).map fun user =>
      let s := event r { s with hv := s.hv.unlink cur } user cur user.hvDebPrd user.hvDebTimes
      lbatIrqEnable (lbatIrqDisable { s with hv := s.hv.renew r })

/-- `bat_l_int_handler`. -/
def batLIntHandler (r : Ratio) (s : Service) : Option Service :=
  match s.lv.cur with
  | none => some { s with lv := { s.lv with en := false } }
  | some cur =>
    if s.held then none
    else (s.users[cur.user]?).map fun user =>
      let s := event r { s with lv := s.lv.unlink cur } user cur user.lvDebPrd user.lvDebTimes
      lbatIrqEnable (lbatIrqDisable { s with lv := s.lv.renew r })

/-- The end of a debounce: the slot is free again. -/
def debDone (s : Service) (i : Nat) (user : LbatUser) : Service :=
  lbatIrqEnable (lbatIrqDisable (s.setUser i { user with debCnt := 0, debThdPtr := none }))

/-- The part of `lbat_deb_handler` for an event that is not ignored. -/
def debCount (r : Ratio) (s : Service) (i : Nat) (user : LbatUser) (thd : Thd) (prd times : Nat) :
    Service :=
  let user := { user with debCnt := (user.debCnt + 1) % 2 ^ 32 }
  if user.debCnt < times then s.setUser i (user.queue prd)
  else debDone (lbatSetNextThd r s user.thds thd) i { user with last := some thd }

/-- `lbat_deb_handler` of the user with index `i`, when its work is queued. -/
def lbatDebHandler (r : Ratio) (s : Service) (i : Nat) (adcOut : Nat) : Option Service :=
  if s.held then none
  else (s.users[i]?).bind fun user =>
    if user.debWork = none then none
    else
      let user := { user with debWork := none }
      match user.debThdPtr with
      | none => some (s.setUser i user)
      | some thd =>
        if thd = user.thds.hv then
          if lbatReadVolt r adcOut < thd.volt then some (debDone (linkHv r s thd) i user)
          else some (debCount r s i user thd user.hvDebPrd user.hvDebTimes)
        else if thd = user.thds.lv1 ∨ thd = user.thds.lv2 then
          if lbatReadVolt r adcOut > thd.volt then some (debDone (linkLv r s thd) i user)
          else some (debCount r s i user thd user.lvDebPrd user.lvDebTimes)
        else some (s.setUser i user)

/-! ## Users -/

/-- A registration that fails returns with the mutex locked. -/
def registerFail (s : Service) (ret : Int) : Option (Int × Service) :=
  some (-ret, { s with held := true })

/-- `lbat_user_register`, with what `kzalloc` answers for the user and for its thresholds. A user
more than the table has room for is undefined behaviour. -/
def lbatUserRegister (r : Ratio) (s : Service) (hv lv1 lv2 : Nat) (callback : Bool)
    (userAlloc thdAlloc : Bool) : Option (Int × Service) :=
  if s.held then none
  else if ¬ userAlloc then registerFail s enomem
  else if hhv : thdVoltMax ≤ hv ∨ lv1 ≤ thdVoltMin then registerFail s einval
  else if hlv : hv < lv1 ∨ lv1 < lv2 then registerFail s einval
  else if ¬ callback then registerFail s einval
  else if ¬ thdAlloc ∨ hv = 0 ∨ lv1 = 0 ∨ lv2 = 0 then registerFail s einval
  else if userSize ≤ s.users.length then none
  else
    let thds : Thds := ⟨s.users.length, hv, lv1, lv2, Nat.lt_of_not_le (not_or.1 hhv).1,
      Nat.le_of_not_lt (not_or.1 hlv).1, Nat.le_of_not_lt (not_or.1 hlv).2⟩
    -- `lbat_user_update`
    let s' := linkLv r s thds.lv1
    let s' := if s.users.length = 0 then lbatIrqEnable s' else s'
    some (0, { s' with users := s.users ++ [⟨thds, 0, none, 0, 0, 0, 0, none, none⟩] })

/-- `lbat_user_set_debounce`. -/
def lbatUserSetDebounce (s : Service) (i hvDebPrd hvDebTimes lvDebPrd lvDebTimes : Nat) : Service :=
  { s with users := s.users.modify i fun user => { user with
      hvDebPrd := hvDebPrd, hvDebTimes := hvDebTimes,
      lvDebPrd := lvDebPrd, lvDebTimes := lvDebTimes } }

/-- What can happen. -/
inductive Ev
  | register (hv lv1 lv2 : Nat) (callback userAlloc thdAlloc : Bool)
  | setDebounce (i hvDebPrd hvDebTimes lvDebPrd lvDebTimes : Nat)
  | hInt
  | lInt
  | debWork (i adcOut : Nat)
  deriving DecidableEq, Repr

/-- One handler runs. `none` where it waits for the mutex forever, or where the work is not queued.
-/
def step (r : Ratio) (s : Service) : Ev → Option (Int × Service)
  | .register hv lv1 lv2 callback userAlloc thdAlloc =>
    lbatUserRegister r s hv lv1 lv2 callback userAlloc thdAlloc
  | .setDebounce i hvDebPrd hvDebTimes lvDebPrd lvDebTimes =>
    some (0, lbatUserSetDebounce s i hvDebPrd hvDebTimes lvDebPrd lvDebTimes)
  | .hInt => (batHIntHandler r s).map fun s' => (0, s')
  | .lInt => (batLIntHandler r s).map fun s' => (0, s')
  | .debWork i adcOut => (lbatDebHandler r s i adcOut).map fun s' => (0, s')

/-! ## Registration of a low-battery user (`lbat_user_register`) -/

def eprobeDefer : Int := 517

/-- The memory in use, and the next address. -/
structure Heap where
  live : Finset Nat
  next : Nat
  deriving DecidableEq

/-- `kzalloc`, when it has or has not memory. -/
def Heap.kzalloc (m : Heap) (ok : Bool) : Option Nat × Heap :=
  if ok then (some m.next, ⟨insert m.next m.live, m.next + 1⟩) else (none, m)

/-- `kfree`. -/
def Heap.kfree (m : Heap) (p : Nat) : Heap := { m with live := m.live.erase p }

/-- The service and its memory. -/
structure Driver where
  service : Service
  heap : Heap

/-- A call of `lbat_user_register`: whether the probe has set `regmap`, the arguments, and what
`kzalloc` answers. -/
structure Call where
  regmap : Bool
  hv : Nat
  lv1 : Nat
  lv2 : Nat
  callback : Bool
  userAlloc : Bool
  hvAlloc : Bool
  lv1Alloc : Bool
  lv2Alloc : Bool
  deriving DecidableEq

/-- `lbat_thd_init`. -/
def lbatThdInit (m : Heap) (volt : Nat) (ok : Bool) : Option Nat × Heap :=
  if volt = 0 then (none, m) else m.kzalloc ok

/-- The exit `out` with an error: the user is freed when its arguments were wrong, its thresholds
are not, and the mutex stays held. -/
def Driver.out (d : Driver) (ret : Int) (user : Option Nat) : Option (Int × Driver) :=
  some (-ret,
    { service := { d.service with held := true }
      heap := match user with
        | some p => if ret = einval then d.heap.kfree p else d.heap
        | none => d.heap })

/-- `lbat_user_update`, with the unlocking exit. A user behind the end of the table is undefined
behaviour. -/
def lbatUserUpdate (r : Ratio) (d : Driver) (thds : Thds) : Option (Int × Driver) :=
  if userSize ≤ d.service.users.length then none
  else
    let s := linkLv r d.service thds.lv1
    let s := if d.service.users.length = 0 then lbatIrqEnable s else s
    some (0, { d with service := { s with
      users := d.service.users ++ [⟨thds, 0, none, 0, 0, 0, 0, none, none⟩] } })

/-- `lbat_user_register`. `none` where it waits for the mutex forever. -/
def register (r : Ratio) (d : Driver) (c : Call) : Option (Int × Driver) :=
  if !c.regmap then some (-eprobeDefer, d)
  else if d.service.held then none
  else
    match d.heap.kzalloc c.userAlloc with
    | (none, m) => { d with heap := m }.out enomem none
    | (some p, m) =>
      let d := { d with heap := m }
      if hhv : thdVoltMax ≤ c.hv ∨ c.lv1 ≤ thdVoltMin then d.out einval (some p)
      else if hlv : c.hv < c.lv1 ∨ c.lv1 < c.lv2 then d.out einval (some p)
      else if !c.callback then d.out einval (some p)
      else
        let (hvThd, m) := lbatThdInit d.heap c.hv c.hvAlloc
        let (lv1Thd, m) := lbatThdInit m c.lv1 c.lv1Alloc
        let (lv2Thd, m) := lbatThdInit m c.lv2 c.lv2Alloc
        let d := { d with heap := m }
        if hvThd = none ∨ lv1Thd = none ∨ lv2Thd = none then d.out einval (some p)
        else lbatUserUpdate r d ⟨d.service.users.length, c.hv, c.lv1, c.lv2,
          Nat.lt_of_not_le (not_or.1 hhv).1, Nat.le_of_not_lt (not_or.1 hlv).1,
          Nat.le_of_not_lt (not_or.1 hlv).2⟩

end Lbat
