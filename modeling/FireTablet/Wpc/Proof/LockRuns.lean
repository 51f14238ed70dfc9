import FireTablet.Wpc.Locking

/-!
# Which calls release their locks

Every function but three comes back to the locks that it found, from any state and with any answers.
`power_switch` returns with `irq_lock` when it is given another number than 0, 5 and 10, and the
charger's poll when the type cannot be read. The thread of power-good waits for itself when power is
good again by the time that it shuts the device down.

A run whose calls are all `Sound` comes through them with no lock held in between, and no other run
does (`run_released_iff`).
-/

namespace Wpc.Locking

open Locks

variable {ans : Nat → Int} {h : Finset Lock} {board : Board} {cfg : Cfg}

/-! ## Accesses -/

theorem moves_access : Moves h h (access ans) := Moves.act _

theorem moves_getChip : Moves h h getChip := Moves.act _

theorem moves_setChip (c : Chip) : Moves h h (setChip c) := Moves.act _

theorem moves_accesses (n : Nat) : Moves h h (accesses ans n) := by
  induction n with
  | zero => exact Moves.pure ()
  | succ n ih =>
    apply Moves.bind moves_access
    intro _
    exact ih

theorem moves_psy : Moves h h (psy ans) := by
  apply Moves.bind moves_access
  intro _
  apply Moves.bind moves_access
  intro _
  exact Moves.pure _

/-- A change of the charger by its model. -/
theorem moves_update (f : Chip → Chip) :
    Moves h h (do
      let c ← getChip
      setChip (f c)) := by
  apply Moves.bind moves_getChip
  intro c
  exact moves_setChip _

/-! ## Files and coefficients -/

/-- The files that only show what they read. -/
theorem moves_show (n : Nat) (hl : .sysLock ∉ h) : Moves h h (locked .sysLock (accesses ans n)) :=
  Moves.locked hl (moves_accesses n)

theorem moves_voutSetStore (buf : List UInt8) (hl : .sysLock ∉ h) :
    Moves h h (voutSetStore ans buf) := by
  apply Moves.locked hl
  cases Kstrtox.kstrtoint buf 10 with
  | error e => exact Moves.pure ()
  | ok vout => exact Moves.ite (moves_accesses 1) (Moves.pure ())

theorem moves_powerSwitchShow (hl : .sysLock ∉ h) : Moves h h (powerSwitchShow ans) := by
  apply Moves.bind (Moves.lock hl)
  intro _
  apply Moves.bind moves_access
  intro ret
  exact Moves.ite (Moves.out hl ret) (Moves.out hl 0)

theorem moves_fodLoop (count : Int) (hl : .fodLock ∉ h) (n : Nat) :
    Moves (insert .fodLock h) h (fodLoop ans count n) := by
  induction n with
  | zero => exact Moves.out hl count
  | succ n ih =>
    apply Moves.bind moves_access
    intro ret
    exact Moves.ite (Moves.out hl ret) ih

theorem moves_fodRegsStore (type : Option Nat) (count : Int) (hl : .fodLock ∉ h) :
    Moves h h (fodRegsStore ans type count) := by
  apply Moves.ite (Moves.pure _)
  apply Moves.bind (Moves.lock hl)
  intro _
  exact moves_fodLoop count hl 8

theorem moves_simulateFod (hl : .fodLock ∉ h) : Moves h h (simulateFod ans) := by
  apply Moves.bind moves_getChip
  intro c
  exact Moves.ite (Moves.pure ()) (Moves.locked hl (moves_accesses 16))

theorem moves_psySetProperty (limit : Bool) (val : Int) (hl : .fodLock ∉ h) :
    Moves h h (psySetProperty ans limit val) := by
  apply Moves.ite (Moves.pure _)
  apply Moves.bind moves_access
  intro pg
  apply Moves.ite
  · apply Moves.bind (moves_simulateFod hl)
    intro _
    exact Moves.pure _
  · exact Moves.pure _

theorem moves_writeFod (type : ChrType) (hl : .fodLock ∉ h) :
    Moves h h (writeFod ans board type) := by
  apply Moves.ite (Moves.pure ())
  apply Moves.bind (Moves.lock hl)
  intro _
  apply Moves.bind moves_access
  intro _
  apply Moves.ite (Moves.out hl ())
  apply Moves.bind moves_access
  intro _
  exact Moves.ite (Moves.out hl ()) (Moves.unlock hl)

theorem moves_chipProgFwShow (hl : .lock ∉ h) : Moves h h (chipProgFwShow ans) := by
  apply Moves.bind (Moves.lock hl)
  intro _
  apply Moves.bind moves_access
  intro _
  apply Moves.ite (Moves.out hl ())
  apply Moves.bind moves_access
  intro _
  apply Moves.ite (Moves.out hl ())
  apply Moves.bind (moves_accesses 2)
  intro _
  exact Moves.unlock hl

theorem moves_sramProgFwShow (hl : .lock ∉ h) : Moves h h (sramProgFwShow ans) :=
  moves_chipProgFwShow hl

theorem moves_stepLoadEnStore (buf : List UInt8) (hl : .lock ∉ h) :
    Moves h h (stepLoadEnStore buf) := by
  apply Moves.locked hl
  apply Moves.bind moves_getChip
  intro c
  cases Kstrtox.kstrtoint buf 10 with
  | error e => exact Moves.pure ()
  | ok val =>
    exact Moves.ite (moves_setChip _) (Moves.ite (moves_setChip _) (Moves.pure ()))

/-! ## Attaching and detaching -/

theorem moves_enableChargeFlow (en : Bool) (hl : .fodLock ∉ h) :
    Moves h h (enableChargeFlow ans board cfg en) := by
  apply Moves.bind moves_getChip
  intro c
  apply Moves.bind moves_psy
  intro p
  apply Moves.bind (moves_setChip _)
  intro _
  exact Moves.ite (moves_writeFod _ hl) (Moves.pure ())

theorem moves_attachedVbus (hl : .fodLock ∉ h) : Moves h h (attachedVbus ans board cfg) := by
  apply Moves.bind moves_getChip
  intro c
  apply Moves.bind (moves_setChip _)
  intro _
  apply Moves.bind moves_access
  intro ret
  exact Moves.ite (moves_enableChargeFlow false hl) (moves_enableChargeFlow true hl)

theorem moves_shutdown (hi : .irqLock ∉ h) (hl : .fodLock ∉ h) :
    Moves h h (shutdown ans board) := by
  have hl' : Lock.fodLock ∉ insert .irqLock h := by simp [hl]
  have hout : Moves (insert .irqLock h) h (do
      accesses ans 2
      unlock .irqLock) := by
    apply Moves.bind (moves_accesses 2)
    intro _
    exact Moves.unlock hi
  apply Moves.bind moves_access
  intro pg
  apply Moves.ite (Moves.pure ())
  apply Moves.bind (Moves.lock hi)
  intro _
  apply Moves.bind moves_getChip
  intro c
  apply Moves.ite (Moves.out hi ())
  apply Moves.bind (moves_setChip _)
  intro _
  apply Moves.ite
  · apply Moves.bind (moves_writeFod _ hl')
    intro _
    exact hout
  · exact hout

theorem moves_determineInitStatus (ready : Bool) (irq : Option Irq) (hl : .fodLock ∉ h) :
    Moves h h (determineInitStatus ans board cfg ready irq) := by
  apply Moves.bind moves_access
  intro pg
  apply Moves.ite (Moves.pure ())
  apply Moves.bind moves_getChip
  intro c
  apply Moves.bind (moves_setChip _)
  intro _
  apply Moves.ite (Moves.pure ())
  apply Moves.bind moves_getChip
  intro c
  cases irq with
  | none => exact moves_setChip _
  | some irq =>
    apply Moves.bind (moves_setChip _)
    intro _
    apply Moves.bind (moves_attachedVbus hl)
    intro _
    exact moves_update _

theorem moves_powerSwitchWork (env : Env) (hl : .fodLock ∉ h) :
    Moves h h (powerSwitchWork ans board cfg env) := by
  apply Moves.bind moves_getChip
  intro c
  apply Moves.bind (moves_setChip _)
  intro _
  exact Moves.ite (moves_writeFod _ hl) (Moves.pure ())

theorem moves_forceEnableCharge (en : Bool) (hi : .irqLock ∉ h) (hl : .fodLock ∉ h) :
    Moves h h (forceEnableCharge ans board cfg en) :=
  Moves.locked hi (moves_enableChargeFlow en (by simp [hl]))

/-! ## The three that do not always -/

theorem held_powerSwitchStore (buf : List UInt8) (count : Int) (w : World) :
    (powerSwitchStore cfg buf count).held ∅ w =
      match Kstrtox.kstrtoint buf 10 with
      | .error _ => some ∅
      | .ok power => if power ≠ 5 ∧ power ≠ 10 ∧ power ≠ 0 then some {.irqLock} else some ∅ := by
  have hout : ∀ (a : Int) (v : World),
      ((unlock .irqLock : LockM Unit) >>= fun _ => pure a).held {.irqLock} v = some ∅ :=
    Moves.out (Finset.notMem_empty _)
  unfold powerSwitchStore
  rw [held_bind, held_lock (Finset.notMem_empty _), insert_empty_eq, Option.bind_some]
  cases Kstrtox.kstrtoint buf 10 with
  | error e => exact hout count _
  | ok power =>
    dsimp only
    rw [held_bind, moves_getChip _, Option.bind_some]
    split
    · rfl
    · rw [held_bind, moves_setChip _ _, Option.bind_some]
      exact hout count _

theorem held_doAlgorithm (w : World) :
    (doAlgorithm ans cfg).held ∅ w =
      if ¬ w.chip.online ∨ w.chip.forceSwitch ∨ ¬ w.chip.txAuthenComplete then some ∅
      else if ans w.time < 0 then some {.irqLock} else some ∅ := by
  have hout : ∀ (a : Int) (v : World),
      ((unlock .irqLock : LockM Unit) >>= fun _ => pure a).held {.irqLock} v = some ∅ :=
    Moves.out (Finset.notMem_empty _)
  unfold doAlgorithm
  rw [held_bind, held_lock (Finset.notMem_empty _), insert_empty_eq, Option.bind_some, held_bind,
    moves_getChip _, Option.bind_some]
  show (if ¬ w.chip.online ∨ w.chip.forceSwitch ∨ ¬ w.chip.txAuthenComplete then _ else _ :
    LockM Int).held _ _ = _
  split
  · exact hout 0 _
  · rw [held_bind, moves_access _, Option.bind_some]
    show (if ans w.time < 0 then _ else _ : LockM Int).held _ _ = _
    split
    · rfl
    · rw [held_bind, moves_psy _, Option.bind_some, held_bind, moves_setChip _ _, Option.bind_some]
      exact hout 0 _

/-! ## The thread of power-good -/

/-- A charge flow that is ended takes two answers. -/
theorem enableChargeFlow_time (ans : Nat → Int) (board : Board) (cfg : Cfg) (w : World) :
    (enableChargeFlow ans board cfg false w).state.time = w.time + 2 := by
  have hc : ∀ c : Chip, ¬ (c.isEnabled ≠ false ∧ false = true) := by
    rintro _ ⟨-, h⟩
    cases h
  show ((if w.chip.isEnabled ≠ false ∧ false = true then _ else _ : LockM Unit) _).state.time = _
  rw [if_neg (hc _)]
  rfl

/-- The shutdown waits for the lock that its caller holds, unless it leaves before. -/
theorem held_shutdown_locked (w : World) :
    (shutdown ans board).held {.irqLock} w =
      if board.kpoc ∧ ans w.time = 0 then some {.irqLock} else none := by
  unfold shutdown
  rw [held_bind, moves_access _, Option.bind_some]
  show (if board.kpoc ∧ ans w.time = 0 then _ else _ : LockM Unit).held _ _ = _
  split
  · rfl
  · rw [held_bind, held_lock_none (Finset.mem_singleton_self _)]
    rfl

theorem held_pgThread (ans : Nat → Int) (board : Board) (cfg : Cfg) (w : World) :
    (pgThread ans board cfg).held ∅ w =
      if ans w.time ≠ 0 ∨ ¬ board.kpoc then some ∅
      else if ans (w.time + 3) = 0 then some {.irqLock} else none := by
  have hfod : Lock.fodLock ∉ ({.irqLock} : Finset Lock) := by decide
  have hout : ∀ (a : Bool) (v : World),
      ((unlock .irqLock : LockM Unit) >>= fun _ => pure a).held {.irqLock} v = some ∅ :=
    Moves.out (Finset.notMem_empty _)
  unfold pgThread
  rw [held_bind, held_lock (Finset.notMem_empty _), insert_empty_eq, Option.bind_some, held_bind,
    moves_access _, Option.bind_some]
  show (if ans w.time ≠ 0 then _ else _ : LockM Bool).held _ _ = _
  by_cases h0 : ans w.time ≠ 0
  · rw [if_pos h0, if_pos (.inl h0), held_bind, moves_attachedVbus hfod _, Option.bind_some]
    exact hout true _
  · rw [if_neg h0, held_bind, moves_enableChargeFlow false hfod _, Option.bind_some]
    by_cases hk : board.kpoc = true
    · have htime := enableChargeFlow_time ans board cfg ⟨w.chip, w.time + 1⟩
      rw [if_pos hk, if_neg (by simp [h0, hk]), held_bind, held_shutdown_locked]
      show (if board.kpoc = true ∧ ans (enableChargeFlow ans board cfg false
        ⟨w.chip, w.time + 1⟩).state.time = 0 then _ else _ : Option _).bind _ = _
      rw [htime]
      by_cases h3 : ans (w.time + 3) = 0
      · rw [if_pos ⟨hk, h3⟩, if_pos h3]
        rfl
      · rw [if_neg fun h => h3 h.2, if_neg h3]
        rfl
    · rw [if_neg hk, if_pos (.inr hk)]
      exact hout true _

/-- The thread returns unless it powers the device off. -/
theorem val_pgThread (ans : Nat → Int) (board : Board) (cfg : Cfg) (w : World) :
    (pgThread ans board cfg w).val = true ↔ ans w.time ≠ 0 ∨ ¬ board.kpoc := by
  show ((if ans w.time ≠ 0 then _ else _ : LockM Bool) _).val = true ↔ _
  by_cases h0 : ans w.time ≠ 0
  · rw [if_pos h0]
    exact iff_of_true rfl (.inl h0)
  · rw [if_neg h0]
    show ((if board.kpoc = true then _ else _ : LockM Bool) _).val = true ↔ _
    by_cases hk : board.kpoc = true
    · rw [if_pos hk]
      refine iff_of_false ?_ (by simp [h0, hk])
      exact Bool.false_ne_true
    · rw [if_neg hk]
      exact iff_of_true rfl (.inr hk)

/-! ## Calls -/

variable (board cfg) in
/-- The call does not wait for a lock that it holds itself, and if it returns it has released the
locks that it took. -/
def Released (s : State) (c : Call) : Prop :=
  ∃ held, Locks.run s.held (c.done board cfg s).ops = some held ∧
    ((c.done board cfg s).val = true → held = s.held)

variable (board) in
/-- The calls that release their locks. -/
def Sound (s : State) (c : Call) : Prop :=
  match c.entry with
  | .powerSwitchStore buf _ =>
    ∀ power, Kstrtox.kstrtoint buf 10 = .ok power → power = 5 ∨ power = 10 ∨ power = 0
  | .doAlgorithm =>
    s.chip.online = true → s.chip.forceSwitch = false → s.chip.txAuthenComplete = true →
      0 ≤ c.ans 0
  | .pgThread => board.kpoc = true → c.ans 0 = 0 → c.ans 3 = 0
  | _ => True

variable {s : State} {c : Call}

theorem moves_returns {α : Type} {m : LockM α} {h h' : Finset Lock} (hm : Moves h h' m) :
    Moves h h' (returns m) := by
  apply Moves.bind hm
  intro _
  exact Moves.pure true

/-- The calls that always come back to the locks that they found. -/
theorem moves_run (ans : Nat → Int) (board : Board) (cfg : Cfg) {e : Entry}
    (hp : ∀ buf count, e ≠ .powerSwitchStore buf count) (hd : e ≠ .doAlgorithm)
    (hg : e ≠ .pgThread) : Moves ∅ ∅ (e.run ans board cfg) := by
  have hne : ∀ l : Lock, l ∉ (∅ : Finset Lock) := fun l => Finset.notMem_empty l
  cases e with
  | versionShow => exact moves_returns (moves_show 2 (hne _))
  | idShow => exact moves_returns (moves_show 1 (hne _))
  | powerRxMwShow => exact moves_returns (moves_show 1 (hne _))
  | voutAdcShow => exact moves_returns (moves_show 1 (hne _))
  | vrectAdcShow => exact moves_returns (moves_show 1 (hne _))
  | voutSetShow => exact moves_returns (moves_show 1 (hne _))
  | voutSetStore buf => exact moves_returns (moves_voutSetStore buf (hne _))
  | ioutShow => exact moves_returns (moves_show 1 (hne _))
  | powerSwitchShow => exact moves_returns (moves_powerSwitchShow (hne _))
  | powerSwitchStore buf count => exact absurd rfl (hp buf count)
  | regsDumpShow => exact moves_returns (moves_show 124 (hne _))
  | fodRegsStore type count => exact moves_returns (moves_fodRegsStore type count (hne _))
  | chipProgFwShow => exact moves_returns (moves_chipProgFwShow (hne _))
  | sramProgFwShow => exact moves_returns (moves_sramProgFwShow (hne _))
  | ntcTempShow => exact moves_returns (moves_show 1 (hne _))
  | stepLoadEnStore buf => exact moves_returns (moves_stepLoadEnStore buf (hne _))
  | psySetProperty limit val => exact moves_returns (moves_psySetProperty limit val (hne _))
  | pgThread => exact absurd rfl hg
  | intThread irq => exact moves_returns (moves_update _)
  | determineInitStatus ready irq =>
    exact moves_returns (moves_determineInitStatus ready irq (hne _))
  | powerSwitchWork env => exact moves_returns (moves_powerSwitchWork env (hne _))
  | adaptiveCurrentLimitWork env => exact moves_returns (moves_update _)
  | stepChargingWork env => exact moves_returns (moves_update _)
  | doAlgorithm => exact absurd rfl hd
  | forceEnableCharge en => exact moves_returns (moves_forceEnableCharge en (hne _) (hne _))
  | shutdown => exact moves_returns (moves_shutdown (hne _) (hne _))

/-- A call that returns is sound if it ends with the locks that it found. -/
theorem released_iff_held (hs : s.held = ∅) (hv : (c.done board cfg s).val = true) :
    Released board cfg s c ↔ (c.entry.run c.ans board cfg).held ∅ ⟨s.chip, 0⟩ = some ∅ := by
  unfold Released
  rw [hs]
  constructor
  · rintro ⟨held, hr, hh⟩
    rw [hh hv] at hr
    exact hr
  · intro h
    exact ⟨∅, h, fun _ => rfl⟩

/-- What a program returns does not matter for its locks. -/
theorem held_returns {α : Type} (m : LockM α) (h : Finset Lock) (w : World) :
    (returns m).held h w = m.held h w := by
  unfold returns
  rw [held_bind]
  cases m.held h w with
  | none => rfl
  | some k => rfl

theorem some_singleton_ne : (some {Lock.irqLock} : Option (Finset Lock)) ≠ some ∅ := by decide

theorem released_iff (hs : s.held = ∅) : Released board cfg s c ↔ Sound board s c := by
  obtain ⟨entry, ans⟩ := c
  by_cases hp : ∃ buf count, entry = .powerSwitchStore buf count
  · obtain ⟨buf, count, rfl⟩ := hp
    rw [released_iff_held hs rfl]
    show (returns _).held _ _ = _ ↔ _
    rw [held_returns, held_powerSwitchStore]
    unfold Sound
    dsimp only
    cases Kstrtox.kstrtoint buf 10 with
    | error e => exact iff_of_true rfl nofun
    | ok power =>
      simp only [Except.ok.injEq, forall_eq']
      split
      · next hne => exact iff_of_false some_singleton_ne (by omega)
      · next hne => exact iff_of_true rfl (by omega)
  by_cases hd : entry = .doAlgorithm
  · subst hd
    rw [released_iff_held hs rfl]
    show (returns _).held _ _ = _ ↔ _
    rw [held_returns, held_doAlgorithm]
    unfold Sound
    dsimp only
    cases ho : s.chip.online <;> cases hf : s.chip.forceSwitch <;>
      cases ha : s.chip.txAuthenComplete <;> simp
  by_cases hg : entry = .pgThread
  · subst hg
    have hheld := held_pgThread ans board cfg ⟨s.chip, 0⟩
    have hval := val_pgThread ans board cfg ⟨s.chip, 0⟩
    unfold Sound
    dsimp only
    by_cases hr : ans 0 ≠ 0 ∨ ¬ board.kpoc
    · have hv : (Call.done board cfg s ⟨.pgThread, ans⟩).val = true := hval.2 hr
      rw [released_iff_held hs hv]
      show (pgThread ans board cfg).held ∅ _ = _ ↔ _
      rw [hheld, if_pos hr]
      refine iff_of_true rfl fun hk h0 => ?_
      exact absurd hr (by simp [hk, h0])
    · rw [if_neg hr] at hheld
      have hfalse : (pgThread ans board cfg ⟨s.chip, 0⟩).val ≠ true := fun h => hr (hval.1 h)
      unfold Released
      rw [hs]
      show (∃ held, (pgThread ans board cfg).held ∅ ⟨s.chip, 0⟩ = some held ∧
        ((pgThread ans board cfg ⟨s.chip, 0⟩).val = true → held = ∅)) ↔ _
      rw [hheld]
      have hk : board.kpoc = true := by
        by_contra hk
        exact hr (.inr hk)
      have h0 : ans 0 = 0 := by
        by_contra h0
        exact hr (.inl h0)
      by_cases h3 : ans 3 = 0
      · exact iff_of_true ⟨_, if_pos h3, fun h => absurd h hfalse⟩ fun _ _ => h3
      · refine iff_of_false ?_ fun h => h3 (h hk h0)
        rintro ⟨held, h, -⟩
        rw [if_neg h3] at h
        cases h
  · have hm := moves_run ans board cfg (fun buf count he => hp ⟨buf, count, he⟩) hd hg
    apply iff_of_true
    · unfold Released
      rw [hs]
      exact ⟨∅, hm _, fun _ => rfl⟩
    · unfold Sound
      cases entry with
      | powerSwitchStore buf count => exact absurd ⟨buf, count, rfl⟩ hp
      | doAlgorithm => exact absurd rfl hd
      | pgThread => exact absurd rfl hg
      | _ => trivial

/-! ## Runs -/

/-- The driver once it is up, with no lock held. -/
def start (c : Chip) : State := ⟨c, ∅, true⟩

/-- A call that releases its locks leaves none held, as long as the device is on. -/
theorem step_held {s' : State} {o : Bool} (hs : s.on = true → s.held = ∅)
    (hr : s.on = true → Released board cfg s c) (h : step board cfg s c = some (o, s')) :
    s'.on = true → s'.held = ∅ := by
  unfold step at h
  split at h
  · cases h
  · next hon =>
    have hon : s.on = true := not_not.1 hon
    obtain ⟨held, hrun, hret⟩ := hr hon
    rw [hrun] at h
    cases h
    intro hv
    show held = ∅
    rw [hret hv, hs hon]

/-- Every call of a run releases its locks, so that the next one can take them, exactly when every
call is sound. -/
theorem run_released_iff (board : Board) (cfg : Cfg) (c : Chip) (calls : List Call) :
    Sys.Along (step board cfg) (fun s c => s.on = true → Released board cfg s c) (start c) calls ↔
      Sys.Along (step board cfg) (fun s c => s.on = true → Sound board s c) (start c) calls := by
  refine Sys.along_iff (I := fun s => s.on = true → s.held = ∅) ?_ ?_ calls (start c) fun _ => rfl
  · intro s c hs
    exact forall_congr' fun hon => released_iff (hs hon)
  · intro s c o s' hs hr h
    exact step_held hs hr h

/-- A number that is no power leaves `irq_lock` held. -/
theorem powerSwitch_not_released :
    ¬ Sys.Along (step ⟨true, true, false⟩
        ⟨false, ⟨6000, 6500, 7000⟩, ⟨8500, 9000, 9500⟩, 90, 200, 1100, 300, 500, 500, 200, 1100000,
          1100, 500000, 500000, true⟩)
      (fun s c => s.on = true → Released ⟨true, true, false⟩
        ⟨false, ⟨6000, 6500, 7000⟩, ⟨8500, 9000, 9500⟩, 90, 200, 1100, 300, 500, 500, 200, 1100000,
          1100, 500000, 500000, true⟩ s c)
      (start (probe 1100000)) [⟨.powerSwitchStore [55] 1, fun _ => 0⟩] := by
  rintro ⟨h, -⟩
  have hseven : Kstrtox.kstrtoint [55] 10 = .ok 7 := by decide
  have := (released_iff rfl).1 (h rfl) 7 hseven
  omega

end Wpc.Locking
