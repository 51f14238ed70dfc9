import FireTablet.SignOfLife.Concurrent
import FireTablet.SignOfLife.Proof.RtcHistory

/-!
# Concurrent updates of the reasons

`rtc_write_life_cycle_reason` stores a register value that it read under an earlier lock, so an
update of another field of the register that comes in between is lost, and the parity that it
computes may be that of codes that are gone. In an interleaving in which neither happens every field
holds what was last put in it, an operation that is done has put there what it was to, and the
parity is right once all are done (`updates_kept`).
-/

namespace SignOfLife

open LifeCycleReason

/-! ## Alone -/

/-- The next access of a task that runs alone. -/
def lcrNext (p : Regs × LcrTask) : Regs × LcrTask := (lcrAct p.1 p.2).2

/-- The accesses of a write are those of `rtc_write_life_cycle_reason`. -/
theorem alone_write (c : Category) (reason : LifeCycleReason) (regs : Regs) :
    lcrNext^[8] (regs, (LcrOp.write c reason).start) =
      (rtcWriteLifeCycleReason reason c regs, .done) := rfl

theorem alone_clear (regs : Regs) :
    lcrNext^[5] (regs, LcrOp.clear.start) = (rtcClearLifeCycleReason regs, .done) := rfl

theorem alone_mark (value : Int) (regs : Regs) :
    lcrNext^[1] (regs, (LcrOp.mark value).start) = (rtcMarkQuiescent value regs, .done) := rfl

/-! ## The store -/

/-- The codes in the fields, and whether the device is quiescent. -/
abbrev Store := (Category → BitVec 16) × Bool

/-- The quiescent bit. -/
def quiescent (regs : Regs) : Bool := (regs quieReg).getLsbD 15

/-- The store that the registers hold. -/
def store (regs : Regs) : Store := (rtcBreason regs, quiescent regs)

/-- The store after an effect. -/
def LcrEffect.apply (u : Store) : LcrEffect → Store
  | .wrote c reason => (Function.update u.1 c (lifeCycleBreason c reason), u.2)
  | .cleared c => (Function.update u.1 c 0, u.2)
  | .marked value => (u.1, decide (value ≠ 0))
  | .quiet => u

/-- The effects of a run. -/
def effects (outs : List (Nat × Option LcrEffect)) : List LcrEffect := outs.filterMap Prod.snd

/-- The effect is on a category's field. -/
def LcrEffect.touches (c : Category) : LcrEffect → Bool
  | .wrote d _ => d = c
  | .cleared d => d = c
  | _ => false

/-- The code that was last put in a category's field. -/
def lastCode (init : Category → BitVec 16) (es : List LcrEffect) (c : Category) : BitVec 16 :=
  match es.reverse.find? (·.touches c) with
  | some (.wrote _ reason) => lifeCycleBreason c reason
  | some _ => 0
  | none => init c

/-- The last mark. -/
def lastMark (init : Bool) (es : List LcrEffect) : Bool :=
  match es.reverse.find? fun
    | .marked _ => true
    | _ => false with
  | some (.marked value) => decide (value ≠ 0)
  | _ => init

theorem lastCode_append (init : Category → BitVec 16) (es : List LcrEffect) (e : LcrEffect)
    (c : Category) : lastCode init (es ++ [e]) c =
      if e.touches c then lastCode init [e] c else lastCode init es c := by
  unfold lastCode
  simp only [List.reverse_append, List.reverse_cons, List.reverse_nil, List.nil_append,
    List.cons_append, List.find?_cons, List.find?_nil]
  cases e.touches c <;> rfl

/-- What is last is what the effects leave one after the other. -/
theorem foldl_apply (u : Store) (es : List LcrEffect) :
    es.foldl LcrEffect.apply u = (lastCode u.1 es, lastMark u.2 es) := by
  induction es using List.reverseRecOn with
  | nil => rfl
  | append_singleton es e ih =>
    rw [List.foldl_append, ih]
    refine Prod.ext (funext fun c => ?_) ?_
    · show (LcrEffect.apply (lastCode u.1 es, lastMark u.2 es) e).1 c = lastCode u.1 (es ++ [e]) c
      rw [lastCode_append]
      cases e with
      | wrote d reason =>
        by_cases hd : d = c
        · subst hd; simp [LcrEffect.apply, LcrEffect.touches, lastCode]
        · simp [LcrEffect.apply, LcrEffect.touches, hd, Function.update_of_ne (Ne.symm hd)]
      | cleared d =>
        by_cases hd : d = c
        · subst hd; simp [LcrEffect.apply, LcrEffect.touches, lastCode]
        · simp [LcrEffect.apply, LcrEffect.touches, hd, Function.update_of_ne (Ne.symm hd)]
      | marked value => simp [LcrEffect.apply, LcrEffect.touches]
      | quiet => simp [LcrEffect.apply, LcrEffect.touches]
    · cases e <;> simp [LcrEffect.apply, lastMark]

/-- The effects of an abstract run. -/
theorem trace_store {u u' : Store} {outs : List (Nat × Option LcrEffect)}
    (h : Sys.Trace (Pool.Via fun u e u' => u' = LcrEffect.apply u e) u outs u') :
    u' = (effects outs).foldl LcrEffect.apply u := by
  induction h with
  | nil => rfl
  | @cons u v w t o es hr _ ih =>
    cases o with
    | none => rw [ih, show v = u from hr]; rfl
    | some e => rw [ih, show v = e.apply u from hr]; rfl

/-! ## The condition -/

/-- The task will write the parity. -/
def LcrTask.paritySoon : LcrTask → Bool
  | .mark _ => false
  | .done => false
  | _ => true

/-- None but task `t` will write the parity. -/
def LastParity (s : LcrPool) (t : Nat) : Prop := ∀ task ∈ s.others t, task.paritySoon = false

/-- The condition on the next access of a task: a register value from an earlier lock still has the
bits of the other fields, and the last parity of all is that of the codes there are. -/
def LcrTask.Fits (s : LcrPool) (t : Nat) : LcrTask → Prop
  | .writeField c _ rtcBreason =>
    (lifeCycleReason c).SameRest rtcBreason (s.shared (lifeCycleReason c).reg)
  | .writeParity rtcBreason x => parityField.SameRest rtcBreason (s.shared parityReg) ∧
    (LastParity s t → x = getSignOfLifeParity s.shared)
  | .clearParity => LastParity s t → getSignOfLifeParity s.shared = 0
  | _ => True

/-- The condition on a step. -/
def LcrFits (s : LcrPool) (t : Nat) : Prop := ∀ task ∈ s.threads[t]?, task.Fits s t

instance (s : LcrPool) (t : Nat) : Decidable (LastParity s t) :=
  inferInstanceAs (Decidable (∀ task ∈ s.others t, _))

instance (s : LcrPool) (t : Nat) : DecidablePred (LcrTask.Fits s t)
  | .writeField .. => inferInstanceAs (Decidable (BitField.SameRest ..))
  | .writeParity .. => inferInstanceAs (Decidable (_ ∧ (_ → _)))
  | .clearParity => inferInstanceAs (Decidable (_ → _))
  | .readField .. | .readParity | .sumParity .. | .clearFields .. | .mark _ | .done =>
    inferInstanceAs (Decidable True)

instance (s : LcrPool) (t : Nat) : Decidable (LcrFits s t) :=
  inferInstanceAs (Decidable (∀ task ∈ s.threads[t]?, _))

/-! ## Accesses -/

section
variable {regs : Regs}

/-- Writing a field leaves the quiescent bit, if that is not in it. -/
theorem quiescent_set {f : BitField 16} {r : Nat} {x : BitVec 16}
    (h : quieReg = r → f.mask.getLsbD 15 = false) :
    quiescent (Function.update regs r (f.set (regs r) x)) = quiescent regs :=
  getLsbD_set_field h

theorem quiescent_field (c : Category) :
    quieReg = (lifeCycleReason c).reg → (lifeCycleReason c).mask.getLsbD 15 = false := by
  cases c <;> decide

theorem quiescent_mark (value : Int) :
    quiescent (rtcMarkQuiescent value regs) = decide (value ≠ 0) := by
  unfold quiescent rtcMarkQuiescent
  rw [Function.update_self]
  by_cases hv : value = 0
  · rw [if_pos hv]; simp [hv, pmicRtcQuiescent]
  · rw [if_neg hv]; simp [hv, pmicRtcQuiescent]

/-- A code is put in a field. -/
theorem store_put (c : Category) {x : BitVec 16} (h : (lifeCycleReason c).Fits x) :
    store (Function.update regs (lifeCycleReason c).reg
      ((lifeCycleReason c).set (regs (lifeCycleReason c).reg) x)) =
      (Function.update (rtcBreason regs) c x, quiescent regs) := by
  unfold store
  rw [rtcBreason_put c h, quiescent_set (quiescent_field c)]

theorem store_parity (x : BitVec 16) :
    store (Function.update regs parityReg (parityField.set (regs parityReg) x)) = store regs := by
  unfold store
  rw [show rtcBreason (Function.update regs parityReg (parityField.set (regs parityReg) x)) =
    rtcBreason regs from funext fun c => rtcBreason_set parity_disjoint,
    quiescent_set fun _ => by decide]

theorem lifeCycleBreason_fits (c : Category) (reason : LifeCycleReason) :
    (lifeCycleReason c).Fits (lifeCycleBreason c reason) := by
  obtain ⟨m, hm, hrtc, -⟩ := searchRtcByLcr_mem c reason
  unfold lifeCycleBreason
  rw [hrtc]
  exact reason_fits c m hm

end

/-- An access has its effect on the store. -/
theorem lcrAct_store {s : LcrPool} {t : Nat} {task : LcrTask} (h : task.Fits s t) :
    store (lcrAct s.shared task).2.1 = (lcrAct s.shared task).1.apply (store s.shared) := by
  cases task with
  | readField c reason => rfl
  | writeField c reason rtcBreason =>
    have hrest : (lifeCycleReason c).SameRest rtcBreason (s.shared (lifeCycleReason c).reg) := h
    simp only [lcrAct]
    rw [BitField.set_congr hrest, store_put c (lifeCycleBreason_fits c reason)]
    rfl
  | readParity => rfl
  | sumParity rtcBreason c cs parity => rfl
  | writeParity rtcBreason x =>
    obtain ⟨hrest, -⟩ := h
    simp only [lcrAct]
    rw [BitField.set_congr hrest, store_parity]
    rfl
  | clearFields c cs =>
    simp only [lcrAct]
    rw [← BitField.set_zero, store_put c (BitField.fits_zero _)]
    rfl
  | clearParity =>
    simp only [lcrAct]
    rw [← BitField.set_zero, store_parity]
    rfl
  | mark value =>
    simp only [lcrAct]
    refine Prod.ext (funext fun c => rtcBreason_mark value c) ?_
    exact quiescent_mark value
  | done => rfl

/-- Some task will write the parity, or the parity is right. -/
def ParityOk (s : LcrPool) : Prop :=
  (∃ task ∈ s.threads, task.paritySoon = true) ∨ checkSignOfLifeParity s.shared = true

/-- A last parity that is that of the codes is right. -/
theorem parityOk_last {s : LcrPool} {t : Nat} (regs : Regs) (new : LcrTask)
    (h : LastParity s t → checkSignOfLifeParity regs = true) :
    ParityOk ⟨regs, s.threads.set t new⟩ := by
  by_cases hsoon : ∃ task ∈ s.others t, task.paritySoon = true
  · obtain ⟨task, hmem, htask⟩ := hsoon
    exact .inl ⟨task, Pool.mem_of_mem_others new hmem, htask⟩
  · refine .inr (h fun task hmem => ?_)
    by_contra hne
    exact hsoon ⟨task, hmem, by simpa using hne⟩

/-- **One access** keeps the parity right, or to be written. -/
theorem lcrAct_parity {s : LcrPool} {t : Nat} {task : LcrTask} (hi : ParityOk s)
    (ht : s.threads[t]? = some task) (h : task.Fits s t) :
    ParityOk ⟨(lcrAct s.shared task).2.1, s.threads.set t (lcrAct s.shared task).2.2⟩ := by
  have hgoes : (lcrAct s.shared task).2.2.paritySoon = true →
      ParityOk ⟨(lcrAct s.shared task).2.1, s.threads.set t (lcrAct s.shared task).2.2⟩ :=
    fun hsoon => .inl ⟨_, Pool.mem_set_self _ ht, hsoon⟩
  have hstays : task.paritySoon = false →
      checkSignOfLifeParity (lcrAct s.shared task).2.1 = checkSignOfLifeParity s.shared →
      ParityOk ⟨(lcrAct s.shared task).2.1, s.threads.set t (lcrAct s.shared task).2.2⟩ := by
    intro hno hcheck
    refine parityOk_last _ _ fun hlast => ?_
    obtain ⟨other, hmem, hother⟩ | hok := hi
    · obtain rfl | hmem := Pool.mem_cases ht hmem
      · rw [hno] at hother; cases hother
      · rw [hlast other hmem] at hother; cases hother
    · rw [hcheck]; exact hok
  cases task with
  | readField c reason => exact hgoes rfl
  | writeField c reason rtcBreason => exact hgoes rfl
  | readParity => exact hgoes rfl
  | sumParity rtcBreason c cs parity =>
    cases cs with
    | nil => exact hgoes rfl
    | cons d cs => exact hgoes rfl
  | writeParity rtcBreason x =>
    obtain ⟨hrest, hlast⟩ := h
    refine parityOk_last _ _ fun hl => ?_
    simp only [lcrAct]
    rw [BitField.set_congr hrest, hlast hl]
    exact check_set_parity _
  | clearFields c cs =>
    cases cs with
    | nil => exact hgoes rfl
    | cons d cs => exact hgoes rfl
  | clearParity =>
    refine parityOk_last _ _ fun hl => ?_
    have hzero : (getSignOfLifeParity s.shared).setWidth 16 = 0 := by rw [h hl]; rfl
    simp only [lcrAct]
    rw [← BitField.set_zero, ← hzero]
    exact check_set_parity _
  | mark value => exact hstays rfl (check_mark value)
  | done => exact hstays rfl rfl

/-! ## What an operation does -/

/-- The effects of a whole operation. -/
def LcrOp.effects : LcrOp → List LcrEffect
  | .write c reason => [.wrote c reason]
  | .clear => [.cleared .boot, .cleared .shutdown, .cleared .thermalShutdown, .cleared .special]
  | .mark value => [.marked value]

/-- The effects that a task has still to make. -/
def LcrTask.effectsLeft : LcrTask → List LcrEffect
  | .readField c reason | .writeField c reason _ => [.wrote c reason]
  | .clearFields c cs => .cleared c :: cs.map .cleared
  | .mark value => [.marked value]
  | _ => []

/-- The effects among those of the accesses. -/
def visible (es : List LcrEffect) : List LcrEffect := es.filter fun e => e ≠ .quiet

/-- What an access has done it has not to do any more. -/
theorem lcrAct_effectsLeft (regs : Regs) (task : LcrTask) :
    visible [(lcrAct regs task).1] ++ (lcrAct regs task).2.2.effectsLeft = task.effectsLeft := by
  cases task with
  | sumParity rtcBreason c cs parity => cases cs <;> rfl
  | clearFields c cs => cases cs <;> rfl
  | _ => rfl

/-- An operation that is done has made its effects. -/
theorem effects_of_done {regs : Regs} {ops : List LcrOp} {sched : List Nat} {s' : LcrPool}
    {outs : List (Nat × Option LcrEffect)}
    (hrun : Sys.run (Pool.step lcrAct) (lcrPool regs ops) sched = some (outs, s')) {t : Nat}
    {op : LcrOp} (ht : ops[t]? = some op) (hdone : s'.threads[t]? = some .done) :
    visible (Pool.did t outs) = op.effects := by
  have hstart : (lcrPool regs ops).threads[t]? = some op.start := by
    simp [lcrPool, ht]
  have hkeep : ∀ (regs : Regs) (task : LcrTask) (hist : List LcrEffect),
      visible hist ++ task.effectsLeft = op.effects →
      visible (hist ++ [(lcrAct regs task).1]) ++ (lcrAct regs task).2.2.effectsLeft =
        op.effects := fun regs task hist hj => by
    have hleft := lcrAct_effectsLeft regs task
    unfold visible at hj hleft ⊢
    rw [List.filter_append, List.append_assoc, hleft, hj]
  obtain ⟨task, htask, hj⟩ := Pool.run_thread
    (J := fun hist task => visible hist ++ task.effectsLeft = op.effects) hkeep sched [] hrun
    hstart (by cases op <;> rfl)
  obtain rfl : task = .done := Option.some.inj (htask.symm.trans hdone)
  simpa [LcrTask.effectsLeft] using hj

/-! ## Runs -/

/-- The operation writes the parity. -/
def LcrOp.writes : LcrOp → Bool
  | .mark _ => false
  | _ => true

theorem lcrPool_parity {regs : Regs} {ops : List LcrOp}
    (h : (∃ op ∈ ops, op.writes = true) ∨ checkSignOfLifeParity regs = true) :
    ParityOk (lcrPool regs ops) := by
  obtain ⟨op, hmem, hop⟩ | hok := h
  · refine .inl ⟨op.start, List.mem_map_of_mem hmem, ?_⟩
    cases op with
    | write c reason => rfl
    | clear => rfl
    | mark value => cases hop
  · exact .inr hok

/-- **No update is lost** in an interleaving that meets the condition: every field holds what was
last put in it, the device is quiescent as it was last marked, an operation that is done has made
its effects, and the parity is right once all are done. -/
theorem updates_kept (regs : Regs) (ops : List LcrOp) (sched : List Nat)
    (h : (∃ op ∈ ops, op.writes = true) ∨ checkSignOfLifeParity regs = true)
    (hf : Sys.Along (Pool.step lcrAct) LcrFits (lcrPool regs ops) sched) :
    ∃ outs s', Sys.run (Pool.step lcrAct) (lcrPool regs ops) sched = some (outs, s') ∧
      (∀ c, rtcBreason s'.shared c = lastCode (rtcBreason regs) (effects outs) c) ∧
      quiescent s'.shared = lastMark (quiescent regs) (effects outs) ∧
      (∀ t op, ops[t]? = some op → s'.threads[t]? = some .done →
        visible (Pool.did t outs) = op.effects) ∧
      ((∀ task ∈ s'.threads, task = .done) → checkSignOfLifeParity s'.shared = true) := by
  obtain ⟨outs, s', hrun, hi, htrace⟩ := Pool.run_sim store (I := ParityOk)
    (R := fun u e u' => u' = e.apply u)
    (fun s t task hi hp ht => ⟨lcrAct_parity hi ht (hp task ht), lcrAct_store (hp task ht)⟩)
    sched (lcrPool regs ops) (lcrPool_parity h) hf
  have hstore := trace_store htrace
  rw [foldl_apply] at hstore
  refine ⟨outs, s', hrun, fun c => congrFun (congrArg Prod.fst hstore) c,
    congrArg Prod.snd hstore, fun t op ht => effects_of_done hrun ht, fun hdone => ?_⟩
  obtain ⟨task, hmem, hsoon⟩ | hok := hi
  · rw [hdone task hmem] at hsoon; cases hsoon
  · exact hok

/-- Two writers of one register and a mark. -/
def twoWriters : List LcrOp := [.write .boot warmbootBySw, .write .shutdown shutdownBySw, .mark 1]

theorem updates_kept_twoWriters :
    let sched := List.replicate 8 0 ++ 2 :: List.replicate 8 1
    ∃ outs s', Sys.run (Pool.step lcrAct) (lcrPool (fun _ => 0) twoWriters) sched =
        some (outs, s') ∧
      (∀ c, rtcBreason s'.shared c = lastCode (rtcBreason fun _ => 0) (effects outs) c) ∧
      quiescent s'.shared = lastMark (quiescent fun _ => 0) (effects outs) ∧
      (∀ t op, twoWriters[t]? = some op → s'.threads[t]? = some .done →
        visible (Pool.did t outs) = op.effects) ∧
      ((∀ task ∈ s'.threads, task = .done) → checkSignOfLifeParity s'.shared = true) :=
  updates_kept _ _ _ (by decide) (by decide +kernel)

/-- Both writers read the register before either writes it: the boot reason is lost. And a clear
between a writer's field and its own parity leaves the parity wrong. -/
theorem updates_lost :
    (∃ outs s', Sys.run (Pool.step lcrAct) (lcrPool (fun _ => 0) twoWriters)
        ([0, 1] ++ List.replicate 7 0 ++ List.replicate 7 1 ++ [2]) = some (outs, s') ∧
      (∀ task ∈ s'.threads, task = .done) ∧ rtcBreason s'.shared .boot = 0 ∧
      lastCode (rtcBreason fun _ => 0) (effects outs) .boot = 4) ∧
    ∃ outs s', Sys.run (Pool.step lcrAct)
        (lcrPool (fun _ => 0) [.write .boot warmbootByKernelPanic, .clear])
        ([1, 1, 1, 1] ++ List.replicate 8 0 ++ [1]) = some (outs, s') ∧
      (∀ task ∈ s'.threads, task = .done) ∧ checkSignOfLifeParity s'.shared = false := by
  refine ⟨⟨_, _, rfl, ?_, ?_, ?_⟩, _, _, rfl, ?_, ?_⟩
  · decide +kernel
  · decide +kernel
  · decide +kernel
  · decide +kernel
  · decide +kernel

end SignOfLife
