import FireTablet.Cmdq.Thread
import FireTablet.Lib.Run
import Mathlib.Data.Multiset.AddSub

/-!
# The life of a task

A task is accepted into a thread's list, called back, and freed: `LifeStep` has these steps and no
others, with the head of the list called back unless a task is removed. Every function that holds a
thread's lock takes such steps (`Kept`, `irqHandler_kept`), keeps the thread enabled exactly while
its list is not empty, and changes the usage count by what the list becomes empty or not; the tasks
that it leaves on a local list are named.
-/

namespace Cmdq

/-- The list of a thread, the tasks that are called back and not freed, and a bound of the numbers
of all tasks. -/
structure TaskLife where
  queue : List CmdqTask
  done : Multiset CmdqTask
  next : Nat

/-- The steps in the lives of a thread's tasks. -/
inductive LifeStep : TaskLife → TaskEff → TaskLife → Prop
  | accept (q r : List CmdqTask) (d : Multiset CmdqTask) {k : Nat} {t : CmdqTask} :
      k ≤ t.serial → LifeStep ⟨q ++ r, d, k⟩ (.accept t) ⟨q ++ t :: r, d, t.serial + 1⟩
  | noMem (l : TaskLife) (pkt : Nat) : LifeStep l (.noMem pkt) l
  | execDone (t : CmdqTask) (q : List CmdqTask) (d : Multiset CmdqTask) (k : Nat) (err : Int) :
      LifeStep ⟨t :: q, d, k⟩ (.execDone t err) ⟨q, t ::ₘ d, k⟩
  | removed (t : CmdqTask) (q r : List CmdqTask) (d : Multiset CmdqTask) (k : Nat) (err : Int) :
      LifeStep ⟨q ++ t :: r, d, k⟩ (.removed t err) ⟨q ++ r, t ::ₘ d, k⟩
  | loopCallback (t : CmdqTask) (q : List CmdqTask) (d : Multiset CmdqTask) (k : Nat)
      (err : Int) : LifeStep ⟨t :: q, d, k⟩ (.loopCallback t err) ⟨t :: q, d, k⟩
  | errCallback (t : CmdqTask) (q : List CmdqTask) (d : Multiset CmdqTask) (k : Nat) :
      LifeStep ⟨t :: q, d, k⟩ (.errCallback t) ⟨t :: q, d, k⟩
  | free (t : CmdqTask) (q : List CmdqTask) (d : Multiset CmdqTask) (k : Nat) :
      LifeStep ⟨q, t ::ₘ d, k⟩ (.free t) ⟨q, d, k⟩

/-- Paths of life steps. -/
abbrev LifePath := Sys.Path LifeStep

/-! ## Paths -/

/-- A local list is freed. -/
theorem path_free (q l : List CmdqTask) (d : Multiset CmdqTask) (k : Nat) :
    LifePath ⟨q, d + ↑l, k⟩ (l.map .free) ⟨q, d, k⟩ := by
  induction l with
  | nil => simpa using Sys.Path.nil (R := LifeStep) ⟨q, d, k⟩
  | cons t l ih =>
    have hd : d + ↑(t :: l) = t ::ₘ (d + ↑l) := by
      rw [← Multiset.cons_coe, Multiset.add_cons]
    rw [hd]
    exact .cons (.free t q _ k) ih

/-- Tasks at the head of the list are done. -/
theorem path_done (l : List (CmdqTask × Int)) (q : List CmdqTask) (d : Multiset CmdqTask)
    (k : Nat) :
    LifePath ⟨l.map Prod.fst ++ q, d, k⟩ (l.map fun p => .execDone p.1 p.2)
      ⟨q, d + ↑(l.map Prod.fst), k⟩ := by
  induction l generalizing d with
  | nil => simpa using Sys.Path.nil (R := LifeStep) ⟨q, d, k⟩
  | cons p l ih =>
    have hd : d + ↑((p :: l).map Prod.fst) = (p.1 ::ₘ d) + ↑(l.map Prod.fst) := by
      rw [List.map_cons, ← Multiset.cons_coe, Multiset.add_cons, Multiset.cons_add]
    rw [hd]
    exact .cons (.execDone p.1 _ d k p.2) (ih _)

/-- Tasks at the head of the list are done and freed. -/
theorem path_doneAndFree (err : Int) (l q : List CmdqTask) (d : Multiset CmdqTask) (k : Nat) :
    LifePath ⟨l ++ q, d, k⟩ (doneAndFree err l) ⟨q, d, k⟩ := by
  induction l with
  | nil => exact .nil _
  | cons t l ih => exact .cons (.execDone t _ d k err) (.cons (.free t _ d k) ih)

/-! ## What a function under the lock keeps -/

/-- 1 for a thread that has tasks. -/
def live (thr : CmdqThread) : Int := if thr.taskBusyList = [] then 0 else 1

/-- A thread is enabled while it has tasks. -/
def Sound (thr : CmdqThread) : Prop := thr.enabled = true ↔ thr.taskBusyList ≠ []

/-- A function takes life steps, leaves the tasks `parked` on a local list, and keeps the usage
count and the enabled bit in step with the list. -/
structure Kept (s : ThrSt) (effs : List TaskEff) (parked : List CmdqTask) (s' : ThrSt) : Prop where
  path : ∀ d k, LifePath ⟨s.thr.taskBusyList, d, k⟩ effs ⟨s'.thr.taskBusyList, d + ↑parked, k⟩
  sound : Sound s.thr → Sound s'.thr
  balance : Sound s.thr → s'.usage - live s'.thr = s.usage - live s.thr

theorem kept_refl (s : ThrSt) : Kept s [] [] s :=
  ⟨fun d k => by simpa using Sys.Path.nil (R := LifeStep) ⟨_, d, k⟩, id, fun _ => rfl⟩

theorem Kept.trans {s s' s'' : ThrSt} {e e' : List TaskEff} {l l' : List CmdqTask}
    (h : Kept s e l s') (h' : Kept s' e' l' s'') : Kept s (e ++ e') (l ++ l') s'' where
  path d k := by
    have h2 := h'.path (d + ↑l) k
    rw [Multiset.add_assoc, Multiset.coe_add] at h2
    exact (h.path d k).append h2
  sound hs := h'.sound (h.sound hs)
  balance hs := (h'.balance (h.sound hs)).trans (h.balance hs)

/-- The local list is freed. -/
theorem Kept.freed {s s' : ThrSt} {e : List TaskEff} {l : List CmdqTask} (h : Kept s e l s') :
    Kept s (e ++ l.map .free) [] s' where
  path d k := by
    have hf := path_free s'.thr.taskBusyList l d k
    simpa using (h.path d k).append hf
  sound := h.sound
  balance := h.balance

/-- A change of registers and packets. -/
theorem Kept.congr {s s' s'' : ThrSt} {e : List TaskEff} {l : List CmdqTask} (h : Kept s e l s')
    (hq : s''.thr.taskBusyList = s'.thr.taskBusyList) (he : s''.thr.enabled = s'.thr.enabled)
    (hu : s''.usage = s'.usage) : Kept s e l s'' where
  path d k := hq ▸ h.path d k
  sound hs := by
    have := h.sound hs
    rwa [Sound, he, hq]
  balance hs := by
    rw [← h.balance hs, hu, live, live, hq]

/-- A thread with tasks is enabled again. -/
theorem Kept.enable {s s' s'' : ThrSt} {e : List TaskEff} {l : List CmdqTask} (h : Kept s e l s')
    (hne : s'.thr.taskBusyList ≠ []) (hq : s''.thr.taskBusyList = s'.thr.taskBusyList)
    (he : s''.thr.enabled = true) (hu : s''.usage = s'.usage) : Kept s e l s'' where
  path d k := hq ▸ h.path d k
  sound _ := ⟨fun _ => hq ▸ hne, fun _ => he⟩
  balance hs := by
    rw [← h.balance hs, hu, live, live, hq]

variable {g : Nat}

@[simp] theorem busy_setPc (s : ThrSt) (pc : Nat) :
    (s.setPc g pc).thr.taskBusyList = s.thr.taskBusyList := rfl
@[simp] theorem busy_setEnd (s : ThrSt) (pa : Nat) :
    (s.setEnd g pa).thr.taskBusyList = s.thr.taskBusyList := rfl
@[simp] theorem busy_setList (s : ThrSt) (l : List CmdqTask) :
    (s.setList l).thr.taskBusyList = l := rfl
@[simp] theorem busy_disable (s : ThrSt) :
    s.disable.thr.taskBusyList = s.thr.taskBusyList := rfl
@[simp] theorem busy_resetEnd (s : ThrSt) :
    (s.resetEnd g).thr.taskBusyList = s.thr.taskBusyList := by
  rw [ThrSt.resetEnd]
  cases s.thr.taskBusyList.getLast? <;> rfl
@[simp] theorem enabled_resetEnd (s : ThrSt) : (s.resetEnd g).thr.enabled = s.thr.enabled := by
  rw [ThrSt.resetEnd]
  cases s.thr.taskBusyList.getLast? <;> rfl
@[simp] theorem dirty_resetEnd (s : ThrSt) : (s.resetEnd g).thr.dirty = s.thr.dirty := by
  rw [ThrSt.resetEnd]
  cases s.thr.taskBusyList.getLast? <;> rfl
@[simp] theorem usage_resetEnd (s : ThrSt) : (s.resetEnd g).usage = s.usage := by
  rw [ThrSt.resetEnd]
  cases s.thr.taskBusyList.getLast? <;> rfl

/-- A shorter list, still with tasks. -/
theorem kept_shorter {s : ThrSt} {e : List TaskEff} {l q : List CmdqTask}
    (hne : s.thr.taskBusyList ≠ []) (hq : q ≠ [])
    (hp : ∀ d k, LifePath ⟨s.thr.taskBusyList, d, k⟩ e ⟨q, d + ↑l, k⟩) :
    Kept s e l (s.setList q) where
  path := hp
  sound hs := by
    have he : s.thr.enabled = true := hs.2 hne
    exact ⟨fun _ => hq, fun _ => he⟩
  balance _ := by simp [ThrSt.setList, live, hne, hq]

/-- The list becomes empty: the thread is disabled and the clock is given back. -/
theorem kept_emptied {s : ThrSt} {e : List TaskEff} {l : List CmdqTask}
    (hne : s.thr.taskBusyList ≠ [])
    (hp : ∀ d k, LifePath ⟨s.thr.taskBusyList, d, k⟩ e ⟨[], d + ↑l, k⟩) :
    Kept s e l (s.setList []).disable where
  path := hp
  sound _ := by simp [Sound, ThrSt.disable, ThrSt.setList]
  balance _ := by simp [ThrSt.disable, ThrSt.setList, live, hne]

/-! ## Submission -/

/-- A function that accepts a task, or changes nothing. -/
structure Accepts (serial : Nat) (s : ThrSt) (effs : List TaskEff) (s' : ThrSt) : Prop where
  path : ∀ d k, k ≤ serial → ∃ k' ≤ serial + 1,
    LifePath ⟨s.thr.taskBusyList, d, k⟩ effs ⟨s'.thr.taskBusyList, d, k'⟩
  sound : Sound s.thr → Sound s'.thr
  balance : Sound s.thr → s'.usage - live s'.thr = s.usage - live s.thr
  dirty : s'.thr.dirty = s.thr.dirty
  grows : s.thr.taskBusyList ≠ [] → s'.thr.taskBusyList ≠ []

/-- A task is put somewhere into a list that has tasks. -/
theorem accepts_insert {s s' : ThrSt} {t : CmdqTask} {q r : List CmdqTask}
    (hne : s.thr.taskBusyList ≠ []) (hq : s.thr.taskBusyList = q ++ r)
    (hq' : s'.thr.taskBusyList = q ++ t :: r) (he : s'.thr.enabled = s.thr.enabled)
    (hu : s'.usage = s.usage) (hd : s'.thr.dirty = s.thr.dirty) :
    Accepts t.serial s [.accept t] s' where
  path d k hk := by
    refine ⟨t.serial + 1, le_rfl, ?_⟩
    rw [hq, hq']
    exact .single (.accept q r d hk)
  sound hs := by
    have hen : s.thr.enabled = true := hs.2 hne
    refine ⟨fun _ => by simp [hq'], fun _ => he.trans hen⟩
  balance _ := by
    have hne' : s'.thr.taskBusyList ≠ [] := by simp [hq']
    rw [hu, live, live, if_neg hne, if_neg hne']
  dirty := hd
  grows _ := by simp [hq']

/-- Where the scan stops, the list is cut in two. -/
theorem insertScan_append {c p : Nat} {after l : List CmdqTask} {pkts : Nat → PktRec}
    {pos : InsertPos} (h : insertScan c p after pkts l = some pos) :
    pos.before ++ pos.after = l.reverse ++ after := by
  induction l generalizing after pkts with
  | nil => simp [insertScan] at h
  | cons prev rest ih =>
    simp only [insertScan] at h
    split_ifs at h
    · cases h
      simp
    · cases rest with
      | nil =>
        cases h
        simp
      | cons t rest =>
        rw [ih h]
        simp

theorem insertScan_isSome (c p : Nat) (after : List CmdqTask) {l : List CmdqTask}
    (pkts : Nat → PktRec)
    (hl : l ≠ []) : ∃ pos, insertScan c p after pkts l = some pos := by
  induction l generalizing after pkts with
  | nil => exact absurd rfl hl
  | cons prev rest ih =>
    simp only [insertScan]
    split_ifs
    · exact ⟨_, rfl⟩
    · cases rest with
      | nil => exact ⟨_, rfl⟩
      | cons t rest => exact ih _ _ (List.cons_ne_nil _ _)

theorem insertIntoThread_busy {s : ThrSt} (hne : s.thr.taskBusyList ≠ []) (c : Nat)
    (t : CmdqTask) :
    ∃ q r, s.thr.taskBusyList = q ++ r ∧
      (cmdqTaskInsertIntoThread g c t s).thr.taskBusyList = q ++ t :: r ∧
      (cmdqTaskInsertIntoThread g c t s).thr.enabled = s.thr.enabled ∧
      (cmdqTaskInsertIntoThread g c t s).usage = s.usage ∧
      (cmdqTaskInsertIntoThread g c t s).thr.dirty = s.thr.dirty := by
  obtain ⟨pos, hpos⟩ := insertScan_isSome c t.pkt [] s.pkts
    (List.reverse_ne_nil_iff.2 hne)
  have hcut := insertScan_append hpos
  rw [List.reverse_reverse, List.append_nil] at hcut
  refine ⟨pos.before, pos.after, hcut.symm, ?_⟩
  simp only [cmdqTaskInsertIntoThread, hpos]
  exact ⟨rfl, rfl, rfl, rfl⟩

/-- **`cmdq_task_exec`**. -/
theorem exec_accepts (serial pkt : Nat) (ptr : Option Nat) (s : ThrSt) :
    Accepts serial s (cmdqTaskExec g serial pkt ptr s).1 (cmdqTaskExec g serial pkt ptr s).2 := by
  have hsame : ∀ e, e = [] ∨ e = [TaskEff.noMem pkt] → Accepts serial s e s := by
    intro e he
    refine ⟨fun d k hk => ⟨k, by omega, ?_⟩, id, fun _ => rfl, rfl, id⟩
    rcases he with rfl | rfl
    · exact .nil _
    · exact .single (.noMem _ pkt)
  cases hbuf : (s.pkts pkt).pkt.buf with
  | nil =>
    simp only [cmdqTaskExec, hbuf]
    exact hsame _ (.inl rfl)
  | cons buf bufs =>
    cases ptr with
    | none =>
      simp only [cmdqTaskExec, hbuf]
      exact hsame _ (.inr rfl)
    | some ptr =>
      simp only [cmdqTaskExec, hbuf]
      by_cases hq : s.thr.taskBusyList = []
      · rw [if_pos hq]
        refine ⟨fun d k hk => ⟨serial + 1, le_rfl, ?_⟩, fun _ => ?_, fun _ => ?_, rfl,
          fun _ => List.cons_ne_nil _ _⟩
        · rw [hq]
          exact .single (.accept [] [] d (t := ⟨serial, ptr, pkt, buf.paBase⟩) hk)
        · exact ⟨fun _ => List.cons_ne_nil _ _, fun _ => rfl⟩
        · simp only [live, hq, ThrSt.setList, ThrSt.setPc, ThrSt.setEnd, if_true,
            List.cons_ne_nil, if_false]
          omega
      · rw [if_neg hq]
        by_cases hend : cmdqThreadGetPc g s + cmdqInstSize = cmdqThreadGetEnd g s ∨
            cmdqThreadGetPc g s = cmdqThreadGetEnd g s
        · simp only [hend, if_true]
          exact accepts_insert (t := ⟨serial, ptr, pkt, buf.paBase⟩) (r := []) hq
            (List.append_nil _).symm (by simp) (by simp; rfl) (by simp; rfl) (by simp; rfl)
        · simp only [hend, if_false]
          obtain ⟨q, r, hqr, hq', he, hu, hd⟩ := insertIntoThread_busy (g := g) hq
            (cmdqThreadGetPc g s) ⟨serial, ptr, pkt, buf.paBase⟩
          exact accepts_insert (t := ⟨serial, ptr, pkt, buf.paBase⟩) hq hqr
            (by rw [busy_resetEnd, hq']) (by rw [enabled_resetEnd, he])
            (by rw [usage_resetEnd, hu]) (by rw [dirty_resetEnd, hd])

/-! ## Interrupts -/

theorem irqScan_append (c : Nat) (err : Int) (pkts : Nat → PktRec) (q : List CmdqTask) :
    (irqScan c err pkts q).done.map Prod.fst ++ (irqScan c err pkts q).rest = q := by
  induction q with
  | nil => rfl
  | cons t q ih =>
    rw [irqScan]
    split_ifs
    · rfl
    · rfl
    · rfl
    · simp only [List.map_cons, List.cons_append]
      rw [ih]

/-- What stays in the list, with the program counter set to its head if a task has failed. -/
def irqNext (g : Nat) (r : IrqScan) (s : ThrSt) : ThrSt :=
  match r.failed, r.rest with
  | true, next :: _ => (s.setList r.rest).setPc g next.paBase
  | _, _ => s.setList r.rest

theorem irqNext_frame (r : IrqScan) (s : ThrSt) :
    (irqNext g r s).thr.taskBusyList = r.rest ∧ (irqNext g r s).thr.enabled = s.thr.enabled ∧
      (irqNext g r s).usage = s.usage ∧ (irqNext g r s).thr.dirty = s.thr.dirty ∧
      (irqNext g r s).pkts = s.pkts := by
  rcases r with ⟨done, rest, failed⟩
  cases failed <;> cases rest <;> exact ⟨rfl, rfl, rfl, rfl, rfl⟩

theorem irqHandle_eq (flag : IrqFlag) (s : ThrSt) :
    cmdqThreadIrqHandler.handle g flag s =
      let r := irqScan (cmdqThreadGetPc g s) flag.err s.pkts s.thr.taskBusyList
      ⟨r.done.map fun d => .execDone d.1 d.2, r.done.map Prod.fst,
        if r.rest = [] then (irqNext g r s).disable else irqNext g r s⟩ := by
  unfold cmdqThreadIrqHandler.handle irqNext
  rcases irqScan (cmdqThreadGetPc g s) flag.err s.pkts s.thr.taskBusyList with ⟨done, rest, failed⟩
  cases failed <;> cases rest <;> rfl

/-- The tasks that are done stay at the interrupt's local list. -/
theorem irqHandle_kept (flag : IrqFlag) {s : ThrSt} (hen : s.thr.enabled = true) :
    Kept s (cmdqThreadIrqHandler.handle g flag s).effs
      (cmdqThreadIrqHandler.handle g flag s).removes (cmdqThreadIrqHandler.handle g flag s).s := by
  have happ := irqScan_append (cmdqThreadGetPc g s) flag.err s.pkts s.thr.taskBusyList
  have hpath := path_done (irqScan (cmdqThreadGetPc g s) flag.err s.pkts s.thr.taskBusyList).done
    (irqScan (cmdqThreadGetPc g s) flag.err s.pkts s.thr.taskBusyList).rest
  rw [happ] at hpath
  obtain ⟨hq, he, hu, -, -⟩ :=
    irqNext_frame (g := g) (irqScan (cmdqThreadGetPc g s) flag.err s.pkts s.thr.taskBusyList) s
  rw [irqHandle_eq]
  simp only
  split_ifs with hrest
  · rw [hrest] at hpath hq
    refine ⟨fun d k => ?_, fun _ => ?_, fun hs => ?_⟩
    · rw [busy_disable, hq]
      exact hpath d k
    · simp [Sound, ThrSt.disable, hq]
    · have hne : s.thr.taskBusyList ≠ [] := hs.1 hen
      simp [ThrSt.disable, live, hq, hu, hne]
  · refine ⟨fun d k => ?_, fun _ => ?_, fun hs => ?_⟩
    · rw [hq]
      exact hpath d k
    · simp [Sound, hq, he, hen, hrest]
    · have hne : s.thr.taskBusyList ≠ [] := hs.1 hen
      simp [live, hq, hu, hne, hrest]

/-- **`cmdq_thread_irq_handler`**. -/
theorem irqHandler_kept (flag : IrqFlag) (s : ThrSt) :
    Kept s (cmdqThreadIrqHandler g flag s).effs (cmdqThreadIrqHandler g flag s).removes
      (cmdqThreadIrqHandler g flag s).s := by
  by_cases hguard : s.usage ≤ 0 ∨ s.thr.enabled = false ∨ flag = .none
  · simp only [cmdqThreadIrqHandler, if_pos hguard]
    exact kept_refl s
  have hen : s.thr.enabled = true := by
    simpa using fun h => hguard (.inr (.inl h))
  cases hq : s.thr.taskBusyList with
  | nil =>
    simp only [cmdqThreadIrqHandler, if_neg hguard, hq, List.head?_nil]
    by_cases hd : s.thr.dirty = true
    · simp only [if_pos hd]
      exact kept_refl s
    · simp only [if_neg hd]
      exact irqHandle_kept flag hen
  | cons task tasks =>
    simp only [cmdqThreadIrqHandler, if_neg hguard, hq, List.head?_cons]
    by_cases hl : (s.pkts task.pkt).loop = true
    · simp only [if_pos hl]
      refine ⟨fun d k => ?_, id, fun _ => rfl⟩
      rw [hq]
      simpa using Sys.Path.single (LifeStep.loopCallback task tasks d k flag.err)
    · simp only [if_neg hl]
      by_cases hd : s.thr.dirty = true
      · simp only [if_pos hd]
        exact kept_refl s
      · simp only [if_neg hd]
        exact irqHandle_kept flag hen

/-! ## The timeout worker, removal and stop -/

/-- The local list of a timeout worker. -/
def parked : Option TimeoutWork → List CmdqTask
  | none => []
  | some w => w.removes

@[simp] theorem parked_none : parked none = [] := rfl
@[simp] theorem parked_some (w : TimeoutWork) : parked (some w) = w.removes := rfl

/-- **`cmdq_thread_handle_timeout_work`** up to the error callback. -/
theorem timeoutBegin_kept (flag : IrqFlag) (x x' : Bool) (s : ThrSt) :
    Kept s (timeoutBegin g flag x x' s).1 (parked (timeoutBegin g flag x x' s).2.2)
      (timeoutBegin g flag x x' s).2.1 := by
  by_cases hguard : s.thr.taskBusyList = [] ∨ x = false
  · simp only [timeoutBegin, if_pos hguard]
    exact kept_refl s
  simp only [timeoutBegin, if_neg hguard]
  have hirq := irqHandler_kept (g := g) flag s
  generalize cmdqThreadIrqHandler g flag s = r at hirq ⊢
  by_cases hagain : r.s.thr.taskBusyList = [] ∨ x' = false
  · simp only [if_pos hagain]
    exact hirq.freed
  simp only [if_neg hagain]
  have hne : r.s.thr.taskBusyList ≠ [] := fun h => hagain (.inl h)
  have hcut := List.takeWhile_append_dropWhile
    (p := fun t => !cmdqTaskIsCurrentRun (cmdqThreadGetPc g r.s) (r.s.pkts t.pkt).pkt)
    (l := r.s.thr.taskBusyList)
  generalize r.s.thr.taskBusyList.takeWhile _ = ending at hcut ⊢
  generalize r.s.thr.taskBusyList.dropWhile _ = rest at hcut ⊢
  cases rest with
  | nil =>
    have hend : Kept r.s (doneAndFree 0 ending) [] (r.s.setList []).disable := by
      refine kept_emptied hne fun d k => ?_
      have h := path_doneAndFree 0 ending [] d k
      rw [hcut] at h
      simpa using h
    simpa [parked] using (hirq.trans hend).freed
  | cons task tasks =>
    have hcb : Kept r.s (doneAndFree 0 ending ++ [.errCallback task]) []
        (r.s.setList (task :: tasks)) := by
      refine kept_shorter hne (List.cons_ne_nil _ _) fun d k => ?_
      have h := path_doneAndFree 0 ending (task :: tasks) d k
      rw [hcut] at h
      simpa using h.append (.single (.errCallback task tasks d k))
    have h : Kept _ _ _ { r.s.setList (task :: tasks) with
        thr := { (r.s.setList (task :: tasks)).thr with dirty := true } } :=
      (hirq.trans hcb).congr rfl rfl rfl
    simpa [parked] using h

/-- **`cmdq_thread_handle_timeout_work`** after the error callback, where the list has tasks. -/
theorem timeoutEnd_kept (w : TimeoutWork) {s : ThrSt} (hne : s.thr.taskBusyList ≠ []) :
    ∃ e, (timeoutEnd g w s).1 = e ++ w.removes.map .free ∧ Kept s e [] (timeoutEnd g w s).2 := by
  obtain ⟨task, tasks, hq⟩ := List.exists_cons_of_ne_nil hne
  by_cases hptr : w.timeoutTask.ptr = task.ptr
  · refine ⟨[.execDone task (-etimedout), .free task], by simp [timeoutEnd, hq, hptr], ?_⟩
    have hpath : ∀ d k, LifePath ⟨s.thr.taskBusyList, d, k⟩
        [.execDone task (-etimedout), .free task] ⟨tasks, d + ↑([] : List CmdqTask), k⟩ := by
      intro d k
      rw [hq]
      simpa [doneAndFree] using path_doneAndFree (-etimedout) [task] tasks d k
    cases tasks with
    | nil =>
      have h := kept_emptied hne hpath
      simp only [timeoutEnd, hq, if_pos hptr, busy_setList]
      exact h.congr rfl rfl rfl
    | cons task' tasks =>
      have h := kept_shorter hne (List.cons_ne_nil _ _) hpath
      simp only [timeoutEnd, hq, if_pos hptr, busy_setList]
      exact h.enable (List.cons_ne_nil _ _) rfl rfl rfl
  · refine ⟨[], by simp [timeoutEnd, hq, hptr], ?_⟩
    simp only [timeoutEnd, hq, if_neg hptr]
    exact (kept_refl s).enable hne hq.symm rfl rfl

/-- The same where the list has been emptied meanwhile. -/
theorem timeoutEnd_empty (w : TimeoutWork) {s : ThrSt} (hq : s.thr.taskBusyList = []) :
    (timeoutEnd g w s).1 = w.removes.map .free ∧
      (timeoutEnd g w s).2.thr.taskBusyList = [] := by
  simp [timeoutEnd, hq]

/-- **`cmdq_mbox_thread_remove_task`**. -/
theorem removeTask_kept (pkt : Nat) (flag : IrqFlag) (s : ThrSt) :
    Kept s (cmdqMboxThreadRemoveTask g pkt flag s).1
      (cmdqMboxThreadRemoveTask g pkt flag s).2.2 (cmdqMboxThreadRemoveTask g pkt flag s).2.1 := by
  by_cases hq : s.thr.taskBusyList = []
  · simp only [cmdqMboxThreadRemoveTask, if_pos hq]
    exact kept_refl s
  simp only [cmdqMboxThreadRemoveTask, if_neg hq]
  have hirq := irqHandler_kept (g := g) flag s
  generalize cmdqThreadIrqHandler g flag s = r at hirq ⊢
  by_cases hne : r.s.thr.taskBusyList = []
  · simp only [if_pos hne]
    exact hirq
  simp only [if_neg hne]
  have hcut := List.takeWhile_append_dropWhile (p := fun t => t.pkt ≠ pkt)
    (l := r.s.thr.taskBusyList)
  generalize r.s.thr.taskBusyList.takeWhile _ = before at hcut ⊢
  generalize r.s.thr.taskBusyList.dropWhile _ = rest at hcut ⊢
  cases rest with
  | nil => exact hirq.freed
  | cons task after =>
    by_cases hdirty : before = [] ∧ r.s.thr.dirty = true
    · simp only [if_pos hdirty]
      exact hirq
    simp only [if_neg hdirty]
    generalize hcurr : cmdqTaskIsCurrentRun (cmdqThreadGetPc g r.s) (r.s.pkts task.pkt).pkt = curr
    generalize (if curr = true then (-econnaborted : Int) else 0) = err
    have hpath : ∀ d k, LifePath ⟨r.s.thr.taskBusyList, d, k⟩ [.removed task err, .free task]
        ⟨before ++ after, d + ↑([] : List CmdqTask), k⟩ := by
      intro d k
      rw [← hcut]
      simpa using (Sys.Path.single (LifeStep.removed task before after d k err)).append
        (.single (.free task _ d k))
    cases hrest : before ++ after with
    | nil =>
      rw [hrest] at hpath
      simpa using hirq.trans (kept_emptied hne hpath)
    | cons first others =>
      rw [hrest] at hpath
      have h := (hirq.trans (kept_shorter hne (List.cons_ne_nil _ _) hpath)).freed
      rw [List.append_nil] at h
      refine h.congr ?_ ?_ ?_ <;> split_ifs <;> simp <;> rfl

/-- **`cmdq_mbox_thread_stop`**. -/
theorem stop_kept (flag : IrqFlag) (s : ThrSt) :
    Kept s (cmdqMboxThreadStop g flag s).1 (cmdqMboxThreadStop g flag s).2.2
      (cmdqMboxThreadStop g flag s).2.1 := by
  by_cases hq : s.thr.taskBusyList = []
  · simp only [cmdqMboxThreadStop, if_pos hq]
    exact kept_refl s
  simp only [cmdqMboxThreadStop, if_neg hq]
  have hirq := irqHandler_kept (g := g) flag s
  generalize cmdqThreadIrqHandler g flag s = r at hirq ⊢
  by_cases hne : r.s.thr.taskBusyList = []
  · simp only [if_pos hne]
    exact hirq
  simp only [if_neg hne]
  have hstop : Kept r.s (doneAndFree (-econnaborted) r.s.thr.taskBusyList) []
      (r.s.setList []).disable := by
    refine kept_emptied hne fun d k => ?_
    simpa using path_doneAndFree (-econnaborted) r.s.thr.taskBusyList [] d k
  simpa using (hirq.trans hstop).freed

/-! ## While the timeout worker calls the error callback -/

/-- A thread whose timeout worker calls the error callback. -/
def InWindow (thr : CmdqThread) : Prop := thr.dirty = true ∧ thr.taskBusyList ≠ []

theorem timeoutBegin_window {flag : IrqFlag} {x x' : Bool} {s : ThrSt}
    (h : (timeoutBegin g flag x x' s).2.2 ≠ none) :
    InWindow (timeoutBegin g flag x x' s).2.1.thr := by
  by_cases hguard : s.thr.taskBusyList = [] ∨ x = false
  · simp [timeoutBegin, if_pos hguard] at h
  simp only [timeoutBegin, if_neg hguard] at h ⊢
  generalize cmdqThreadIrqHandler g flag s = r at h ⊢
  by_cases hagain : r.s.thr.taskBusyList = [] ∨ x' = false
  · simp [if_pos hagain] at h
  simp only [if_neg hagain] at h ⊢
  generalize r.s.thr.taskBusyList.dropWhile _ = rest at h ⊢
  cases rest with
  | nil => simp at h
  | cons task tasks => exact ⟨rfl, List.cons_ne_nil _ _⟩

/-- An interrupt leaves the list alone. -/
theorem irqHandler_window (flag : IrqFlag) {s : ThrSt} (hd : s.thr.dirty = true) :
    (cmdqThreadIrqHandler g flag s).s = s := by
  by_cases hguard : s.usage ≤ 0 ∨ s.thr.enabled = false ∨ flag = .none
  · simp only [cmdqThreadIrqHandler, if_pos hguard]
  cases hq : s.thr.taskBusyList.head? with
  | none => simp only [cmdqThreadIrqHandler, if_neg hguard, hq, if_pos hd]
  | some task =>
    simp only [cmdqThreadIrqHandler, if_neg hguard, hq]
    by_cases hl : (s.pkts task.pkt).loop = true
    · simp only [if_pos hl]
    · simp only [if_neg hl, if_pos hd]

/-- Removal leaves the head of the list alone. -/
theorem removeTask_window (pkt : Nat) (flag : IrqFlag) {s : ThrSt} (h : InWindow s.thr) :
    InWindow (cmdqMboxThreadRemoveTask g pkt flag s).2.1.thr := by
  obtain ⟨hd, hne⟩ := h
  have hirq := irqHandler_window (g := g) flag hd
  simp only [cmdqMboxThreadRemoveTask, if_neg hne]
  generalize cmdqThreadIrqHandler g flag s = r at hirq ⊢
  rw [hirq, if_neg hne]
  cases hq : s.thr.taskBusyList with
  | nil => exact absurd hq hne
  | cons head tasks =>
    by_cases hpkt : head.pkt = pkt
    · simp [hpkt, hd, InWindow, hq]
    · simp only [List.takeWhile_cons, List.dropWhile_cons, hpkt, ne_eq, not_false_eq_true,
        decide_true, if_true]
      cases tasks.dropWhile fun t => decide (t.pkt ≠ pkt) with
      | nil => exact ⟨hd, hq ▸ List.cons_ne_nil _ _⟩
      | cons task after =>
        simp only [List.cons_ne_nil, false_and, if_false, List.cons_append]
        refine ⟨?_, ?_⟩
        · split_ifs <;> simp <;> exact hd
        · split_ifs <;> simp

end Cmdq
