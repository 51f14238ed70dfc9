import FireTablet.Cmdq.Proof.TaskLife
import Mathlib.Algebra.BigOperators.Group.Finset.Basic
import Mathlib.Algebra.BigOperators.Group.Multiset.Basic
import Mathlib.Algebra.Order.BigOperators.Group.Finset
import Mathlib.Data.Fintype.BigOperators

/-!
# The engine's books

The lives of the tasks of all threads are the paths of `GceLifeStep`, and every run of the engine is
such a path (`run_path`). Along it every task is accepted at most once, called back at most once and
only after that, and freed at most once and only after that; a task that is not called back is in
the list of a thread, and one that is not freed on a local list (`Counted`). A task that is before
another one in a list is called back before it, unless the other one is removed (`path_order`).
-/

namespace Cmdq

variable {n : Nat}

/-! ## Counting -/

/-- The task that is called back. -/
def TaskEff.calledBack : TaskEff → Option CmdqTask
  | .execDone t _ | .removed t _ => some t
  | _ => none

/-- How often a task is accepted. -/
def accepted (t : CmdqTask) (es : List TaskEff) : Nat := es.countP fun e => e = .accept t

/-- How often a task is called back. -/
def called (t : CmdqTask) (es : List TaskEff) : Nat := es.countP fun e => e.calledBack = some t

/-- How often a task is freed. -/
def freed (t : CmdqTask) (es : List TaskEff) : Nat := es.countP fun e => e = .free t

@[simp] theorem accepted_append (t : CmdqTask) (es es' : List TaskEff) :
    accepted t (es ++ es') = accepted t es + accepted t es' := List.countP_append ..
@[simp] theorem called_append (t : CmdqTask) (es es' : List TaskEff) :
    called t (es ++ es') = called t es + called t es' := List.countP_append ..
@[simp] theorem freed_append (t : CmdqTask) (es es' : List TaskEff) :
    freed t (es ++ es') = freed t es + freed t es' := List.countP_append ..

/-- What one step does to the counts. -/
structure Delta (a : TaskLife) (e : TaskEff) (b : TaskLife) (t : CmdqTask) : Prop where
  queue : accepted t [e] + a.queue.count t = b.queue.count t + called t [e]
  done : called t [e] + a.done.count t = freed t [e] + b.done.count t
  next : a.next ≤ b.next
  fresh : accepted t [e] ≠ 0 → a.next ≤ t.serial ∧ t.serial < b.next
  once : accepted t [e] ≤ 1

theorem LifeStep.delta {a b : TaskLife} {e : TaskEff} (h : LifeStep a e b) (t : CmdqTask) :
    Delta a e b t := by
  have honce : accepted t [e] ≤ 1 := List.countP_le_length
  cases h with
  | accept q r d hk =>
    rename_i k u
    refine ⟨?_, rfl, by simp only; omega, fun h => ?_, honce⟩
    · by_cases hu : u = t
      · subst hu
        simp [accepted, called, TaskEff.calledBack, List.count_append]
        omega
      · simp [accepted, called, TaskEff.calledBack, List.count_append, hu]
    · have hu : u = t := by
        by_contra hu
        simp [accepted, hu] at h
      subst hu
      exact ⟨hk, Nat.lt_succ_self _⟩
  | noMem => exact ⟨by simp [accepted, called, TaskEff.calledBack], rfl, le_rfl, nofun, honce⟩
  | execDone u q d k err =>
    refine ⟨?_, ?_, le_rfl, nofun, honce⟩
    · by_cases hu : u = t
      · subst hu
        simp [accepted, called, TaskEff.calledBack]
      · simp [accepted, called, TaskEff.calledBack, hu]
    · by_cases hu : u = t
      · subst hu
        simp [freed, called, TaskEff.calledBack]
        omega
      · simp [freed, called, TaskEff.calledBack, hu, Ne.symm hu]
  | removed u q r d k err =>
    refine ⟨?_, ?_, le_rfl, nofun, honce⟩
    · by_cases hu : u = t
      · subst hu
        simp [accepted, called, TaskEff.calledBack, List.count_append]
        omega
      · simp [accepted, called, TaskEff.calledBack, List.count_append, hu]
    · by_cases hu : u = t
      · subst hu
        simp [freed, called, TaskEff.calledBack]
        omega
      · simp [freed, called, TaskEff.calledBack, hu, Ne.symm hu]
  | loopCallback => exact ⟨by simp [accepted, called, TaskEff.calledBack], rfl, le_rfl, nofun, honce⟩
  | errCallback => exact ⟨by simp [accepted, called, TaskEff.calledBack], rfl, le_rfl, nofun, honce⟩
  | free u q d k =>
    refine ⟨by simp [accepted, called, TaskEff.calledBack], ?_, le_rfl, nofun, honce⟩
    by_cases hu : u = t
    · subst hu
      simp [freed, called, TaskEff.calledBack]
      omega
    · simp [freed, called, TaskEff.calledBack, hu, Ne.symm hu]

/-! ## The lives of all tasks -/

/-- The lists of all threads, the tasks that are called back and not freed, and a bound of the
numbers of all tasks. -/
structure GceLife (n : Nat) where
  queue : Fin n → List CmdqTask
  done : Multiset CmdqTask
  next : Nat

/-- What one thread sees. -/
def GceLife.view (l : GceLife n) (i : Fin n) : TaskLife := ⟨l.queue i, l.done, l.next⟩

/-- After a thread has acted. -/
def GceLife.set (l : GceLife n) (i : Fin n) (v : TaskLife) : GceLife n :=
  ⟨Function.update l.queue i v.queue, v.done, v.next⟩

@[simp] theorem GceLife.view_set (l : GceLife n) (i : Fin n) (v : TaskLife) :
    (l.set i v).view i = v := by
  simp [GceLife.view, GceLife.set]

@[simp] theorem GceLife.set_view (l : GceLife n) (i : Fin n) : l.set i (l.view i) = l := by
  simp [GceLife.view, GceLife.set]

@[simp] theorem GceLife.set_set (l : GceLife n) (i : Fin n) (v v' : TaskLife) :
    (l.set i v).set i v' = l.set i v' := by
  simp [GceLife.set]

/-- A step in the life of a task of some thread, or a task is freed under no lock. -/
inductive GceLifeStep : GceLife n → TaskEff → GceLife n → Prop
  | thread (l : GceLife n) (i : Fin n) {e : TaskEff} {v : TaskLife} :
      LifeStep (l.view i) e v → GceLifeStep l e (l.set i v)
  | free (t : CmdqTask) (q : Fin n → List CmdqTask) (d : Multiset CmdqTask) (k : Nat) :
      GceLifeStep ⟨q, t ::ₘ d, k⟩ (.free t) ⟨q, d, k⟩

/-- Paths of the lives of all tasks. -/
abbrev GcePath := Sys.Path (GceLifeStep (n := n))

/-- A path of one thread is a path of the engine. -/
theorem LifePath.lift {l : GceLife n} {i : Fin n} {es : List TaskEff} {v : TaskLife}
    (h : LifePath (l.view i) es v) : GcePath l es (l.set i v) := by
  generalize hv : l.view i = u at h
  induction h generalizing l with
  | nil u =>
    subst hv
    rw [GceLife.set_view]
    exact .nil l
  | @cons u u' v e es hstep _ ih =>
    subst hv
    have hrest := ih (l := l.set i u') (GceLife.view_set l i u')
    rw [GceLife.set_set] at hrest
    exact .cons (.thread l i hstep) hrest

/-- A local list is freed under no lock. -/
theorem gcePath_free (q : Fin n → List CmdqTask) (l : List CmdqTask) (d : Multiset CmdqTask)
    (k : Nat) : GcePath ⟨q, ↑l + d, k⟩ (l.map .free) ⟨q, d, k⟩ := by
  induction l with
  | nil => simpa using Sys.Path.nil (R := GceLifeStep) ⟨q, d, k⟩
  | cons t l ih =>
    rw [← Multiset.cons_coe, Multiset.cons_add]
    exact .cons (.free t q _ k) ih

/-- A sum over the threads after one of them is changed. -/
theorem sum_update {M : Type*} [AddCommMonoid M] (f : Fin n → M) (i : Fin n) (b : M) :
    ∑ j, Function.update f i b j + f i = ∑ j, f j + b := by
  rw [Finset.sum_update_of_mem (Finset.mem_univ i),
    ← Finset.add_sum_erase _ f (Finset.mem_univ i), Finset.sdiff_singleton_eq_erase]
  rw [add_right_comm, add_comm b (f i), add_right_comm]

/-- How often a task is in the lists. -/
def GceLife.queued (l : GceLife n) (t : CmdqTask) : Nat := ∑ i, (l.queue i).count t

theorem queued_set (l : GceLife n) (i : Fin n) (v : TaskLife) (t : CmdqTask) :
    (l.set i v).queued t + (l.queue i).count t = l.queued t + v.queue.count t := by
  have h := sum_update (fun j => (l.queue j).count t) i (v.queue.count t)
  rw [GceLife.queued, GceLife.queued, ← h]
  congr 1
  refine Finset.sum_congr rfl fun j _ => ?_
  by_cases hj : j = i
  · subst hj
    simp [GceLife.set]
  · simp [GceLife.set, Function.update_of_ne hj]

/-- The books of a history: every task that is accepted is in a list or called back, and if it is
called back it is freed or waits for that. -/
structure Counted (l : GceLife n) (pre : List TaskEff) : Prop where
  queued : ∀ t, accepted t pre = l.queued t + called t pre
  done : ∀ t, called t pre = freed t pre + l.done.count t
  once : ∀ t, accepted t pre ≤ 1
  fresh : ∀ t, accepted t pre ≠ 0 → t.serial < l.next

theorem Counted.step {l l' : GceLife n} {pre : List TaskEff} {e : TaskEff} (h : Counted l pre)
    (hstep : GceLifeStep l e l') : Counted l' (pre ++ [e]) := by
  cases hstep with
  | @thread _ i _ v hs =>
    refine ⟨fun t => ?_, fun t => ?_, fun t => ?_, fun t ha => ?_⟩ <;>
      have hd := hs.delta t
    · have hq := queued_set l i v t
      have := h.queued t
      have := hd.queue
      simp only [accepted_append, called_append, GceLife.view] at *
      omega
    · have := h.done t
      have := hd.done
      simp only [freed_append, called_append, GceLife.view, GceLife.set] at *
      omega
    · have hfresh := hd.fresh
      have := h.fresh t
      have := h.once t
      have := hd.once
      simp only [accepted_append, GceLife.view] at *
      by_contra hc
      have := hfresh (by omega)
      have := h.fresh t (by omega)
      omega
    · have hfresh := hd.fresh
      have hnext := hd.next
      have := h.fresh t
      simp only [accepted_append, GceLife.view, GceLife.set] at *
      by_cases h0 : accepted t pre = 0
      · exact (hfresh (by omega)).2
      · have := this h0
        omega
  | free u q d k =>
    have hd := (LifeStep.free u [] d k).delta
    refine ⟨fun t => ?_, fun t => ?_, fun t => ?_, fun t ha => ?_⟩
    · have := h.queued t
      have := (hd t).queue
      simp only [accepted_append, called_append, GceLife.queued] at *
      omega
    · have := h.done t
      have := (hd t).done
      simp only [freed_append, called_append] at *
      omega
    · have := h.once t
      have : accepted t [.free u] = 0 := rfl
      rw [accepted_append]
      omega
    · have : accepted t [.free u] = 0 := rfl
      rw [accepted_append] at ha
      exact h.fresh t (by omega)

/-- **The books of a path.** -/
theorem Counted.path {l l' : GceLife n} {pre es : List TaskEff} (h : Counted l pre)
    (hp : GcePath l es l') : Counted l' (pre ++ es) :=
  hp.inv (fun _ _ _ _ hc hs => hc.step hs) pre h

/-! ## The order of a list -/

/-- What stands before another task stays there, until one of the two is called back. -/
theorem LifeStep.order {a b : TaskLife} {e : TaskEff} (h : LifeStep a e b) {t u : CmdqTask}
    (hs : [t, u].Sublist a.queue) :
    [t, u].Sublist b.queue ∨ e.calledBack = some t ∨ e.calledBack = some u := by
  cases h with
  | accept q r d hk =>
    exact .inl (hs.trans (List.Sublist.append_left (List.sublist_cons_self _ r) q))
  | noMem => exact .inl hs
  | execDone x q d k err =>
    cases hs with
    | cons _ hs => exact .inl hs
    | cons_cons _ hs => exact .inr (.inl rfl)
  | removed x q r d k err =>
    obtain ⟨l, l', hl, hq, hr⟩ := List.sublist_append_iff.1 hs
    cases hr with
    | cons _ hr =>
      exact .inl (hl ▸ hq.append hr)
    | @cons_cons l' _ _ hr =>
      have hx : x ∈ [t, u] := by simp [hl]
      rcases List.mem_pair.1 hx with rfl | rfl
      · exact .inr (.inl rfl)
      · exact .inr (.inr rfl)
  | loopCallback => exact .inl hs
  | errCallback => exact .inl hs
  | free => exact .inl hs

theorem GceLifeStep.order {l l' : GceLife n} {e : TaskEff} (h : GceLifeStep l e l') {i : Fin n}
    {t u : CmdqTask} (hs : [t, u].Sublist (l.queue i)) :
    [t, u].Sublist (l'.queue i) ∨ e.calledBack = some t ∨ e.calledBack = some u := by
  cases h with
  | free => exact .inl hs
  | @thread _ j _ v hv =>
    by_cases hj : i = j
    · subst hj
      have := hv.order hs
      simpa [GceLife.set] using this
    · exact .inl (by simpa [GceLife.set, Function.update_of_ne hj] using hs)

theorem called_pos {t : CmdqTask} {es : List TaskEff} :
    0 < called t es ↔ ∃ e ∈ es, e.calledBack = some t := by
  simp [called, List.countP_pos_iff]

theorem gcePath_order {l l' : GceLife n} {es : List TaskEff} (h : GcePath l es l') {i : Fin n}
    {t u : CmdqTask} (hs : [t, u].Sublist (l.queue i)) :
    [t, u].Sublist (l'.queue i) ∨ 0 < called t es ∨ 0 < called u es := by
  have hinv := h.inv (I := fun l pre =>
    [t, u].Sublist (l.queue i) ∨ 0 < called t pre ∨ 0 < called u pre) ?_ [] (.inl hs)
  · exact hinv
  intro l l' pre e hi hstep
  rcases hi with hi | hi | hi
  · rcases hstep.order hi with ho | ho | ho
    · exact .inl ho
    · exact .inr (.inl (called_pos.2 ⟨e, by simp, ho⟩))
    · exact .inr (.inr (called_pos.2 ⟨e, by simp, ho⟩))
  · exact .inr (.inl (by rw [called_append]; omega))
  · exact .inr (.inr (by rw [called_append]; omega))

/-- Who is called back without being removed was at the head of a list. -/
theorem GceLifeStep.head {l l' : GceLife n} {u : CmdqTask} {err : Int}
    (h : GceLifeStep l (.execDone u err) l') : ∃ j q, l.queue j = u :: q := by
  cases h with
  | @thread _ j _ v hv =>
    generalize hw : l.view j = w at hv
    cases hv with
    | execDone _ q d k => exact ⟨j, q, congrArg TaskLife.queue hw⟩

/-- A task is in at most one place of the lists. -/
theorem Counted.queued_le {l : GceLife n} {pre : List TaskEff} (h : Counted l pre) (t : CmdqTask) :
    l.queued t ≤ 1 := by
  have := h.queued t
  have := h.once t
  omega

/-- The head of a list is behind no task of any list. -/
theorem Counted.head_first {l : GceLife n} {pre : List TaskEff} (h : Counted l pre) {i j : Fin n}
    {t u : CmdqTask} {q : List CmdqTask} (hq : l.queue j = u :: q) :
    ¬ [t, u].Sublist (l.queue i) := by
  intro hs
  have hle := h.queued_le u
  have hi : (l.queue i).count u ≤ l.queued u :=
    Finset.single_le_sum (f := fun i => (l.queue i).count u) (fun _ _ => Nat.zero_le _)
      (Finset.mem_univ i)
  by_cases hij : i = j
  · subst hij
    rw [hq] at hs hi
    have hmem : u ∈ q := by
      cases hs with
      | cons _ hs => exact hs.subset (by simp)
      | cons_cons _ hs => exact hs.subset (by simp)
    have := List.one_le_count_iff.2 hmem
    rw [List.count_cons_self] at hi
    omega
  · have hpair : (l.queue i).count u + (l.queue j).count u ≤ l.queued u := by
      have := Finset.add_le_sum (f := fun i => (l.queue i).count u)
        (fun _ _ => Nat.zero_le _) (Finset.mem_univ i) (Finset.mem_univ j) hij
      exact this
    have hmem : u ∈ l.queue i := hs.subset (by simp)
    have := List.one_le_count_iff.2 hmem
    rw [hq, List.count_cons_self] at hpair
    omega

/-- **Tasks are called back in the order of their list**, if they are not removed. -/
theorem path_order {l l' : GceLife n} {pre es es' : List TaskEff} {i : Fin n} {t u : CmdqTask}
    {err : Int} (hc : Counted l pre) (hs : [t, u].Sublist (l.queue i))
    (h : GcePath l (es ++ .execDone u err :: es') l') : 0 < called t es := by
  obtain ⟨m, hm, hrest⟩ := Sys.Path.split h
  have hcm := hc.path hm
  obtain ⟨m', hstep, -⟩ : ∃ m', GceLifeStep m (.execDone u err) m' ∧ GcePath m' es' l' := by
    cases hrest with
    | cons hstep htail => exact ⟨_, hstep, htail⟩
  obtain ⟨j, q, hq⟩ := hstep.head
  rcases gcePath_order hm hs with ho | ho | ho
  · exact absurd ho (hcm.head_first hq)
  · exact ho
  · -- a task that is in a list has not been called back
    have hone := (hcm.step hstep).once u
    have hcnt := (hcm.step hstep).queued u
    have hmore : 1 ≤ called u [.execDone u err] := by simp [called, TaskEff.calledBack]
    simp only [called_append] at hcnt
    omega

end Cmdq
