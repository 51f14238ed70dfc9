import FireTablet.Mdp.Resource
import Mathlib.Tactic.SplitIfs

/-!
# Runs of the shared resource

In a run whose steps meet `StepOk` the resource is used while a job names its engine, the client has
it only when none does, and after the last one the delayed work gives it up (`resource_runs`).
-/

namespace Mdp.Resource

variable {s s' : State} {id : JobId}

/-- Some unfinished job names the engine of the resource. -/
def State.Busy (s : State) : Prop := ∃ j ∈ s.jobs, s.engine ∈ j.engineFlag

instance (s : State) : Decidable s.Busy := inferInstanceAs (Decidable (∃ _ ∈ _, _))

/-- The resource is used while the engine is busy, and delayed when it is used without. A delayed
resource has its work queued or started, and the client is told of one that is not used. -/
structure Arbitrated (s : State) : Prop where
  used : s.Busy → s.used = true
  delayed : s.delaying = true ↔ s.used = true ∧ ¬ s.Busy
  queued : s.delaying = true → s.pending = true ∨ s.work = .started
  telling : s.work = .telling → ¬ s.Busy
  ids : (s.jobs.map (·.id)).Nodup

theorem arbitrated_init (engine : Fin 64) (a r : Bool) : Arbitrated (init engine a r) where
  used h := by obtain ⟨j, hj, -⟩ := h; exact absurd hj List.not_mem_nil
  delayed := by simp [init]
  queued h := nomatch h
  telling h := nomatch h
  ids := .nil

/-- A job of an unfinished id other than `id` names the engine. -/
def State.BusyWithout (s : State) (id : JobId) : Prop :=
  ∃ j ∈ s.jobs, j.id ≠ id ∧ s.engine ∈ j.engineFlag

instance (s : State) (id : JobId) : Decidable (s.BusyWithout id) :=
  inferInstanceAs (Decidable (∃ _ ∈ _, _))

/-- No job that names the engine is submitted while the work is about to tell the client; when the
last dispatched job of the engine is released none waits for its dispatch; and a job that ends
without a dispatch is not the last one of the engine. -/
def StepOk (s : State) : Op → Prop
  | .submit _ engineFlag => s.engine ∈ engineFlag → s.work ≠ .telling
  | .complete id => ∀ j ∈ s.find id true, notUsed s j = true → ¬ s.BusyWithout id
  | .cancel id => ∀ j ∈ s.find id false, s.engine ∈ j.engineFlag → s.BusyWithout id
  | _ => True

instance decidableStepOk (s : State) : (i : Op) → Decidable (StepOk s i)
  | .submit _ engineFlag =>
    inferInstanceAs (Decidable (s.engine ∈ engineFlag → s.work ≠ .telling))
  | .complete id =>
    inferInstanceAs (Decidable (∀ j ∈ s.find id true, notUsed s j = true → ¬ s.BusyWithout id))
  | .cancel id =>
    inferInstanceAs (Decidable (∀ j ∈ s.find id false, s.engine ∈ j.engineFlag →
      s.BusyWithout id))
  | .dispatch _ | .fire | .unlock | .tell | .acquire | .release => inferInstanceAs (Decidable True)

/-- What matters of the jobs is whether one names the engine. -/
theorem Arbitrated.congr (h : Arbitrated s) (hu : s'.used = s.used)
    (hd : s'.delaying = s.delaying) (hp : s'.pending = s.pending) (hw : s'.work = s.work)
    (hb : s'.Busy ↔ s.Busy) (hi : (s'.jobs.map (·.id)).Nodup) : Arbitrated s' where
  used hb' := hu ▸ h.used (hb.1 hb')
  delayed := by rw [hd, hu, hb]; exact h.delayed
  queued := by rw [hd, hp, hw]; exact h.queued
  telling := by rw [hw, hb]; exact h.telling
  ids := hi

/-- The state without the job of an id. -/
def State.without (s : State) (id : JobId) : State :=
  { s with jobs := s.jobs.filter (·.id ≠ id) }

theorem busy_without : (s.without id).Busy ↔ s.BusyWithout id := by
  simp only [State.Busy, State.BusyWithout, State.without, List.mem_filter, decide_eq_true_eq,
    and_assoc]

theorem State.BusyWithout.busy (h : s.BusyWithout id) : s.Busy := by
  obtain ⟨j, hj, -, he⟩ := h
  exact ⟨j, hj, he⟩

/-- A job that goes while the engine stays busy. -/
theorem Arbitrated.without (h : Arbitrated s) (hb : s.Busy → s.BusyWithout id) :
    Arbitrated (s.without id) :=
  h.congr rfl rfl rfl rfl (busy_without.trans ⟨State.BusyWithout.busy, hb⟩)
    (h.ids.sublist (List.filter_sublist.map _))

/-- A job that does not name the engine does not make it busy. -/
theorem Arbitrated.busyWithout (h : Arbitrated s) {j : Job} (hj : j ∈ s.jobs)
    (he : s.engine ∉ j.engineFlag) (hb : s.Busy) : s.BusyWithout j.id := by
  obtain ⟨k, hk, hke⟩ := hb
  refine ⟨k, hk, fun hid => he ?_, hke⟩
  rwa [← List.inj_on_of_nodup_map h.ids hk hj hid]

theorem find_some {dispatched : Bool} {j : Job} (h : s.find id dispatched = some j) :
    j ∈ s.jobs ∧ j.id = id ∧ j.dispatched = dispatched := by
  have := List.find?_some h
  simp only [decide_eq_true_eq] at this
  exact ⟨List.mem_of_find?_eq_some h, this.1, this.2⟩

/-! ## Submissions -/

/-- A locked resource is used and not delayed. -/
theorem lockResImpl_spec (h : Arbitrated s) :
    (lockResImpl s).2.used = true ∧ (lockResImpl s).2.delaying = false ∧
      (lockResImpl s).2.engine = s.engine ∧ (lockResImpl s).2.work = s.work ∧
      (lockResImpl s).2.jobs = s.jobs ∧ (lockResImpl s).1.told = false ∧
      (lockResImpl s).1.acquired = none := by
  unfold lockResImpl
  cases hu : s.used with
  | false =>
    have hd : s.delaying = false := by
      rw [Bool.eq_false_iff]
      intro hd
      rw [h.delayed, hu] at hd
      cases hd.1
    simp [hd]
  | true => cases hd : s.delaying <;> simp [hu, hd, Out.quiet]

theorem flushAsyncImpl_spec (h : Arbitrated s) {engineFlag : Finset (Fin 64)}
    (hid : id ∉ s.jobs.map (·.id)) (hok : s.engine ∈ engineFlag → s.work ≠ .telling) :
    Arbitrated (flushAsyncImpl s id engineFlag).2 ∧
      (flushAsyncImpl s id engineFlag).1.told = false ∧
      (flushAsyncImpl s id engineFlag).1.acquired = none := by
  have hids : ((s.jobs ++ [(⟨id, engineFlag, false⟩ : Job)]).map (·.id)).Nodup := by
    rw [List.map_append, List.nodup_append]
    refine ⟨h.ids, List.nodup_singleton _, fun a ha b hb he => hid ?_⟩
    have hb' : b = id := by simpa using hb
    rwa [he, hb'] at ha
  by_cases he : s.engine ∈ engineFlag
  · obtain ⟨h1, h2, h3, h4, h5, h6, h7⟩ := lockResImpl_spec h
    simp only [flushAsyncImpl, if_pos he]
    have hbusy : ({ (lockResImpl s).2 with
        jobs := (lockResImpl s).2.jobs ++ [⟨id, engineFlag, false⟩] } : State).Busy :=
      ⟨⟨id, engineFlag, false⟩, List.mem_append_right _ (List.mem_singleton.2 rfl), h3 ▸ he⟩
    refine ⟨⟨fun _ => h1, ?_, fun hd => ?_, fun ht => ?_, by rw [h5]; exact hids⟩, h6, h7⟩
    · exact ⟨fun hd => absurd (h2.symm.trans hd) (by simp), fun hn => absurd hbusy hn.2⟩
    · exact absurd (h2.symm.trans hd) (by simp)
    · exact absurd (h4.symm.trans ht) (hok he)
  · simp only [flushAsyncImpl, if_neg he]
    refine ⟨h.congr rfl rfl rfl rfl ?_ hids, rfl, rfl⟩
    simp [State.Busy, or_and_right, exists_or, he]

/-! ## The ends of jobs -/

/-- The last dispatched job of the engine leaves it delayed, and no other ends what was there. -/
theorem unlockThread_spec (h : Arbitrated s) {j : Job} (hj : j ∈ s.jobs)
    (hok : notUsed s j = true → ¬ s.BusyWithout j.id) : Arbitrated (unlockThread s j) := by
  unfold unlockThread
  cases hn : notUsed s j with
  | true =>
    have hidle := hok hn
    simp only [notUsed, decide_eq_true_eq] at hn
    have hu : s.used = true := h.used ⟨j, hj, hn.1⟩
    have hb : ¬ (s.without j.id).Busy := fun hb => hidle (busy_without.1 hb)
    have hd : (delayCheckUnlock s) = { s with pending := true, delaying := true } := by
      unfold delayCheckUnlock
      split_ifs <;> rfl
    rw [if_pos rfl, hd]
    exact ⟨fun hb' => absurd hb' hb, ⟨fun _ => ⟨hu, hb⟩, fun _ => rfl⟩, fun _ => .inl rfl,
      fun _ => hb, h.ids.sublist (List.filter_sublist.map _)⟩
  | false =>
    rw [if_neg (by simp)]
    refine h.without fun hb => ?_
    by_cases he : s.engine ∈ j.engineFlag
    · -- another dispatched job names the engine
      by_contra hw
      have : notUsed s j = true := by
        simp only [notUsed, decide_eq_true_eq]
        exact ⟨he, fun k hk hne _ hke => hw ⟨k, hk, hne, hke⟩⟩
      rw [hn] at this
      cases this
    · exact h.busyWithout hj he hb

/-! ## Steps -/

/-- The client is told of the resource, and gets it, only while no unfinished job names it. -/
def Fair (s : State) (o : Out) : Prop := o.told = true ∨ o.acquired = some true → ¬ s.Busy

theorem fair_quiet : Fair s .quiet := fun h => by simp [Out.quiet] at h

theorem step_spec (h : Arbitrated s) {i : Op} (hok : StepOk s i) :
    ∃ o s', step s i = some (o, s') ∧ Arbitrated s' ∧ Fair s o := by
  cases i with
  | submit id engineFlag =>
    simp only [step]
    split_ifs with hid
    · exact ⟨_, s, rfl, h, fair_quiet⟩
    · have hid' : id ∉ s.jobs.map (·.id) := by simpa using hid
      obtain ⟨h1, h2, h3⟩ := flushAsyncImpl_spec h hid' hok
      refine ⟨(flushAsyncImpl s id engineFlag).1, (flushAsyncImpl s id engineFlag).2, rfl, h1,
        fun ht => ?_⟩
      rw [h2, h3] at ht
      simp at ht
  | dispatch id =>
    refine ⟨_, _, rfl, h.congr rfl rfl rfl rfl ?_ ?_, fair_quiet⟩
    · have hflag : ∀ j : Job, (if j.id = id then { j with dispatched := true } else j).engineFlag =
          j.engineFlag := fun j => by split_ifs <;> rfl
      simp [State.Busy, hflag]
    · rw [List.map_map]
      refine (congrArg List.Nodup (List.map_congr_left fun j _ => ?_)).mpr h.ids
      simp only [Function.comp]
      split_ifs <;> rfl
  | complete id =>
    simp only [step]
    cases hf : s.find id true with
    | none => exact ⟨_, s, rfl, h, fair_quiet⟩
    | some j =>
      obtain ⟨hj, rfl, -⟩ := find_some hf
      exact ⟨_, _, rfl, unlockThread_spec h hj (hok j hf), fair_quiet⟩
  | cancel id =>
    simp only [step]
    cases hf : s.find id false with
    | none => exact ⟨_, s, rfl, h, fair_quiet⟩
    | some j =>
      obtain ⟨hj, rfl, -⟩ := find_some hf
      refine ⟨_, _, rfl, h.without fun hb => ?_, fair_quiet⟩
      by_cases he : s.engine ∈ j.engineFlag
      · exact hok j hf he
      · exact h.busyWithout hj he hb
  | fire =>
    simp only [step]
    split_ifs with hp
    · exact ⟨_, _, rfl, ⟨h.used, h.delayed, fun _ => .inr rfl, nofun, h.ids⟩,
        fair_quiet⟩
    · exact ⟨_, s, rfl, h, fair_quiet⟩
  | unlock =>
    simp only [step]
    split_ifs with hw
    · refine ⟨_, _, rfl, ?_, fair_quiet⟩
      unfold unlockResource
      split_ifs with hd hc
      · have hidle := (h.delayed.1 hd.2).2
        exact ⟨fun hb => absurd hb hidle, by simp, nofun, fun _ => hidle, h.ids⟩
      · have hidle := (h.delayed.1 hd.2).2
        exact ⟨fun hb => absurd hb hidle, by simp, nofun, nofun, h.ids⟩
      · -- a run that comes too late does nothing: the resource is not delayed
        have hnd : ¬ s.delaying = true := fun hn => hd ⟨(h.delayed.1 hn).1, hn⟩
        exact ⟨h.used, h.delayed, fun hn => absurd hn hnd, nofun, h.ids⟩
    · exact ⟨_, s, rfl, h, fair_quiet⟩
  | tell =>
    simp only [step]
    split_ifs with hw
    · have hp : s.delaying = true → s.pending = true := fun hd =>
        (h.queued hd).resolve_right (by simp [hw])
      exact ⟨_, _, rfl, ⟨h.used, h.delayed, fun hd => .inl (hp hd), nofun, h.ids⟩,
        fun _ => h.telling hw⟩
    · exact ⟨_, s, rfl, h, fair_quiet⟩
  | acquire =>
    refine ⟨⟨false, false, some (!s.used)⟩, (acquireResource s).2, rfl, ?_, fun ht hb => ?_⟩
    · simp only [acquireResource]
      split_ifs
      · exact h.congr rfl rfl rfl rfl Iff.rfl h.ids
      · exact h
    · rw [h.used hb] at ht
      simp at ht
  | release => exact ⟨_, _, rfl, h.congr rfl rfl rfl rfl Iff.rfl h.ids, fair_quiet⟩

/-- When no unfinished job names the engine, the work that is queued or started gives it up: what is
left of a run of the work, then the timer and the next run. -/
theorem Arbitrated.givenUp (h : Arbitrated s) (hidle : ¬ s.Busy) :
    ∃ es s', Sys.run step s [.unlock, .tell, .fire, .unlock] = some (es, s') ∧
      s'.used = false := by
  obtain ⟨engine, availableCB, releaseCB, used, lend, delaying, pending, work, jobs⟩ := s
  have hd := h.delayed
  have hq := h.queued
  simp only [hidle, not_false_eq_true, and_true] at hd
  simp only at hq
  cases used <;> cases delaying <;> cases work <;> cases pending <;>
    first
    | (simp at hd; done)
    | (simp at hq; done)
    | (cases availableCB <;> exact ⟨_, _, rfl, rfl⟩)

/-- Without an unfinished job that names the engine the resource is not used, or the work that gives
it up is queued or has started; and a started work gives it up. -/
structure GivesUp (s : State) : Prop where
  queued : ¬ s.Busy → s.used = true → s.pending = true ∨ s.work = .started
  unlocks : ¬ s.Busy → s.work = .started →
    ∀ o s', step s .unlock = some (o, s') → s'.used = false

theorem Arbitrated.givesUp (h : Arbitrated s) : GivesUp s where
  queued hidle hu := h.queued (h.delayed.2 ⟨hu, hidle⟩)
  unlocks hidle hw o s' hs := by
    simp only [step, if_pos hw] at hs
    obtain ⟨rfl, rfl⟩ := Prod.mk.inj (Option.some.inj hs)
    unfold unlockResource
    split_ifs with hd hc
    · rfl
    · rfl
    · -- an unused resource, since a used one would be delayed
      rw [Bool.eq_false_iff]
      exact fun hu => hd ⟨hu, h.delayed.2 ⟨hu, hidle⟩⟩

/-- **Runs of the shared resource**: it is used while an unfinished job names its engine, the next
step tells the client of it and lends it only if none does, and once none does the work is on its
way that gives it up, so that after the delay it is not used. -/
theorem resource_runs (engine : Fin 64) (a r : Bool) (is : List Op)
    (h : Sys.Along step StepOk (init engine a r) is) :
    ∃ es s, Sys.run step (init engine a r) is = some (es, s) ∧ (s.Busy → s.used = true) ∧
      (∀ i o s', StepOk s i → step s i = some (o, s') → Fair s o) ∧ GivesUp s ∧
      (¬ s.Busy → ∃ es' s', Sys.run step s [.unlock, .tell, .fire, .unlock] = some (es', s') ∧
        s'.used = false) := by
  obtain ⟨es, s, hrun, hs⟩ := Sys.run_hist_along (I := fun _ s => Arbitrated s) (P := StepOk)
    (fun es s i hs hok => by
      obtain ⟨o, s', hstep, hs', -⟩ := step_spec hs hok
      exact ⟨o, s', hstep, hs'⟩) is [] _ (arbitrated_init engine a r) h
  refine ⟨es, s, hrun, hs.used, fun i o s' hok hstep => ?_, hs.givesUp, hs.givenUp⟩
  obtain ⟨o', s'', hstep', -, hf⟩ := step_spec hs hok
  rw [hstep] at hstep'
  cases hstep'
  exact hf

/-- Two jobs one after the other, a third one that ends without a dispatch while the second runs,
and the client gets the resource after the delay. -/
theorem resource_runs_two :
    let is : List Op := [.submit 0 {3}, .dispatch 0, .complete 0, .submit 1 {3, 5}, .dispatch 1,
      .submit 2 {3}, .cancel 2, .acquire, .complete 1, .fire, .unlock, .tell, .acquire, .release]
    ∃ es s, Sys.run step (init 3 true true) is = some (es, s) ∧ (s.Busy → s.used = true) ∧
      (∀ i o s', StepOk s i → step s i = some (o, s') → Fair s o) ∧ GivesUp s ∧
      (¬ s.Busy → ∃ es' s', Sys.run step s [.unlock, .tell, .fire, .unlock] = some (es', s') ∧
        s'.used = false) :=
  resource_runs 3 true true _ (by decide +kernel)

/-- A job that waits for its dispatch when another one of the engine is released loses the resource
after the delay, and the client is told of it and gets it; a job that ends without a dispatch leaves
the resource used for ever; and a job submitted when the work has given the resource up and not yet
called the client is unfinished when the client is told. -/
theorem resource_lost_or_kept :
    (Sys.run step (init 3 true true) [.submit 0 {3}, .dispatch 0, .submit 1 {3}, .complete 0,
        .fire, .unlock, .tell, .acquire]).map
        (fun q => (q.1.map fun e => (e.2.told, e.2.acquired), q.2.used, q.2.jobs.map (·.id))) =
      some ([(false, none), (false, none), (false, none), (false, none), (false, none),
        (false, none), (true, none), (false, some true)], false, [1]) ∧
    (Sys.run step (init 3 true true) [.submit 0 {3}, .cancel 0, .unlock, .tell, .fire, .unlock]).map
        (fun q => (q.2.used, q.2.jobs.map (·.id), q.2.pending, q.2.work)) =
      some (true, [], false, .idle) ∧
    (Sys.run step (init 3 true true) [.submit 0 {3}, .dispatch 0, .complete 0, .fire, .unlock,
        .submit 1 {3}, .tell]).map
        (fun q => (q.1.map (·.2.told), q.2.jobs.map (·.id))) =
      some ([false, false, false, false, false, false, true], [1]) := by
  decide +kernel

end Mdp.Resource
