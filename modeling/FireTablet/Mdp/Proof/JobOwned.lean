import FireTablet.Lib.Ledger
import FireTablet.Mdp.JobMap
import Mathlib.Tactic.SplitIfs

/-!
# The owners of the buffers

`Owned s js` says that the jobs with the records `js` have all the buffers that are mapped, each
one of them, in the record or in the secure data of the task, and that their tasks are there; a
running task has a record. It is kept when a record changes hands (`Owned.perm`), when a job's
buffers are released (`Owned.close`, `Owned.drop`) and by what happens to tasks.
-/

namespace Mdp.JobMap

variable {s s' : State} {j : JobMapping} {js js' : List JobMapping} {t : TaskId}

/-- The buffers of a job: those of its record, and the secure ones of its task. -/
def State.bufs (s : State) (j : JobMapping) : List BufId :=
  j.bufs ++ secBufs (s.tasks j.job).secData

/-- The arrays of a secure job have the first of its metadata. -/
def SecData.Filled (d : SecData) : Prop :=
  d.dmaBuffer.length = min d.addrMetadataCount secMaxHandleNum

/-- The record of a job is there for its task. -/
structure Live (s : State) (j : JobMapping) : Prop where
  phase : (s.tasks j.job).phase ≠ .gone
  node : (s.tasks j.job).node = j.node
  auto : (s.tasks j.job).auto = false
  bound : j.job < s.nextTask
  sec : ∀ d, (s.tasks j.job).secData = some d → d.Filled

/-- The records of the unfinished jobs, with everything that is mapped. -/
structure Owned (s : State) (js : List JobMapping) : Prop where
  ledger : Ledger.Right s.mapped (js.map s.bufs)
  fresh : ∀ b ∈ s.mapped, b < s.nextBuf
  jobs : (js.map (·.job)).Nodup
  live : ∀ j ∈ js, Live s j
  running : ∀ t, (s.tasks t).phase = .running → ∃ j ∈ js, j.job = t

theorem owned_init : Owned init [] where
  ledger := Ledger.right_nil
  fresh _ h := absurd h (Finset.notMem_empty _)
  jobs := .nil
  live _ h := absurd h List.not_mem_nil
  running _ h := nomatch h

theorem Owned.perm (h : Owned s js) (hp : js.Perm js') : Owned s js' where
  ledger := h.ledger.perm (hp.map _)
  fresh := h.fresh
  jobs := (hp.map _).nodup_iff.1 h.jobs
  live j hj := h.live j (hp.mem_iff.2 hj)
  running t ht := by
    obtain ⟨j, hj, he⟩ := h.running t ht
    exact ⟨j, hp.mem_iff.1 hj, he⟩

theorem Owned.setId (h : Owned s (j :: js)) (id : UInt64) :
    Owned s ({ j with id := id } :: js) where
  ledger := h.ledger
  fresh := h.fresh
  jobs := h.jobs
  live j' hj' := by
    rcases List.mem_cons.1 hj' with rfl | hj'
    · have hl := h.live j List.mem_cons_self
      exact ⟨hl.phase, hl.node, hl.auto, hl.bound, hl.sec⟩
    · exact h.live j' (List.mem_cons_of_mem _ hj')
  running t ht := by
    obtain ⟨j', hj', he⟩ := h.running t ht
    rcases List.mem_cons.1 hj' with rfl | hj'
    · exact ⟨_, List.mem_cons_self, he⟩
    · exact ⟨j', List.mem_cons_of_mem _ hj', he⟩

/-- Two records are not of one task. -/
theorem Owned.job_ne (h : Owned s (j :: js)) {j' : JobMapping} (hj' : j' ∈ js) :
    j'.job ≠ j.job := fun he =>
  (List.nodup_cons.1 h.jobs).1 (List.mem_map.2 ⟨j', hj', he⟩)

/-- The lists of records and the tasks' phases and secure data are the same. -/
structure Keeps (s s' : State) : Prop where
  execs : s'.execs = s.execs
  list : s'.list = s.list
  waits : s'.waits = s.waits
  idx : s'.jobMappingIdx = s.jobMappingIdx
  phase : ∀ t, (s'.tasks t).phase = (s.tasks t).phase
  sec : ∀ t, (s'.tasks t).secData = (s.tasks t).secData

theorem Keeps.refl (s : State) : Keeps s s := ⟨rfl, rfl, rfl, rfl, fun _ => rfl, fun _ => rfl⟩

theorem Keeps.trans {s s' s'' : State} (h : Keeps s s') (h' : Keeps s' s'') : Keeps s s'' :=
  ⟨h'.execs.trans h.execs, h'.list.trans h.list, h'.waits.trans h.waits, h'.idx.trans h.idx,
    fun t => (h'.phase t).trans (h.phase t), fun t => (h'.sec t).trans (h.sec t)⟩

/-! ## Tasks -/

/-- The buffers of the jobs stay what they are with the secure data of their tasks. -/
theorem map_bufs_congr (h : ∀ j ∈ js, (s'.tasks j.job).secData = (s.tasks j.job).secData) :
    js.map s'.bufs = js.map s.bufs :=
  List.map_congr_left fun j hj => by rw [State.bufs, State.bufs, h j hj]

/-- A change of a task that no record is for. -/
theorem Owned.setTask_other (h : Owned s js) (ht : ∀ j ∈ js, j.job ≠ t) {k : Task}
    (hk : k.phase ≠ .running) : Owned (s.setTask t k) js where
  ledger := by
    rw [map_bufs_congr (s := s) fun j hj => congrArg _ (Function.update_of_ne (ht j hj) ..)]
    exact h.ledger
  fresh := h.fresh
  jobs := h.jobs
  live j hj := by
    have hl := h.live j hj
    have htask : (s.setTask t k).tasks j.job = s.tasks j.job := Function.update_of_ne (ht j hj) ..
    exact ⟨htask ▸ hl.phase, htask ▸ hl.node, htask ▸ hl.auto, hl.bound, htask ▸ hl.sec⟩
  running t' ht' := by
    by_cases he : t' = t
    · subst he
      exact absurd (by simpa [State.setTask] using ht') hk
    · exact h.running t' (by simpa [State.setTask, he] using ht')

/-- A change of the phase of a task. -/
theorem Owned.setPhase (h : Owned s js) {p : Phase} (hp : p ≠ .gone)
    (hrun : p = .running → ∃ j ∈ js, j.job = t) :
    Owned (s.setTask t { s.tasks t with phase := p }) js where
  ledger := by
    rw [map_bufs_congr (s := s) fun j _ => by by_cases he : j.job = t <;> simp [State.setTask, he]]
    exact h.ledger
  fresh := h.fresh
  jobs := h.jobs
  live j hj := by
    have hl := h.live j hj
    by_cases he : j.job = t
    · subst he
      exact ⟨by simpa [State.setTask] using hp, by simpa [State.setTask] using hl.node,
        by simpa [State.setTask] using hl.auto, hl.bound, by simpa [State.setTask] using hl.sec⟩
    · have htask : (s.setTask t { s.tasks t with phase := p }).tasks j.job = s.tasks j.job :=
        Function.update_of_ne he ..
      exact ⟨htask ▸ hl.phase, htask ▸ hl.node, htask ▸ hl.auto, hl.bound, htask ▸ hl.sec⟩
  running t' ht' := by
    by_cases he : t' = t
    · subst he
      exact hrun (by simpa [State.setTask] using ht')
    · exact h.running t' (by simpa [State.setTask, he] using ht')

/-- The tasks of a file without records are closed. -/
theorem Owned.releaseTaskByFileNode (h : Owned s js) {f : FileId} (hf : ∀ j ∈ js, j.node ≠ f) :
    Owned (releaseTaskByFileNode s f) js where
  ledger := by
    rw [map_bufs_congr (s := s) fun j hj =>
      congrArg _ (if_neg fun he => hf j hj ((h.live j hj).node ▸ he))]
    exact h.ledger
  fresh := h.fresh
  jobs := h.jobs
  live j hj := by
    have hl := h.live j hj
    have htask : (JobMap.releaseTaskByFileNode s f).tasks j.job = s.tasks j.job :=
      if_neg fun he => hf j hj (hl.node ▸ he)
    exact ⟨htask ▸ hl.phase, htask ▸ hl.node, htask ▸ hl.auto, hl.bound, htask ▸ hl.sec⟩
  running t ht := by
    refine h.running t ?_
    simp only [JobMap.releaseTaskByFileNode, Task.close] at ht
    split_ifs at ht
    · exact ht
    · exact ht

/-! ## Releasing -/

/-- The state with buffers released. -/
def State.release (s : State) (bs : List BufId) : State :=
  { s with mapped := s.mapped \ bs.toFinset }

theorem releaseBufs_spec : ∀ {bs : List BufId} {s : State}, bs.Nodup → (∀ b ∈ bs, b ∈ s.mapped) →
    releaseBufs bs s = some (s.release bs)
  | [], s, _, _ => by simp [releaseBufs, State.release]
  | b :: bs, s, hn, hb => by
    rw [List.nodup_cons] at hn
    rw [releaseBufs, if_pos (hb b List.mem_cons_self), releaseBufs_spec hn.2]
    · refine congrArg some ?_
      have herase : s.mapped.erase b \ bs.toFinset = s.mapped \ (b :: bs).toFinset := by
        ext x
        simp only [List.toFinset_cons, Finset.mem_sdiff, Finset.mem_erase, Finset.mem_insert,
          not_or]
        tauto
      simp only [State.release, herase]
    · intro x hx
      exact Finset.mem_erase.2 ⟨fun he => hn.1 (he ▸ hx), hb x (List.mem_cons_of_mem _ hx)⟩

theorem releaseBufs_append : ∀ (as bs : List BufId) (s : State),
    releaseBufs (as ++ bs) s = (releaseBufs as s).bind (releaseBufs bs)
  | [], _, _ => rfl
  | a :: as, bs, s => by
    rw [List.cons_append, releaseBufs, releaseBufs]
    split_ifs
    · exact releaseBufs_append as bs _
    · rfl

/-- The loop over the metadata releases the secure buffers, when the arrays have all of them. -/
theorem releaseSec_eq {d : Option SecData} (hd : ∀ x, d = some x → x.Filled)
    (hc : secCount d ≤ secMaxHandleNum) : releaseSec d s = releaseBufs (secBufs d) s := by
  cases d with
  | none => rfl
  | some x =>
    have hlen : x.dmaBuffer.length = x.addrMetadataCount := (hd x rfl).trans (Nat.min_eq_left hc)
    rw [releaseSec, if_neg (Nat.not_lt.2 hlen.ge), ← hlen, List.take_length]
    rfl

/-- The buffers of a job are released by the wait that has its record. -/
theorem Owned.releaseAll (h : Owned s (j :: js))
    (hc : secCount (s.tasks j.job).secData ≤ secMaxHandleNum) :
    (releaseBufs j.bufs s).bind (releaseSec (s.tasks j.job).secData) =
      some (s.release (s.bufs j)) := by
  have hsec : releaseSec (s.tasks j.job).secData =
      releaseBufs (secBufs (s.tasks j.job).secData) :=
    funext fun _ => releaseSec_eq (h.live j List.mem_cons_self).sec hc
  rw [hsec, ← releaseBufs_append]
  exact releaseBufs_spec h.ledger.nodup_head fun _ hb => h.ledger.head_mem hb

/-- A job that does not run gives its buffers back. -/
theorem Owned.close (h : Owned s (j :: js)) (hrun : (s.tasks j.job).phase ≠ .running) :
    Owned (s.release (s.bufs j)) js where
  ledger := h.ledger.close
  fresh b hb := h.fresh b (Finset.mem_sdiff.1 hb).1
  jobs := (List.nodup_cons.1 h.jobs).2
  live j' hj' := by
    have hl := h.live j' (List.mem_cons_of_mem _ hj')
    exact ⟨hl.phase, hl.node, hl.auto, hl.bound, hl.sec⟩
  running t ht := by
    obtain ⟨j', hj', he⟩ := h.running t ht
    rcases List.mem_cons.1 hj' with rfl | hj'
    · exact absurd (he ▸ ht) hrun
    · exact ⟨j', hj', he⟩

/-- A job that does not run and has no secure buffers, whose record can be freed on its own. -/
def State.CanDrop (s : State) (j : JobMapping) : Prop :=
  (s.tasks j.job).phase ≠ .running ∧ secBufs (s.tasks j.job).secData = []

instance (s : State) (j : JobMapping) : Decidable (s.CanDrop j) :=
  inferInstanceAs (Decidable (_ ∧ _))

theorem Keeps.canDrop (h : Keeps s s') : s'.CanDrop j ↔ s.CanDrop j := by
  rw [State.CanDrop, State.CanDrop, h.phase, h.sec]

theorem State.CanDrop.bufs (h : s.CanDrop j) : s.bufs j = j.bufs := by
  rw [State.bufs, h.2, List.append_nil]

theorem Owned.releaseBufs (h : Owned s (j :: js)) (hd : s.CanDrop j) :
    releaseBufs j.bufs s = some (s.release j.bufs) := by
  rw [← hd.bufs]
  exact releaseBufs_spec h.ledger.nodup_head fun _ hb => h.ledger.head_mem hb

theorem Owned.drop (h : Owned s (j :: js)) (hd : s.CanDrop j) : Owned (s.release j.bufs) js :=
  hd.bufs ▸ h.close hd.1

theorem Owned.expire (h : Owned s (j :: js)) (hd : s.CanDrop j) :
    ∃ s', expire s j = some s' ∧ Owned s' js ∧ Keeps s s' := by
  simp only [JobMap.expire]
  by_cases hw : (s.tasks j.job).phase = .waiting
  · rw [if_pos hw, h.releaseBufs hd]
    exact ⟨_, rfl, h.drop hd, ⟨rfl, rfl, rfl, rfl, fun _ => rfl, fun _ => rfl⟩⟩
  · rw [if_neg hw]
    have hr : JobMap.releaseBufs j.bufs (s.setTask j.job { s.tasks j.job with auto := true }) =
        some ((s.release j.bufs).setTask j.job { s.tasks j.job with auto := true }) := by
      rw [← hd.bufs]
      exact releaseBufs_spec h.ledger.nodup_head fun _ hb => h.ledger.head_mem hb
    refine ⟨_, hr, (h.drop hd).setTask_other (fun j' hj' => h.job_ne hj') hd.1,
      ⟨rfl, rfl, rfl, rfl, fun t => ?_, fun t => ?_⟩⟩
    · by_cases he : t = j.job
      · subst he
        simp [State.setTask]
      · simp [State.setTask, State.release, he]
    · by_cases he : t = j.job
      · subst he
        simp [State.setTask]
      · simp [State.setTask, State.release, he]

/-- The jobs of a list that can be dropped give their buffers back. -/
theorem Owned.releaseJobs : ∀ {ds : List JobMapping} {s : State}, Owned s (ds ++ js) →
    (∀ j ∈ ds, s.CanDrop j) → ∃ s', releaseJobs ds s = some s' ∧ Owned s' js ∧ Keeps s s'
  | [], s, h, _ => ⟨s, rfl, h, .refl s⟩
  | d :: ds, s, h, hd => by
    have hd' := hd d List.mem_cons_self
    have hk : Keeps s (s.release d.bufs) := ⟨rfl, rfl, rfl, rfl, fun _ => rfl, fun _ => rfl⟩
    obtain ⟨s', h1, h2, h3⟩ := (h.drop hd').releaseJobs
      fun j hj => hk.canDrop.2 (hd j (List.mem_cons_of_mem _ hj))
    refine ⟨s', ?_, h2, hk.trans h3⟩
    rw [JobMap.releaseJobs, h.releaseBufs hd']
    exact h1

end Mdp.JobMap
