import FireTablet.Mdp.Proof.JobOwned

/-!
# Runs of the job list

In a run whose steps meet `StepOk` nothing is released twice and no destroyed task is used, every
mapped buffer is one unfinished job's, no two listed jobs have one id, and a job stays in the list
until a wait, its expiry or a close takes it (`job_runs`).
-/

namespace Mdp.JobMap

variable {s s' : State} {j : JobMapping} {js : List JobMapping} {t : TaskId}

/-- The records of the jobs, by who has them. -/
def State.records (s : State) : List JobMapping := s.execs ++ s.list ++ s.waits

/-- The jobs in order: the records are those of all that is mapped, no two listed jobs have the same
id, and while the counter of ids has not wrapped theirs are below it. -/
structure InOrder (s : State) : Prop where
  owned : Owned s s.records
  ids : (s.list.map (·.id)).Nodup
  below : s.jobMappingIdx ≠ 0 → ∀ j ∈ s.list, j.id < s.jobMappingIdx

/-- The records' owners matter and not the lists they are in. -/
theorem Owned.congr (h : Owned s js) (hm : s'.mapped = s.mapped) (hb : s'.nextBuf = s.nextBuf)
    (ht : s'.tasks = s.tasks) (hn : s'.nextTask = s.nextTask) : Owned s' js where
  ledger := by
    rw [hm, map_bufs_congr (s := s) fun j _ => by rw [ht]]
    exact h.ledger
  fresh := by rw [hm, hb]; exact h.fresh
  jobs := h.jobs
  live j hj := by
    have hl := h.live j hj
    exact ⟨ht ▸ hl.phase, ht ▸ hl.node, ht ▸ hl.auto, hn ▸ hl.bound, ht ▸ hl.sec⟩
  running := by rw [ht]; exact h.running

theorem perm_cons_eraseP {α : Type*} {p : α → Bool} {a : α} : ∀ {l : List α},
    l.find? p = some a → l.Perm (a :: l.eraseP p)
  | [], h => nomatch h
  | x :: l, h => by
    by_cases hp : p x = true
    · rw [List.find?_cons_of_pos hp] at h
      cases h
      rw [List.eraseP_cons_of_pos hp]
    · rw [List.find?_cons_of_neg hp] at h
      rw [List.eraseP_cons_of_neg hp]
      exact ((perm_cons_eraseP h).cons x).trans (.swap ..)

/-! ## Submissions -/

/-- What a translation from buffer `n` on has mapped: new buffers, as many as there is room for. -/
structure Fresh (n : BufId) (t : Trans) : Prop where
  le : n ≤ t.nextBuf
  nodup : (t.maps.map (·.buf)).Nodup
  new : ∀ x ∈ t.maps, n ≤ x.buf ∧ x.buf < t.nextBuf
  room : t.maps.length ≤ maxHandleNum

theorem Fresh.setStatus {n : BufId} {t : Trans} (h : Fresh n t) (status : Int) :
    Fresh n { t with status := status } := ⟨h.le, h.nodup, h.new, h.room⟩

theorem Fresh.translateFd {n : BufId} {t : Trans} (h : Fresh n t) (m : FdMeta) :
    Fresh n (translateFd m t).2 := by
  unfold JobMap.translateFd
  by_cases hport : m.port = 0
  · rw [if_pos hport]
    exact h
  rw [if_neg hport]
  cases t.maps.find? (·.fd = m.fd) with
  | some x => exact h
  | none =>
    by_cases hroom : t.maps.length ≥ maxHandleNum
    · simp only [if_pos hroom]
      exact h
    simp only [if_neg hroom]
    cases m.answer with
    | none => exact h
    | some addr =>
      simp only
      split_ifs
      · exact h
      -- a new buffer
      have hlen : t.maps.length < maxHandleNum := Nat.lt_of_not_le hroom
      refine ⟨Nat.le_succ_of_le h.le, ?_, fun x hx => ?_, ?_⟩
      · rw [List.map_append, List.nodup_append]
        refine ⟨h.nodup, List.nodup_singleton _, fun b hb b' hb' he => ?_⟩
        obtain ⟨x, hx, rfl⟩ := List.mem_map.1 hb
        have := (h.new x hx).2
        rw [he, List.mem_singleton.1 hb'] at this
        exact absurd this (lt_irrefl _)
      · rcases List.mem_append.1 hx with hx | hx
        · exact ⟨(h.new x hx).1, Nat.lt_succ_of_lt (h.new x hx).2⟩
        · rw [List.mem_singleton.1 hx]
          exact ⟨h.le, Nat.lt_succ_self _⟩
      · rw [List.length_append]
        exact hlen

theorem Fresh.translateMeta {n : BufId} {t : Trans} (h : Fresh n t) (m : Meta) :
    Fresh n (translateMeta m t).2 := by
  cases m with
  | writeFd m regOk status =>
    simp only [JobMap.translateMeta]
    split_ifs <;> exact h.translateFd m
  | read status full => exact h
  | other status => exact h

theorem Fresh.translateMetas {n : BufId} : ∀ (ms : List Meta) {t : Trans}, Fresh n t →
    Fresh n (translateMetas ms t).2
  | [], _, h => h
  | m :: ms, t, h => by
    have h' := (h.translateMeta m).setStatus (JobMap.translateMeta m t).1
    simp only [JobMap.translateMetas]
    split_ifs
    · exact h'
    · exact h'.setStatus einval
    · exact Fresh.translateMetas ms h'

theorem Fresh.translateUserJob {n : BufId} : ∀ (ps : List Page) {t : Trans}, Fresh n t →
    Fresh n (translateUserJob ps t)
  | [], _, h => h
  | p :: ps, t, h => by
    simp only [JobMap.translateUserJob]
    split_ifs with hc
    · exact h.setStatus einval
    have h' := h.translateMetas p.metas
    rcases hm : JobMap.translateMetas p.metas t with ⟨returned, t'⟩
    rw [hm] at h'
    cases returned with
    | true => exact h'
    | false => exact Fresh.translateUserJob ps h'

theorem Submit.fresh (u : Submit) (s : State) : Fresh s.nextBuf (u.translation s) :=
  Fresh.translateUserJob u.pages
    ⟨le_refl _, .nil, fun _ h => absurd h List.not_mem_nil, Nat.zero_le _⟩

/-! ### The secure set-up -/

/-- The buffers that the loop over the handles maps. -/
theorem mapHandles_eq : ∀ {hs : List (Option UInt64)} {n : BufId} {bufs : List BufId},
    mapHandles hs n = some bufs → bufs = List.range' n hs.length
  | [], n, bufs, h => by
    cases h
    rfl
  | none :: hs, n, bufs, h => by cases h
  | some addr :: hs, n, bufs, h => by
    rw [mapHandles] at h
    split_ifs at h
    obtain ⟨bufs', h', rfl⟩ := Option.map_eq_some_iff.1 h
    rw [mapHandles_eq h', List.length_cons, List.range'_succ]

/-- The secure data have new buffers, for the first of the metadata. -/
structure SecFresh (n : BufId) (d : Option SecData) : Prop where
  bufs : secBufs d = List.range' n (secBufs d).length
  filled : ∀ x, d = some x → x.Filled

theorem secFresh_assignMetadata (u : SecSubmit) (n : BufId) :
    SecFresh n (some (assignMetadata u n)) := by
  have hnone : SecFresh n (some ⟨0, []⟩) := ⟨rfl, fun x hx => by cases hx; rfl⟩
  unfold assignMetadata
  split_ifs
  · exact hnone
  cases hm : mapHandles (u.handles.take secMaxHandleNum) n with
  | none => exact hnone
  | some bufs =>
    have hb := mapHandles_eq hm
    have hlen : bufs.length = min u.handles.length secMaxHandleNum := by
      rw [hb, List.length_range', List.length_take, Nat.min_comm]
    refine ⟨?_, fun x hx => ?_⟩
    · show bufs = List.range' n bufs.length
      rw [hb, List.length_range']
    · cases hx
      exact hlen

theorem secFresh_handleSecSetup {sec : Option SecSubmit} {n : BufId} {q : Int × Option SecData}
    (h : handleSecSetup sec n = some q) : SecFresh n q.2 := by
  have hnone : SecFresh n none := ⟨rfl, fun x hx => by cases hx⟩
  unfold handleSecSetup at h
  cases sec with
  | none =>
    cases h
    exact hnone
  | some u =>
    dsimp only at h
    split_ifs at h
    · cases h
      exact hnone
    · cases h
      exact hnone
    · cases h
      exact secFresh_assignMetadata u n

/-! ### The submission -/

/-- A submission that gets through from its translation on. -/
def Submit.Through (u : Submit) (s : State) : Prop :=
  0 ≤ (u.translation s).status ∧ 0 ≤ u.readV1 ∧ u.flushCmdBuf = true ∧ 0 ≤ u.flush

instance (u : Submit) (s : State) : Decidable (u.Through s) := inferInstanceAs (Decidable (_ ∧ _))

/-- A secure job has memory for its secure data, and no error exit is taken after a buffer was
mapped. -/
def SubmitOk (s : State) (u : Submit) : Prop :=
  0 ≤ u.setup → ∃ q ∈ handleSecSetup u.sec s.nextBuf, 0 ≤ q.1 →
    (secBufs q.2 = [] ∧ (u.translation (s.mapSec q.2)).maps = []) ∨ u.Through (s.mapSec q.2)

instance (s : State) (u : Submit) : Decidable (SubmitOk s u) :=
  inferInstanceAs (Decidable (_ → _))

/-- What is mapped for a submission. -/
def Submit.allBufs (u : Submit) (s : State) (sec : Option SecData) : List BufId :=
  (u.translation (s.mapSec sec)).maps.map (·.buf) ++ secBufs sec

/-- The error exits of a submission leave everything but what they do not release; without an error
its job starts. -/
theorem asyncExecJob_cases (s : State) (f : FileId) (u : Submit) (sec : Option SecData) :
    ((asyncExecJob s f u sec).1.result ≠ none ∧ ¬ u.Through (s.mapSec sec) ∧
      (asyncExecJob s f u sec).2 = (s.mapSec sec).mapMetas u) ∨
    asyncExecJob s f u sec = (⟨none⟩,
      ((s.mapSec sec).mapMetas u).start f sec (u.translation (s.mapSec sec)).maps) := by
  unfold asyncExecJob Submit.Through
  by_cases h1 : (u.translation (s.mapSec sec)).status < 0
  · exact .inl (by simp [h1, not_le.2 h1])
  by_cases h2 : u.readV1 < 0
  · exact .inl (by simp [h1, h2, not_le.2 h2])
  cases h3 : u.flushCmdBuf with
  | false => exact .inl (by simp [h1, h2])
  | true =>
    by_cases h4 : u.flush < 0
    · exact .inl (by simp [h1, h2, h4, not_le.2 h4])
    · exact .inr (by simp [h1, h2, h4])

/-- All that is mapped for a submission is new. -/
theorem allBufs_fresh (u : Submit) (s : State) {sec : Option SecData}
    (hsec : SecFresh s.nextBuf sec) : (u.allBufs s sec).Nodup ∧
      s.nextBuf ≤ ((s.mapSec sec).mapMetas u).nextBuf ∧ ∀ b ∈ u.allBufs s sec,
        s.nextBuf ≤ b ∧ b < ((s.mapSec sec).mapMetas u).nextBuf := by
  have hfr := u.fresh (s.mapSec sec)
  have hmem : ∀ b : Nat, b ∈ secBufs sec → s.nextBuf ≤ b ∧ b < s.nextBuf + (secBufs sec).length :=
    fun b hb => by
      rw [hsec.bufs, List.mem_range'_1] at hb
      exact hb
  have hle : s.nextBuf + (secBufs sec).length ≤ ((s.mapSec sec).mapMetas u).nextBuf := hfr.le
  refine ⟨List.nodup_append.2 ⟨hfr.nodup, ?_, fun b hb b' hb' he => ?_⟩, by omega, fun b hb => ?_⟩
  · rw [hsec.bufs]
    exact List.nodup_range'
  · obtain ⟨x, hx, rfl⟩ := List.mem_map.1 hb
    have h1 : s.nextBuf + (secBufs sec).length ≤ x.buf := (hfr.new x hx).1
    exact absurd (lt_of_le_of_lt h1 (he ▸ (hmem b' hb').2)) (lt_irrefl _)
  · rcases List.mem_append.1 hb with hb | hb
    · obtain ⟨x, hx, rfl⟩ := List.mem_map.1 hb
      have h1 : s.nextBuf + (secBufs sec).length ≤ x.buf := (hfr.new x hx).1
      exact ⟨by omega, (hfr.new x hx).2⟩
    · exact ⟨(hmem b hb).1, lt_of_lt_of_le (hmem b hb).2 hle⟩

theorem mapped_mapMetas (s : State) (u : Submit) (sec : Option SecData) :
    ((s.mapSec sec).mapMetas u).mapped = s.mapped ∪ (u.allBufs s sec).toFinset := by
  simp only [State.mapMetas, State.mapSec, State.mapBufs, Submit.allBufs, List.toFinset_append]
  rw [Finset.union_assoc, Finset.union_comm (secBufs sec).toFinset]

/-- The job of a submission that gets through has all that is mapped for it. -/
theorem Owned.start (h : Owned s js) {f : FileId} {u : Submit} {sec : Option SecData}
    (hsec : SecFresh s.nextBuf sec) :
    Owned (((s.mapSec sec).mapMetas u).start f sec (u.translation (s.mapSec sec)).maps)
      (⟨0, s.nextTask, f, (u.translation (s.mapSec sec)).maps⟩ :: js) := by
  obtain ⟨hnodup, hle, hnew⟩ := allBufs_fresh u s hsec
  have hbound : ∀ j ∈ js, j.job ≠ s.nextTask := fun j hj he =>
    absurd (h.live j hj).bound (he ▸ lt_irrefl _)
  have htask : ∀ j ∈ js, Function.update s.tasks s.nextTask ⟨.waiting, f, false, sec⟩ j.job =
      s.tasks j.job := fun j hj => Function.update_of_ne (hbound j hj) ..
  refine ⟨?_, fun b hb => ?_, ?_, fun j hj => ?_, fun t ht => ?_⟩
  · -- a new account with new buffers
    have hopen := h.ledger.opened hnodup fun b hb hm =>
      absurd (h.fresh b hm) (not_lt.2 (hnew b hb).1)
    rw [← mapped_mapMetas] at hopen
    rw [List.map_cons, map_bufs_congr (s := s) fun j hj => congrArg Task.secData (htask j hj)]
    have hbufs : State.bufs
        (((s.mapSec sec).mapMetas u).start f sec (u.translation (s.mapSec sec)).maps)
          ⟨0, s.nextTask, f, (u.translation (s.mapSec sec)).maps⟩ = u.allBufs s sec := by
      simp [State.bufs, State.start, State.mapMetas, State.mapSec, State.mapBufs,
        Submit.allBufs, JobMapping.bufs]
    rw [hbufs]
    exact hopen
  · have hm : b ∈ s.mapped ∪ (u.allBufs s sec).toFinset := mapped_mapMetas s u sec ▸ hb
    rcases Finset.mem_union.1 hm with hb' | hb'
    · exact lt_of_lt_of_le (h.fresh b hb') hle
    · exact (hnew b (List.mem_toFinset.1 hb')).2
  · refine List.nodup_cons.2 ⟨fun hm => ?_, h.jobs⟩
    obtain ⟨j, hj, he⟩ := List.mem_map.1 hm
    exact hbound j hj he
  · rcases List.mem_cons.1 hj with rfl | hj
    · have hself : Function.update s.tasks s.nextTask ⟨.waiting, f, false, sec⟩ s.nextTask =
          ⟨.waiting, f, false, sec⟩ := Function.update_self ..
      refine ⟨?_, congrArg Task.node hself, congrArg Task.auto hself, Nat.lt_succ_self _,
        fun d hd => ?_⟩
      · exact (congrArg Task.phase hself).trans_ne (by simp)
      · exact hsec.filled d ((congrArg Task.secData hself).symm.trans hd)
    · have hl := h.live j hj
      have ht := htask j hj
      exact ⟨(congrArg Task.phase ht).trans_ne hl.phase, (congrArg Task.node ht).trans hl.node,
        (congrArg Task.auto ht).trans hl.auto, Nat.lt_succ_of_lt hl.bound,
        fun d hd => hl.sec d ((congrArg Task.secData ht).symm.trans hd)⟩
  · by_cases he : t = s.nextTask
    · subst he
      simp [State.start, State.mapMetas, State.mapSec, State.mapBufs] at ht
    · obtain ⟨j, hj, he'⟩ := h.running t
        (by simpa [State.start, State.mapMetas, State.mapSec, State.mapBufs, he] using ht)
      exact ⟨j, List.mem_cons_of_mem _ hj, he'⟩

theorem asyncExec_spec {f : FileId} {u : Submit} (h : InOrder s) (hok : SubmitOk s u) :
    ∃ o s', asyncExec s f u = some (o, s') ∧ InOrder s' ∧ s'.list = s.list ∧
      (o.result ≠ none → s'.mapped = s.mapped ∧ s'.records = s.records) := by
  unfold asyncExec
  by_cases hset : u.setup < 0
  · rw [if_pos hset]
    exact ⟨_, s, rfl, h, rfl, fun _ => ⟨rfl, rfl⟩⟩
  obtain ⟨q, hq, hok'⟩ := hok (not_lt.1 hset)
  rw [if_neg hset, Option.mem_def.1 hq, Option.map_some]
  by_cases hst : q.1 < 0
  · rw [if_pos hst]
    exact ⟨_, s, rfl, h, rfl, fun _ => ⟨rfl, rfl⟩⟩
  rw [if_neg hst]
  have hsec := secFresh_handleSecSetup (Option.mem_def.1 hq)
  rcases asyncExecJob_cases s f u q.2 with ⟨-, hn, hs⟩ | hs
  · -- an error exit: nothing was mapped
    obtain ⟨hbufs, hmaps⟩ := (hok' (not_lt.1 hst)).resolve_right hn
    have hm : ((s.mapSec q.2).mapMetas u).mapped = s.mapped := by
      rw [mapped_mapMetas, Submit.allBufs, hbufs, hmaps]
      exact Finset.union_empty _
    refine ⟨(asyncExecJob s f u q.2).1, (asyncExecJob s f u q.2).2, rfl, ?_, by rw [hs]; rfl,
      fun _ => ?_⟩
    · rw [hs]
      refine ⟨⟨hm.symm ▸ h.owned.ledger, fun b hb => ?_, h.owned.jobs, fun j hj => ?_,
        h.owned.running⟩, h.ids, h.below⟩
      · exact lt_of_lt_of_le (h.owned.fresh b (hm ▸ hb)) (allBufs_fresh u s hsec).2.1
      · have hl := h.owned.live j hj
        exact ⟨hl.phase, hl.node, hl.auto, hl.bound, hl.sec⟩
    · rw [hs]
      exact ⟨hm, rfl⟩
  · rw [hs]
    refine ⟨_, _, rfl, ⟨(h.owned.start hsec).perm ?_, h.ids, h.below⟩, rfl,
      fun hn => absurd rfl hn⟩
    simp only [State.records, State.start, State.mapMetas, State.mapSec, State.mapBufs,
      List.append_assoc]
    exact List.perm_middle.symm

/-! ## The list -/

/-- The job is reported to the user, and the counter of ids has not wrapped. -/
def EnlistOk (s : State) (t : TaskId) (copyOut : Bool) : Prop :=
  t ∈ s.execs.map (·.job) → copyOut = true ∧ s.jobMappingIdx ≠ 0

instance (s : State) (t : TaskId) (copyOut : Bool) : Decidable (EnlistOk s t copyOut) :=
  inferInstanceAs (Decidable (_ → _))

theorem State.nextId_eq (h : s.jobMappingIdx ≠ 0) : s.nextId = s.jobMappingIdx := if_neg h

/-- The counter goes up, as long as it does not wrap. -/
theorem lt_succ_of_ne_zero {i : UInt64} (h : i + 1 ≠ 0) : i < i + 1 := by
  have h1 : i.toNat < 2 ^ 64 := i.toNat_lt
  have h2 : (i + 1).toNat = (i.toNat + 1) % 2 ^ 64 := UInt64.toNat_add i 1
  have h3 : (i + 1).toNat ≠ 0 := fun h0 => h (UInt64.toNat_inj.1 h0)
  rw [UInt64.lt_iff_toNat_lt]
  omega

theorem enlist_spec {copyOut : Bool} (h : InOrder s) (hok : EnlistOk s t copyOut) :
    InOrder (enlist s t copyOut).2 ∧ (∀ j ∈ s.list, j ∈ (enlist s t copyOut).2.list) ∧
      ∀ r, (enlist s t copyOut).1.result = some r →
        r = 0 ∧ ∃ j ∈ (enlist s t copyOut).2.list, j.job = t := by
  unfold enlist
  cases hf : s.execs.find? (·.job = t) with
  | none => exact ⟨h, fun _ hj => hj, nofun⟩
  | some j =>
    have hjt : j.job = t := by simpa using List.find?_some hf
    obtain ⟨hout, hid⟩ := hok (List.mem_map.2 ⟨j, List.mem_of_find?_eq_some hf, hjt⟩)
    have hp : s.records.Perm (j :: (s.execs.eraseP (·.job = t) ++ (s.list ++ s.waits))) := by
      simp only [State.records, List.append_assoc]
      exact (perm_cons_eraseP hf).append_right _
    refine ⟨⟨(((h.owned.perm hp).setId s.nextId).perm ?_).congr rfl rfl rfl rfl, ?_, fun h0 => ?_⟩,
      fun j' hj' => List.mem_append_left _ hj', fun r hr => ?_⟩
    · simp only [State.records, List.append_assoc]
      refine List.perm_middle.symm.trans (List.Perm.append_left _ ?_)
      exact List.perm_middle.symm
    · rw [List.map_append, List.nodup_append]
      refine ⟨h.ids, List.nodup_singleton _, fun a ha b hb he => ?_⟩
      -- the new id is the counter, and the others are below it
      obtain ⟨j', hj', rfl⟩ := List.mem_map.1 ha
      have hb' : b = s.nextId := by simpa using hb
      have hlt := h.below hid j' hj'
      rw [he, hb', State.nextId_eq hid] at hlt
      exact absurd hlt (UInt64.lt_irrefl _)
    · simp only [State.nextId_eq hid] at h0 ⊢
      intro j' hj'
      rcases List.mem_append.1 hj' with hj' | hj'
      · exact UInt64.lt_trans (h.below hid j' hj') (lt_succ_of_ne_zero h0)
      · rw [List.mem_singleton.1 hj']
        exact lt_succ_of_ne_zero h0
    · simp only [hout, if_true, Option.some.injEq] at hr
      exact ⟨hr.symm, _, List.mem_append_right _ (List.mem_singleton.2 rfl), hjt⟩

/-- What the walk through the list finds and leaves, when it drops only jobs that can be dropped. -/
theorem findJob_spec (late : JobMapping → Bool) (id : UInt64) :
    ∀ (js rest : List JobMapping) {s : State}, Owned s (js ++ rest) →
    (∀ j ∈ js.takeWhile (·.id ≠ id), late j = true → s.CanDrop j) →
    ∃ job js' s', findJob late id js s = some (job, js', s') ∧
      Owned s' (js' ++ job.toList ++ rest) ∧ Keeps s s' ∧ js'.Sublist js ∧
      ∀ j ∈ js, j ∈ js' ∨ j.id = id ∨ late j = true
  | [], rest, s, h, _ => ⟨none, [], s, rfl, h, .refl s, .slnil, fun _ hj => .inl hj⟩
  | j :: js, rest, s, h, hl => by
    by_cases hid : j.id = id
    · refine ⟨some j, js, s, if_pos hid, h.perm ?_, .refl s, List.sublist_cons_self j js,
        fun j' hj' => ?_⟩
      · simp only [Option.toList_some, List.append_assoc]
        exact List.perm_middle.symm
      · rcases List.mem_cons.1 hj' with rfl | hj'
        · exact .inr (.inl hid)
        · exact .inl hj'
    rw [List.takeWhile_cons_of_pos (by simpa using hid)] at hl
    have hgone := (h.live j List.mem_cons_self).phase
    rw [findJob, if_neg hid, if_neg hgone]
    cases hlate : late j with
    | true =>
      obtain ⟨s1, he, h1, hk⟩ := Owned.expire h (hl j List.mem_cons_self hlate)
      obtain ⟨job, js', s', h2, h3, h4, h5, h6⟩ := findJob_spec late id js rest h1
        fun j' hj' hj'' => hk.canDrop.2 (hl j' (List.mem_cons_of_mem _ hj') hj'')
      refine ⟨job, js', s', ?_, h3, hk.trans h4, h5.cons j, fun j' hj' => ?_⟩
      · rw [if_pos rfl, he]
        exact h2
      · rcases List.mem_cons.1 hj' with rfl | hj'
        · exact .inr (.inr hlate)
        · exact h6 j' hj'
    | false =>
      obtain ⟨job, js', s', h2, h3, h4, h5, h6⟩ := findJob_spec late id js (j :: rest)
        (h.perm List.perm_middle.symm) fun j' hj' => hl j' (List.mem_cons_of_mem _ hj')
      refine ⟨job, j :: js', s', ?_, h3.perm ?_, h4, h5.cons_cons j, fun j' hj' => ?_⟩
      · rw [if_neg (by simp), h2]
        rfl
      · exact List.perm_middle
      · rcases List.mem_cons.1 hj' with rfl | hj'
        · exact .inl List.mem_cons_self
        · exact (h6 j' hj').imp_left (List.mem_cons_of_mem _)

/-- A wait drops only jobs that do not run and have no secure buffers. -/
def TakeOk (s : State) (copyIn : Bool) (id : UInt64) (late : JobMapping → Bool) : Prop :=
  copyIn = true → ∀ j ∈ s.list.takeWhile (·.id ≠ id), late j = true → s.CanDrop j

instance (s : State) (copyIn : Bool) (id : UInt64) (late : JobMapping → Bool) :
    Decidable (TakeOk s copyIn id late) := inferInstanceAs (Decidable (_ → _))

theorem take_spec {copyIn : Bool} {id : UInt64} {late : JobMapping → Bool} (h : InOrder s)
    (hok : TakeOk s copyIn id late) : ∃ o s', take s copyIn id late = some (o, s') ∧ InOrder s' ∧
      ∀ j ∈ s.list, j ∈ s'.list ∨ j.id = id ∨ late j = true := by
  unfold take
  cases copyIn with
  | false => exact ⟨_, s, rfl, h, fun _ hj => .inl hj⟩
  | true =>
    have hp : s.records.Perm (s.list ++ (s.execs ++ s.waits)) := by
      simp only [State.records, ← List.append_assoc]
      exact List.perm_append_comm.append_right _
    obtain ⟨job, js', s', h1, h2, h3, h4, h5⟩ :=
      findJob_spec late id s.list _ (h.owned.perm hp) (hok rfl)
    rw [← h3.execs, ← h3.waits] at h2
    have hids : (js'.map (·.id)).Nodup := h.ids.sublist (h4.map _)
    have hbelow : s'.jobMappingIdx ≠ 0 → ∀ j ∈ js', j.id < s'.jobMappingIdx := by
      rw [h3.idx]
      exact fun h0 j hj => h.below h0 j (h4.subset hj)
    have hp' : ∀ ws : List JobMapping, (js' ++ ws ++ (s'.execs ++ s'.waits)).Perm
        (s'.execs ++ js' ++ (s'.waits ++ ws)) := fun ws => by
      have e1 : (js' ++ ws ++ (s'.execs ++ s'.waits)).Perm
          ((js' ++ s'.execs) ++ (ws ++ s'.waits)) := by
        simp only [List.append_assoc]
        refine List.Perm.append_left _ ?_
        simp only [← List.append_assoc]
        exact List.perm_append_comm.append_right _
      exact e1.trans (List.perm_append_comm.append List.perm_append_comm)
    simp only [Bool.not_true, Bool.false_eq_true, if_false, h1, Option.map_some]
    cases job with
    | none =>
      refine ⟨_, _, rfl, ⟨?_, hids, hbelow⟩, h5⟩
      have h6 := h2.perm (hp' [])
      rw [List.append_nil] at h6
      exact h6.congr rfl rfl rfl rfl
    | some j =>
      refine ⟨_, _, rfl, ⟨?_, hids, hbelow⟩, h5⟩
      have h6 := h2.perm (hp' [j])
      rw [h3.waits] at h6
      exact h6.congr rfl rfl rfl rfl

/-- A wait that ends frees a job with as many metadata as the arrays of its secure data have room
for. -/
def EndOk (s : State) (t : TaskId) (timeout : Bool) : Prop :=
  t ∈ s.waits.map (·.job) →
    (s.tasks t).phase = .finished ∨ (s.tasks t).phase = .waiting ∧ timeout = true →
      secCount (s.tasks t).secData ≤ secMaxHandleNum

instance (s : State) (t : TaskId) (timeout : Bool) : Decidable (EndOk s t timeout) :=
  inferInstanceAs (Decidable (_ → _))

theorem endWait_spec (h : InOrder s) {timeout : Bool} (hok : EndOk s t timeout) (w : WaitEnd) :
    ∃ o s', endWait s t timeout w = some (o, s') ∧ InOrder s' ∧ s'.list = s.list := by
  unfold endWait
  cases hf : s.waits.find? (·.job = t) with
  | none => exact ⟨_, s, rfl, h, rfl⟩
  | some j =>
    have hjt : j.job = t := by simpa using List.find?_some hf
    subst hjt
    have hp : s.records.Perm (j :: (s.execs ++ s.list ++ s.waits.eraseP (·.job = j.job))) := by
      refine ((perm_cons_eraseP hf).append_left _).trans ?_
      exact List.perm_middle
    have hj := h.owned.perm hp
    have hok' := hok (List.mem_map.2 ⟨j, List.mem_of_find?_eq_some hf, rfl⟩)
    have hclose : ∀ status, (s.tasks j.job).phase ≠ .running →
        secCount (s.tasks j.job).secData ≤ secMaxHandleNum →
        ∃ o s', closeWait s j status = some (o, s') ∧ InOrder s' ∧ s'.list = s.list :=
      fun status hrun hcount => by
        unfold closeWait
        rw [hj.releaseAll hcount]
        refine ⟨_, _, rfl, ⟨?_, h.ids, h.below⟩, rfl⟩
        exact ((hj.close hrun).setTask_other (fun j' hj' => hj.job_ne hj')
          (k := { s.tasks j.job with phase := .gone }) nofun).congr rfl rfl rfl rfl
    have hgone := (hj.live j List.mem_cons_self).phase
    cases hph : (s.tasks j.job).phase with
    | gone => exact absurd hph hgone
    | running => exact ⟨_, s, rfl, h, rfl⟩
    | waiting =>
      cases timeout with
      | false => exact ⟨_, s, rfl, h, rfl⟩
      | true => exact hclose _ (by simp [hph]) (hok' (.inr ⟨hph, rfl⟩))
    | finished => exact hclose _ (by simp [hph]) (hok' (.inl hph))

/-- No listed job of a file that is closed runs or has secure buffers. -/
def FreeJobsOk (s : State) (f : FileId) : Prop := ∀ j ∈ s.list, j.node = f → s.CanDrop j

instance (s : State) (f : FileId) : Decidable (FreeJobsOk s f) :=
  inferInstanceAs (Decidable (∀ _ ∈ _, _))

theorem freeJobByNode_spec {f : FileId} (h : InOrder s) (hok : FreeJobsOk s f) :
    ∃ s', freeJobByNode s f = some s' ∧ InOrder s' ∧
      ∀ j ∈ s.list, j ∈ s'.list ∨ j.node = f := by
  have hsplit : (s.list.filter (·.node = f) ++ s.list.filter (·.node ≠ f)).Perm s.list := by
    simpa only [decide_not] using List.filter_append_perm (fun j => decide (j.node = f)) s.list
  have hp : s.records.Perm (s.list.filter (·.node = f) ++
      (s.execs ++ s.list.filter (·.node ≠ f) ++ s.waits)) := by
    have e1 : s.records.Perm (s.execs ++ (s.list.filter (·.node = f) ++
        s.list.filter (·.node ≠ f)) ++ s.waits) :=
      (hsplit.symm.append_left _).append_right _
    refine e1.trans ?_
    simp only [← List.append_assoc]
    exact (List.perm_append_comm.append_right _).append_right _
  obtain ⟨s', h1, h2, h3⟩ := (h.owned.perm hp).releaseJobs fun j hj => by
    obtain ⟨hm, hn⟩ := List.mem_filter.1 hj
    exact hok j hm (by simpa using hn)
  refine ⟨_, by rw [freeJobByNode, h1]; rfl, ⟨?_, ?_, ?_⟩, fun j hj => ?_⟩
  · refine Owned.congr (s := s') ?_ rfl rfl rfl rfl
    simpa only [State.records, h3.execs, h3.waits] using h2
  · exact h.ids.sublist (List.filter_sublist.map _)
  · show s'.jobMappingIdx ≠ 0 → _
    rw [h3.idx]
    exact fun h0 j hj => h.below h0 j (List.mem_of_mem_filter hj)
  · by_cases he : j.node = f
    · exact .inr he
    · exact .inl (List.mem_filter.2 ⟨hj, by simpa using he⟩)

/-! ## Runs -/

/-- The condition of a step. A thread takes a task only while the job's buffers are there, and the
tasks of a closed file have no records any more. -/
def StepOk (s : State) : Op → Prop
  | .submit _ u => SubmitOk s u
  | .enlist t copyOut => EnlistOk s t copyOut
  | .take copyIn id late => TakeOk s copyIn id late
  | .endWait t timeout _ => EndOk s t timeout
  | .freeJobs f => FreeJobsOk s f
  | .releaseTasks f => ∀ j ∈ s.records, j.node ≠ f
  | .dispatch t => (s.tasks t).phase = .waiting → t ∈ s.records.map (·.job)
  | _ => True

instance decidableStepOk (s : State) : (i : Op) → Decidable (StepOk s i)
  | .submit _ u => inferInstanceAs (Decidable (SubmitOk s u))
  | .enlist t copyOut => inferInstanceAs (Decidable (EnlistOk s t copyOut))
  | .take copyIn id late => inferInstanceAs (Decidable (TakeOk s copyIn id late))
  | .endWait t timeout _ => inferInstanceAs (Decidable (EndOk s t timeout))
  | .freeJobs f => inferInstanceAs (Decidable (FreeJobsOk s f))
  | .releaseTasks f => inferInstanceAs (Decidable (∀ j ∈ s.records, j.node ≠ f))
  | .dispatch t =>
    inferInstanceAs (Decidable ((s.tasks t).phase = .waiting → t ∈ s.records.map (·.job)))
  | .finish _ => inferInstanceAs (Decidable True)
  | .destroy _ => inferInstanceAs (Decidable True)

/-- A wait that looks for the job or finds it pending for too long, and the close of its file. -/
def Op.Takes : Op → JobMapping → Prop
  | .take _ id late, j => j.id = id ∨ late j = true
  | .freeJobs f, j => j.node = f
  | _, _ => False

/-- What a step shows: an error of a submission leaves nothing mapped and no job, a submission that
is accepted has its job in the list, and a job leaves the list only when it is taken. -/
structure Shows (s : State) (i : Op) (o : Out) (s' : State) : Prop where
  failed : ∀ f u, i = .submit f u → o.result ≠ none →
    s'.mapped = s.mapped ∧ s'.records = s.records
  accepted : ∀ t copyOut r, i = .enlist t copyOut → o.result = some r →
    r = 0 ∧ ∃ j ∈ s'.list, j.job = t
  listed : ∀ j ∈ s.list, j ∈ s'.list ∨ i.Takes j

/-- A task that is not in the records' tasks, or changes only in its phase. -/
theorem InOrder.setPhase (h : InOrder s) {p : Phase} (hp : p ≠ .gone)
    (hrun : p = .running → ∃ j ∈ s.records, j.job = t) :
    InOrder (s.setTask t { s.tasks t with phase := p }) :=
  ⟨h.owned.setPhase hp hrun, h.ids, h.below⟩

theorem step_spec (h : InOrder s) {i : Op} (hok : StepOk s i) :
    ∃ o s', step s i = some (o, s') ∧ InOrder s' ∧ Shows s i o s' := by
  have hsame : ∀ s' : State, s'.list = s.list → ∀ j ∈ s.list, j ∈ s'.list ∨ i.Takes j :=
    fun s' he j hj => .inl (he ▸ hj)
  cases i with
  | submit f u =>
    obtain ⟨o, s', h1, h2, h3, h4⟩ := asyncExec_spec (f := f) h hok
    exact ⟨o, s', h1, h2, ⟨fun _ _ he hr => by cases he; exact h4 hr, nofun, hsame _ h3⟩⟩
  | enlist t copyOut =>
    obtain ⟨h1, h2, h3⟩ := enlist_spec h hok
    exact ⟨(enlist s t copyOut).1, (enlist s t copyOut).2, rfl, h1,
      ⟨nofun, fun _ _ r he hr => by cases he; exact h3 r hr, fun j hj => .inl (h2 j hj)⟩⟩
  | take copyIn id late =>
    obtain ⟨o, s', h1, h2, h3⟩ := take_spec h hok
    exact ⟨o, s', h1, h2, ⟨nofun, nofun, h3⟩⟩
  | endWait t timeout w =>
    obtain ⟨o, s', h1, h2, h3⟩ := endWait_spec h hok w
    exact ⟨o, s', h1, h2, ⟨nofun, nofun, hsame _ h3⟩⟩
  | freeJobs f =>
    obtain ⟨s', h1, h2, h3⟩ := freeJobByNode_spec h hok
    exact ⟨⟨none⟩, s', by simp only [step, h1, Option.map_some], h2, ⟨nofun, nofun, h3⟩⟩
  | releaseTasks f =>
    exact ⟨_, _, rfl, ⟨h.owned.releaseTaskByFileNode hok, h.ids, h.below⟩,
      ⟨nofun, nofun, hsame _ rfl⟩⟩
  | dispatch t =>
    simp only [step]
    split_ifs with hw
    · refine ⟨_, _, rfl, h.setPhase nofun fun _ => ?_, ⟨nofun, nofun, hsame _ rfl⟩⟩
      obtain ⟨j, hj, he⟩ := List.mem_map.1 (hok hw)
      exact ⟨j, hj, he⟩
    · exact ⟨_, s, rfl, h, ⟨nofun, nofun, hsame _ rfl⟩⟩
  | finish t =>
    simp only [step]
    split_ifs
    · exact ⟨_, _, rfl, h.setPhase nofun nofun, ⟨nofun, nofun, hsame _ rfl⟩⟩
    · exact ⟨_, s, rfl, h, ⟨nofun, nofun, hsame _ rfl⟩⟩
  | destroy t =>
    simp only [step]
    split_ifs with ha
    · -- the task of a record is not destroyed behind it
      refine ⟨_, _, rfl, ⟨h.owned.setTask_other (fun j hj he => ?_) nofun, h.ids, h.below⟩,
        ⟨nofun, nofun, hsame _ rfl⟩⟩
      have hauto := (h.owned.live j hj).auto
      rw [he, ha.1] at hauto
      cases hauto
    · exact ⟨_, s, rfl, h, ⟨nofun, nofun, hsame _ rfl⟩⟩

/-- **Runs of the job list**: no buffer is released twice and no destroyed task is used. In every
state each mapped buffer is of one job, whose record a submission, the list or a wait has, a running
task has its record with all its buffers mapped, the tasks of the records are there, and no two
listed jobs have one id. Every next step shows what `Shows` says. -/
theorem job_runs (is : List Op) (h : Sys.Along step StepOk init is) :
    ∃ es s, Sys.run step init is = some (es, s) ∧ InOrder s ∧
      (∀ t, (s.tasks t).phase = .running →
        ∃ j ∈ s.records, j.job = t ∧ ∀ b ∈ s.bufs j, b ∈ s.mapped) ∧
      ∀ i o s', StepOk s i → step s i = some (o, s') → Shows s i o s' := by
  obtain ⟨es, s, hrun, hs⟩ := Sys.run_hist_along (I := fun _ s => InOrder s) (P := StepOk)
    (fun es s i hs hok => by
      obtain ⟨o, s', hstep, hs', -⟩ := step_spec hs hok
      exact ⟨o, s', hstep, hs'⟩) is [] init
      ⟨owned_init, .nil, fun _ _ hj => absurd hj List.not_mem_nil⟩ h
  refine ⟨es, s, hrun, hs, fun t ht => ?_, fun i o s' hok hstep => ?_⟩
  · obtain ⟨j, hj, he⟩ := hs.owned.running t ht
    refine ⟨j, hj, he, fun b hb => (hs.owned.ledger.mem b).2 ?_⟩
    exact List.mem_flatten.2 ⟨s.bufs j, List.mem_map_of_mem hj, hb⟩
  · obtain ⟨o', s'', hstep', -, hshows⟩ := step_spec hs hok
    rw [hstep] at hstep'
    cases hstep'
    exact hshows

/-- A meta that writes the address of a buffer of a file. -/
def oneFd (fd : Int) : Meta := .writeFd ⟨1, fd, 0, some 4096⟩ true 0

def waited : WaitEnd := ⟨0, true, true, 0⟩

/-- A secure job with metadata that are all mapped. -/
def secure (count : Nat) : Option SecSubmit :=
  some ⟨0, true, true, List.replicate count (some 8192)⟩

/-- A submission without an error. -/
def submission (sec : Option SecSubmit) (fd : Int) : Submit :=
  ⟨0, sec, [⟨true, [oneFd fd, oneFd fd]⟩], 0, true, 0⟩

/-- A secure job and another one, with a buffer of their metas each: the first is waited for, and
the file of the second is closed when it has finished. -/
theorem job_runs_two :
    let is : List Op := [.submit 1 (submission (secure 2) 5), .submit 2 (submission none 6),
      .enlist 0 true, .enlist 1 true, .dispatch 0, .take true 1 (fun _ => false), .finish 0,
      .endWait 0 false waited, .dispatch 1, .finish 1, .freeJobs 2, .releaseTasks 2, .destroy 1]
    ∃ es s, Sys.run step init is = some (es, s) ∧ InOrder s ∧
      (∀ t, (s.tasks t).phase = .running →
        ∃ j ∈ s.records, j.job = t ∧ ∀ b ∈ s.bufs j, b ∈ s.mapped) ∧
      ∀ i o s', StepOk s i → step s i = some (o, s') → Shows s i o s' :=
  job_runs _ (by decide +kernel)

/-- A submission that fails after it has mapped a buffer leaves it mapped without a record; one
whose copy to the user fails leaves its job in the list; a wait that finds a running job pending for
too long and a close release its buffers; and after the close of a limited file a wait uses the
destroyed task of a listed job. Of a secure job that has finished the expiry and the close leave the
secure buffers mapped, as an error exit does, and a wait for one with eleven metadata reads behind
the arrays. -/
theorem job_left_behind :
    (Sys.run step init [.submit 1 ⟨0, none, [⟨true, [oneFd 5, .other einval]⟩], 0, true, 0⟩]).map
        (fun q => (q.1.map (·.2.result), q.2.mapped, q.2.records)) =
      some ([some einval], {0}, []) ∧
    (Sys.run step init [.submit 1 (submission none 5), .enlist 0 false]).map
        (fun q => (q.1.map (·.2.result), q.2.list.map (·.job))) =
      some ([none, some efault], [0]) ∧
    (Sys.run step init [.submit 1 (submission none 5), .enlist 0 true, .dispatch 0,
        .take true 7 (fun _ => true)]).map (fun q => ((q.2.tasks 0).phase, q.2.mapped)) =
      some (.running, ∅) ∧
    (Sys.run step init [.submit 1 (submission none 5), .enlist 0 true, .dispatch 0,
        .freeJobs 1]).map (fun q => ((q.2.tasks 0).phase, q.2.mapped)) = some (.running, ∅) ∧
    (Sys.run step init [.submit 1 (submission none 5), .enlist 0 true, .releaseTasks 1,
        .take true 7 (fun _ => false)]).isNone ∧
    (Sys.run step init [.submit 1 ⟨0, secure 1, [⟨true, [.other einval]⟩], 0, true, 0⟩]).map
        (fun q => (q.1.map (·.2.result), q.2.mapped, q.2.records)) =
      some ([some einval], {0}, []) ∧
    (Sys.run step init [.submit 1 (submission (secure 1) 5), .enlist 0 true, .dispatch 0, .finish 0,
        .take true 7 (fun _ => true)]).map (fun q => (q.2.mapped, q.2.records)) = some ({0}, []) ∧
    (Sys.run step init [.submit 1 (submission (secure 1) 5), .enlist 0 true, .dispatch 0, .finish 0,
        .freeJobs 1]).map (fun q => (q.2.mapped, q.2.records)) = some ({0}, []) ∧
    (Sys.run step init [.submit 1 (submission (secure 11) 5), .enlist 0 true, .dispatch 0,
        .finish 0, .take true 1 (fun _ => false), .endWait 0 false waited]).isNone := by
  and_intros <;> decide +kernel

end Mdp.JobMap
