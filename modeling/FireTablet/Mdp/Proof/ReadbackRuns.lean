import FireTablet.Mdp.Proof.ReadbackJobs
import Mathlib.Data.List.TakeWhile

/-!
# Runs of the readback slots

In a run whose calls meet `StepOk` the tables stay in order, a failing allocation or submission
leaves them as they were, and without unfinished jobs every slot can be freed (`slot_runs`).
-/

namespace Mdp.Readback

variable {s s' : State} {sl : SlotId} {f : FileId} {rb : SlotId → RbSlot}

/-! ## Submissions -/

/-- Every step of a submission after its setup succeeds. -/
def Submit.Accepted (u : Submit) (rb : SlotId → RbSlot) : Prop :=
  (∀ p ∈ u.pages, p.copyIn = true) ∧
    (∀ p ∈ u.pages.getLast?, ∀ m ∈ p.metas, m.valid rb = true) ∧
    0 ≤ u.readV1 ∧ u.flushCmdBuf = true ∧ 0 ≤ u.flush ∧ u.copyOut = true

/-- A submission fails before it has named a slot, or it is accepted, names no more slots than a
task has room for, and none whose count is at its limit. -/
def ExecOk (s : State) (u : Submit) : Prop :=
  u.setup < 0 ∨
    (∀ sl ∈ (u.named s.rbSlot).head?, (s.rbSlot sl).refCnt = maxRefCount) ∨
    (u.Accepted s.rbSlot ∧ (u.named s.rbSlot).toFinset.card ≤ mdpSlotNum ∧
      ∀ sl ∈ u.named s.rbSlot, (s.rbSlot sl).refCnt < maxRefCount ∧
        (2 ≤ (u.named s.rbSlot).count sl → (s.rbSlot sl).refCnt + 1 < maxRefCount))

instance (u : Submit) (rb : SlotId → RbSlot) : Decidable (u.Accepted rb) :=
  inferInstanceAs (Decidable (_ ∧ _))

-- by the slots of the submission, not by all there are
instance (s : State) (u : Submit) : Decidable (ExecOk s u) :=
  have : Decidable (∀ sl ∈ (u.named s.rbSlot).head?, (s.rbSlot sl).refCnt = maxRefCount) :=
    Option.decidableForallMem _
  have : Decidable (∀ sl ∈ u.named s.rbSlot, (s.rbSlot sl).refCnt < maxRefCount ∧
      (2 ≤ (u.named s.rbSlot).count sl → (s.rbSlot sl).refCnt + 1 < maxRefCount)) :=
    List.decidableBAll _ _
  inferInstanceAs (Decidable (_ ∨ _))

/-- A job is accepted: its slots are counted. -/
structure Joins (s : State) (j : Job) (s' : State) : Prop where
  slots : s'.rbSlot = bump s.rbSlot j.slotIds
  alloc : s'.allocSlot = s.allocSlot
  group : s'.allocSlotGroup = s.allocSlotGroup
  mem : s'.writeAddr = s.writeAddr
  jobs : s'.jobs = s.jobs ++ [j]

/-- The end of a submission, after the translation. -/
theorem asyncExec_translated {u : Submit} (hsetup : ¬ u.setup < 0) (t : Trans)
    (ht : translateUserJob u.pages ⟨s.rbSlot, [], [], 0⟩ = t) :
    ((asyncExec s f u).1.result < 0 ∧ (asyncExec s f u).2 = { s with rbSlot := t.rbSlot } ∧
        ¬ (0 ≤ t.status ∧ 0 ≤ u.readV1 ∧ u.flushCmdBuf = true ∧ 0 ≤ u.flush)) ∨
      (0 ≤ t.status ∧ ∃ id, (asyncExec s f u).2.rbSlot = t.rbSlot ∧
        (asyncExec s f u).2.allocSlot = s.allocSlot ∧
        (asyncExec s f u).2.allocSlotGroup = s.allocSlotGroup ∧
        (asyncExec s f u).2.writeAddr = s.writeAddr ∧
        (asyncExec s f u).2.jobs = s.jobs ++ [⟨id, f, t.slotIds, t.reads, false⟩] ∧
        (u.copyOut = true → 0 ≤ (asyncExec s f u).1.result)) := by
  have hneg : efault < 0 := by decide
  unfold asyncExec
  rw [if_neg hsetup, ht]
  by_cases h1 : t.status < 0
  · exact .inl (by simp only [if_pos h1]; exact ⟨h1, trivial, by omega⟩)
  by_cases h2 : u.readV1 < 0
  · exact .inl (by simp only [if_neg h1, if_pos h2]; exact ⟨h2, trivial, by omega⟩)
  cases h3 : u.flushCmdBuf with
  | false => exact .inl (by simp [if_neg h1, if_neg h2, hneg])
  | true =>
    by_cases h4 : u.flush < 0
    · exact .inl (by simp [if_neg h1, if_neg h2, h4])
    · refine .inr ⟨by omega, if s.jobMappingIdx = 0 then 1 else s.jobMappingIdx, ?_⟩
      simp only [if_neg h1, if_neg h2, if_neg h4, Bool.not_true, Bool.false_eq_true, if_false]
      cases h5 : u.copyOut with
      | false => simp
      | true => simpa using h4

/-- A submission that meets its condition fails and changes no table, or its job is accepted; an
error is only returned for a job that reads into no slot. -/
theorem asyncExec_spec {u : Submit} (hok : ExecOk s u) :
    ((asyncExec s f u).1.result < 0 ∧ (asyncExec s f u).2 = s) ∨
      ∃ j, Reads s.rbSlot j ∧ Joins s j (asyncExec s f u).2 ∧
        ((asyncExec s f u).1.result < 0 → j.slotIds = []) := by
  by_cases hsetup : u.setup < 0
  · exact .inl (by simp [asyncExec, hsetup])
  rcases hok with hok | hidle | ⟨hacc, hcard, hbelow⟩
  · exact absurd hok hsetup
  · -- nothing is counted
    obtain ⟨hrb, hcase⟩ := translateUserJob_idle u.pages (t := ⟨s.rbSlot, [], [], 0⟩)
      rfl rfl hidle
    rcases asyncExec_translated (f := f) hsetup _ rfl with
      ⟨hr, hs, -⟩ | ⟨hst, id, h1, h2, h3, h4, h5, -⟩
    · exact .inl ⟨hr, by rw [hs, hrb]⟩
    · obtain ⟨hids, hreads⟩ := hcase.resolve_left (by omega)
      rw [hids, hreads] at h5
      refine .inr ⟨⟨id, f, [], [], false⟩,
        ⟨.nil, fun sl => Iff.rfl, fun r hr => absurd hr List.not_mem_nil, rfl⟩,
        ⟨?_, h2, h3, h4, h5⟩, fun _ => rfl⟩
      rw [h1, hrb]
      exact bump_nil.symm
  · -- all slots are counted, and no step fails
    obtain ⟨hcopy, hlast, hread, hflush, hfl, hout⟩ := hacc
    have hn : u.named s.rbSlot = u.pages.flatMap fun p => named s.rbSlot p.metas := by
      rw [Submit.named, List.takeWhile_eq_self_iff.2 hcopy]
    rw [hn] at hcard hbelow
    obtain ⟨hT, hst⟩ := translateUserJob_fits (t := ⟨s.rbSlot, [], [], 0⟩) hcopy
      ⟨bump_nil.symm, .nil, fun sl => Iff.rfl, fun r hr => absurd hr List.not_mem_nil⟩
      ⟨fun sl hsl => ⟨(hbelow sl hsl).1, fun _ => (hbelow sl hsl).2⟩, hcard⟩
    have hst := hst hlast fun _ => le_refl 0
    rcases asyncExec_translated (f := f) hsetup _ rfl with
      ⟨-, -, hn⟩ | ⟨-, id, h1, h2, h3, h4, h5, h6⟩
    · exact absurd ⟨hst, hread, hflush, hfl⟩ hn
    · exact .inr ⟨_, ⟨hT.nodup, hT.counted, hT.within, rfl⟩,
        ⟨h1.trans hT.slots, h2, h3, h4, h5⟩, fun hr => absurd hr (not_lt.2 (h6 hout))⟩

theorem Slots.joins {j : Job} (h : Slots s) (hj : Reads s.rbSlot j) (hjs : Joins s j s') :
    Slots s' := by
  obtain ⟨hrb, ha, hg, hm, hjobs⟩ := hjs
  have htaken : ∀ sl, s'.Taken sl ↔ s.Taken sl := fun sl => by rw [State.Taken, ha, State.Taken]
  have hreads : ∀ j', Reads s.rbSlot j' → Reads s'.rbSlot j' := fun j' hr =>
    ⟨hr.nodup, hr.counted, by rw [hrb]; exact hr.within, hr.alive⟩
  refine ⟨fun sl ht => ?_, fun sl ht => ?_, ?_, fun sl => ?_, fun j' hj' => ?_,
    fun sl1 sl2 h1 h2 he => ?_, by rw [hm]; exact h.size, by rw [hm]; exact h.apart⟩
  · obtain ⟨f, hf, hw⟩ := h.taken sl ((htaken sl).1 ht)
    rw [hrb, hm]
    exact ⟨f, hf, hw⟩
  · -- the job reads into slots that have memory only
    rw [htaken] at ht
    have hn : sl ∉ j.slotIds := fun hmem => by
      obtain ⟨r, hr, rfl⟩ := List.mem_map.1 ((hj.counted sl).1 hmem)
      have := (hj.within r hr).2
      rw [h.free _ ht] at this
      exact absurd this (Nat.not_lt_zero _)
    rw [hrb, bump, if_neg hn]
    exact h.free sl ht
  · rw [ha, hg]
    exact h.group
  · rw [hrb, hjobs, List.countP_append, ← h.used sl]
    simp only [bump, List.countP_singleton, ← hj.counted, decide_eq_true_eq]
  · rw [hjobs] at hj'
    rcases List.mem_append.1 hj' with hm' | hm'
    · exact hreads j' (h.reads j' hm')
    · rw [List.mem_singleton.1 hm']
      exact hreads j hj
  · rw [hrb] at he
    exact h.own sl1 sl2 ((htaken sl1).1 h1) ((htaken sl2).1 h2) he

/-! ## Waits -/

/-- Dropping jobs that no slot is counted for. -/
theorem Slots.dropJobs {js : List Job} (h : Slots s) (hsub : ∀ j ∈ js, j ∈ s.jobs)
    (hcount : ∀ sl, js.countP (sl ∈ ·.slots) = s.jobs.countP (sl ∈ ·.slots)) :
    Slots { s with jobs := js } :=
  { h with
    used := fun sl => (h.used sl).trans (hcount sl).symm
    reads := fun j hj => h.reads j (hsub j hj) }

theorem Reads.slots_nil {j : Job} (h : Reads rb j) (hn : j.slotIds = []) : j.slots = [] := by
  rw [List.eq_nil_iff_forall_not_mem]
  intro sl hm
  rw [← h.counted, hn] at hm
  exact absurd hm List.not_mem_nil

/-- What the walk through the jobs finds and leaves, when it drops only jobs without slots. -/
theorem findJob_spec {late : Job → Bool} {id : UInt64} : ∀ (js : List Job),
    (∀ j ∈ js, Reads rb j) →
    (∀ j ∈ js.takeWhile (·.id ≠ id), late j = true → j.slotIds = []) →
    ∃ job rest, findJob late id js = some (job, rest) ∧ job = js.find? (·.id = id) ∧
      (∀ j ∈ rest, j ∈ js) ∧ (∀ j, job = some j → j ∈ js) ∧
      ∀ sl, js.countP (sl ∈ ·.slots) = rest.countP (sl ∈ ·.slots) +
        (job.toList.countP (sl ∈ ·.slots))
  | [], _, _ => ⟨none, [], rfl, rfl, fun _ h => h, fun _ h => (by cases h), fun _ => rfl⟩
  | j :: js, hr, hl => by
    by_cases hid : j.id = id
    · refine ⟨some j, js, if_pos hid, by simp [hid], fun _ hm => List.mem_cons_of_mem _ hm,
        fun j' he => by cases he; exact List.mem_cons_self, fun sl => ?_⟩
      rw [Option.toList_some, Nat.add_comm, ← List.countP_append]
      rfl
    · rw [List.takeWhile_cons_of_pos (by simpa using hid)] at hl
      obtain ⟨job, rest, h1, h2, h3, h4, h5⟩ := findJob_spec js
        (fun j' hm => hr j' (List.mem_cons_of_mem _ hm))
        fun j' hm => hl j' (List.mem_cons_of_mem _ hm)
      have hdead : ¬ j.dead = true := by simp [(hr j List.mem_cons_self).alive]
      refine ⟨job, if late j then rest else j :: rest, ?_, ?_, fun j' hm => ?_,
        fun j' he => List.mem_cons_of_mem _ (h4 j' he), fun sl => ?_⟩
      · rw [findJob, if_neg hid, if_neg hdead, h1]
        rfl
      · rw [List.find?_cons_of_neg (by simpa using hid)]
        exact h2
      · split_ifs at hm
        · exact List.mem_cons_of_mem _ (h3 j' hm)
        · rcases List.mem_cons.1 hm with rfl | hm
          · exact List.mem_cons_self
          · exact List.mem_cons_of_mem _ (h3 j' hm)
      · cases hlate : late j with
        | false => rw [if_neg (by simp), List.countP_cons, List.countP_cons, h5 sl]; omega
        | true =>
          have hn := (hr j List.mem_cons_self).slots_nil (hl j List.mem_cons_self hlate)
          rw [if_pos rfl, List.countP_cons, h5 sl]
          simp [hn]

theorem giveBack_apply {sls : List SlotId} (hn : sls.Nodup) (rb : SlotId → RbSlot)
    (sl : SlotId) : giveBack rb sls sl =
      { rb sl with refCnt := (rb sl).refCnt - if sl ∈ sls then 1 else 0 } := by
  induction sls generalizing rb with
  | nil => simp [giveBack]
  | cons x sls ih =>
    obtain ⟨hx, hn⟩ := List.nodup_cons.1 hn
    have := ih hn (Function.update rb x { rb x with refCnt := (rb x).refCnt - 1 })
    rw [giveBack, List.foldl_cons, ← giveBack, this]
    by_cases he : sl = x
    · subst he
      simp [hx]
    · simp [he]

/-- A job that ends gives its counts back. -/
theorem Slots.giveBack {j : Job} {rest : List Job} (h : Slots s) (hj : j ∈ s.jobs)
    (hsub : ∀ j ∈ rest, j ∈ s.jobs)
    (hcount : ∀ sl, s.jobs.countP (sl ∈ ·.slots) =
      rest.countP (sl ∈ ·.slots) + [j].countP (sl ∈ ·.slots)) :
    Slots { s with jobs := rest, rbSlot := giveBack s.rbSlot j.slotIds } := by
  have hr := h.reads j hj
  have hrb : ∀ sl, Readback.giveBack s.rbSlot j.slotIds sl =
      { s.rbSlot sl with refCnt := rest.countP (sl ∈ ·.slots) } := fun sl => by
    rw [giveBack_apply hr.nodup, h.used sl, hcount sl]
    simp only [hr.counted, List.countP_singleton, decide_eq_true_eq, Nat.add_sub_cancel]
  refine ⟨fun sl ht => ?_, fun sl ht => ?_, h.group, fun sl => ?_, fun j' hj' => ?_,
    fun sl1 sl2 h1 h2 he => ?_, h.size, h.apart⟩
  · obtain ⟨f, hf, hw⟩ := h.taken sl ht
    simp only [hrb]
    exact ⟨f, hf, hw⟩
  · have hfree := h.free sl ht
    have hused := h.used sl
    rw [hfree, hcount sl] at hused
    have h0 : rest.countP (sl ∈ ·.slots) = 0 := by
      simp only [RbSlot.unused] at hused
      omega
    simp only [hrb, hfree, h0]
    rfl
  · simp only [hrb]
  · obtain ⟨h1, h2, h3, h4⟩ := h.reads j' (hsub j' hj')
    refine ⟨h1, h2, fun r hr' => ?_, h4⟩
    simp only [hrb]
    exact h3 r hr'
  · simp only [hrb] at he
    exact h.own sl1 sl2 h1 h2 he

/-- A wait drops only tasks that read into no slot, and a task that does is waited for without an
error. -/
def WaitOk (s : State) (r : WaitReq) : Prop :=
  r.copyIn = true →
    (∀ j ∈ s.jobs.takeWhile (·.id ≠ r.jobId), r.late j = true → j.slotIds = []) ∧
    ∀ j ∈ s.jobs.find? (·.id = r.jobId),
      j.slotIds = [] ∨ (0 ≤ r.wait ∧ r.countOk = true ∧ r.copyOut = true)

instance (s : State) (r : WaitReq) : Decidable (WaitOk s r) :=
  inferInstanceAs (Decidable (_ → _))

theorem asyncWait_spec (h : Slots s) {r : WaitReq} (hok : WaitOk s r) :
    ∃ o s', asyncWait s r = some (o, s') ∧ Slots s' := by
  unfold asyncWait
  cases hc : r.copyIn with
  | false => exact ⟨_, s, rfl, h⟩
  | true =>
    obtain ⟨hlate, hfound⟩ := hok hc
    obtain ⟨job, rest, h1, h2, h3, h4, h5⟩ := findJob_spec _ h.reads hlate
    simp only [h1, Bool.not_true, Bool.false_eq_true, if_false, Option.bind_eq_bind,
      Option.bind_some]
    cases job with
    | none => exact ⟨_, _, rfl, h.dropJobs h3 fun sl => (h5 sl).symm⟩
    | some j =>
      have hj := h4 j rfl
      have hdead : ¬ j.dead = true := by simp [(h.reads j hj).alive]
      simp only [if_neg hdead]
      -- without slots it does not matter whether the counts are given back
      by_cases hgood : 0 ≤ r.wait ∧ r.countOk = true ∧ r.copyOut = true
      · obtain ⟨hw, hco, hou⟩ := hgood
        simp only [if_neg (not_lt.2 hw), hco, hou, Bool.not_true, Bool.false_eq_true, if_false]
        exact ⟨_, _, rfl, h.giveBack hj h3 h5⟩
      · have hnil := (h.reads j hj).slots_nil ((hfound j h2.symm).resolve_right hgood)
        have hdrop : Slots { s with jobs := rest } :=
          h.dropJobs h3 fun sl => by rw [h5 sl]; simp [hnil]
        split_ifs with g1 g2 g3
        · exact ⟨_, _, rfl, hdrop⟩
        · exact ⟨_, _, rfl, hdrop⟩
        · exact ⟨_, _, rfl, hdrop⟩
        · exact absurd ⟨not_lt.1 g1, by simpa using g2, by simpa using g3⟩ hgood

/-! ## Closing -/

/-- Freeing what is left of the memory of a file without slots. -/
theorem Slots.freeWriteAddrByNode (h : Slots s) (hf : ∀ sl, (s.rbSlot sl).fp ≠ some f) :
    Slots (freeWriteAddrByNode s f) :=
  { h with
    taken := fun sl ht => by
      obtain ⟨f', hf', hm⟩ := h.taken sl ht
      refine ⟨f', hf', List.mem_filter.2 ⟨hm, ?_⟩⟩
      have : f' ≠ f := fun he => hf sl (he ▸ hf')
      exact decide_eq_true this
    size := fun w hm => h.size w (List.mem_filter.1 hm).1
    apart := h.apart.filter _ }

theorem freeSlotOf_spec (h : Slots s) (h0 : ∀ sl, (s.rbSlot sl).fp = some f →
    (s.rbSlot sl).refCnt = 0) (sl : SlotId) :
    Slots (freeSlotOf f s sl) ∧ ((freeSlotOf f s sl).rbSlot sl).fp ≠ some f ∧
      ∀ sl', sl' ≠ sl → (freeSlotOf f s sl).rbSlot sl' = s.rbSlot sl' := by
  unfold freeSlotOf
  by_cases hfp : (s.rbSlot sl).fp = some f
  · have ht : s.Taken sl := by
      by_contra hn
      rw [h.free sl hn] at hfp
      cases hfp
    have hr := h0 sl hfp
    rw [if_neg (by simp [hfp, hr]), h.freeWriteAddr_clearSlot ht]
    refine ⟨h.release ht hr, ?_, fun sl' hne => rbSlot_release_ne hne⟩
    rw [rbSlot_release_self hr]
    exact nofun
  · rw [if_pos (.inl hfp)]
    exact ⟨h, hfp, fun _ _ => rfl⟩

/-- One slot of a file after another. -/
theorem foldl_freeSlotOf : ∀ (sls : List SlotId) {s : State}, Slots s →
    (∀ sl, (s.rbSlot sl).fp = some f → (s.rbSlot sl).refCnt = 0) →
    Slots (sls.foldl (freeSlotOf f) s) ∧
      ∀ sl, (sl ∈ sls ∨ (s.rbSlot sl).fp ≠ some f) →
        ((sls.foldl (freeSlotOf f) s).rbSlot sl).fp ≠ some f
  | [], _, h, _ => ⟨h, fun _ hsl => hsl.resolve_left List.not_mem_nil⟩
  | x :: sls, s, h, h0 => by
    obtain ⟨h1, h2, h3⟩ := freeSlotOf_spec h h0 x
    have hfp : ∀ sl, ((freeSlotOf f s x).rbSlot sl).fp = some f → sl ≠ x := fun sl he hx =>
      h2 (hx ▸ he)
    obtain ⟨h4, h5⟩ := foldl_freeSlotOf sls h1 fun sl he => by
      have := h3 sl (hfp sl he)
      rw [this] at he ⊢
      exact h0 sl he
    refine ⟨h4, fun sl hsl => h5 sl ?_⟩
    by_cases hx : sl = x
    · exact .inr (hx ▸ h2)
    · rw [h3 sl hx]
      exact hsl.imp_left fun hm => (List.mem_cons.1 hm).resolve_left hx

/-- The jobs of the file read into no slot and no job reads into its slots. -/
def CloseOk (s : State) (f : FileId) : Prop :=
  (∀ j ∈ s.jobs, j.node = f → j.slotIds = []) ∧
    ∀ sl, (s.rbSlot sl).fp = some f → (s.rbSlot sl).refCnt = 0

instance (s : State) (f : FileId) : Decidable (CloseOk s f) :=
  decidable_of_iff ((∀ j ∈ s.jobs, j.node = f → j.slotIds = []) ∧
    ∀ g b, (s.rbSlot (g, b)).fp = some f → (s.rbSlot (g, b)).refCnt = 0)
    (and_congr_right fun _ => ⟨fun h sl => h sl.1 sl.2, fun h g b => h (g, b)⟩)

theorem cmdqRelease_spec (h : Slots s) (hok : CloseOk s f) : Slots (cmdqRelease s f) := by
  have hdrop : Slots { s with jobs := s.jobs.filter (·.node ≠ f) } := by
    refine h.dropJobs (fun j hj => (List.mem_filter.1 hj).1) fun sl => ?_
    rw [List.countP_filter]
    refine List.countP_congr fun j hj => ?_
    have hnil : j.node = f → j.slots = [] := fun he =>
      (h.reads j hj).slots_nil (hok.1 j hj he)
    by_cases he : j.node = f
    · simp [hnil he]
    · simp [he]
  obtain ⟨h1, h2⟩ := foldl_freeSlotOf allSlots hdrop hok.2
  exact h1.freeWriteAddrByNode fun sl => h2 sl (.inl (mem_allSlots sl))

/-- The file has neither unfinished jobs nor slots. -/
def CloseLimitOk (s : State) (f : FileId) : Prop :=
  (∀ j ∈ s.jobs, j.node ≠ f) ∧ ∀ sl, (s.rbSlot sl).fp ≠ some f

instance (s : State) (f : FileId) : Decidable (CloseLimitOk s f) :=
  decidable_of_iff ((∀ j ∈ s.jobs, j.node ≠ f) ∧ ∀ g b, (s.rbSlot (g, b)).fp ≠ some f)
    (and_congr_right fun _ => ⟨fun h sl => h sl.1 sl.2, fun h g b => h (g, b)⟩)

theorem mdpLimitRelease_spec (h : Slots s) (hok : CloseLimitOk s f) :
    Slots (mdpLimitRelease s f) := by
  have hjobs : (s.jobs.map fun j => if j.node = f then { j with dead := true } else j) =
      s.jobs := by
    conv_rhs => rw [← List.map_id s.jobs]
    exact List.map_congr_left fun j hj => if_neg (hok.1 j hj)
  rw [mdpLimitRelease, hjobs]
  exact h.freeWriteAddrByNode hok.2

/-! ## Runs -/

/-- A call does what it should: an allocation that has a slot reports it, and the conditions of the
other calls. -/
def StepOk (s : State) : Op → Prop
  | .alloc f c => c.Succeeds s f → c.copyOut = true
  | .exec _ u => ExecOk s u
  | .wait r => WaitOk s r
  | .closeLimit f => CloseLimitOk s f
  | .close f => CloseOk s f
  | _ => True

instance decidableStepOk (s : State) : (i : Op) → Decidable (StepOk s i)
  | .alloc f c => inferInstanceAs (Decidable (c.Succeeds s f → c.copyOut = true))
  | .free .. => inferInstanceAs (Decidable True)
  | .read .. => inferInstanceAs (Decidable True)
  | .exec _ u => inferInstanceAs (Decidable (ExecOk s u))
  | .wait r => inferInstanceAs (Decidable (WaitOk s r))
  | .closeLimit f => inferInstanceAs (Decidable (CloseLimitOk s f))
  | .close f => inferInstanceAs (Decidable (CloseOk s f))

/-- The slot tables and the memory are the same. -/
structure SameTables (s s' : State) : Prop where
  rbSlot : s'.rbSlot = s.rbSlot
  allocSlot : s'.allocSlot = s.allocSlot
  allocSlotGroup : s'.allocSlotGroup = s.allocSlotGroup
  writeAddr : s'.writeAddr = s.writeAddr

def Op.requests : Op → Bool
  | .alloc .. => true
  | .exec .. => true
  | _ => false

theorem step_spec (h : Slots s) {i : Op} (hok : StepOk s i) : ∃ o s', step s i = some (o, s') ∧
    Slots s' ∧ (i.requests = true → o.result < 0 → SameTables s s') := by
  cases i with
  | alloc f c =>
    refine ⟨(allocReadbackSlots s f c).1, (allocReadbackSlots s f c).2, rfl, ?_⟩
    rcases allocReadbackSlots_spec (f := f) h c with ⟨-, -, hs⟩ | ⟨hc, sl, ht, hs⟩
    · rw [hs]
      exact ⟨h, fun _ _ => ⟨rfl, rfl, rfl, rfl⟩⟩
    · obtain ⟨hm0, hma⟩ : c.mem ≠ 0 ∧ ∀ w ∈ s.writeAddr, w.Apart ⟨c.mem, c.count.toNat, f⟩ := by
        simpa [AllocReq.hasMem] using hc.2.2.2.1
      rw [hs, if_pos (hok hc)]
      exact ⟨h.give ht hm0 (Nat.pos_of_ne_zero hc.2.1) hma,
        fun _ hr => absurd hr (lt_irrefl _)⟩
  | free f copyIn start =>
    refine ⟨_, (freeReadbackSlots s f copyIn start).2, rfl, ?_,
      fun hreq => absurd hreq Bool.false_ne_true⟩
    rcases freeReadbackSlots_spec (f := f) h copyIn start with hs | ⟨sl, ht, h0, hs⟩
    · rw [hs]
      exact h
    · rw [hs]
      exact h.release ht h0
  | read copyIn r => exact ⟨_, s, rfl, h, fun hreq => absurd hreq Bool.false_ne_true⟩
  | exec f u =>
    refine ⟨(asyncExec s f u).1, (asyncExec s f u).2, rfl, ?_⟩
    rcases asyncExec_spec (f := f) hok with ⟨-, hs⟩ | ⟨j, hj, hjs, hr⟩
    · rw [hs]
      exact ⟨h, fun _ _ => ⟨rfl, rfl, rfl, rfl⟩⟩
    · refine ⟨h.joins hj hjs, fun _ hneg => ⟨?_, hjs.alloc, hjs.group, hjs.mem⟩⟩
      rw [hjs.slots, hr hneg, bump_nil]
  | wait r =>
    obtain ⟨o, s', hs, h'⟩ := asyncWait_spec h hok
    exact ⟨o, s', hs, h', fun hreq => absurd hreq Bool.false_ne_true⟩
  | closeLimit f =>
    exact ⟨_, _, rfl, mdpLimitRelease_spec h hok, fun hreq => absurd hreq Bool.false_ne_true⟩
  | close f =>
    exact ⟨_, _, rfl, cmdqRelease_spec h hok, fun hreq => absurd hreq Bool.false_ne_true⟩

/-- The tables as a user of them sees them: a set bit is a slot with memory of its file, a set group
bit a full group, a use count the number of jobs that read into the slot, no two taken slots record
the same memory, and the jobs read into memory that is in use, of which no two pieces meet. -/
structure InOrder (s : State) : Prop where
  bit : ∀ sl, s.Taken sl ↔
    ∃ f, (s.rbSlot sl).fp = some f ∧ (s.rbSlot sl).mem f ∈ s.writeAddr
  groupBit : ∀ g, g ∈ s.allocSlotGroup ↔ ∀ b, s.Taken (g, b)
  used : ∀ sl, (s.rbSlot sl).refCnt = s.jobs.countP (sl ∈ ·.slots)
  own : ∀ sl sl', s.Taken sl → s.Taken sl' → (s.rbSlot sl).paStart = (s.rbSlot sl').paStart →
    sl = sl'
  memory : ∀ j ∈ s.jobs, ∀ r ∈ j.reads,
    ∃ w ∈ s.writeAddr, (s.rbSlot r.slot).paStart = w.pa ∧ r.pa = w.pa ∧ r.offset < w.count
  apart : s.writeAddr.Pairwise WriteAddr.Apart

theorem Slots.inOrder (h : Slots s) : InOrder s where
  bit sl := by
    refine ⟨h.taken sl, fun ⟨f, hf, _⟩ => ?_⟩
    by_contra hn
    rw [h.free sl hn] at hf
    cases hf
  groupBit g := (h.group g).trans Finset.eq_univ_iff_forall
  used := h.used
  own := h.own
  memory j hj r hr := by
    obtain ⟨hpa, hoff⟩ := (h.reads j hj).within r hr
    obtain ⟨f, -, hm⟩ := h.taken r.slot (h.slots_taken hj (List.mem_map_of_mem hr))
    exact ⟨_, hm, rfl, hpa, hoff⟩
  apart := h.apart

/-- The calls that free slots, each by the file that it belongs to. -/
def State.freeAll (s : State) (sls : List SlotId) : List Op :=
  sls.filterMap fun sl => (s.rbSlot sl).fp.map fun f => .free f true (startId sl)

/-- No slot is taken. -/
structure Empty (s : State) : Prop where
  rbSlot : s.rbSlot = fun _ => .unused
  allocSlot : s.allocSlot = fun _ => ∅
  allocSlotGroup : s.allocSlotGroup = ∅

theorem Slots.empty (h : Slots s) (hn : ∀ sl, ¬ s.Taken sl) : Empty s := by
  have ha : s.allocSlot = fun _ => ∅ := by
    funext g
    exact Finset.eq_empty_of_forall_notMem fun b => hn (g, b)
  refine ⟨funext fun sl => h.free sl (hn sl), ha, ?_⟩
  refine Finset.eq_empty_of_forall_notMem fun g hg => ?_
  have hu := (h.group g).1 hg
  rw [ha] at hu
  exact absurd (Finset.mem_univ (0 : Fin 64)) (hu ▸ Finset.notMem_empty _)

/-- Without jobs, all slots can be freed. -/
theorem Slots.freeAll : ∀ {sls : List SlotId} {s : State}, Slots s → s.jobs = [] → sls.Nodup →
    (∀ sl, sl ∈ sls ↔ s.Taken sl) →
    ∃ es s', Sys.run step s (s.freeAll sls) = some (es, s') ∧ (∀ e ∈ es, e.2.result = 0) ∧
      Empty s'
  | [], s, h, _, _, hall => ⟨[], s, rfl, fun _ he => absurd he List.not_mem_nil,
      h.empty fun sl ht => absurd ((hall sl).2 ht) List.not_mem_nil⟩
  | sl :: sls, s, h, hj, hn, hall => by
    obtain ⟨hx, hn⟩ := List.nodup_cons.1 hn
    have ht := (hall sl).1 List.mem_cons_self
    obtain ⟨f, hf, -⟩ := h.taken sl ht
    have h0 : (s.rbSlot sl).refCnt = 0 := by rw [h.used sl, hj]; rfl
    have hstep : step s (.free f true (startId sl)) = some (⟨0, 0⟩, s.release sl) := by
      simp only [step, freeReadbackSlots_taken h (slotOf_startId sl) ht hf h0]
    have hleft : ∀ sl', sl' ∈ sls → sl' ≠ sl := fun sl' hm he => hx (he ▸ hm)
    have hj' : (s.release sl).jobs = [] := hj
    obtain ⟨es, s', hrun, hes, he⟩ := Slots.freeAll (h.release ht h0) hj' hn fun sl' => by
      rw [taken_release, ← hall sl', List.mem_cons]
      exact ⟨fun hm => ⟨hleft sl' hm, .inr hm⟩, fun hm => hm.2.resolve_left hm.1⟩
    -- the slots that are left have not changed
    have hrest : (s.release sl).freeAll sls = s.freeAll sls := by
      refine List.filterMap_congr fun sl' hm => ?_
      rw [rbSlot_release_ne (hleft sl' hm)]
    refine ⟨(.free f true (startId sl), ⟨0, 0⟩) :: es, s', ?_, fun e hm => ?_, he⟩
    · have hcons : s.freeAll (sl :: sls) = .free f true (startId sl) :: s.freeAll sls := by
        rw [State.freeAll, List.filterMap_cons, hf]
        rfl
      rw [hcons, Sys.run_cons_some _ hstep, ← hrest, hrun]
      rfl
    · rcases List.mem_cons.1 hm with rfl | hm
      · rfl
      · exact hes e hm

/-- **Runs of the readback slots**: no call uses a destroyed task, the tables are in order after
every call, a next allocation or submission that fails leaves them as they were, and once all jobs
have finished freeing all slots empties the tables. -/
theorem slot_runs (is : List Op) (h : Sys.Along step StepOk init is) :
    ∃ es s, Sys.run step init is = some (es, s) ∧ InOrder s ∧
      (∀ i o s', StepOk s i → step s i = some (o, s') → i.requests = true → o.result < 0 →
        SameTables s s') ∧
      (s.jobs = [] → ∀ sls : List SlotId, sls.Nodup → (∀ sl, sl ∈ sls ↔ s.Taken sl) →
        ∃ es' s', Sys.run step s (s.freeAll sls) = some (es', s') ∧
          (∀ e ∈ es', e.2.result = 0) ∧ Empty s') := by
  obtain ⟨es, s, hrun, hs⟩ := Sys.run_hist_along (I := fun _ s => Slots s) (P := StepOk)
    (fun es s i hs hok => by
      obtain ⟨o, s', hstep, hs', -⟩ := step_spec hs hok
      exact ⟨o, s', hstep, hs'⟩) is [] init slots_init h
  refine ⟨es, s, hrun, hs.inOrder, fun i o s' hok hstep hi hr => ?_,
    fun hj sls hn hall => hs.freeAll hj hn hall⟩
  obtain ⟨o', s'', hstep', -, hsame⟩ := step_spec hs hok
  rw [hstep] at hstep'
  cases hstep'
  exact hsame hi hr

/-- A page of one meta. -/
def onePage (m : Meta) : Page := ⟨true, [m], by simp⟩

def noRead : ReadReq := ⟨0, true, true, true, [], true⟩

/-- A slot is allocated, read into by a job of another file and freed after the wait, and a second
one is freed when its file is closed. -/
theorem slot_runs_two :
    let is : List Op := [.alloc 1 ⟨true, 16, 4096, true⟩, .alloc 2 ⟨true, 8, 8192, true⟩,
      .exec 2 ⟨0, [onePage (.read 3 true 0)], 0, true, 0, true⟩, .free 1 true 0,
      .wait ⟨true, 1, fun _ => false, 0, true, true, noRead⟩, .free 1 true 0, .close 2]
    ∃ es s, Sys.run step init is = some (es, s) ∧ InOrder s ∧
      (∀ i o s', StepOk s i → step s i = some (o, s') → i.requests = true → o.result < 0 →
        SameTables s s') ∧
      (s.jobs = [] → ∀ sls : List SlotId, sls.Nodup → (∀ sl, sl ∈ sls ↔ s.Taken sl) →
        ∃ es' s', Sys.run step s (s.freeAll sls) = some (es', s') ∧
          (∀ e ∈ es', e.2.result = 0) ∧ Empty s') :=
  slot_runs _ (by decide +kernel)

/-- A failed copy to the user leaves a slot taken; a submission that fails after a read of a slot
and a wait that fails leave it counted without a job, and it cannot be freed; the close of a limited
file leaves its slot taken without memory. -/
theorem slot_left_behind :
    (Sys.run step init [.alloc 1 ⟨true, 16, 4096, false⟩]).map
        (fun q => (q.1.map (·.2.result), decide (q.2.Taken (0, 0)))) = some ([efault], true) ∧
    (Sys.run step init [.alloc 1 ⟨true, 16, 4096, true⟩,
        .exec 1 ⟨0, [⟨true, [.read 0 true 0, .other einval], by simp⟩], 0, true, 0, true⟩,
        .free 1 true 0]).map
        (fun q => (q.1.map (·.2.result), (q.2.rbSlot (0, 0)).refCnt, q.2.jobs)) =
      some ([0, einval, einval], 1, []) ∧
    (Sys.run step init [.alloc 1 ⟨true, 16, 4096, true⟩,
        .exec 1 ⟨0, [onePage (.read 0 true 0)], 0, true, 0, true⟩,
        .wait ⟨true, 1, fun _ => false, -62, true, true, noRead⟩, .free 1 true 0]).map
        (fun q => (q.1.map (·.2.result), (q.2.rbSlot (0, 0)).refCnt, q.2.jobs)) =
      some ([0, 0, -62, einval], 1, []) ∧
    (Sys.run step init [.alloc 1 ⟨true, 16, 4096, true⟩, .closeLimit 1]).map
        (fun q => (decide (q.2.Taken (0, 0)), q.2.writeAddr)) = some (true, []) := by
  decide +kernel

end Mdp.Readback
