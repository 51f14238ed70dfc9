import FireTablet.Mdp.Proof.FenceCreate

/-!
# Runs of a fence timeline

In a run whose steps meet `StepOk` every operation returns and keeps the timeline in order, a fence
is signalled when the counter has passed its value since its creation, and a creation that fails
leaves the timeline as it was (`timeline_runs`).
-/

namespace Mdp.Fence

open SearchTree

variable (rb : Rebalancing FenceId) {s s' : Timeline} {f : FenceId}

/-- Nothing is left of a failed creation. The tree has the same fences in the same order; what a
rebalancing did to its shape may stay. -/
structure Unchanged (s s' : Timeline) : Prop where
  list : s'.ptList = s.ptList
  tree : s'.ptTree.inorder = s.ptTree.inorder
  live : s'.live = s.live
  fd : s'.fdCounter = s.fdCounter
  kref : s'.kref = s.kref
  pt : ∀ f ∈ s.live, s'.pt f = s.pt f

/-- What an operation does to the fences: those that stay live keep their values, and those that
the counter passes are signalled. -/
structure Effect (s : Timeline) (i : Op) (o : Out) (s' : Timeline) : Prop where
  core : Core s'
  next : s.next ≤ s'.next
  live : ∀ f ∈ s'.live, f ∈ s.live ∨ f = s.next
  created : ∀ f, o.created = some f → f = s.next ∧ f < s'.next ∧ ∃ c, i = .create c ∧
    (s'.pt f).seqno = c.value.toNat ∧
    ((s'.pt f).signaled = true ↔ ∃ n ∈ o.counters, ahead n c.value.toNat ≤ 0)
  kept : ∀ f ∈ s.live, (s'.pt f).seqno = (s.pt f).seqno ∧
    ((s'.pt f).signaled = true ↔
      (s.pt f).signaled = true ∨ ∃ n ∈ o.counters, ahead n (s.pt f).seqno ≤ 0)

/-- A live fence that the counter has passed is signalled. -/
theorem Core.passed (hc : Core s) (hf : f ∈ s.live) (h : ahead s.value (s.pt f).seqno ≤ 0) :
    (s.pt f).signaled = true := by
  by_contra hw
  have := hc.due f ((hc.waiting f).2 ⟨hf, Bool.eq_false_iff.2 hw⟩)
  omega

/-- An operation that neither creates a fence nor moves the counter. -/
theorem effect_quiet {i : Op} {r : Int} (hc : Core s') (hn : s.next ≤ s'.next)
    (hl : ∀ f ∈ s'.live, f ∈ s.live)
    (hpt : ∀ f ∈ s.live, (s'.pt f).seqno = (s.pt f).seqno ∧
      (s'.pt f).signaled = (s.pt f).signaled) : Effect s i ⟨r, none, []⟩ s' :=
  ⟨hc, hn, fun f hf => .inl (hl f hf), fun _ h => (by cases h),
    fun f hf => ⟨(hpt f hf).1, by simp [(hpt f hf).2]⟩⟩

/-! ## Creation -/

/-- The file's reference is taken and the first one is dropped. -/
theorem dmaFencePut_file (s : Timeline) (f : FenceId) (h : (s.pt f).refs ≠ 0) (held : Bool) :
    dmaFencePut rb held (s.setPt f { s.pt f with refs := (s.pt f).refs + 1 }) f = some s := by
  simp only [dmaFencePut, setPt_self, setPt_setPt, Nat.add_sub_cancel, if_neg h]
  exact congrArg some (congrArg (fun p => { s with pt := p }) (Function.update_eq_self f s.pt))

theorem dmaFencePut_last (hc : Core s) (hf : f ∈ s.live) (h : (s.pt f).refs = 1) :
    ∃ s', dmaFencePut rb false s f = some s' ∧
      Removed f (s.setPt f { s.pt f with refs := 0 }) s' := by
  obtain ⟨s', h', hr⟩ := timelineFenceRelease_spec rb (hc.setRefs f 0) (f := f) hf
  refine ⟨s', ?_, hr⟩
  simp only [dmaFencePut, setPt_self, h, Nat.sub_self, if_true]
  exact h'

/-- A new fence whose last reference is dropped leaves nothing behind. -/
theorem Added.undone {v : Int} {s1 : Timeline} (ha : Added v s s1) (hc : Core s)
    (hr : Removed s.next (s1.setPt s.next { s1.pt s.next with refs := 0 }) s') :
    Unchanged s s' where
  list := hr.list.trans ha.list
  tree := by rw [hr.core.tree, hc.tree, hr.list, ← ha.list]; rfl
  live := by
    rw [hr.live]
    exact (congrArg (·.erase s.next) ha.live).trans (Finset.erase_insert hc.fresh_live)
  fd := by rw [hr.fd]; exact (congrArg (· - 1) ha.fd).trans (Nat.add_sub_cancel ..)
  kref := by rw [hr.kref]; exact (congrArg (· - 1) ha.kref).trans (Nat.add_sub_cancel ..)
  pt f hf := by
    have hne : f ≠ s.next := fun he => hc.fresh_live (he ▸ hf)
    rw [hr.pt, setPt_of_ne hne, ha.rest f hne]

/-- A new fence, and the timeline when its last reference is dropped. -/
theorem create_put (hc : Core s) {v : Int} (hn : NewValue s v) :
    ∃ s1 s2, syncPtCreate rb s v = some (s.next, s1) ∧ Added v s s1 ∧
      dmaFencePut rb false s1 s.next = some s2 ∧ Core s2 ∧ s.next ≤ s2.next ∧
      Unchanged s s2 := by
  obtain ⟨s1, hcreate, ha⟩ := syncPtCreate_spec rb hc hn
  have hlive : s.next ∈ s1.live := by
    rw [ha.live]
    exact Finset.mem_insert_self ..
  obtain ⟨s2, hput, hr⟩ := dmaFencePut_last rb ha.core hlive ha.refs
  refine ⟨s1, s2, hcreate, ha, hput, hr.core, ?_, ha.undone hc hr⟩
  rw [hr.next]
  exact Nat.le_of_lt (ha.next ▸ Nat.lt_succ_self _)

theorem Unchanged.effect {i : Op} {r : Int} (h : Unchanged s s') (hc : Core s')
    (hn : s.next ≤ s'.next) : Effect s i ⟨r, none, []⟩ s' :=
  effect_quiet hc hn (fun _ hf => h.live ▸ hf) fun f hf => by
    rw [h.pt f hf]
    exact ⟨rfl, rfl⟩

/-- A creation that succeeds. -/
theorem Added.effect {s1 : Timeline} {c : Create} (hc : Core s)
    (ha : Added (c.value.toNat : Int) s s1) :
    Effect s (.create c) ⟨0, some s.next, [s1.value]⟩ s1 := by
  refine ⟨ha.core, ?_, fun f hf => ?_, fun f hf => ?_, fun f hf => ?_⟩
  · exact Nat.le_of_lt (ha.next ▸ Nat.lt_succ_self _)
  · rw [ha.live, Finset.mem_insert] at hf
    exact hf.symm
  · cases hf
    refine ⟨rfl, ha.next ▸ Nat.lt_succ_self _, c, rfl, ha.seqno, ?_⟩
    simp [ha.signaled, ha.value]
  · have hne : f ≠ s.next := fun he => hc.fresh_live (he ▸ hf)
    rw [ha.rest f hne, ha.value]
    refine ⟨rfl, .inl, fun h => h.elim id fun ⟨n, hm, h⟩ => ?_⟩
    rw [List.mem_singleton.1 hm] at h
    exact hc.passed hf h

/-- **`mdp_sync_ioctl_create_fence`** adds a fence, or fails and leaves nothing behind. -/
theorem mdpSyncIoctlCreateFence_spec (hc : Core s) (c : Create)
    (hn : s.fdCounter ≤ fdMax → c.fdOk → c.copyIn → c.alloc → NewValue s c.value.toNat) :
    ∃ o s', mdpSyncIoctlCreateFence rb s c = some (o, s') ∧ Effect s (.create c) o s' ∧
      (o.result ≠ 0 → Unchanged s s') := by
  have hrefl : Unchanged s s := ⟨rfl, rfl, rfl, rfl, rfl, fun _ _ => rfl⟩
  by_cases hreach : s.fdCounter ≤ fdMax ∧ c.fdOk ∧ c.copyIn ∧ c.alloc
  · obtain ⟨h1, h2, h3, h4⟩ := hreach
    obtain ⟨s1, s2, hcreate, ha, hput, hc2, hn2, hun⟩ := create_put rb hc (hn h1 h2 h3 h4)
    have hfile := dmaFencePut_file rb s1 s.next (by rw [ha.refs]; decide) false
    simp only [mdpSyncIoctlCreateFence, gt_iff_lt, not_lt.2 h1, h2, h3, h4, hcreate, hput, hfile,
      if_false, Bool.not_true, Bool.false_eq_true, Option.bind_eq_bind, Option.bind_some]
    split_ifs with h5 h6
    · exact ⟨_, s2, rfl, hun.effect hc2 hn2, fun _ => hun⟩
    · exact ⟨_, s2, rfl, hun.effect hc2 hn2, fun _ => hun⟩
    · exact ⟨_, s1, rfl, ha.effect hc, fun h => absurd rfl h⟩
  · have hfail (r : Int) : ∃ o s', some (⟨r, none, []⟩, s) = some (o, s') ∧
        Effect s (.create c) o s' ∧ (o.result ≠ 0 → Unchanged s s') :=
      ⟨_, s, rfl, hrefl.effect hc (Nat.le_refl _), fun _ => hrefl⟩
    rw [mdpSyncIoctlCreateFence]
    split_ifs with h1 h2 h3 h4
    · exact hfail efault
    · exact hfail emfile
    · exact hfail efault
    · exact hfail enomem
    all_goals exact (hreach ⟨not_lt.1 h1, by simpa using h2, by simpa using h3,
      by simpa using h4⟩).elim

/-! ## Steps and runs -/

/-- The steps after which the lock is free: a creation that gets to `sync_pt_create` has a value
that no waiting fence with references has, and no callback on a fence that an increment signals
drops its last reference. -/
def StepOk (s : Timeline) : Op → Prop
  | .create c => s.opened → s.fdCounter ≤ fdMax → c.fdOk → c.copyIn → c.alloc →
    NewValue s c.value.toNat
  | .inc value copyIn drops => s.opened → copyIn → KeepsRefs drops value.toNat s
  | _ => True

instance (s : Timeline) (i : Op) : Decidable (StepOk s i) :=
  match i with
  | .create c => inferInstanceAs (Decidable (s.opened → s.fdCounter ≤ fdMax → c.fdOk → c.copyIn →
      c.alloc → ∀ f ∈ s.ptList, (s.pt f).refs ≠ 0 →
        CInt.i32 (c.value.toNat - (s.pt f).seqno) ≠ 0))
  | .inc value copyIn drops => inferInstanceAs (Decidable (s.opened → copyIn → ∀ f ∈ s.ptList,
      f ∈ drops → ahead s.value (s.pt f).seqno ≤ value.toNat → 2 ≤ (s.pt f).refs))
  | .get _ | .put _ | .release _ | .close => isTrue trivial

theorem step_effect (hc : Core s) (i : Op) (hok : StepOk s i) :
    ∃ o s', step rb s i = some (o, s') ∧ Effect s i o s' := by
  have hsame : Effect s i ⟨0, none, []⟩ s :=
    effect_quiet hc (Nat.le_refl _) (fun _ => id) fun _ _ => ⟨rfl, rfl⟩
  have hrefs (f : FenceId) (n : Nat) :
      Effect s i ⟨0, none, []⟩ (s.setPt f { s.pt f with refs := n }) := by
    refine effect_quiet (hc.setRefs f n) (Nat.le_refl _) (fun _ => id) fun g _ => ?_
    by_cases hg : g = f
    · rw [hg, setPt_self]
      exact ⟨rfl, rfl⟩
    · rw [setPt_of_ne hg]
      exact ⟨rfl, rfl⟩
  cases i with
  | create c =>
    rw [step]
    split_ifs with h
    · obtain ⟨o, s', h', he, -⟩ := mdpSyncIoctlCreateFence_spec rb hc c (hok h)
      exact ⟨o, s', h', he⟩
    · exact ⟨_, s, rfl, hsame⟩
  | inc value copyIn drops =>
    rw [step]
    split_ifs with h
    · cases copyIn with
      | false =>
        exact ⟨_, s, rfl, effect_quiet hc (Nat.le_refl _) (fun _ => id) fun _ _ => ⟨rfl, rfl⟩⟩
      | true =>
        obtain ⟨o, s', h', hc', hf, hcr, hs⟩ := mdpSyncIoctlInc_spec rb hc value true (hok h rfl)
        refine ⟨o, s', h', hc', Nat.le_of_eq hf.next.symm, fun f hm => .inl (hf.live ▸ hm),
          fun f hm => ?_, fun f hm => ⟨hf.seqno f, hs f hm⟩⟩
        rw [hcr] at hm
        cases hm
    · exact ⟨_, s, rfl, hsame⟩
  | get f =>
    rw [step]
    split_ifs with h
    · exact ⟨_, _, rfl, hrefs f _⟩
    · exact ⟨_, s, rfl, hsame⟩
  | put f =>
    rw [step]
    split_ifs with h
    · exact ⟨_, _, rfl, hrefs f _⟩
    · exact ⟨_, s, rfl, hsame⟩
  | release f =>
    rw [step]
    split_ifs with h
    · obtain ⟨s', h', hr⟩ := timelineFenceRelease_spec rb hc h.1
      refine ⟨_, s', by rw [h']; rfl, effect_quiet hr.core (Nat.le_of_eq hr.next.symm)
        (fun g hg => ?_) fun g _ => by rw [hr.pt]; exact ⟨rfl, rfl⟩⟩
      rw [hr.live] at hg
      exact Finset.mem_of_mem_erase hg
    · exact ⟨_, s, rfl, hsame⟩
  | close =>
    rw [step]
    split_ifs with h
    · refine ⟨_, _, rfl, effect_quiet ⟨hc.sorted, hc.tree, hc.nodup, hc.waiting, hc.due, hc.fd, ?_,
        hc.fresh⟩ (Nat.le_refl _) (fun _ => id) fun _ _ => ⟨rfl, rfl⟩⟩
      have := hc.kref
      rw [if_pos h] at this
      exact congrArg (· - 1) this
    · exact ⟨_, s, rfl, hsame⟩

/-- Every fence that was created and is live has the value it was created with, and is signalled
when the counter has passed it since. -/
def Signals (es : List (Op × Out)) (s : Timeline) : Prop :=
  ∀ pre c o post f, es = pre ++ (.create c, o) :: post → o.created = some f → f ∈ s.live →
    (s.pt f).seqno = c.value.toNat ∧
    ((s.pt f).signaled = true ↔
      ∃ n ∈ o.counters ++ post.flatMap (·.2.counters), ahead n c.value.toNat ≤ 0)

/-- Fences of the past have numbers below the next. -/
structure History (es : List (Op × Out)) (s : Timeline) : Prop where
  core : Core s
  old : ∀ e ∈ es, ∀ f, e.2.created = some f → f < s.next
  signals : Signals es s

theorem Effect.history {es : List (Op × Out)} {i : Op} {o : Out} (h : History es s)
    (he : Effect s i o s') : History (es ++ [(i, o)]) s' := by
  refine ⟨he.core, fun e hm f hf => ?_, fun pre c o' post f hes hf hlive => ?_⟩
  · rcases List.mem_append.1 hm with hm | hm
    · exact Nat.lt_of_lt_of_le (h.old e hm f hf) he.next
    · rw [List.mem_singleton.1 hm] at hf
      exact (he.created f hf).2.1
  · rcases List.eq_nil_or_concat post with rfl | ⟨post, e, rfl⟩
    · -- the fence that this step created
      obtain ⟨-, hlast⟩ := List.append_inj' hes rfl
      simp only [List.cons.injEq, Prod.mk.injEq, and_true] at hlast
      obtain ⟨rfl, rfl⟩ := hlast
      obtain ⟨-, -, c', hc', hseq, hs⟩ := he.created f hf
      cases hc'
      exact ⟨hseq, by simpa using hs⟩
    · -- an older fence
      rw [List.concat_eq_append, ← List.cons_append, ← List.append_assoc] at hes
      obtain ⟨hes, hlast⟩ := List.append_inj' hes rfl
      have hold := h.old (.create c, o') (by rw [hes]; simp) f hf
      have hin : f ∈ s.live := (he.live f hlive).resolve_right (Nat.ne_of_lt hold)
      obtain ⟨hseq, hs⟩ := h.signals pre c o' post f hes hf hin
      obtain ⟨hseq', hs'⟩ := he.kept f hin
      have : e.2 = o := by rw [List.singleton_inj.1 hlast.symm]
      refine ⟨hseq'.trans hseq, hs'.trans ?_⟩
      rw [hs, hseq, List.concat_eq_append, List.flatMap_append, ← List.append_assoc]
      simp only [List.mem_append, or_and_right, exists_or, List.flatMap_cons, List.flatMap_nil,
        List.append_nil, this]

theorem mdpSyncOpen_history : History [] mdpSyncOpen := by
  refine ⟨⟨by simp [mdpSyncOpen], rfl, by simp [mdpSyncOpen], ?_, ?_, rfl, rfl, ?_⟩, ?_, ?_⟩
  · simp [mdpSyncOpen]
  · simp [mdpSyncOpen]
  · simp [mdpSyncOpen]
  · simp
  · intro pre c o post f h
    simp at h

/-- **The timeline of a run** whose steps meet `StepOk`: every operation returns and leaves the
timeline in order, a live fence is signalled when the counter has passed its value at some time
since its creation, and a creation that fails next leaves nothing behind. -/
theorem timeline_runs (is : List Op) (h : Sys.Along (step rb) StepOk mdpSyncOpen is) :
    ∃ es s', Sys.run (step rb) mdpSyncOpen is = some (es, s') ∧ Core s' ∧ Signals es s' ∧
      ∀ c, StepOk s' (.create c) → ∃ o s'', step rb s' (.create c) = some (o, s'') ∧
        (o.result ≠ 0 → Unchanged s' s'') := by
  obtain ⟨es, s', hrun, hh⟩ := Sys.run_hist_along (P := StepOk)
    (fun es s i (hh : History es s) hok => by
      obtain ⟨o, s', h, he⟩ := step_effect rb hh.core i hok
      exact ⟨o, s', h, he.history hh⟩) is [] mdpSyncOpen mdpSyncOpen_history h
  refine ⟨es, s', hrun, hh.core, hh.signals, fun c hok => ?_⟩
  rw [step]
  split_ifs with ho
  · obtain ⟨o, s'', h', -, hun⟩ := mdpSyncIoctlCreateFence_spec rb hh.core c (hok ho)
    exact ⟨o, s'', h', hun⟩
  · exact ⟨_, s', rfl, fun h => absurd rfl h⟩

/-- Two fences behind each other, of which a callback on the first drops one of its references. -/
theorem timeline_runs_two :
    let is := [.create ⟨7, true, true, true, true, true⟩, .create ⟨5, true, true, true, true, true⟩,
      .get 1, .inc 6 true [1], .put 1, .release 1]
    ∃ es s', Sys.run (step (.plain FenceId)) mdpSyncOpen is = some (es, s') ∧ Core s' ∧
      Signals es s' ∧ ∀ c, StepOk s' (.create c) →
        ∃ o s'', step (.plain FenceId) s' (.create c) = some (o, s'') ∧
          (o.result ≠ 0 → Unchanged s' s'') :=
  timeline_runs (.plain FenceId) _ (by decide +kernel)

/-- A second fence with the value of a waiting one is put while the lock is held. -/
theorem duplicate_takes_lock_twice :
    Sys.run (step (.plain FenceId)) mdpSyncOpen
      [.create ⟨5, true, true, true, true, true⟩, .create ⟨5, true, true, true, true, true⟩] =
        none := rfl

end Mdp.Fence
