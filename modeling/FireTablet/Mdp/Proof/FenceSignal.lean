import FireTablet.Mdp.Fence
import Mathlib.Tactic.SplitIfs

/-!
# Signalling along a timeline

The distance of a fence's value ahead of the counter (`ahead`) is positive for every fence that
waits, and the list is in its order. An increment of at most `INT_MAX` takes as much off every
distance, so that the fences that fall due are those at the front (`mdpSyncIoctlInc_spec`).
-/

namespace Mdp.Fence

open SearchTree

/-- How far a value is ahead of the counter, as a signed 32-bit number. -/
def ahead (c v : Int) : Int := CInt.i32 (v - c)

variable (rb : Rebalancing FenceId) {s s' : Timeline} {f : FenceId} {drops : List FenceId}

theorem signaled_iff : s.signaled f = true ↔ ahead s.value (s.pt f).seqno ≤ 0 := by
  simp [Timeline.signaled, isLater, ahead]

/-- An increment is taken off a positive distance. -/
theorem ahead_add {c v : Int} {inc : Nat} (h : 0 < ahead c v) (hi : inc ≤ intMax) :
    ahead (CInt.i32 (c + inc)) v = ahead c v - inc := by
  simp only [ahead, CInt.i32, intMax] at *
  omega

@[simp] theorem setPt_self (s : Timeline) (f : FenceId) (p : SyncPt) : (s.setPt f p).pt f = p :=
  Function.update_self ..

theorem setPt_of_ne {g : FenceId} (h : g ≠ f) (s : Timeline) (p : SyncPt) :
    (s.setPt f p).pt g = s.pt g :=
  Function.update_of_ne h ..

@[simp] theorem setPt_setPt (s : Timeline) (f : FenceId) (p q : SyncPt) :
    (s.setPt f p).setPt f q = s.setPt f q := by
  simp [Timeline.setPt]

@[simp] theorem unlink_pt (s : Timeline) (f : FenceId) : (s.unlink rb f).pt = s.pt := rfl

/-! ## The loop -/

/-- The fences of `due` are signalled and taken out of the list and the tree, the rest is as it
was. -/
structure Swept (due : List FenceId) (s s' : Timeline) : Prop where
  list : s.ptList = due ++ s'.ptList
  tree : s'.ptTree.inorder = s'.ptList
  value : s'.value = s.value
  live : s'.live = s.live
  next : s'.next = s.next
  fd : s'.fdCounter = s.fdCounter
  kref : s'.kref = s.kref
  opened : s'.opened = s.opened
  seqno : ∀ f, (s'.pt f).seqno = (s.pt f).seqno
  swept : ∀ f ∈ due, (s'.pt f).signaled = true
  rest : ∀ f, f ∉ due → s'.pt f = s.pt f

/-- A fence at the front is signalled: the lock is not taken again, as its reference count stays
above zero. -/
theorem dmaFenceSignalLocked_swept {fs : List FenceId} (hl : s.ptList = f :: fs)
    (ht : s.ptTree.inorder = s.ptList) (hd : f ∈ drops → 2 ≤ (s.pt f).refs) :
    ∃ s', dmaFenceSignalLocked rb drops (s.unlink rb f) f = some s' ∧ Swept [f] s s' := by
  have hlist : (s.unlink rb f).ptList = fs := by
    rw [Timeline.unlink, hl, List.erase_cons_head]
  have htree : (s.unlink rb f).ptTree.inorder = fs := by
    rw [Timeline.unlink, Rebalancing.inorder_erase, ht, hl, List.erase_cons_head]
  have hswept (p : SyncPt) (hp : p.seqno = (s.pt f).seqno) (hs : p.signaled = true) :
      Swept [f] s ((s.unlink rb f).setPt f p) := by
    refine ⟨by rw [hl]; exact congrArg (f :: ·) hlist.symm, htree.trans hlist.symm, rfl, rfl, rfl,
      rfl, rfl, rfl, fun g => ?_, fun g hg => ?_, fun g hg => ?_⟩
    · by_cases hg : g = f
      · rw [hg, setPt_self, hp]
      · rw [setPt_of_ne hg]; rfl
    · rw [List.mem_singleton.1 hg, setPt_self, hs]
    · rw [setPt_of_ne (List.mem_singleton.not.1 hg)]; rfl
  unfold dmaFenceSignalLocked
  by_cases hf : f ∈ drops
  · have h2 := hd hf
    have hne : ¬ (s.pt f).refs - 1 = 0 := by omega
    refine ⟨_, ?_, hswept ⟨(s.pt f).seqno, (s.pt f).refs - 1, true⟩ rfl rfl⟩
    simp only [if_pos hf, dmaFencePut, setPt_self, setPt_setPt, unlink_pt, if_neg hne]
  · exact ⟨_, by simp only [if_neg hf]; rfl, hswept ⟨(s.pt f).seqno, (s.pt f).refs, true⟩ rfl rfl⟩

/-- Two sweeps in a row. -/
theorem Swept.trans {d1 d2 : List FenceId} {s1 s2 s3 : Timeline} (h1 : Swept d1 s1 s2)
    (h2 : Swept d2 s2 s3) : Swept (d1 ++ d2) s1 s3 where
  list := by rw [h1.list, h2.list, List.append_assoc]
  tree := h2.tree
  value := h2.value.trans h1.value
  live := h2.live.trans h1.live
  next := h2.next.trans h1.next
  fd := h2.fd.trans h1.fd
  kref := h2.kref.trans h1.kref
  opened := h2.opened.trans h1.opened
  seqno f := (h2.seqno f).trans (h1.seqno f)
  swept f hf := by
    by_cases h : f ∈ d2
    · exact h2.swept f h
    · rw [h2.rest f h]
      exact h1.swept f ((List.mem_append.1 hf).resolve_right h)
  rest f hf := by
    rw [List.mem_append, not_or] at hf
    exact (h2.rest f hf.2).trans (h1.rest f hf.1)

theorem Swept.refl (ht : s.ptTree.inorder = s.ptList) : Swept [] s s :=
  ⟨rfl, ht, rfl, rfl, rfl, rfl, rfl, rfl, fun _ => rfl, by simp, fun _ _ => rfl⟩

/-- The loop signals the fences at the front that are due. -/
theorem signalLoop_swept : ∀ {fs : List FenceId} {s : Timeline}, s.ptList = fs → fs.Nodup →
    s.ptTree.inorder = s.ptList →
    (∀ f ∈ fs, f ∈ drops → s.signaled f = true → 2 ≤ (s.pt f).refs) →
    ∃ s', signalLoop rb drops fs s = some s' ∧ Swept (fs.takeWhile s.signaled) s s'
  | [], s, _, _, ht, _ => ⟨s, rfl, .refl ht⟩
  | f :: fs, s, hl, hn, ht, hd => by
    cases hf : s.signaled f with
    | false =>
      refine ⟨s, by simp [signalLoop, hf], ?_⟩
      rw [List.takeWhile_cons_of_neg (by simp [hf])]
      exact .refl ht
    | true =>
      obtain ⟨s1, h1, hs1⟩ := dmaFenceSignalLocked_swept rb hl ht
        fun h => hd f (List.mem_cons_self ..) h hf
      have hlist1 : s1.ptList = fs := by
        have := hs1.list
        rw [hl] at this
        exact (List.cons.inj this).2.symm
      have hsig : s1.signaled = s.signaled := by
        funext g
        rw [Timeline.signaled, Timeline.signaled, hs1.seqno, hs1.value]
      obtain ⟨s', h', hs'⟩ := signalLoop_swept hlist1 (List.nodup_cons.1 hn).2 hs1.tree
        (fun g hg hgd hgs => by
          have hne : g ∉ [f] := by
            rw [List.mem_singleton]
            rintro rfl
            exact (List.nodup_cons.1 hn).1 hg
          rw [hs1.rest g hne]
          rw [hsig] at hgs
          exact hd g (List.mem_cons_of_mem _ hg) hgd hgs)
      refine ⟨s', by simp [signalLoop, hf, h1, h'], ?_⟩
      rw [List.takeWhile_cons_of_pos hf, ← hsig]
      exact hs1.trans hs'

/-! ## Increments -/

/-- The state of a timeline between operations: the list is in order of the distance from the
counter, the tree holds the same fences, and they are the live ones that are not signalled. -/
structure Core (s : Timeline) : Prop where
  sorted : s.ptList.Pairwise fun f g =>
    ahead s.value (s.pt f).seqno ≤ ahead s.value (s.pt g).seqno
  tree : s.ptTree.inorder = s.ptList
  nodup : s.ptList.Nodup
  waiting : ∀ f, f ∈ s.ptList ↔ f ∈ s.live ∧ (s.pt f).signaled = false
  due : ∀ f ∈ s.ptList, 0 < ahead s.value (s.pt f).seqno
  fd : s.fdCounter = s.live.card
  kref : s.kref = s.live.card + if s.opened then 1 else 0
  fresh : ∀ f ∈ s.live, f < s.next

/-- What an increment leaves alone. -/
structure SameFences (s s' : Timeline) : Prop where
  live : s'.live = s.live
  next : s'.next = s.next
  opened : s'.opened = s.opened
  seqno : ∀ f, (s'.pt f).seqno = (s.pt f).seqno

theorem SameFences.trans {s1 s2 s3 : Timeline} (h1 : SameFences s1 s2) (h2 : SameFences s2 s3) :
    SameFences s1 s3 :=
  ⟨h2.live.trans h1.live, h2.next.trans h1.next, h2.opened.trans h1.opened,
    fun f => (h2.seqno f).trans (h1.seqno f)⟩

/-- No callback of a fence that an increment signals drops the fence's last reference. -/
def KeepsRefs (drops : List FenceId) (inc : Nat) (s : Timeline) : Prop :=
  ∀ f ∈ s.ptList, f ∈ drops → ahead s.value (s.pt f).seqno ≤ inc → 2 ≤ (s.pt f).refs

/-- In a list in order, what is behind a fence that is not due is not due. -/
theorem mem_takeWhile_iff {α : Type*} {p : α → Bool} {l : List α}
    (h : l.Pairwise fun a b => p b = true → p a = true) {a : α} (ha : a ∈ l) :
    a ∈ l.takeWhile p ↔ p a = true := by
  refine ⟨fun ht => List.all_eq_true.1 List.all_takeWhile a ht, fun hp => ?_⟩
  induction l with
  | nil => cases ha
  | cons b l ih =>
    rw [List.pairwise_cons] at h
    rcases List.mem_cons.1 ha with rfl | hal
    · rw [List.takeWhile_cons_of_pos hp]
      exact List.mem_cons_self ..
    · rw [List.takeWhile_cons_of_pos (h.1 a hal hp)]
      exact List.mem_cons_of_mem _ (ih h.2 hal)

/-- After the loop, what is left of the list is what is not due. -/
theorem Swept.mem_list {p : FenceId → Bool} (h : Swept (s.ptList.takeWhile p) s s')
    (hn : s.ptList.Nodup) (hp : s.ptList.Pairwise fun f g => p g = true → p f = true)
    (f : FenceId) : f ∈ s'.ptList ↔ f ∈ s.ptList ∧ p f = false := by
  rw [h.list, List.nodup_append] at hn
  constructor
  · intro hf
    have hmem : f ∈ s.ptList := by
      rw [h.list]
      exact List.mem_append_right _ hf
    refine ⟨hmem, Bool.eq_false_iff.2 fun hpf => ?_⟩
    exact hn.2.2 f ((mem_takeWhile_iff hp hmem).2 hpf) f hf rfl
  · rintro ⟨hmem, hpf⟩
    have hnot : f ∉ s.ptList.takeWhile p := fun ht => by
      rw [(mem_takeWhile_iff hp hmem).1 ht] at hpf
      cases hpf
    rw [h.list] at hmem
    exact (List.mem_append.1 hmem).resolve_left hnot

/-- **One increment** of at most `INT_MAX` signals the fences that it passes. -/
theorem syncTimelineSignal_spec (hc : Core s) {inc : Nat} (hi : inc ≤ intMax)
    (hd : KeepsRefs drops inc s) :
    ∃ s', syncTimelineSignal rb drops s inc = some s' ∧ Core s' ∧ SameFences s s' ∧
      s'.value = CInt.i32 (s.value + inc) ∧
      (∀ f ∈ s'.ptList, f ∈ s.ptList ∧ s'.pt f = s.pt f) ∧
      ∀ f ∈ s.live, (s'.pt f).signaled = true ↔
        (s.pt f).signaled = true ∨ ahead s'.value (s.pt f).seqno ≤ 0 := by
  set s0 : Timeline := { s with value := CInt.i32 (s.value + inc) } with hs0
  have hadd {f : FenceId} (hf : f ∈ s.ptList) :
      ahead s0.value (s.pt f).seqno = ahead s.value (s.pt f).seqno - inc :=
    ahead_add (hc.due f hf) hi
  have hp : s.ptList.Pairwise fun f g => s0.signaled g = true → s0.signaled f = true := by
    refine hc.sorted.imp_of_mem fun {f g} hf hg hfg h => ?_
    rw [signaled_iff] at *
    have := hadd hf
    have := hadd hg
    simp only [hs0] at *
    omega
  have hkeep (f : FenceId) (hf : f ∈ s0.ptList) (hfd : f ∈ drops) (hs : s0.signaled f = true) :
      2 ≤ (s0.pt f).refs := by
    refine hd f hf hfd ?_
    rw [signaled_iff] at hs
    have := hadd hf
    simp only [hs0] at *
    omega
  obtain ⟨s', h, hsw⟩ := signalLoop_swept rb (s := s0) rfl hc.nodup hc.tree hkeep
  have hmem := Swept.mem_list (s := s0) hsw hc.nodup hp
  have hrest {f : FenceId} (hf : f ∈ s'.ptList) : s'.pt f = s.pt f := by
    refine hsw.rest f fun ht => ?_
    have := ((hmem f).1 hf).2
    rw [(mem_takeWhile_iff hp ((hmem f).1 hf).1).1 ht] at this
    cases this
  have hsub : s'.ptList.Sublist s.ptList := by
    have := hsw.list
    simp only [hs0] at this
    rw [this]
    exact List.sublist_append_right ..
  have hdue {f : FenceId} (hf : f ∈ s'.ptList) : 0 < ahead s0.value (s.pt f).seqno := by
    have := mt signaled_iff.2 (Bool.eq_false_iff.1 ((hmem f).1 hf).2)
    exact not_le.1 this
  have hsig (f : FenceId) (hf : f ∈ s.live) : (s'.pt f).signaled = true ↔
      (s.pt f).signaled = true ∨ ahead s0.value (s.pt f).seqno ≤ 0 := by
    by_cases ht : f ∈ s.ptList.takeWhile s0.signaled
    · have hpf := List.all_eq_true.1 List.all_takeWhile f ht
      exact ⟨fun _ => .inr (signaled_iff.1 hpf), fun _ => hsw.swept f ht⟩
    · rw [show s'.pt f = s.pt f from hsw.rest f ht]
      refine ⟨.inl, fun h => h.elim id fun h => ?_⟩
      by_contra hw
      have hl := (hc.waiting f).2 ⟨hf, Bool.eq_false_iff.2 hw⟩
      exact ht ((mem_takeWhile_iff hp hl).2 (signaled_iff.2 h))
  have hlive : s'.live = s.live := hsw.live
  refine ⟨s', h, ⟨?_, hsw.tree, hc.nodup.sublist hsub, fun f => ?_, fun f hf => ?_, ?_, ?_, ?_⟩,
    ⟨hlive, hsw.next, hsw.opened, hsw.seqno⟩, hsw.value,
    fun f hf => ⟨((hmem f).1 hf).1, hrest hf⟩, fun f hf => ?_⟩
  · refine (hc.sorted.sublist hsub).imp_of_mem fun {f g} hf hg hfg => ?_
    rw [hsw.value, hrest hf, hrest hg, hadd ((hmem f).1 hf).1, hadd ((hmem g).1 hg).1]
    omega
  · refine ⟨fun hf => ?_, fun ⟨hf, hw⟩ => ?_⟩
    · rw [hrest hf, hlive]
      exact (hc.waiting f).1 ((hmem f).1 hf).1
    · rw [hlive] at hf
      have := mt (hsig f hf).2 (by rw [hw]; exact Bool.false_ne_true)
      rw [not_or, Bool.not_eq_true] at this
      exact (hmem f).2 ⟨(hc.waiting f).2 ⟨hf, this.1⟩,
        Bool.eq_false_iff.2 (mt signaled_iff.1 this.2)⟩
  · rw [hsw.value, hrest hf]
    exact hdue hf
  · rw [hlive, hsw.fd]
    exact hc.fd
  · rw [hlive, hsw.kref, hsw.opened]
    exact hc.kref
  · rw [hlive, hsw.next]
    exact hc.fresh
  · rw [hsw.value]
    exact hsig f hf

/-! ## An increment in parts -/

theorem incParts_le : ∀ (value : Nat), ∀ inc ∈ incParts value, inc ≤ intMax := by
  intro value
  induction value using Nat.strongRecOn with
  | ind value ih =>
    rw [incParts]
    split_ifs with h
    · intro inc hinc
      rcases List.mem_cons.1 hinc with rfl | hinc
      · exact Nat.le_refl _
      · exact ih (value - intMax) (by simp only [intMax] at *; omega) inc hinc
    · simpa using h

theorem incParts_sum (value : Nat) : (incParts value).sum = value := by
  induction value using Nat.strongRecOn with
  | ind value ih =>
    rw [incParts]
    split_ifs with h
    · rw [List.sum_cons, ih (value - intMax) (by simp only [intMax] at *; omega)]
      omega
    · simp

/-- **The parts of an increment** together signal the fences that the counter passes. -/
theorem signalAll_spec : ∀ {incs : List Nat} {s : Timeline}, Core s →
    (∀ inc ∈ incs, inc ≤ intMax) → KeepsRefs drops incs.sum s →
    ∃ cs s', signalAll rb drops s incs = some (cs, s') ∧ Core s' ∧ SameFences s s' ∧
      ∀ f ∈ s.live, (s'.pt f).signaled = true ↔
        (s.pt f).signaled = true ∨ ∃ c ∈ cs, ahead c (s.pt f).seqno ≤ 0
  | [], s, hc, _, _ => ⟨[], s, rfl, hc, ⟨rfl, rfl, rfl, fun _ => rfl⟩, by simp⟩
  | inc :: incs, s, hc, hle, hd => by
    have hi := hle inc (List.mem_cons_self ..)
    rw [List.sum_cons] at hd
    obtain ⟨s1, h1, hc1, hsame1, hv1, hl1, hs1⟩ := syncTimelineSignal_spec rb hc hi
      fun f hf hfd ha => hd f hf hfd (by omega)
    have hd1 : KeepsRefs drops incs.sum s1 := by
      intro f hf hfd ha
      obtain ⟨hf0, hpt⟩ := hl1 f hf
      rw [hpt] at ha ⊢
      rw [hv1, ahead_add (hc.due f hf0) hi] at ha
      exact hd f hf0 hfd (by omega)
    obtain ⟨cs, s', h', hc', hsame', hs'⟩ := signalAll_spec hc1
      (fun i hm => hle i (List.mem_cons_of_mem _ hm)) hd1
    refine ⟨s1.value :: cs, s', by simp [signalAll, h1, h'], hc', hsame1.trans hsame',
      fun f hf => ?_⟩
    simp only [hs' f (hsame1.live ▸ hf), hs1 f hf, hsame1.seqno, List.mem_cons, exists_eq_or_imp,
      or_assoc]

/-- **`mdp_sync_ioctl_inc`** keeps the timeline in order and signals what the counter passes. -/
theorem mdpSyncIoctlInc_spec (hc : Core s) (value : UInt32) (copyIn : Bool)
    (hd : KeepsRefs drops value.toNat s) :
    ∃ o s', mdpSyncIoctlInc rb s value copyIn drops = some (o, s') ∧ Core s' ∧ SameFences s s' ∧
      o.created = none ∧ ∀ f ∈ s.live, (s'.pt f).signaled = true ↔
        (s.pt f).signaled = true ∨ ∃ c ∈ o.counters, ahead c (s.pt f).seqno ≤ 0 := by
  cases copyIn with
  | false => exact ⟨_, s, rfl, hc, ⟨rfl, rfl, rfl, fun _ => rfl⟩, rfl, by simp⟩
  | true =>
    obtain ⟨cs, s', h, hc', hsame, hs⟩ := signalAll_spec rb hc (incParts_le value.toNat)
      (by rwa [incParts_sum])
    exact ⟨⟨0, none, cs⟩, s', by simp [mdpSyncIoctlInc, h], hc', hsame, rfl, hs⟩

end Mdp.Fence
