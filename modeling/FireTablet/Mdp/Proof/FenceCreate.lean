import FireTablet.Mdp.Proof.FenceSignal

/-!
# Creation and release of fences

A new fence goes to its place in the list and the tree (`syncPtCreate_spec`) unless a waiting fence
with references has its value (`NewValue`): then the new one is put while the lock is held, and its
release takes the lock again. The release of a fence takes out what its creation added.
-/

namespace Mdp.Fence

open SearchTree

variable (rb : Rebalancing FenceId) {s s' : Timeline} {f : FenceId} {v : Int}

/-! ## A new fence -/

/-- No waiting fence with references has the value. -/
def NewValue (s : Timeline) (v : Int) : Prop :=
  ∀ f ∈ s.ptList, (s.pt f).refs ≠ 0 → CInt.i32 (v - (s.pt f).seqno) ≠ 0

/-- Values ahead of the counter compare as their distances do. -/
theorem cmp_eq {c v w : Int} (hv : 0 < ahead c v) (hw : 0 < ahead c w) :
    CInt.i32 (v - w) = ahead c v - ahead c w := by
  simp only [ahead, CInt.i32] at *
  omega

theorem direction_ne_none (hn : NewValue s v) {g : FenceId} (hg : g ∈ s.ptList) :
    direction s v g ≠ none := by
  have := hn g hg
  unfold direction
  simp only
  split_ifs with h1 h2 h3
  · simp
  · simp
  · exact absurd (by omega) (this h3)
  · simp

theorem direction_false {g : FenceId} (hv : 0 < ahead s.value v)
    (hg : 0 < ahead s.value (s.pt g).seqno) (h : direction s v g = some false) :
    ahead s.value (s.pt g).seqno < ahead s.value v := by
  rw [direction, cmp_eq hv hg] at h
  split_ifs at h with h1 h2 h3
  · omega
  all_goals simp at h

theorem direction_true {g : FenceId} (hv : 0 < ahead s.value v)
    (hg : 0 < ahead s.value (s.pt g).seqno) (h : direction s v g = some true) :
    ahead s.value v ≤ ahead s.value (s.pt g).seqno := by
  rw [direction, cmp_eq hv hg] at h
  split_ifs at h with h1 h2 h3
  · simp at h
  · omega
  · omega

theorem direction_mono {g g' : FenceId} (hv : 0 < ahead s.value v)
    (hg : 0 < ahead s.value (s.pt g).seqno)
    (hg' : 0 < ahead s.value (s.pt g').seqno) (hn : direction s v g' ≠ none)
    (hle : ahead s.value (s.pt g).seqno ≤ ahead s.value (s.pt g').seqno)
    (h : direction s v g = some true) : direction s v g' = some true := by
  cases hd : direction s v g' with
  | none => exact absurd hd hn
  | some b =>
    cases b with
    | true => rfl
    | false =>
      have h1 := direction_true hv hg h
      have h2 := direction_false hv hg' hd
      omega

theorem rbNext_append {pre post : List FenceId} (h : f ∉ pre) :
    rbNext f (pre ++ f :: post) = post.head? := by
  induction pre with
  | nil => simp [rbNext]
  | cons g pre ih =>
    rw [List.mem_cons, not_or] at h
    rw [List.cons_append, rbNext, if_neg (Ne.symm h.1), ih h.2]

/-- Before the first of `post`, or at the end. -/
theorem listAddTail_append {pre post : List FenceId} (hn : (pre ++ post).Nodup) :
    listAddTail f post.head? (pre ++ post) = pre ++ f :: post := by
  induction pre with
  | nil =>
    cases post with
    | nil => rfl
    | cons g post => simp [listAddTail]
  | cons g pre ih =>
    rw [List.cons_append, List.nodup_cons, List.mem_append, not_or] at hn
    have hne : post.head? ≠ some g := fun h => hn.1.2 (List.mem_of_mem_head? h)
    rw [List.cons_append, listAddTail, if_neg hne, ih hn.2, List.cons_append]

/-- What a creation adds to a timeline: one fence with one reference. -/
structure Added (v : Int) (s s' : Timeline) : Prop where
  core : Core s'
  live : s'.live = insert s.next s.live
  next : s'.next = s.next + 1
  value : s'.value = s.value
  opened : s'.opened = s.opened
  fd : s'.fdCounter = s.fdCounter + 1
  kref : s'.kref = s.kref + 1
  list : s'.ptList.erase s.next = s.ptList
  rest : ∀ g, g ≠ s.next → s'.pt g = s.pt g
  seqno : (s'.pt s.next).seqno = v
  refs : (s'.pt s.next).refs = 1
  signaled : (s'.pt s.next).signaled = true ↔ ahead s.value v ≤ 0

theorem Core.fresh_list (hc : Core s) : s.next ∉ s.ptList := fun h =>
  Nat.lt_irrefl _ (hc.fresh _ ((hc.waiting _).1 h).1)

theorem Core.fresh_live (hc : Core s) : s.next ∉ s.live := fun h =>
  Nat.lt_irrefl _ (hc.fresh _ h)

/-- A creation that puts the new fence among the waiting ones, or nowhere when it is signalled. -/
theorem Core.added (hc : Core s) (pre post : List FenceId) (tree : SearchTree.Tree FenceId) (b : Bool)
    (hl : s.ptList = pre ++ post)
    (hb : b = true ↔ ahead s.value v ≤ 0)
    (ht : tree.inorder = if b then s.ptList else pre ++ s.next :: post)
    (hpre : b = false → ∀ g ∈ pre, ahead s.value (s.pt g).seqno ≤ ahead s.value v)
    (hpost : b = false → ∀ g ∈ post, ahead s.value v ≤ ahead s.value (s.pt g).seqno)
    (hs : s' = { s.setPt s.next ⟨v, 1, b⟩ with
      live := insert s.next s.live, next := s.next + 1, kref := s.kref + 1,
      fdCounter := s.fdCounter + 1, ptTree := tree,
      ptList := if b then s.ptList else pre ++ s.next :: post }) : Added v s s' := by
  have hfl := hc.fresh_list
  have hfv := hc.fresh_live
  have hrest (g : FenceId) (hg : g ≠ s.next) : s'.pt g = s.pt g := by
    rw [hs]
    exact setPt_of_ne hg ..
  have hself : s'.pt s.next = ⟨v, 1, b⟩ := by
    rw [hs]
    exact setPt_self ..
  have hold {g : FenceId} (hg : g ∈ s.ptList) : s'.pt g = s.pt g :=
    hrest g fun he => hfl (he ▸ hg)
  have hv : s'.value = s.value := by rw [hs]; rfl
  have hlive : s'.live = insert s.next s.live := by rw [hs]
  have hlist : s'.ptList = if b then s.ptList else pre ++ s.next :: post := by rw [hs]
  have hmem (g : FenceId) : g ∈ s'.ptList ↔ g ∈ s.ptList ∨ g = s.next ∧ b = false := by
    rw [hlist]
    cases b <;> simp [hl, or_comm, or_left_comm]
  have hpw : s'.ptList.Pairwise fun g h =>
      ahead s'.value (s'.pt g).seqno ≤ ahead s'.value (s'.pt h).seqno := by
    have hsorted : s.ptList.Pairwise fun g h =>
        ahead s'.value (s'.pt g).seqno ≤ ahead s'.value (s'.pt h).seqno :=
      hc.sorted.imp_of_mem fun hg hh h => by rwa [hv, hold hg, hold hh]
    cases b with
    | true => rwa [hlist]
    | false =>
      rw [hl, List.pairwise_append] at hsorted
      rw [hlist, if_neg Bool.false_ne_true, List.pairwise_append, List.pairwise_cons]
      refine ⟨hsorted.1, ⟨fun g hg => ?_, hsorted.2.1⟩, fun g hg h hh => ?_⟩
      · rw [hself, hv, hold (hl ▸ List.mem_append_right _ hg)]
        exact hpost rfl g hg
      · rcases List.mem_cons.1 hh with rfl | hh
        · rw [hself, hv, hold (hl ▸ List.mem_append_left _ hg)]
          exact hpre rfl g hg
        · exact hsorted.2.2 g hg h hh
  have hnd : s'.ptList.Nodup := by
    rw [hlist]
    cases b with
    | true => exact hc.nodup
    | false =>
      have := hc.nodup
      rw [hl] at this hfl
      exact (List.nodup_middle).2 (List.nodup_cons.2 ⟨hfl, this⟩)
  refine ⟨⟨hpw, ?_, hnd, fun g => ?_, fun g hg => ?_, ?_, ?_, fun g hg => ?_⟩, hlive, ?_, hv, ?_,
    ?_, ?_, ?_, hrest, by rw [hself], by rw [hself], by rw [hself, hb]⟩
  · rw [hs]
    exact ht
  · rw [hmem, hlive, Finset.mem_insert]
    by_cases hg : g = s.next
    · rw [hg, hself]
      simp [hfl]
    · simp [hg, hrest g hg, hc.waiting]
  · rw [hv]
    rcases (hmem g).1 hg with hg | ⟨rfl, hw⟩
    · rw [hold hg]
      exact hc.due g hg
    · rw [hself]
      exact not_le.1 fun h => by rw [hb.2 h] at hw; cases hw
  · rw [hlive, Finset.card_insert_of_notMem hfv, hs, hc.fd]
  · rw [hlive, Finset.card_insert_of_notMem hfv, hs]
    exact (congrArg (· + 1) hc.kref).trans (Nat.add_right_comm ..)
  · rw [hlive, Finset.mem_insert] at hg
    rw [hs]
    rcases hg with rfl | hg
    · exact Nat.lt_succ_self _
    · exact Nat.lt_succ_of_lt (hc.fresh g hg)
  · rw [hs]
  · rw [hs]; rfl
  · rw [hs]
  · rw [hs]
  · rw [hlist]
    cases b with
    | true => exact List.erase_of_not_mem hfl
    | false =>
      rw [hl, List.mem_append, not_or] at hfl
      simp [List.erase_append_right _ hfl.1, hl]

/-- **`sync_pt_create`** of a value that no waiting fence with references has. -/
theorem syncPtCreate_spec (hc : Core s) (hn : NewValue s v) :
    ∃ s', syncPtCreate rb s v = some (s.next, s') ∧ Added v s s' := by
  set s0 : Timeline := { s.setPt s.next ⟨v, 1, false⟩ with
    live := insert s.next s.live, next := s.next + 1, kref := s.kref + 1,
    fdCounter := s.fdCounter + 1 } with hs0
  have hself : s0.pt s.next = ⟨v, 1, false⟩ := setPt_self ..
  have hold {g : FenceId} (hg : g ∈ s.ptList) : s0.pt g = s.pt g := by
    refine setPt_of_ne (fun he => hc.fresh_list ?_) ..
    rwa [← he]
  have hsig : s0.signaled s.next = true ↔ ahead s.value v ≤ 0 := by
    rw [signaled_iff, hself]
    rfl
  cases hb : s0.signaled s.next with
  | true =>
    refine ⟨_, by rw [syncPtCreate]; exact if_pos hb, ?_⟩
    refine hc.added s.ptList [] s.ptTree true (List.append_nil _).symm (by rw [← hsig, hb])
      hc.tree (by simp) (by simp) ?_
    simp [Timeline.setPt]
  | false =>
    have hv : 0 < ahead s.value v := not_le.1 fun h => by
      rw [hsig.2 h] at hb
      cases hb
    have hne : ∀ g ∈ s0.ptTree.inorder, direction s0 v g ≠ none := fun g hg => by
      have hg : g ∈ s.ptList := hc.tree ▸ hg
      refine direction_ne_none (fun g hg => ?_) hg
      rw [hold hg]
      exact hn g hg
    have hmono : s0.ptTree.inorder.Pairwise fun g h =>
        direction s0 v g = some true → direction s0 v h = some true := by
      have ht : s0.ptTree.inorder = s.ptList := hc.tree
      rw [ht] at hne ⊢
      refine hc.sorted.imp_of_mem fun {g h} hg hh hle => ?_
      refine direction_mono hv ?_ ?_ (hne h hh) ?_
      · rw [hold hg]
        exact hc.due g hg
      · rw [hold hh]
        exact hc.due h hh
      · rw [hold hg, hold hh]
        exact hle
    obtain ⟨tree, pre, post, hlink, he, he', hpre, hpost⟩ := SearchTree.Tree.linkAt_inorder s.next hne hmono
    have hl : s.ptList = pre ++ post := hc.tree.symm.trans he
    have hnd := hc.nodup
    have hfl := hc.fresh_list
    rw [hl] at hnd hfl
    have hins : listAddTail s.next (rbNext s.next (rb.color tree).inorder) s0.ptList =
        pre ++ s.next :: post := by
      rw [Rebalancing.inorder_color, he',
        rbNext_append fun h => hfl (List.mem_append_left _ h)]
      exact (congrArg _ hl).trans (listAddTail_append hnd)
    refine ⟨_, by
      rw [syncPtCreate]
      simp only
      rw [← hs0, if_neg (by simp [hb]), hlink], ?_⟩
    refine hc.added pre post (rb.color tree) false hl
      (by rw [← hsig, hb]) (by simp [he']) (fun _ g hg => ?_) (fun _ g hg => ?_) (by
        rw [hins]; rfl)
    · have hgl : g ∈ s.ptList := hl ▸ List.mem_append_left _ hg
      have := direction_false (s := s0) hv (by rw [hold hgl]; exact hc.due g hgl) (hpre g hg)
      rw [hold hgl] at this
      exact Int.le_of_lt this
    · have hgl : g ∈ s.ptList := hl ▸ List.mem_append_right _ hg
      have := direction_true (s := s0) hv (by rw [hold hgl]; exact hc.due g hgl) (hpost g hg)
      rwa [hold hgl] at this

/-! ## References and release -/

/-- A change of a fence's references. -/
theorem Core.setRefs (hc : Core s) (f : FenceId) (n : Nat) :
    Core (s.setPt f { s.pt f with refs := n }) := by
  have hseq (g : FenceId) :
      ((s.setPt f { s.pt f with refs := n }).pt g).seqno = (s.pt g).seqno := by
    by_cases hg : g = f
    · rw [hg, setPt_self]
    · rw [setPt_of_ne hg]
  have hsig (g : FenceId) :
      ((s.setPt f { s.pt f with refs := n }).pt g).signaled = (s.pt g).signaled := by
    by_cases hg : g = f
    · rw [hg, setPt_self]
    · rw [setPt_of_ne hg]
  refine ⟨?_, hc.tree, hc.nodup, fun g => ?_, fun g hg => ?_, hc.fd, hc.kref, hc.fresh⟩
  · simp only [hseq]
    exact hc.sorted
  · rw [hsig]
    exact hc.waiting g
  · rw [hseq]
    exact hc.due g hg

/-- What is left of a timeline when a fence is released. -/
structure Removed (f : FenceId) (s s' : Timeline) : Prop where
  core : Core s'
  list : s'.ptList = s.ptList.erase f
  live : s'.live = s.live.erase f
  next : s'.next = s.next
  value : s'.value = s.value
  opened : s'.opened = s.opened
  fd : s'.fdCounter = s.fdCounter - 1
  kref : s'.kref = s.kref - 1
  pt : s'.pt = s.pt

/-- **`timeline_fence_release`**, with the lock free. -/
theorem timelineFenceRelease_spec (hc : Core s) (hf : f ∈ s.live) :
    ∃ s', timelineFenceRelease rb false s f = some s' ∧ Removed f s s' := by
  set s1 : Timeline := if f ∈ s.ptList then s.unlink rb f else s with hs1
  have hlist : s1.ptList = s.ptList.erase f := by
    rw [hs1]
    split_ifs with h
    · rfl
    · exact (List.erase_of_not_mem h).symm
  have htree : s1.ptTree.inorder = s.ptList.erase f := by
    rw [hs1]
    split_ifs with h
    · rw [Timeline.unlink, Rebalancing.inorder_erase, hc.tree]
    · rw [hc.tree, List.erase_of_not_mem h]
  have hcard : (s.live.erase f).card + 1 = s.live.card := Finset.card_erase_add_one hf
  have hsame : s1.live = s.live ∧ s1.next = s.next ∧ s1.value = s.value ∧ s1.opened = s.opened ∧
      s1.fdCounter = s.fdCounter ∧ s1.kref = s.kref ∧ s1.pt = s.pt := by
    rw [hs1]
    split_ifs <;> exact ⟨rfl, rfl, rfl, rfl, rfl, rfl, rfl⟩
  obtain ⟨hlive, hnext, hvalue, hopened, hfd, hkref, hpt⟩ := hsame
  refine ⟨_, by rw [timelineFenceRelease, if_neg Bool.false_ne_true], ?_⟩
  rw [← hs1]
  refine ⟨⟨?_, ?_, ?_, fun g => ?_, fun g hg => ?_, ?_, ?_, fun g hg => ?_⟩, hlist, ?_, hnext,
    hvalue, hopened, ?_, ?_, hpt⟩
  · simp only [hlist, hvalue, hpt]
    exact hc.sorted.sublist List.erase_sublist
  · exact htree.trans hlist.symm
  · simp only [hlist]
    exact hc.nodup.erase f
  · simp only [hlist, hpt, hlive, Finset.mem_erase, hc.nodup.mem_erase_iff, hc.waiting, and_assoc]
  · simp only [hlist, hvalue, hpt] at *
    exact hc.due g (List.mem_of_mem_erase hg)
  · simp only [hfd, hlive, hc.fd]
    omega
  · simp only [hkref, hlive, hopened, hc.kref]
    generalize (if s.opened then 1 else 0) = k
    omega
  · simp only [hlive, hnext] at *
    exact hc.fresh g (Finset.mem_of_mem_erase hg)
  · simp only [hlive]
  · simp only [hfd]
  · simp only [hkref]

end Mdp.Fence
