import FireTablet.Cmdq.Proof.QueueOrder

/-!
# Submissions, and runs of one thread

A packet that is submitted goes behind the running one, and the last instructions around it are
changed so that the list stays linked (`submit_inv`). With the other events this gives `queue_order`
for every run, and `queue_order_fails` has the runs that do not meet the condition.
-/

namespace Cmdq

variable {g : Nat}

/-! ## Changing last instructions -/

theorem linked_single {pkts : Nat → PktRec} {t : CmdqTask}
    (h : jumpTarget g (pkts t.pkt).pkt.tail = none) : Linked g pkts [t] :=
  ⟨.singleton t, fun u hu => by
    cases hu
    exact h⟩

theorem linked_cons_cons {pkts : Nat → PktRec} {t u : CmdqTask} {l : List CmdqTask} :
    Linked g pkts (t :: u :: l) ↔ JumpsTo g pkts t u ∧ Linked g pkts (u :: l) := by
  constructor
  · intro h
    exact ⟨(List.isChain_cons_cons.1 h.chain).1, h.tail⟩
  · rintro ⟨hj, h⟩
    exact ⟨List.isChain_cons_cons.2 ⟨hj, h.chain⟩, fun v hv => h.last v hv⟩

theorem Linked.congr {pkts pkts' : Nat → PktRec} {l : List CmdqTask} (h : Linked g pkts l)
    (ht : ∀ t ∈ l, (pkts' t.pkt).pkt.tail = (pkts t.pkt).pkt.tail) : Linked g pkts' l := by
  induction l with
  | nil => exact ⟨.nil, nofun⟩
  | cons t l ih =>
    have hl := ih h.tail fun u hu => ht u (List.mem_cons_of_mem _ hu)
    have ht0 := ht t (by simp)
    cases l with
    | nil =>
      refine linked_single ?_
      rw [ht0]
      exact h.last t rfl
    | cons u l =>
      refine linked_cons_cons.2 ⟨?_, hl⟩
      rw [JumpsTo, ht0]
      exact (linked_cons_cons.1 h).1

/-- **A task between two others**: the one before it jumps to it, and it jumps to the next one or is
the last. -/
theorem Linked.insert {pkts pkts' : Nat → PktRec} {l1 l2 : List CmdqTask} {prev task : CmdqTask}
    (h : Linked g pkts (l1 ++ prev :: l2))
    (ht : ∀ t ∈ l1 ++ l2, (pkts' t.pkt).pkt.tail = (pkts t.pkt).pkt.tail)
    (hprev : JumpsTo g pkts' prev task)
    (hnone : l2 = [] → jumpTarget g (pkts' task.pkt).pkt.tail = none)
    (hnext : ∀ next, l2.head? = some next → JumpsTo g pkts' task next) :
    Linked g pkts' (l1 ++ prev :: task :: l2) := by
  induction l1 with
  | nil =>
    refine linked_cons_cons.2 ⟨hprev, ?_⟩
    have hl2 := h.tail.congr fun t hm => ht t hm
    cases l2 with
    | nil => exact linked_single (hnone rfl)
    | cons next l2 => exact linked_cons_cons.2 ⟨hnext next rfl, hl2⟩
  | cons t l1 ih =>
    have hrest := ih h.tail fun u hu => ht u (List.mem_cons_of_mem _ hu)
    have ht0 := ht t (by simp)
    have hj : ∀ u l, l1 ++ prev :: l2 = u :: l → JumpsTo g pkts' t u := by
      intro u l hu
      rw [List.cons_append, hu] at h
      rw [JumpsTo, ht0]
      exact (linked_cons_cons.1 h).1
    cases l1 with
    | nil => exact linked_cons_cons.2 ⟨hj _ _ rfl, hrest⟩
    | cons u l1 => exact linked_cons_cons.2 ⟨hj _ _ rfl, hrest⟩

@[simp] theorem agePkt_pkt (task : CmdqTask) (pkts : Nat → PktRec) (p : Nat) :
    (agePkt task pkts p).pkt = (pkts p).pkt := by
  by_cases hp : p = task.pkt
  · subst hp
    simp [agePkt]
  · simp [agePkt, Function.update_of_ne hp]

theorem connect_of_ne {task next : CmdqTask} {pkts : Nat → PktRec} {p : Nat} (hp : p ≠ task.pkt) :
    cmdqTaskConnectBuffer g task next pkts p = pkts p := by
  rw [cmdqTaskConnectBuffer, Function.update_of_ne hp]

theorem connect_shape (task next : CmdqTask) (pkts : Nat → PktRec) (p : Nat) :
    SameShape (cmdqTaskConnectBuffer g task next pkts p).pkt (pkts p).pkt := by
  by_cases hp : p = task.pkt
  · subst hp
    rw [cmdqTaskConnectBuffer, Function.update_self]
    exact putTail_shape _ _
  · rw [connect_of_ne hp]
    exact .refl _

theorem connect_jumps (hg : g ≤ 3) (task next : CmdqTask) (pkts : Nat → PktRec)
    (ht : (pkts task.pkt).pkt.bases ≠ []) (hd : cmdqInstSize ∣ next.paBase)
    (hlt : next.paBase < 2 ^ 32) : JumpsTo g (cmdqTaskConnectBuffer g task next pkts) task next := by
  rw [JumpsTo, cmdqTaskConnectBuffer, Function.update_self, putTail_tail ht]
  exact jumpTarget_jumpByPa hg hd hlt

/-! ## Where a task goes -/

/-- The packets after a step of the scan: the task that it has passed grows older. -/
def aged (after : List CmdqTask) (pkts : Nat → PktRec) : Nat → PktRec :=
  match after with
  | [] => pkts
  | next :: _ => agePkt next pkts

theorem aged_pkt (after : List CmdqTask) (pkts : Nat → PktRec) (q : Nat) :
    (aged after pkts q).pkt = (pkts q).pkt := by
  cases after with
  | nil => rfl
  | cons next after => exact agePkt_pkt next pkts q

theorem insertScan_cons (pc pkt : Nat) (after : List CmdqTask) (pkts : Nat → PktRec)
    (prev : CmdqTask) (rest : List CmdqTask) :
    insertScan pc pkt after pkts (prev :: rest) =
      if cmdqTaskIsCurrentRun pc (pkts prev.pkt).pkt = true ∨
          (aged after pkts pkt).priority ≤ (aged after pkts prev.pkt).priority then
        some ⟨rest.reverse ++ [prev], prev, after.head?, after, aged after pkts⟩
      else if rest = [] then some ⟨[prev], prev, none, after, aged after pkts⟩
      else insertScan pc pkt (prev :: after) (aged after pkts) rest := by
  have hscan : insertScan pc pkt after pkts (prev :: rest) =
      if (cmdqTaskIsCurrentRun pc (aged after pkts prev.pkt).pkt ||
          (aged after pkts prev.pkt).priority ≥ (aged after pkts pkt).priority) = true then
        some ⟨rest.reverse ++ [prev], prev, after.head?, after, aged after pkts⟩
      else match rest with
        | [] => some ⟨[prev], prev, none, after, aged after pkts⟩
        | _ :: _ => insertScan pc pkt (prev :: after) (aged after pkts) rest := rfl
  rw [hscan, aged_pkt]
  by_cases hstop : cmdqTaskIsCurrentRun pc (pkts prev.pkt).pkt = true ∨
      (aged after pkts pkt).priority ≤ (aged after pkts prev.pkt).priority
  · rw [if_pos hstop, if_pos (by simpa using hstop)]
  · rw [if_neg hstop, if_neg (by simpa using hstop)]
    cases rest <;> simp

/-- The scan stops between the running task and the end of the list. -/
theorem insertScan_stop {pc pkt : Nat} {c : CmdqTask} {p : List CmdqTask} {pos : InsertPos}
    {r after : List CmdqTask} {pkts : Nat → PktRec}
    (hc : cmdqTaskIsCurrentRun pc (pkts c.pkt).pkt = true)
    (h : insertScan pc pkt after pkts (r ++ c :: p) = some pos) :
    ∃ r1 r2, r = r2 ++ r1 ∧ pos.before = (r1 ++ c :: p).reverse ∧ pos.after = r2.reverse ++ after ∧
      (r1 ++ c :: p).head? = some pos.prev ∧ pos.next = pos.after.head? ∧
      ∀ q, (pos.pkts q).pkt = (pkts q).pkt := by
  induction r generalizing after pkts with
  | nil =>
    rw [List.nil_append, insertScan_cons, if_pos (.inl hc), Option.some.injEq] at h
    subst h
    exact ⟨[], [], rfl, by simp, rfl, rfl, rfl, aged_pkt after pkts⟩
  | cons x r ih =>
    rw [List.cons_append, insertScan_cons] at h
    split_ifs at h with hstop hnil
    · cases h
      exact ⟨x :: r, [], rfl, by simp, rfl, rfl, rfl, aged_pkt after pkts⟩
    · simp at hnil
    · obtain ⟨r1, r2, hr, hb, ha, hp, hn, hq⟩ := ih (by rw [aged_pkt]; exact hc) h
      exact ⟨r1, x :: r2, by rw [hr]; rfl, hb, by simp [ha], hp, hn,
        fun q => (hq q).trans (aged_pkt after pkts q)⟩

/-- Who comes to be the last one is not before the last one of the list. -/
theorem insertScan_last {pc pkt : Nat} {c : CmdqTask} {r p : List CmdqTask}
    {pkts : Nat → PktRec} {pos : InsertPos} (hc : cmdqTaskIsCurrentRun pc (pkts c.pkt).pkt = true)
    (h : insertScan pc pkt [] pkts (r ++ c :: p) = some pos) (ha : pos.after = []) :
    ∃ t, (r ++ c :: p).head? = some t ∧
      (cmdqTaskIsCurrentRun pc (pkts t.pkt).pkt = true ∨
        (pkts pkt).priority ≤ (pkts t.pkt).priority) := by
  cases r with
  | nil => exact ⟨c, rfl, .inl hc⟩
  | cons x r =>
    refine ⟨x, rfl, ?_⟩
    by_contra hno
    have haged : aged [] pkts = pkts := rfl
    rw [List.cons_append, insertScan_cons, haged, if_neg hno, if_neg (by simp)] at h
    obtain ⟨r1, r2, -, -, hafter, -⟩ := insertScan_stop hc h
    rw [ha] at hafter
    simp at hafter

/-! ## Submission -/

/-- One more task, whose packet is on pages of its own. -/
theorem QueueInv.more {s s' : ThrSt} (h : QueueInv g s) {pkt : Nat} (hok : SubmitOk g s pkt)
    {task : CmdqTask} (ht : task.pkt = pkt) (hb : task.paBase = (s.pkts pkt).pkt.startPa)
    {q r : List CmdqTask} (hl : s.thr.taskBusyList = q ++ r)
    (hl' : s'.thr.taskBusyList = q ++ task :: r)
    (hshape : ∀ p, SameShape (s'.pkts p).pkt (s.pkts p).pkt) (hs : Sound s'.thr)
    (hu : live s'.thr ≤ s'.usage) (hd : s'.thr.dirty = false)
    (hstop : ∀ t, s'.thr.taskBusyList.getLast? = some t →
      (s'.pkts t.pkt).pkt.endPa = cmdqThreadGetEnd g s')
    (ho : ∃ passed todo, Ordered g s' passed todo) : QueueInv g s' := by
  have hsym : ∀ p, SameShape (s.pkts p).pkt (s'.pkts p).pkt := fun p =>
    ⟨(hshape p).1.symm, (hshape p).2.symm⟩
  refine ⟨hs, hu, hd, fun t hm => ?_, ?_, hstop, fun _ _ => ho⟩
  · have hcase : t = task ∨ t ∈ s.thr.taskBusyList := by
      rw [hl'] at hm
      rw [hl]
      simp only [List.mem_append, List.mem_cons] at hm ⊢
      rcases hm with hm | hm | hm
      · exact .inr (.inl hm)
      · exact .inl hm
      · exact .inr (.inr hm)
    rcases hcase with rfl | hm
    · rw [ht, ← (hsym pkt).startPa]
      exact ⟨(hsym pkt).placed hok.placed, hb⟩
    · obtain ⟨hp, hstart⟩ := h.placed t hm
      rw [← (hsym t.pkt).startPa]
      exact ⟨(hsym t.pkt).placed hp, hstart⟩
  · have hsep : ∀ t u, Separate s.pkts t u → Separate s'.pkts t u := by
      intro t u hd
      refine ⟨hd.1, ?_⟩
      rw [Apart, (hshape t.pkt).1, (hshape u.pkt).1]
      exact hd.2
    have hold : (q ++ r).Pairwise (Separate s'.pkts) := by
      rw [← hl]
      exact h.apart.imp fun hd => hsep _ _ hd
    rw [hl', List.pairwise_middle (fun hd => Separate.symm hd), List.pairwise_cons]
    refine ⟨fun t hm => hsep _ _ ?_, hold⟩
    rw [← hl] at hm
    exact ⟨ht ▸ (hok.free t hm).symm, ht ▸ (hok.apart t hm).symm⟩

/-- A task that the thread goes to at once, behind all others. -/
theorem ordered_last {s : ThrSt} (passed : List CmdqTask) {task : CmdqTask}
    (hl : s.thr.taskBusyList = passed ++ [task]) (hp : Placed (s.pkts task.pkt).pkt)
    (hpc : s.pc g = (s.pkts task.pkt).pkt.startPa)
    (ht : jumpTarget g (s.pkts task.pkt).pkt.tail = none) :
    ∃ passed todo, Ordered g s passed todo := by
  refine ⟨passed, [task], hl, ?_, linked_single ht⟩
  rw [At, hpc]
  exact hp.start_spans

/-- **A task between the running one and the end of the list.** -/
theorem insert_ordered (hg : g ≤ 3) {s : ThrSt} (h : QueueInv g s) {passed rest : List CmdqTask}
    {c task : CmdqTask} (ho : Ordered g s passed (c :: rest)) {pkt : Nat}
    (hok : SubmitOk g s pkt) (ht : task.pkt = pkt) (hb : task.paBase = (s.pkts pkt).pkt.startPa) :
    ∃ q r, s.thr.taskBusyList = q ++ r ∧
      (cmdqTaskInsertIntoThread g (cmdqThreadGetPc g s) task s).thr.taskBusyList =
        q ++ task :: r ∧
      (∀ p, SameShape ((cmdqTaskInsertIntoThread g (cmdqThreadGetPc g s) task s).pkts p).pkt
        (s.pkts p).pkt) ∧
      ∃ passed c todo, Ordered g (cmdqTaskInsertIntoThread g (cmdqThreadGetPc g s) task s)
        passed (c :: todo) := by
  have hne : s.thr.taskBusyList ≠ [] := by simp [ho.list]
  have hcm : c ∈ s.thr.taskBusyList := by simp [ho.list]
  have hcur := (ho.current h hne hcm).2 ho.here
  have hrev : s.thr.taskBusyList.reverse = rest.reverse ++ c :: passed.reverse := by
    simp [ho.list]
  obtain ⟨pos, hpos⟩ := insertScan_isSome (cmdqThreadGetPc g s) task.pkt []
    s.pkts (List.reverse_ne_nil_iff.2 hne)
  rw [hrev] at hpos
  have hlast := insertScan_last hcur hpos
  obtain ⟨r1, r2, hr, hbefore, hafter, hprev, hnext, hsame⟩ := insertScan_stop hcur hpos
  rw [List.append_nil] at hafter
  have hrest : rest = r1.reverse ++ pos.after := by
    rw [hafter, ← List.reverse_append, ← hr, List.reverse_reverse]
  have hbefore' : pos.before = passed ++ c :: r1.reverse := by simp [hbefore]
  -- the last task before the new one
  obtain ⟨l1, hl1⟩ : ∃ l1, c :: r1.reverse = l1 ++ [pos.prev] := by
    cases r1 with
    | nil =>
      cases hprev
      exact ⟨[], rfl⟩
    | cons x r1 =>
      cases hprev
      exact ⟨c :: r1.reverse, by simp⟩
  have htodo : c :: rest = l1 ++ pos.prev :: pos.after := by
    rw [hrest, ← List.cons_append, hl1, List.append_assoc]
    rfl
  have hlist : s.thr.taskBusyList = pos.before ++ pos.after := by
    rw [ho.list, htodo, hbefore', hl1]
    simp
  have hmem : ∀ t ∈ c :: rest, t ∈ s.thr.taskBusyList := fun t hm => by
    rw [ho.list]
    exact List.mem_append_right _ hm
  have hprevm : pos.prev ∈ s.thr.taskBusyList := hmem _ (by simp [htodo])
  have hnd : (l1 ++ pos.prev :: pos.after).Pairwise (Separate s.pkts) := by
    have happ := h.apart
    rw [ho.list] at happ
    exact htodo ▸ (List.pairwise_append.1 happ).2.1
  -- the packets after the two changes
  obtain ⟨pkts1, hp1⟩ : ∃ pkts1, pkts1 = cmdqTaskConnectBuffer g pos.prev task pos.pkts := ⟨_, rfl⟩
  obtain ⟨pkts2, hp2⟩ : ∃ pkts2, pkts2 = pos.next.elim pkts1 fun next =>
      cmdqTaskConnectBuffer g task next pkts1 := ⟨_, rfl⟩
  have hres : cmdqTaskInsertIntoThread g (cmdqThreadGetPc g s) task s =
      (({ s with pkts := pkts2 } : ThrSt).setPc g (cmdqThreadGetPc g s)).setList
        (pos.before ++ task :: pos.after) := by
    rw [cmdqTaskInsertIntoThread, hrev, hpos]
    subst hp2
    subst hp1
    dsimp only
    cases pos.next <;> rfl
  have hshape1 : ∀ p, SameShape (pkts1 p).pkt (s.pkts p).pkt := fun p => by
    rw [hp1, ← hsame p]
    exact connect_shape _ _ _ p
  have hshape2 : ∀ p, SameShape (pkts2 p).pkt (s.pkts p).pkt := fun p => by
    rw [hp2]
    cases pos.next with
    | none => exact hshape1 p
    | some next => exact (connect_shape _ _ _ p).trans (hshape1 p)
  have htail2 : ∀ p, p ≠ pkt → (pkts2 p).pkt = (pkts1 p).pkt := fun p hp => by
    rw [hp2]
    cases pos.next with
    | none => rfl
    | some next => simp only [Option.elim_some, connect_of_ne (ht.symm ▸ hp : p ≠ task.pkt)]
  have htail1 : ∀ p, p ≠ pos.prev.pkt → (pkts1 p).pkt = (s.pkts p).pkt := fun p hp => by
    rw [hp1, connect_of_ne hp, hsame p]
  have hprevne : pos.prev.pkt ≠ pkt := hok.free _ hprevm
  have hbases : ∀ p, Placed (s.pkts p).pkt → (pkts1 p).pkt.bases ≠ [] := fun p hp =>
    (hshape1 p).1 ▸ hp.ne
  have hlinked : Linked g pkts2 (l1 ++ pos.prev :: task :: pos.after) := by
    have hlink := ho.linked
    rw [htodo] at hlink
    refine hlink.insert (fun t hm => ?_) ?_ (fun hnil => ?_) fun next hn => ?_
    · have htm : t ∈ s.thr.taskBusyList := hmem t (by
        rw [htodo]
        rcases List.mem_append.1 hm with hm | hm
        · exact List.mem_append_left _ hm
        · exact List.mem_append_right _ (List.mem_cons_of_mem _ hm))
      have htne : t.pkt ≠ pos.prev.pkt := by
        rw [List.pairwise_append, List.pairwise_cons] at hnd
        obtain ⟨-, ⟨hright, -⟩, hleft⟩ := hnd
        rcases List.mem_append.1 hm with hm | hm
        · exact (hleft t hm _ (by simp)).1
        · exact (hright t hm).1.symm
      rw [htail2 _ (hok.free t htm), htail1 _ htne]
    · have hj := connect_jumps (g := g) hg pos.prev task pos.pkts
        (by rw [hsame]; exact (h.placed _ hprevm).1.ne) (hb ▸ hok.placed.startPa_slot)
        (hb ▸ hok.placed.startPa_lt)
      rw [JumpsTo, ← hp1] at hj
      rw [JumpsTo, htail2 _ hprevne]
      exact hj
    · -- the new task is the last one: it has not been changed
      have hn : pos.next = none := by rw [hnext, hnil]; rfl
      rw [hn] at hp2
      have hp2' : pkts2 = pkts1 := hp2
      rw [hp2', ht, htail1 _ hprevne.symm]
      refine hok.plain (.inr (.inr (.inr ?_)))
      obtain ⟨t, hhead, hstop⟩ := hlast hnil
      have htl : s.thr.taskBusyList.getLast? = some t := by
        rw [← List.head?_reverse, hrev]
        exact hhead
      rw [ho.current h hne (List.mem_of_getLast? htl), ht] at hstop
      exact ⟨t, htl, hstop⟩
    · have hn' : pos.next = some next := hnext.trans hn
      rw [hn'] at hp2
      have hp2' : pkts2 = cmdqTaskConnectBuffer g task next pkts1 := hp2
      have hnm : next ∈ s.thr.taskBusyList := by
        rw [hlist]
        exact List.mem_append_right _ (List.mem_of_head? hn)
      obtain ⟨hpl, hstart⟩ := h.placed next hnm
      rw [hp2']
      exact connect_jumps hg _ _ _ (hbases _ (ht ▸ hok.placed)) (hstart ▸ hpl.startPa_slot)
        (hstart ▸ hpl.startPa_lt)
  refine ⟨pos.before, pos.after, hlist, by rw [hres]; rfl, fun p => by rw [hres]; exact hshape2 p,
    passed, c, r1.reverse ++ task :: pos.after, ?_, ?_, ?_⟩
  · rw [hres, busy_setList, hbefore', List.append_assoc]
    rfl
  · have hpc : (cmdqTaskInsertIntoThread g (cmdqThreadGetPc g s) task s).pc g = s.pc g := by
      have hlt : s.pc g < 2 ^ 32 := (h.placed c hcm).1.lt_of_spans ho.here
      have hle : s.thr.currAddr ≤ s.pc g := by
        rw [ThrSt.pc, Nat.shiftLeft_eq]
        exact Nat.le_mul_of_pos_right _ (Nat.two_pow_pos g)
      rw [hres, ho.getPc h hne]
      show ((s.pc g >>> g) % 2 ^ 32) <<< g = s.pc g
      rw [ThrSt.pc, Nat.shiftLeft_shiftRight, Nat.mod_eq_of_lt (by omega)]
    rw [At, hpc, hres]
    exact (hshape2 c.pkt).spans.2 ho.here
  · rw [← List.cons_append, hl1, List.append_assoc, hres]
    exact hlinked

theorem submit_inv (hg : g ≤ 3) {s : ThrSt} (h : QueueInv g s) (hin : PcInside g s) {pkt : Nat}
    (hok : SubmitOk g s pkt) (serial : Nat) (ptr : Option Nat) :
    QueueInv g (cmdqTaskExec g serial pkt ptr s).2 := by
  have ha := exec_accepts (g := g) serial pkt ptr s
  have hsound := ha.sound h.sound
  have husage : live (cmdqTaskExec g serial pkt ptr s).2.thr ≤
      (cmdqTaskExec g serial pkt ptr s).2.usage := by
    have := ha.balance h.sound
    have := h.usage
    omega
  have hdirty := ha.dirty.trans h.clean
  cases hbuf : (s.pkts pkt).pkt.buf with
  | nil => exact absurd (by rw [CmdqPkt.bases, hbuf]; rfl) hok.placed.ne
  | cons buf bufs =>
  have hstart : buf.paBase = (s.pkts pkt).pkt.startPa := by rw [CmdqPkt.startPa, hbuf]
  have hpl := hok.placed
  cases ptr with
  | none =>
    simp only [cmdqTaskExec, hbuf]
    exact h
  | some ptr =>
    obtain ⟨task, htask⟩ : ∃ task : CmdqTask, task = ⟨serial, ptr, pkt, buf.paBase⟩ := ⟨_, rfl⟩
    have ht : task.pkt = pkt := by rw [htask]
    have hb : task.paBase = (s.pkts pkt).pkt.startPa := by rw [htask, ← hstart]
    have hslot : cmdqInstSize ∣ task.paBase := hb ▸ hpl.startPa_slot
    have hlt : task.paBase < 2 ^ 32 := hb ▸ hpl.startPa_lt
    have hplt : Placed (s.pkts task.pkt).pkt := ht ▸ hpl
    have hbt : task.paBase = (s.pkts task.pkt).pkt.startPa := ht ▸ hb
    have hbb : buf.paBase = task.paBase := by rw [htask]
    simp only [cmdqTaskExec, hbuf, ← htask] at hsound husage hdirty ⊢
    simp only [hbb] at hsound husage hdirty ⊢
    by_cases hq : s.thr.taskBusyList = []
    · rw [if_pos hq] at hsound husage hdirty ⊢
      refine h.more hok ht hb (q := []) (r := []) hq rfl (fun p => .refl _) hsound husage hdirty
        (fun t hm => ?_) (ordered_last [] rfl hplt ?_ ?_)
      · have hm' : [task].getLast? = some t := hm
        obtain rfl : task = t := by simpa using hm'
        show (s.pkts task.pkt).pkt.endPa = _
        rw [ht]
        exact (reg_back hg hpl.endPa_slot hpl.endPa_lt).symm
      · exact (reg_back hg hslot hlt).trans hbt
      · exact ht ▸ hok.plain (.inl hq)
    · rw [if_neg hq] at hsound husage hdirty ⊢
      obtain ⟨passed, todo, ho⟩ := h.order hq hin
      by_cases hend : cmdqThreadGetPc g s + cmdqInstSize = cmdqThreadGetEnd g s ∨
          cmdqThreadGetPc g s = cmdqThreadGetEnd g s
      · simp only [if_pos hend] at hsound husage hdirty ⊢
        rw [ho.getPc h hq] at hend
        have hlast : (s.thr.taskBusyList ++ [task]).getLast? = some task := by simp
        have hpl' : Placed ((((s.setPc g task.paBase).setList
            (s.thr.taskBusyList ++ [task])).pkts) task.pkt).pkt := hplt
        have hpkts : ∀ s : ThrSt, (s.resetEnd g).pkts = s.pkts := fun s => by
          rw [ThrSt.resetEnd]
          split <;> rfl
        refine h.more hok ht hb (q := s.thr.taskBusyList) (r := []) (List.append_nil _).symm
          (busy_resetEnd _) (fun p => by rw [hpkts]; exact .refl _) hsound husage hdirty
          (fun t hm => ?_) (ordered_last s.thr.taskBusyList (busy_resetEnd _) ?_ ?_ ?_)
        · rw [busy_resetEnd, busy_setList, hlast, Option.some.injEq] at hm
          subst hm
          rw [hpkts]
          exact (end_resetEnd hg hlast hpl').symm
        · rw [hpkts]
          exact hpl'
        · rw [pc_resetEnd, hpkts]
          exact (reg_back hg hslot hlt).trans hbt
        · rw [hpkts]
          refine ht ▸ hok.plain (.inr ?_)
          rcases hend with he | he
          · exact .inl he
          · exact .inr (.inl he)
      · simp only [if_neg hend] at hsound husage hdirty ⊢
        cases todo with
        | nil =>
          rw [ho.getPc h hq] at hend
          exact absurd (.inr ho.here) hend
        | cons c rest =>
          obtain ⟨q, r, hl, hl', hshape, p1, c', p2, ho'⟩ := insert_ordered hg h ho hok ht hb
          generalize cmdqTaskInsertIntoThread g (cmdqThreadGetPc g s) task s = s1 at *
          have hpkts : (s1.resetEnd g).pkts = s1.pkts := by
            rw [ThrSt.resetEnd]
            split <;> rfl
          obtain ⟨t, hlast⟩ : ∃ t, s1.thr.taskBusyList.getLast? = some t :=
            Option.ne_none_iff_exists'.1 fun hn => by
              rw [List.getLast?_eq_none_iff, hl'] at hn
              simp at hn
          have htp : Placed (s1.pkts t.pkt).pkt := by
            have hm := List.mem_of_getLast? hlast
            rw [hl'] at hm
            have hsym : SameShape (s.pkts t.pkt).pkt (s1.pkts t.pkt).pkt :=
              ⟨(hshape t.pkt).1.symm, (hshape t.pkt).2.symm⟩
            refine hsym.placed ?_
            rcases List.mem_append.1 hm with hm | hm
            · exact (h.placed t (by rw [hl]; exact List.mem_append_left _ hm)).1
            · rcases List.mem_cons.1 hm with rfl | hm
              · exact hplt
              · exact (h.placed t (by rw [hl]; exact List.mem_append_right _ hm)).1
          refine h.more hok ht hb hl ((busy_resetEnd _).trans hl')
            (fun p => by rw [hpkts]; exact hshape p) hsound husage hdirty (fun u hu => ?_)
            ⟨p1, c' :: p2, (busy_resetEnd _).trans ho'.list, ?_, ?_⟩
          · rw [busy_resetEnd, hlast, Option.some.injEq] at hu
            subst hu
            rw [hpkts]
            exact (end_resetEnd hg hlast htp).symm
          · rw [At, pc_resetEnd, hpkts]
            exact ho'.here
          · rw [hpkts]
            exact ho'.linked

/-! ## The other events -/

/-- The thread runs on. -/
theorem progress_inv {s : ThrSt} (h : QueueInv g s) (hin : PcInside g s) {addr : Nat}
    (hok : HwMove g s (addr <<< g)) :
    QueueInv g { s with thr := { s.thr with currAddr := addr } } := by
  obtain ⟨t, ht, hspans, hmove⟩ := hok
  have hne : s.thr.taskBusyList ≠ [] := List.ne_nil_of_mem ht
  refine ⟨h.sound, h.usage, h.clean, h.placed, h.apart, h.stop, fun _ _ => ?_⟩
  obtain ⟨passed, todo, ho⟩ := h.order hne hin
  cases todo with
  | nil =>
    have hpc : s.pc g = cmdqThreadGetEnd g s := ho.here
    rw [hpc] at hspans
    exact absurd hspans (h.stop_not_spans ht)
  | cons c rest =>
    have hcm : c ∈ s.thr.taskBusyList := by simp [ho.list]
    have htc : t = c := by
      by_contra hn
      exact h.onPage ht hcm hn hspans.onPage (CmdqPkt.Spans.onPage ho.here)
    subst htc
    rcases hmove with hmove | hmove
    · exact ⟨passed, t :: rest, ho.list, hmove, ho.linked⟩
    · cases rest with
      | nil =>
        have hend := h.stop_of_suffix ho.list (t := t) rfl
        have hnone := ho.linked.last t rfl
        have hexit : (s.pkts t.pkt).pkt.exit g = cmdqThreadGetEnd g s := by
          rw [CmdqPkt.exit, hnone, Option.getD_none, hend]
        exact ⟨passed ++ [t], [], by rw [List.append_nil]; exact ho.list, hmove.trans hexit,
          .nil, fun _ h => by cases h⟩
      | cons u rest =>
        obtain ⟨hjump, hlink⟩ := linked_cons_cons.1 ho.linked
        obtain ⟨hpl, hstart⟩ := h.placed u (by simp [ho.list])
        have hexit : (s.pkts t.pkt).pkt.exit g = (s.pkts u.pkt).pkt.startPa := by
          rw [CmdqPkt.exit, hjump, Option.getD_some, hstart]
        have hnew : (s.pkts u.pkt).pkt.Spans (addr <<< g) := by
          rw [hmove, hexit]
          exact hpl.start_spans
        refine ⟨passed ++ [t], u :: rest, ?_, hnew, hlink⟩
        rw [List.append_assoc]
        exact ho.list

/-- A client builds a packet that is not queued. -/
theorem client_inv {s : ThrSt} (h : QueueInv g s) {pkt : Nat} {rec : PktRec}
    (hok : ∀ t ∈ s.thr.taskBusyList, t.pkt ≠ pkt) :
    QueueInv g { s with pkts := Function.update s.pkts pkt rec } := by
  have hp : ∀ t ∈ s.thr.taskBusyList, Function.update s.pkts pkt rec t.pkt = s.pkts t.pkt :=
    fun t ht => Function.update_of_ne (hok t ht) _ _
  refine ⟨h.sound, h.usage, h.clean, fun t ht => ?_, ?_, fun t ht => ?_, fun hne hin => ?_⟩
  · simp only [hp t ht]
    exact h.placed t ht
  · refine h.apart.imp_of_mem fun ht hu hd => ⟨hd.1, ?_⟩
    simp only [hp _ ht, hp _ hu]
    exact hd.2
  · simp only [hp t (List.mem_of_getLast? ht)]
    exact h.stop t ht
  · have hin' : PcInside g s := by
      rcases hin with hnil | hend | ⟨t, ht, hs⟩
      · exact .inl hnil
      · exact .inr (.inl hend)
      · simp only [hp t ht] at hs
        exact .inr (.inr ⟨t, ht, hs⟩)
    obtain ⟨passed, todo, ho⟩ := h.order hne hin'
    have htodo : ∀ t ∈ todo, t ∈ s.thr.taskBusyList := fun t ht => by
      rw [ho.list]
      exact List.mem_append_right _ ht
    refine ⟨passed, todo, ho.list, ?_, ho.linked.congr fun t ht => by
      simp only [hp t (htodo t ht)]⟩
    cases todo with
    | nil => exact ho.here
    | cons c rest =>
      have hc := hp c (htodo c (by simp))
      simp only [At, hc]
      exact ho.here

/-- **Every event keeps the invariant.** -/
theorem queueStep_inv (hg : g ≤ 3) {s : ThrSt} {e : QueueEv} (h : QueueInv g s)
    (hok : QueueOk g s e) : ∃ o s', queueStep g s e = some (o, s') ∧ QueueInv g s' := by
  obtain ⟨hin, hok⟩ := hok
  cases e with
  | submit serial pkt ptr => exact ⟨_, _, rfl, submit_inv hg h hin hok serial ptr⟩
  | irq flag =>
    refine ⟨_, _, rfl, ?_⟩
    by_cases hne : s.thr.taskBusyList = []
    · have hen : s.thr.enabled = false := by
        by_contra hen
        exact h.sound.1 (by simpa using hen) hne
      have hs : (cmdqThreadIrqHandler g flag s).s = s := by
        simp [cmdqThreadIrqHandler, hen]
      exact hs.symm ▸ h
    · exact (irq_inv h hne hok hin).1
  | removeTask pkt flag => exact ⟨_, _, rfl, removeTask_inv hg h hin hok.1 hok.2⟩
  | progress addr => exact ⟨_, _, rfl, progress_inv h hin hok⟩
  | client pkt rec => exact ⟨_, _, rfl, client_inv h hok⟩

/-! ## Runs -/

theorem queueInv_idle (usage currAddr endAddr : Nat) (pkts : Nat → PktRec) :
    QueueInv g (.idle usage currAddr endAddr pkts) where
  sound := by simp [Sound, ThrSt.idle]
  usage := by simp [live, ThrSt.idle]
  clean := rfl
  placed := nofun
  apart := .nil
  stop := nofun
  order hne := absurd rfl hne

/-- **The engine runs the packets of a thread in the order of its list**, and none that has been
removed or is done, in every state of a run whose events meet the condition. -/
theorem queue_order (plat : GcePlat) (usage currAddr endAddr : Nat) (pkts : Nat → PktRec)
    (evs : List QueueEv)
    (hok : Sys.Along (queueStep plat.shift) (QueueOk plat.shift) (.idle usage currAddr endAddr pkts)
      evs) :
    ∃ es s, Sys.run (queueStep plat.shift) (.idle usage currAddr endAddr pkts) evs = some (es, s) ∧
      (PcInside plat.shift s → QueueOrder plat.shift s) := by
  have hg : plat.shift ≤ 3 := by cases plat <;> decide
  obtain ⟨es, s, hrun, hinv⟩ := Sys.run_hist_along (I := fun _ s => QueueInv plat.shift s)
    (fun _ s e h hok => queueStep_inv hg h hok) evs [] _ (queueInv_idle usage currAddr endAddr pkts)
    hok
  exact ⟨es, s, hrun, hinv.queueOrder⟩

/-- Finalized packets with one buffer each. -/
def readyPkts (pkt : Nat) : PktRec where
  pkt := ⟨[⟨false, 0x10000 * (pkt + 1), fun off =>
    if off = 80 then cmdqEocCmd
    else if off = 88 then cmdqPktInstrEncoder (jumpArgs 3 cmdqJumpPass) else 0⟩], 3744, 96, 3840⟩
  priority := 0
  loop := false

theorem readyPkts_placed : Placed (readyPkts 0).pkt ∧ Placed (readyPkts 1).pkt :=
  ⟨⟨by decide, by decide, by decide, by decide, by decide⟩,
    by decide, by decide, by decide, by decide, by decide⟩

/-- The second packet is submitted while the first one runs, and the first one is done. -/
theorem queue_order_two :
    ∃ es s, Sys.run (queueStep 3) (.idle 0 0 0 readyPkts)
        [.submit 0 0 (some 100), .submit 1 1 (some 200), .progress 0x4000, .irq .done] =
          some (es, s) ∧
      (PcInside 3 s → QueueOrder 3 s) := by
  refine queue_order .v4 0 0 0 readyPkts _ ⟨⟨by decide, ?_⟩, fun _ _ h => ?_⟩
  · exact ⟨nofun, readyPkts_placed.1, nofun, fun _ => by decide⟩
  cases h
  refine ⟨⟨by decide, by decide, readyPkts_placed.2, by decide, fun _ => by decide⟩,
    fun _ _ h => ?_⟩
  cases h
  refine ⟨⟨by decide, ⟨0, 100, 0, 0x10000⟩, by decide, by decide, .inr (by decide)⟩,
    fun _ _ h => ?_⟩
  cases h
  exact ⟨⟨by decide, nofun⟩, fun _ _ _ => trivial⟩

/-- The last instruction of the last task leads elsewhere. -/
theorem not_queueOrder {s : ThrSt} {t : CmdqTask} (hl : s.thr.taskBusyList.getLast? = some t)
    (ht : jumpTarget g (s.pkts t.pkt).pkt.tail ≠ none) (hpc : s.pc g ≠ cmdqThreadGetEnd g s) :
    ¬QueueOrder g s := by
  rintro (⟨hnil, -⟩ | ⟨passed, todo, hlist, hlink, -, hrun⟩)
  · rw [hnil] at hl
    cases hl
  · cases hlast : todo.getLast? with
    | none =>
      rw [List.getLast?_eq_none_iff.1 hlast] at hrun
      generalize s.pc g = pc at hpc hrun
      cases hrun
      exact hpc rfl
    | some u =>
      rw [hlist, List.getLast?_append, hlast, Option.some_or, Option.some.injEq] at hl
      exact ht (hl ▸ hlink.last u hlast)

/-- The first packet is done and submitted again: its last instruction still jumps to the second
one. The second packet is removed while the first one runs, whose last instruction still jumps to
it. -/
theorem queue_order_fails :
    (∃ es s, Sys.run (queueStep 3) (.idle 0 0 0 readyPkts)
        [.submit 0 0 (some 100), .submit 1 1 (some 200), .progress 0x4000, .irq .done,
          .submit 2 0 (some 300)] = some (es, s) ∧
      Sys.Along (queueStep 3) (fun s _ => PcInside 3 s) (.idle 0 0 0 readyPkts)
        [.submit 0 0 (some 100), .submit 1 1 (some 200), .progress 0x4000, .irq .done,
          .submit 2 0 (some 300)] ∧
      PcInside 3 s ∧ ¬QueueOrder 3 s) ∧
    ∃ es s, Sys.run (queueStep 3) (.idle 0 0 0 readyPkts)
        [.submit 0 0 (some 100), .submit 1 1 (some 200), .removeTask 1 .none] = some (es, s) ∧
      Sys.Along (queueStep 3) (fun s _ => PcInside 3 s) (.idle 0 0 0 readyPkts)
        [.submit 0 0 (some 100), .submit 1 1 (some 200), .removeTask 1 .none] ∧
      PcInside 3 s ∧ ¬QueueOrder 3 s := by
  refine ⟨⟨_, _, rfl, by decide, by decide, ?_⟩, _, _, rfl, by decide, by decide, ?_⟩
  · exact not_queueOrder (t := ⟨2, 300, 0, 0x10000⟩) (by decide) (by decide) (by decide)
  · exact not_queueOrder (t := ⟨0, 100, 0, 0x10000⟩) (by decide) (by decide) (by decide)

end Cmdq
