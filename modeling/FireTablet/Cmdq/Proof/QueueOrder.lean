import FireTablet.Cmdq.Proof.QueueFacts
import FireTablet.Cmdq.Proof.TaskLife
import Mathlib.Data.List.Chain
import Mathlib.Data.List.Pairwise

/-!
# The order of a thread's packets

`QueueInv`: the packets of a list are on pages of their own, the end address is the end of the last
one, and where the program counter is inside one of them or at the end address, the tasks from there
on are linked (`Ordered`). Every event that meets `QueueOk` keeps it, so the engine runs exactly
these tasks (`queue_order`).
-/

namespace Cmdq

variable {g : Nat}

/-- The program counter is in the first of the tasks that are not passed, or at the end address. -/
def At (g : Nat) (s : ThrSt) : List CmdqTask → Prop
  | [] => s.pc g = cmdqThreadGetEnd g s
  | t :: _ => (s.pkts t.pkt).pkt.Spans (s.pc g)

/-- A list's tasks, those that are passed first. -/
structure Ordered (g : Nat) (s : ThrSt) (passed todo : List CmdqTask) : Prop where
  list : s.thr.taskBusyList = passed ++ todo
  here : At g s todo
  linked : Linked g s.pkts todo

/-- The packets of two tasks are different and share no page. -/
def Separate (pkts : Nat → PktRec) (t u : CmdqTask) : Prop :=
  t.pkt ≠ u.pkt ∧ Apart (pkts t.pkt).pkt (pkts u.pkt).pkt

/-- **The invariant of a thread.** -/
structure QueueInv (g : Nat) (s : ThrSt) : Prop where
  sound : Sound s.thr
  usage : live s.thr ≤ s.usage
  clean : s.thr.dirty = false
  placed : ∀ t ∈ s.thr.taskBusyList,
    Placed (s.pkts t.pkt).pkt ∧ t.paBase = (s.pkts t.pkt).pkt.startPa
  apart : s.thr.taskBusyList.Pairwise (Separate s.pkts)
  stop : ∀ t, s.thr.taskBusyList.getLast? = some t →
    (s.pkts t.pkt).pkt.endPa = cmdqThreadGetEnd g s
  order : s.thr.taskBusyList ≠ [] → PcInside g s → ∃ passed todo, Ordered g s passed todo

theorem Separate.symm {pkts : Nat → PktRec} {t u : CmdqTask} (h : Separate pkts t u) :
    Separate pkts u t := ⟨h.1.symm, h.2.symm⟩

instance (pkts : Nat → PktRec) : Std.Symm (Separate pkts) := ⟨fun _ _ => Separate.symm⟩

/-! ## What the engine runs -/

theorem Linked.tail {pkts : Nat → PktRec} {t : CmdqTask} {l : List CmdqTask}
    (h : Linked g pkts (t :: l)) : Linked g pkts l where
  chain := h.chain.tail
  last u hu := by
    cases l with
    | nil => cases hu
    | cons v l => exact h.last u hu

/-- Linked packets are what the engine runs. -/
theorem hwRun_of_linked {s : ThrSt} {todo : List CmdqTask} (hl : Linked g s.pkts todo)
    (hp : ∀ t ∈ todo, Placed (s.pkts t.pkt).pkt ∧ t.paBase = (s.pkts t.pkt).pkt.startPa)
    (he : ∀ t, todo.getLast? = some t → (s.pkts t.pkt).pkt.endPa = cmdqThreadGetEnd g s)
    (pc : Nat) (hpc : match todo with
      | [] => pc = cmdqThreadGetEnd g s
      | t :: _ => (s.pkts t.pkt).pkt.Spans pc) :
    HwRun g s.pkts (cmdqThreadGetEnd g s) pc (todo.map CmdqTask.pkt) := by
  induction todo generalizing pc with
  | nil =>
    rw [hpc]
    exact .stop
  | cons t l ih =>
    refine .packet t.pkt hpc (ih hl.tail (fun u hu => hp u (List.mem_cons_of_mem _ hu))
      (fun u hu => he u ?_) _ ?_)
    · cases l with
      | nil => cases hu
      | cons v l => exact hu
    · cases l with
      | nil =>
        have hnone := hl.last t rfl
        simp only [CmdqPkt.exit, hnone, Option.getD_none]
        exact he t rfl
      | cons u l =>
        have hjump : jumpTarget g (s.pkts t.pkt).pkt.tail = some u.paBase :=
          (List.isChain_cons_cons.1 hl.chain).1
        obtain ⟨hpl, hstart⟩ := hp u (by simp)
        simp only [CmdqPkt.exit, hjump, Option.getD_some, hstart]
        exact hpl.start_spans

theorem QueueInv.queueOrder {s : ThrSt} (h : QueueInv g s) (hpc : PcInside g s) :
    QueueOrder g s := by
  by_cases hne : s.thr.taskBusyList = []
  · refine .inl ⟨hne, ?_⟩
    by_contra hen
    exact h.sound.1 (by simpa using hen) hne
  · obtain ⟨passed, todo, ho⟩ := h.order hne hpc
    have hstop : ∀ t, todo.getLast? = some t →
        (s.pkts t.pkt).pkt.endPa = cmdqThreadGetEnd g s := by
      intro t ht
      refine h.stop t ?_
      rw [ho.list, List.getLast?_append, ht, Option.some_or]
    refine .inr ⟨passed, todo, ho.list, ho.linked, hstop, ?_⟩
    refine hwRun_of_linked ho.linked (fun t ht => h.placed t ?_) hstop _ ?_
    · rw [ho.list]
      exact List.mem_append_right _ ht
    · have hh := ho.here
      cases todo <;> exact hh

/-! ## Where the program counter is -/

section
variable {s : ThrSt} (h : QueueInv g s)
include h

/-- An address on a page of one task is on no page of another one. -/
theorem QueueInv.onPage {t u : CmdqTask} (ht : t ∈ s.thr.taskBusyList)
    (hu : u ∈ s.thr.taskBusyList) (hne : t ≠ u) {pa : Nat}
    (hpa : (s.pkts t.pkt).pkt.OnPage pa) : ¬(s.pkts u.pkt).pkt.OnPage pa := by
  have hd := h.apart.forall ht hu hne
  exact hd.2.onPage (h.placed t ht).1 (h.placed u hu).1 hpa

/-- The end address is inside no task. -/
theorem QueueInv.stop_not_spans {u : CmdqTask} (hu : u ∈ s.thr.taskBusyList) :
    ¬(s.pkts u.pkt).pkt.Spans (cmdqThreadGetEnd g s) := by
  obtain ⟨t, ht⟩ : ∃ t, s.thr.taskBusyList.getLast? = some t :=
    Option.ne_none_iff_exists'.1 fun hn => by
      rw [List.getLast?_eq_none_iff.1 hn] at hu
      cases hu
  have hmem := List.mem_of_getLast? ht
  have hpl := (h.placed t hmem).1
  rw [← h.stop t ht]
  by_cases htu : t = u
  · subst htu
    exact hpl.endPa_not_spans
  · intro hs
    exact h.onPage hmem hu htu hpl.endPa_onPage hs.onPage

theorem QueueInv.nodup : s.thr.taskBusyList.Nodup :=
  h.apart.imp fun hd he => hd.1 (congrArg CmdqTask.pkt he)

/-- Of the tasks only the running one is current. -/
theorem Ordered.passed {passed todo : List CmdqTask} (ho : Ordered g s passed todo) :
    ∀ u ∈ passed, ¬(s.pkts u.pkt).pkt.Spans (s.pc g) := by
  intro u hu
  have hmem : u ∈ s.thr.taskBusyList := by
    rw [ho.list]
    exact List.mem_append_left _ hu
  have hh := ho.here
  cases todo with
  | nil =>
    have hpc : s.pc g = cmdqThreadGetEnd g s := hh
    rw [hpc]
    exact h.stop_not_spans hmem
  | cons t rest =>
    have ht : t ∈ s.thr.taskBusyList := by simp [ho.list]
    have hnd := h.nodup
    rw [ho.list, List.nodup_append] at hnd
    intro hs
    exact h.onPage ht hmem (hnd.2.2 u hu t (by simp)).symm hh.onPage hs.onPage

end

/-- The program counter is on a page of none of the tasks. -/
theorem not_pcInside {s : ThrSt} {c : CmdqPkt} (hc : Placed c) (hpc : c.OnPage (s.pc g))
    (hne : s.thr.taskBusyList ≠ []) (ha : ∀ u ∈ s.thr.taskBusyList,
      Placed (s.pkts u.pkt).pkt ∧ Apart c (s.pkts u.pkt).pkt)
    (hstop : ∀ t, s.thr.taskBusyList.getLast? = some t →
      (s.pkts t.pkt).pkt.endPa = cmdqThreadGetEnd g s) : ¬PcInside g s := by
  rintro (hnil | hend | ⟨t, ht, hs⟩)
  · exact hne hnil
  · obtain ⟨t, ht⟩ : ∃ t, s.thr.taskBusyList.getLast? = some t :=
      Option.ne_none_iff_exists'.1 fun hn => hne (List.getLast?_eq_none_iff.1 hn)
    obtain ⟨hpl, hap⟩ := ha t (List.mem_of_getLast? ht)
    refine hap.onPage hc hpl hpc ?_
    rw [hend, ← hstop t ht]
    exact hpl.endPa_onPage
  · obtain ⟨hpl, hap⟩ := ha t ht
    exact hap.onPage hc hpl hpc hs.onPage

/-- A state with fewer tasks of the same packets. -/
theorem QueueInv.fewer {s s' : ThrSt} (h : QueueInv g s) (hs : Sound s'.thr)
    (hu : live s'.thr ≤ s'.usage) (hd : s'.thr.dirty = false) (hp : s'.pkts = s.pkts)
    (hl : s'.thr.taskBusyList.Sublist s.thr.taskBusyList)
    (hstop : ∀ t, s'.thr.taskBusyList.getLast? = some t →
      (s'.pkts t.pkt).pkt.endPa = cmdqThreadGetEnd g s')
    (ho : s'.thr.taskBusyList ≠ [] → PcInside g s' → ∃ passed todo, Ordered g s' passed todo) :
    QueueInv g s' where
  sound := hs
  usage := hu
  clean := hd
  placed t ht := by
    rw [hp]
    exact h.placed t (hl.subset ht)
  apart := by
    rw [hp]
    exact h.apart.sublist hl
  stop := hstop
  order := ho

/-! ## Interrupts -/

/-- The tasks that stay when the interrupt handler has given back those that are done. -/
def afterIrq (pkts : Nat → PktRec) (pc : Nat) : List CmdqTask → List CmdqTask
  | [] => []
  | t :: rest => if pc + cmdqInstSize = (pkts t.pkt).pkt.endPa then rest else t :: rest

theorem irqScan_ordered (pc : Nat) (pkts : Nat → PktRec) (passed todo : List CmdqTask)
    (hp : ∀ u ∈ passed, cmdqTaskIsCurrentRun pc (pkts u.pkt).pkt = false)
    (ht : ∀ t, todo.head? = some t → cmdqTaskIsCurrentRun pc (pkts t.pkt).pkt = true) :
    (irqScan pc 0 pkts (passed ++ todo)).failed = false ∧
      (irqScan pc 0 pkts (passed ++ todo)).rest = afterIrq pkts pc todo := by
  induction passed with
  | nil =>
    cases todo with
    | nil => exact ⟨rfl, rfl⟩
    | cons t rest =>
      have hcur := ht t rfl
      rw [List.nil_append, irqScan, if_pos hcur, afterIrq]
      by_cases hend : pc + cmdqInstSize = (pkts t.pkt).pkt.endPa
      · rw [if_pos hend, if_pos hend]
        exact ⟨rfl, rfl⟩
      · rw [if_neg hend, if_neg hend, if_neg (fun hn => hn rfl)]
        exact ⟨rfl, rfl⟩
  | cons u passed ih =>
    have hu := hp u (by simp)
    have hrest := ih fun v hv => hp v (List.mem_cons_of_mem _ hv)
    rw [List.cons_append, irqScan, if_neg (by simp [hu])]
    exact hrest

section
variable {s : ThrSt} (h : QueueInv g s) {passed todo : List CmdqTask}
  (ho : Ordered g s passed todo) (hne : s.thr.taskBusyList ≠ [])
include h ho hne

/-- The driver reads the program counter as it is. -/
theorem Ordered.getPc : cmdqThreadGetPc g s = s.pc g := by
  have hlive : live s.thr = 1 := if_neg hne
  have hu := h.usage
  have hlt : s.pc g < 2 ^ 32 := by
    have hh := ho.here
    cases todo with
    | cons t rest =>
      have ht : t ∈ s.thr.taskBusyList := by simp [ho.list]
      exact (h.placed t ht).1.lt_of_spans hh
    | nil =>
      obtain ⟨t, ht⟩ : ∃ t, s.thr.taskBusyList.getLast? = some t :=
        Option.ne_none_iff_exists'.1 fun hn => hne (List.getLast?_eq_none_iff.1 hn)
      have hpc : s.pc g = cmdqThreadGetEnd g s := hh
      rw [hpc, ← h.stop t ht]
      exact (h.placed t (List.mem_of_getLast? ht)).1.endPa_lt
  rw [cmdqThreadGetPc, if_neg (by omega)]
  exact Nat.mod_eq_of_lt hlt

theorem Ordered.current {t : CmdqTask} (ht : t ∈ s.thr.taskBusyList) :
    cmdqTaskIsCurrentRun (cmdqThreadGetPc g s) (s.pkts t.pkt).pkt = true ↔
      (s.pkts t.pkt).pkt.Spans (s.pc g) := by
  rw [ho.getPc h hne]
  exact current_iff (h.placed t ht).1

/-- **What an interrupt does**: nothing, or it gives back the tasks that are done. -/
theorem irq_cases {flag : IrqFlag} (hflag : flag ≠ .error) :
    (¬IrqPasses s flag ∧ (cmdqThreadIrqHandler g flag s).s = s) ∨
    (IrqPasses s flag ∧ (cmdqThreadIrqHandler g flag s).s =
      if afterIrq s.pkts (s.pc g) todo = [] then (s.setList []).disable
      else s.setList (afterIrq s.pkts (s.pc g) todo)) := by
  have hlive : live s.thr = 1 := if_neg hne
  have hu := h.usage
  have hen : s.thr.enabled = true := h.sound.2 hne
  cases flag with
  | error => exact absurd rfl hflag
  | none =>
    refine .inl ⟨fun hi => absurd hi.1 nofun, ?_⟩
    simp [cmdqThreadIrqHandler]
  | done =>
    have hguard : ¬(s.usage ≤ 0 ∨ s.thr.enabled = false ∨ IrqFlag.done = .none) := by
      rintro (hle | hf | hd)
      · omega
      · rw [hen] at hf
        cases hf
      · cases hd
    obtain ⟨t, ht⟩ : ∃ t, s.thr.taskBusyList.head? = some t :=
      Option.ne_none_iff_exists'.1 fun hn => hne (List.head?_eq_none_iff.1 hn)
    by_cases hloop : (s.pkts t.pkt).loop = true
    · refine .inl ⟨fun hi => ?_, ?_⟩
      · rw [hi.2 t ht] at hloop
        cases hloop
      · simp only [cmdqThreadIrqHandler, if_neg hguard, ht, if_pos hloop]
    · have hpass : IrqPasses s .done := by
        refine ⟨rfl, fun u hu => ?_⟩
        rw [ht, Option.some.injEq] at hu
        subst hu
        simpa using hloop
      refine .inr ⟨hpass, ?_⟩
      have hcur : ∀ u ∈ s.thr.taskBusyList, cmdqTaskIsCurrentRun (cmdqThreadGetPc g s)
          (s.pkts u.pkt).pkt = true ↔ (s.pkts u.pkt).pkt.Spans (s.pc g) :=
        fun u hu => ho.current h hne hu
      have hscan := irqScan_ordered (cmdqThreadGetPc g s) s.pkts
        passed todo (fun u hu => ?_) (fun u hu => ?_)
      · rw [← ho.list, ho.getPc h hne] at hscan
        obtain ⟨hfail, hrest⟩ := hscan
        simp only [cmdqThreadIrqHandler, if_neg hguard, ht, if_neg hloop, h.clean,
          Bool.false_eq_true, if_false, irqHandle_eq, ho.getPc h hne, IrqFlag.err, hrest]
        have hnext : irqNext g (irqScan (s.pc g) 0 s.pkts s.thr.taskBusyList) s =
            s.setList (afterIrq s.pkts (s.pc g) todo) := by
          rw [irqNext, hfail, hrest]
        rw [hnext]
        split_ifs with hnil
        · rw [hnil]
        · rfl
      · have hmem : u ∈ s.thr.taskBusyList := by
          rw [ho.list]
          exact List.mem_append_left _ hu
        rw [← Bool.not_eq_true, hcur u hmem]
        exact ho.passed h u hu
      · cases todo with
        | nil => cases hu
        | cons v rest =>
          cases hu
          exact (hcur u (by simp [ho.list])).2 ho.here

end

/-- The end of the last task's packet. -/
theorem QueueInv.stop_of_suffix {s : ThrSt} (h : QueueInv g s) {l l' : List CmdqTask}
    (hl : s.thr.taskBusyList = l ++ l') {t : CmdqTask} (ht : l'.getLast? = some t) :
    (s.pkts t.pkt).pkt.endPa = cmdqThreadGetEnd g s := by
  refine h.stop t ?_
  rw [hl, List.getLast?_append, ht, Option.some_or]

/-- A list that has become empty, or a thread that is disabled with it. -/
theorem QueueInv.emptied {s s' : ThrSt} (h : QueueInv g s) (hk : Sound s'.thr)
    (hu : live s'.thr ≤ s'.usage) (hd : s'.thr.dirty = false) (hp : s'.pkts = s.pkts)
    (hl : s'.thr.taskBusyList = []) : QueueInv g s' := by
  refine h.fewer hk hu hd hp (hl ▸ List.nil_sublist _) (fun t ht => ?_) fun hne => absurd hl hne
  rw [hl] at ht
  cases ht

/-- What is known after the interrupt handler: the list is empty, or as it was, or it starts with
the running task, or the running task has been given back. -/
inductive AfterIrq (g : Nat) (s : ThrSt) (flag : IrqFlag) (s' : ThrSt) : Prop
  | empty : s'.thr.taskBusyList = [] → AfterIrq g s flag s'
  | same : ¬IrqPasses s flag → s' = s → AfterIrq g s flag s'
  | first (passed todo : List CmdqTask) : Ordered g s passed todo → Ordered g s' [] todo →
      s'.pkts = s.pkts → s'.pc g = s.pc g → AfterIrq g s flag s'
  | left (c : CmdqPkt) : Placed c → c.OnPage (s'.pc g) →
      (∀ u ∈ s'.thr.taskBusyList, Apart c (s'.pkts u.pkt).pkt) → AfterIrq g s flag s'

theorem irq_inv {s : ThrSt} (h : QueueInv g s) (hne : s.thr.taskBusyList ≠ []) {flag : IrqFlag}
    (hflag : flag ≠ .error) (hpc : PcInside g s) :
    QueueInv g (cmdqThreadIrqHandler g flag s).s ∧
      AfterIrq g s flag (cmdqThreadIrqHandler g flag s).s := by
  obtain ⟨passed, todo, ho⟩ := h.order hne hpc
  have hkept := irqHandler_kept (g := g) flag s
  have hsound := hkept.sound h.sound
  have husage : live (cmdqThreadIrqHandler g flag s).s.thr ≤
      (cmdqThreadIrqHandler g flag s).s.usage := by
    have := hkept.balance h.sound
    have := h.usage
    omega
  rcases irq_cases h ho hne hflag with ⟨hno, he⟩ | ⟨hpass, he⟩
  · refine ⟨?_, .same hno he⟩
    rw [he]
    exact h
  generalize (cmdqThreadIrqHandler g flag s).s = s' at he hsound husage
  by_cases hnil : afterIrq s.pkts (s.pc g) todo = []
  · rw [if_pos hnil] at he
    have hl : s'.thr.taskBusyList = [] := by rw [he]; rfl
    exact ⟨h.emptied hsound husage (he ▸ h.clean) (he ▸ rfl) hl, .empty hl⟩
  rw [if_neg hnil] at he
  have hl : s'.thr.taskBusyList = afterIrq s.pkts (s.pc g) todo := by rw [he]; rfl
  have hp : s'.pkts = s.pkts := by rw [he]; rfl
  have hpc' : s'.pc g = s.pc g := by rw [he]; rfl
  have hend : cmdqThreadGetEnd g s' = cmdqThreadGetEnd g s := by rw [he]; rfl
  have hd : s'.thr.dirty = false := he ▸ h.clean
  cases todo with
  | nil => exact absurd rfl hnil
  | cons t rest =>
    have ht : t ∈ s.thr.taskBusyList := by simp [ho.list]
    by_cases htail : s.pc g + cmdqInstSize = (s.pkts t.pkt).pkt.endPa
    · -- the running task is done, and the program counter still at its last instruction
      simp only [afterIrq, if_pos htail] at hl hnil
      have hrest : ∀ u ∈ rest, u ∈ s.thr.taskBusyList := fun u hu => by simp [ho.list, hu]
      have happ := h.apart
      rw [ho.list] at happ
      have hsep := (List.pairwise_cons.1 (List.pairwise_append.1 happ).2.1).1
      have hsuf : s.thr.taskBusyList = (passed ++ [t]) ++ rest := by simp [ho.list]
      have hstop : ∀ u, s'.thr.taskBusyList.getLast? = some u →
          (s'.pkts u.pkt).pkt.endPa = cmdqThreadGetEnd g s' := by
        intro u hu
        rw [hp, hend]
        exact h.stop_of_suffix hsuf (hl ▸ hu)
      have hoff : ∀ u ∈ s'.thr.taskBusyList,
          Placed (s'.pkts u.pkt).pkt ∧ Apart (s.pkts t.pkt).pkt (s'.pkts u.pkt).pkt := by
        intro u hu
        rw [hl] at hu
        rw [hp]
        exact ⟨(h.placed u (hrest u hu)).1, (hsep u hu).2⟩
      have hon : (s.pkts t.pkt).pkt.OnPage (s'.pc g) := by
        rw [hpc']
        exact CmdqPkt.Spans.onPage ho.here
      refine ⟨h.fewer hsound husage hd hp ?_ hstop fun hne' hin => ?_,
        .left _ (h.placed t ht).1 hon fun u hu => (hoff u hu).2⟩
      · rw [hl, hsuf]
        exact List.sublist_append_right _ _
      · exact absurd hin (not_pcInside (h.placed t ht).1 hon hne' hoff hstop)
    · simp only [afterIrq, if_neg htail] at hl hnil
      have ho' : Ordered g s' [] (t :: rest) := by
        refine ⟨hl, ?_, hp ▸ ho.linked⟩
        have hh : (s.pkts t.pkt).pkt.Spans (s.pc g) := ho.here
        rw [← hp, ← hpc'] at hh
        exact hh
      refine ⟨h.fewer hsound husage hd hp ?_ (fun u hu => ?_) fun _ _ => ⟨_, _, ho'⟩,
        .first _ _ ho ho' hp hpc'⟩
      · rw [hl, ho.list]
        exact List.sublist_append_right _ _
      · rw [hp, hend]
        exact h.stop_of_suffix ho.list (hl ▸ hu)

/-! ## Removal -/

/-- The thread after a task has been taken out of its list: `first` is the head of what stays. -/
def ThrSt.taken (g : Nat) (s : ThrSt) (before after : List CmdqTask) (first : CmdqTask)
    (curr : Bool) : ThrSt :=
  let s := s.setList (before ++ after)
  let s := if curr then s.setPc g first.paBase else s
  if after = [] then s.resetEnd g else s

/-- What `cmdq_mbox_thread_remove_task` does after its interrupt pass. -/
theorem removeTask_eq (pkt : Nat) (flag : IrqFlag) {s : ThrSt} (hne : s.thr.taskBusyList ≠ [])
    {s' : ThrSt} (hs : (cmdqThreadIrqHandler g flag s).s = s') (hd : s'.thr.dirty = false) :
    (cmdqMboxThreadRemoveTask g pkt flag s).2.1 = s' ∨
    ∃ before t after, s'.thr.taskBusyList = before ++ t :: after ∧ t.pkt = pkt ∧
      (cmdqMboxThreadRemoveTask g pkt flag s).2.1 = match before ++ after with
        | [] => (s'.setList []).disable
        | first :: _ => s'.taken g before after first
            (cmdqTaskIsCurrentRun (cmdqThreadGetPc g s') (s'.pkts t.pkt).pkt) := by
  simp only [cmdqMboxThreadRemoveTask, if_neg hne]
  generalize cmdqThreadIrqHandler g flag s = r at hs ⊢
  subst hs
  by_cases hnil : r.s.thr.taskBusyList = []
  · simp only [if_pos hnil]
    exact .inl trivial
  simp only [if_neg hnil]
  have hcut := List.takeWhile_append_dropWhile (p := fun t => t.pkt ≠ pkt)
    (l := r.s.thr.taskBusyList)
  have hhead : ∀ t after, r.s.thr.taskBusyList.dropWhile (fun t => t.pkt ≠ pkt) = t :: after →
      t.pkt = pkt := by
    intro t after he
    have := List.head?_dropWhile_not (fun t : CmdqTask => decide (t.pkt ≠ pkt))
      r.s.thr.taskBusyList
    rw [he] at this
    simpa using this
  generalize r.s.thr.taskBusyList.takeWhile _ = before at hcut ⊢
  generalize r.s.thr.taskBusyList.dropWhile _ = rest at hcut hhead ⊢
  cases rest with
  | nil => exact .inl rfl
  | cons t after =>
    refine .inr ⟨before, t, after, hcut.symm, hhead t after rfl, ?_⟩
    simp only [hd, Bool.false_eq_true, and_false, if_false, ThrSt.taken]
    cases before ++ after <;> rfl

section
variable {s : ThrSt} {before after : List CmdqTask} {t first : CmdqTask} {curr : Bool}

theorem taken_list : (s.taken g before after first curr).thr.taskBusyList = before ++ after := by
  rw [ThrSt.taken]
  cases curr <;> split_ifs <;> simp

theorem taken_pkts : (s.taken g before after first curr).pkts = s.pkts := by
  rw [ThrSt.taken]
  cases curr <;> split_ifs <;> first | rfl | (rw [ThrSt.resetEnd]; split <;> rfl)

theorem taken_dirty : (s.taken g before after first curr).thr.dirty = s.thr.dirty := by
  rw [ThrSt.taken]
  cases curr <;> split_ifs <;> first | rfl | exact (dirty_resetEnd _).trans rfl

theorem pc_resetEnd (s : ThrSt) : (s.resetEnd g).pc g = s.pc g := by
  rw [ThrSt.resetEnd]
  split <;> rfl

theorem taken_pc (hg : g ≤ 3) (hd : cmdqInstSize ∣ first.paBase) (hlt : first.paBase < 2 ^ 32) :
    (s.taken g before after first curr).pc g = if curr then first.paBase else s.pc g := by
  have hset : ∀ s : ThrSt, (s.setPc g first.paBase).pc g = first.paBase :=
    fun s => reg_back hg hd hlt
  rw [ThrSt.taken]
  cases curr <;> split_ifs <;> simp_all [pc_resetEnd] <;> rfl

/-- The end address where it is set again. -/
theorem end_resetEnd (hg : g ≤ 3) {s : ThrSt} {t : CmdqTask}
    (hl : s.thr.taskBusyList.getLast? = some t) (hp : Placed (s.pkts t.pkt).pkt) :
    cmdqThreadGetEnd g (s.resetEnd g) = (s.pkts t.pkt).pkt.endPa := by
  simp only [ThrSt.resetEnd, hl, cmdqThreadGetEnd, ThrSt.setEnd]
  exact reg_back hg hp.endPa_slot hp.endPa_lt

/-- The end address is that of the last task, whether or not it is the one that was taken. -/
theorem taken_stop (hg : g ≤ 3) (h : QueueInv g s)
    (hl : s.thr.taskBusyList = before ++ t :: after) {u : CmdqTask}
    (hu : (before ++ after).getLast? = some u) :
    (s.pkts u.pkt).pkt.endPa = cmdqThreadGetEnd g (s.taken g before after first curr) := by
  by_cases hafter : after = []
  · subst hafter
    have hmem : u ∈ s.thr.taskBusyList := by
      rw [List.append_nil] at hu
      rw [hl]
      exact List.mem_append_left _ (List.mem_of_getLast? hu)
    simp only [ThrSt.taken, if_true]
    cases curr with
    | true => exact (end_resetEnd hg (s := (s.setList (before ++ [])).setPc g first.paBase) hu
        (h.placed u hmem).1).symm
    | false => exact (end_resetEnd hg (s := s.setList (before ++ [])) hu (h.placed u hmem).1).symm
  · obtain ⟨v, hv⟩ : ∃ v, after.getLast? = some v :=
      Option.ne_none_iff_exists'.1 fun hn => hafter (List.getLast?_eq_none_iff.1 hn)
    rw [List.getLast?_append, hv, Option.some_or, Option.some.injEq] at hu
    subst hu
    have hend := h.stop_of_suffix (show s.thr.taskBusyList = (before ++ [t]) ++ after by simp [hl]) hv
    rw [hend, ThrSt.taken, if_neg hafter]
    cases curr <;> rfl

end

/-- **Taking a task out of an ordered list**: it has been passed, or it is the first one. -/
theorem removed_inv (hg : g ≤ 3) {s s' : ThrSt} (h : QueueInv g s)
    {passed todo before after others : List CmdqTask} {t first : CmdqTask} {curr : Bool}
    (ho : Ordered g s passed todo) (hl : s.thr.taskBusyList = before ++ t :: after)
    (hcurr : curr = true ↔ (s.pkts t.pkt).pkt.Spans (s.pc g))
    (hb : ∀ u ∈ before, ¬(s.pkts u.pkt).pkt.Spans (s.pc g))
    (ht : (s.pkts t.pkt).pkt.Spans (s.pc g) → before = [])
    (hf : before ++ after = first :: others) (hs : s' = s.taken g before after first curr)
    (hsound : Sound s'.thr) (husage : live s'.thr ≤ s'.usage) : QueueInv g s' := by
  have hl' : s'.thr.taskBusyList = before ++ after := hs ▸ taken_list
  have hp' : s'.pkts = s.pkts := hs ▸ taken_pkts
  have hd' : s'.thr.dirty = false := by rw [hs, taken_dirty, h.clean]
  have hmem : ∀ u ∈ before ++ after, u ∈ s.thr.taskBusyList := by
    intro u hu
    rw [hl]
    rcases List.mem_append.1 hu with hu | hu
    · exact List.mem_append_left _ hu
    · exact List.mem_append_right _ (List.mem_cons_of_mem _ hu)
  have hfirst : first ∈ s.thr.taskBusyList := hmem first (by simp [hf])
  have hstart := (h.placed first hfirst).2
  have hpl := (h.placed first hfirst).1
  have hpc' : s'.pc g = if curr then first.paBase else s.pc g := by
    rw [hs]
    exact taken_pc hg (hstart ▸ hpl.startPa_slot) (hstart ▸ hpl.startPa_lt)
  have hstop' : ∀ u, s'.thr.taskBusyList.getLast? = some u →
      (s'.pkts u.pkt).pkt.endPa = cmdqThreadGetEnd g s' := by
    intro u hu
    rw [hl'] at hu
    rw [hp', hs]
    exact taken_stop hg h hl hu
  have hsub : s'.thr.taskBusyList.Sublist s.thr.taskBusyList := by
    rw [hl', hl]
    exact List.Sublist.append_left (List.sublist_cons_self _ _) _
  refine h.fewer hsound husage hd' hp' hsub hstop' fun hne' hin => ?_
  by_cases hcur : (s.pkts t.pkt).pkt.Spans (s.pc g)
  · -- the running task is the first one: the engine goes on with the next one
    have hbefore := ht hcur
    subst hbefore
    have htodo : todo = t :: after := by
      cases passed with
      | nil => exact ho.list.symm.trans hl
      | cons u passed =>
        have hu := hl.symm.trans ho.list
        simp only [List.nil_append, List.cons_append, List.cons.injEq] at hu
        exact absurd hcur (hu.1 ▸ ho.passed h u (by simp))
    rw [List.nil_append] at hf hl'
    subst hf
    refine ⟨[], first :: others, hl', ?_, ?_⟩
    · have hspans := hpl.start_spans
      rw [← hstart, ← hp'] at hspans
      rw [if_pos (hcurr.2 hcur)] at hpc'
      rw [At, hpc']
      exact hspans
    · have hlink := ho.linked
      rw [htodo] at hlink
      rw [hp']
      exact hlink.tail
  · have hpcs : s'.pc g = s.pc g := by
      rw [hpc', if_neg fun hc => hcur (hcurr.1 hc)]
    cases todo with
    | cons c rest =>
      -- the running task stays, the one that is taken has been passed
      have hcs : (s.pkts c.pkt).pkt.Spans (s.pc g) := ho.here
      have hcut : passed ++ c :: rest = before ++ t :: after := ho.list.symm.trans hl
      obtain ⟨p2, hpass, hafter⟩ : ∃ p2, passed = before ++ t :: p2 ∧ after = p2 ++ c :: rest := by
        rcases List.append_eq_append_iff.1 hcut with ⟨a, ha, hr⟩ | ⟨a, ha, hr⟩
        · cases a with
          | nil =>
            simp only [List.nil_append, List.cons.injEq] at hr
            exact absurd (hr.1 ▸ hcs) hcur
          | cons v a =>
            simp only [List.cons_append, List.cons.injEq] at hr
            exact absurd hcs (hb c (by rw [ha, hr.1]; simp))
        · cases a with
          | nil =>
            simp only [List.nil_append, List.cons.injEq] at hr
            exact absurd (hr.1.symm ▸ hcs) hcur
          | cons v a =>
            simp only [List.cons_append, List.cons.injEq] at hr
            exact ⟨a, by rw [ha, hr.1], hr.2⟩
      refine ⟨before ++ p2, c :: rest, by rw [hl', hafter, List.append_assoc], ?_, hp' ▸ ho.linked⟩
      rw [At, hpcs, hp']
      exact hcs
    | nil =>
      have hpce : s.pc g = cmdqThreadGetEnd g s := ho.here
      by_cases hafter : after = []
      · -- the last task is taken, and the program counter is behind it
        subst hafter
        have htl : s.thr.taskBusyList.getLast? = some t := by simp [hl]
        have htm : t ∈ s.thr.taskBusyList := by simp [hl]
        have hplt := (h.placed t htm).1
        have happ := h.apart
        rw [hl] at happ
        have hsep := (List.pairwise_append.1 happ).2.2
        refine absurd hin (not_pcInside hplt ?_ hne' (fun u hu => ?_) hstop')
        · rw [hpcs, hpce, ← h.stop t htl]
          exact hplt.endPa_onPage
        · rw [hl', List.append_nil] at hu
          rw [hp']
          exact ⟨(h.placed u (hmem u (by simp [hu]))).1, (hsep u hu t (by simp)).2.symm⟩
      · obtain ⟨v, hv⟩ : ∃ v, after.getLast? = some v :=
          Option.ne_none_iff_exists'.1 fun hn => hafter (List.getLast?_eq_none_iff.1 hn)
        have hend := h.stop_of_suffix (show s.thr.taskBusyList = (before ++ [t]) ++ after by simp [hl]) hv
        have hlast : s'.thr.taskBusyList.getLast? = some v := by
          rw [hl', List.getLast?_append, hv, Option.some_or]
        refine ⟨before ++ after, [], by rw [hl', List.append_nil], ?_, ?_⟩
        · rw [At, hpcs, hpce, ← hend, ← hstop' v hlast, hp']
        · exact ⟨.nil, nofun⟩

theorem removeTask_inv (hg : g ≤ 3) {s : ThrSt} (h : QueueInv g s) (hin : PcInside g s)
    {pkt : Nat} {flag : IrqFlag} (hflag : flag ≠ .error) (hok : RemoveOk g s pkt flag) :
    QueueInv g (cmdqMboxThreadRemoveTask g pkt flag s).2.1 := by
  by_cases hne : s.thr.taskBusyList = []
  · simp only [cmdqMboxThreadRemoveTask, if_pos hne]
    exact h
  have hkept := removeTask_kept (g := g) pkt flag s
  have hsound := hkept.sound h.sound
  have husage : live (cmdqMboxThreadRemoveTask g pkt flag s).2.1.thr ≤
      (cmdqMboxThreadRemoveTask g pkt flag s).2.1.usage := by
    have := hkept.balance h.sound
    have := h.usage
    omega
  obtain ⟨hi, hafter⟩ := irq_inv h hne hflag hin
  rcases removeTask_eq pkt flag hne rfl hi.clean with he | ⟨before, t, after, hl, hpkt, he⟩
  · rw [he]
    exact hi
  generalize (cmdqThreadIrqHandler g flag s).s = s1 at hi hafter hl he
  generalize (cmdqMboxThreadRemoveTask g pkt flag s).2.1 = s' at hsound husage he ⊢
  have hne1 : s1.thr.taskBusyList ≠ [] := by simp [hl]
  have htm : t ∈ s1.thr.taskBusyList := by simp [hl]
  cases hf : before ++ after with
  | nil =>
    rw [hf] at he
    exact hi.emptied hsound husage (he ▸ hi.clean) (he ▸ rfl) (he ▸ rfl)
  | cons first others =>
    rw [hf] at he
    cases hafter with
    | empty hnil => exact absurd hnil hne1
    | same hno hsame =>
      subst hsame
      obtain ⟨passed, todo, ho⟩ := h.order hne hin
      obtain ⟨hb, hcur⟩ := hok before t after hl hpkt
      exact removed_inv hg h ho hl (ho.current h hne htm) hb
        (fun ht => (hcur ht).resolve_right hno) hf he hsound husage
    | first passed todo ho ho1 hp hpc =>
      have htodo : todo = before ++ t :: after := ho1.list.symm.trans hl
      have hls : s.thr.taskBusyList = (passed ++ before) ++ t :: after := by
        rw [ho.list, htodo, List.append_assoc]
      obtain ⟨hb, -⟩ := hok _ t after hls hpkt
      have hb1 : ∀ u ∈ before, ¬(s1.pkts u.pkt).pkt.Spans (s1.pc g) := by
        intro u hu
        rw [hp, hpc]
        exact hb u (List.mem_append_right _ hu)
      refine removed_inv hg hi ho1 hl (ho1.current hi hne1 htm) hb1 (fun _ => ?_) hf he hsound
        husage
      -- the running task is at the head
      cases before with
      | nil => rfl
      | cons c rest =>
        rw [htodo] at ho1
        exact absurd ho1.here (hb1 c (by simp))
    | left c hc hon hap =>
      have hoff : ∀ u ∈ s1.thr.taskBusyList,
          Placed (s1.pkts u.pkt).pkt ∧ Apart c (s1.pkts u.pkt).pkt :=
        fun u hu => ⟨(hi.placed u hu).1, hap u hu⟩
      have hsub : ∀ u ∈ before ++ after, u ∈ s1.thr.taskBusyList := by
        intro u hu
        rw [hl]
        rcases List.mem_append.1 hu with hu | hu
        · exact List.mem_append_left _ hu
        · exact List.mem_append_right _ (List.mem_cons_of_mem _ hu)
      have hfirst := hsub first (by simp [hf])
      obtain ⟨hpl, hstart⟩ := hi.placed first hfirst
      have hcurr : cmdqTaskIsCurrentRun (cmdqThreadGetPc g s1) (s1.pkts t.pkt).pkt = false := by
        rw [← Bool.not_eq_true, current_iff (hoff t htm).1]
        intro hs
        have hlt : s1.pc g < 2 ^ 32 := by
          obtain ⟨base, hbase, -, hlt⟩ := hon
          have := (hc.page base hbase).2
          omega
        have hlive : live s1.thr = 1 := if_neg hne1
        have hu := hi.usage
        rw [cmdqThreadGetPc, if_neg (by omega)] at hs
        have hpc : (s1.thr.currAddr <<< g) % 2 ^ 32 = s1.pc g := Nat.mod_eq_of_lt hlt
        rw [hpc] at hs
        exact (hoff t htm).2.onPage hc (hoff t htm).1 hon hs.onPage
      rw [hcurr] at he
      have hl' : s'.thr.taskBusyList = before ++ after := he ▸ taken_list
      have hp' : s'.pkts = s1.pkts := he ▸ taken_pkts
      have hpc' : s'.pc g = s1.pc g := by
        rw [he]
        exact taken_pc hg (hstart ▸ hpl.startPa_slot) (hstart ▸ hpl.startPa_lt)
      have hstop' : ∀ u, s'.thr.taskBusyList.getLast? = some u →
          (s'.pkts u.pkt).pkt.endPa = cmdqThreadGetEnd g s' := by
        intro u hu
        rw [hl'] at hu
        rw [hp', he]
        exact taken_stop hg hi hl hu
      refine hi.fewer hsound husage (by rw [he, taken_dirty, hi.clean]) hp' ?_ hstop'
        fun hne' hin' => absurd hin' (not_pcInside hc (hpc' ▸ hon) hne' (fun u hu => ?_) hstop')
      · rw [hl', hl]
        exact List.Sublist.append_left (List.sublist_cons_self _ _) _
      · rw [hl'] at hu
        rw [hp']
        exact hoff u (hsub u hu)

end Cmdq
