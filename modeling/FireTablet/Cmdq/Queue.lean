import FireTablet.Cmdq.Thread

/-!
# One thread and its packets

From an address inside a packet the engine runs the packet to its last instruction, and goes on
where that jumps to or behind the packet, until it is at the thread's end address (`HwRun`).
`QueueEv` are the submissions, interrupts and removals on one thread, with the thread that runs and
the clients that build packets between them.
-/

namespace Cmdq

/-! ## Packets in memory -/

/-- The physical addresses of a packet's buffers. -/
def CmdqPkt.bases (pkt : CmdqPkt) : List Nat := pkt.buf.map CmdqPktBuffer.paBase

/-- An address of an instruction in one of the buffers, the last of which is not full. -/
def InBuffers (avail pa : Nat) : List Nat → Prop
  | [] => False
  | [base] => base ≤ pa ∧ pa < base + (cmdqCmdBufferSize - avail)
  | base :: bases => (base ≤ pa ∧ pa < base + cmdqCmdBufferSize) ∨ InBuffers avail pa bases

instance (avail pa : Nat) : ∀ bases, Decidable (InBuffers avail pa bases)
  | [] => inferInstanceAs (Decidable False)
  | [base] => inferInstanceAs (Decidable (base ≤ pa ∧ pa < base + (cmdqCmdBufferSize - avail)))
  | base :: base' :: bases =>
    have := instDecidableInBuffers avail pa (base' :: bases)
    inferInstanceAs (Decidable ((base ≤ pa ∧ pa < base + cmdqCmdBufferSize) ∨
      InBuffers avail pa (base' :: bases)))

/-- The address of one of the packet's instructions. -/
def CmdqPkt.Spans (pkt : CmdqPkt) (pa : Nat) : Prop := InBuffers pkt.availBufSize pa pkt.bases

instance (pkt : CmdqPkt) (pa : Nat) : Decidable (pkt.Spans pa) :=
  inferInstanceAs (Decidable (InBuffers pkt.availBufSize pa pkt.bases))

/-- The last instruction of a packet. -/
def CmdqPkt.tail (pkt : CmdqPkt) : BitVec 64 :=
  match pkt.buf.getLast? with
  | none => 0
  | some buf => buf.va (cmdqCmdBufferSize - pkt.availBufSize - cmdqInstSize)

/-- A packet with instructions, in pages below 4 GiB. -/
structure Placed (pkt : CmdqPkt) : Prop where
  ne : pkt.bases ≠ []
  page : ∀ base ∈ pkt.bases, cmdqBufAllocSize ∣ base ∧ base + cmdqBufAllocSize ≤ 2 ^ 32
  nodup : pkt.bases.Nodup
  used : pkt.availBufSize + cmdqInstSize ≤ cmdqCmdBufferSize
  slots : cmdqInstSize ∣ pkt.availBufSize

/-- Packets that share no page. -/
def Apart (p q : CmdqPkt) : Prop := ∀ base ∈ p.bases, base ∉ q.bases

instance (p q : CmdqPkt) : Decidable (Apart p q) :=
  inferInstanceAs (Decidable (∀ base ∈ p.bases, base ∉ q.bases))

section
variable (g : Nat)

/-- Where the engine goes on after a packet. Without an absolute jump that is behind the packet: the
last instruction is the `CMDQ_JUMP_PASS` of `cmdq_pkt_finalize`. -/
def CmdqPkt.exit (pkt : CmdqPkt) : Nat := (jumpTarget g pkt.tail).getD pkt.endPa

/-- The engine runs packets one after the other, and stops. -/
inductive HwRun (pkts : Nat → PktRec) (stop : Nat) : Nat → List Nat → Prop
  | stop : HwRun pkts stop stop []
  | packet {pc : Nat} (p : Nat) {l : List Nat} : (pkts p).pkt.Spans pc →
      HwRun pkts stop ((pkts p).pkt.exit g) l → HwRun pkts stop pc (p :: l)

/-! ## Events -/

/-- The address at which a thread runs. -/
def ThrSt.pc (s : ThrSt) : Nat := s.thr.currAddr <<< g

/-- A thread without tasks, on an engine that others may hold. -/
def ThrSt.idle (usage currAddr endAddr : Nat) (pkts : Nat → PktRec) : ThrSt :=
  ⟨usage, ⟨[], false, false, currAddr, endAddr⟩, pkts⟩

/-- What happens to one thread. -/
inductive QueueEv
  | submit (serial pkt : Nat) (ptr : Option Nat)
  | irq (flag : IrqFlag)
  | removeTask (pkt : Nat) (flag : IrqFlag)
  /-- The thread runs on to another address. -/
  | progress (addr : Nat)
  /-- A client builds a packet. -/
  | client (pkt : Nat) (rec : PktRec)

/-- One event. -/
def queueStep (s : ThrSt) : QueueEv → Option (List TaskEff × ThrSt)
  | .submit serial pkt ptr => some (cmdqTaskExec g serial pkt ptr s)
  | .irq flag =>
    let r := cmdqThreadIrqHandler g flag s
    some (r.effs, r.s)
  | .removeTask pkt flag =>
    let r := cmdqMboxThreadRemoveTask g pkt flag s
    some (r.1, r.2.1)
  | .progress addr => some ([], { s with thr := { s.thr with currAddr := addr } })
  | .client pkt rec => some ([], { s with pkts := Function.update s.pkts pkt rec })

/-! ## Order -/

/-- The program counter is inside one of the queued packets or at the end address. -/
def PcInside (s : ThrSt) : Prop :=
  s.thr.taskBusyList = [] ∨ s.pc g = cmdqThreadGetEnd g s ∨
    ∃ t ∈ s.thr.taskBusyList, (s.pkts t.pkt).pkt.Spans (s.pc g)

instance (s : ThrSt) : Decidable (PcInside g s) :=
  inferInstanceAs (Decidable (_ ∨ _ ∨ _))

/-- The last instruction of a task's packet jumps to the next task's first instruction. -/
def JumpsTo (pkts : Nat → PktRec) (t u : CmdqTask) : Prop :=
  jumpTarget g (pkts t.pkt).pkt.tail = some u.paBase

/-- Each packet leads to the next one, and the last one to what is behind it. -/
structure Linked (pkts : Nat → PktRec) (l : List CmdqTask) : Prop where
  chain : l.IsChain (JumpsTo g pkts)
  last : ∀ t, l.getLast? = some t → jumpTarget g (pkts t.pkt).pkt.tail = none

/-- The tasks that are not passed are linked and end at the end address, and they are what the
engine runs. -/
def QueueOrder (s : ThrSt) : Prop :=
  s.thr.taskBusyList = [] ∧ s.thr.enabled = false ∨
    ∃ passed todo, s.thr.taskBusyList = passed ++ todo ∧ Linked g s.pkts todo ∧
      (∀ t, todo.getLast? = some t →
        (s.pkts t.pkt).pkt.endPa = cmdqThreadGetEnd g s) ∧
      HwRun g s.pkts (cmdqThreadGetEnd g s) (s.pc g) (todo.map CmdqTask.pkt)

/-! ## When it is kept -/

/-- A packet that is submitted now goes to the end of the list. -/
def GoesLast (s : ThrSt) (pkt : Nat) : Prop :=
  s.thr.taskBusyList = [] ∨ s.pc g + cmdqInstSize = cmdqThreadGetEnd g s ∨
    s.pc g = cmdqThreadGetEnd g s ∨
    ∃ t, s.thr.taskBusyList.getLast? = some t ∧
      ((s.pkts t.pkt).pkt.Spans (s.pc g) ∨ (s.pkts pkt).priority ≤ (s.pkts t.pkt).priority)

/-- A packet that is not queued, on pages of its own, and not patched if it goes to the end. -/
structure SubmitOk (s : ThrSt) (pkt : Nat) : Prop where
  free : ∀ t ∈ s.thr.taskBusyList, t.pkt ≠ pkt
  placed : Placed (s.pkts pkt).pkt
  apart : ∀ t ∈ s.thr.taskBusyList, Apart (s.pkts t.pkt).pkt (s.pkts pkt).pkt
  plain : GoesLast g s pkt → jumpTarget g (s.pkts pkt).pkt.tail = none

/-- The interrupt handler gives back the tasks that are done. -/
def IrqPasses (s : ThrSt) (flag : IrqFlag) : Prop :=
  flag = .done ∧ ∀ t, s.thr.taskBusyList.head? = some t → (s.pkts t.pkt).loop = false

/-- The task is not behind the running one, and if it is the running one then it is the first one
when the tasks that are done are given back. -/
def RemoveOk (s : ThrSt) (pkt : Nat) (flag : IrqFlag) : Prop :=
  ∀ before t after, s.thr.taskBusyList = before ++ t :: after → t.pkt = pkt →
    (∀ u ∈ before, ¬(s.pkts u.pkt).pkt.Spans (s.pc g)) ∧
    ((s.pkts t.pkt).pkt.Spans (s.pc g) → before = [] ∨ IrqPasses s flag)

/-- The engine runs on inside the packet it is in, or leaves it. -/
def HwMove (s : ThrSt) (pc : Nat) : Prop :=
  ∃ t ∈ s.thr.taskBusyList, (s.pkts t.pkt).pkt.Spans (s.pc g) ∧
    ((s.pkts t.pkt).pkt.Spans pc ∨ pc = (s.pkts t.pkt).pkt.exit g)

/-- The condition on an event, where the program counter is inside one of the queued packets or at
the end address. -/
def QueueOk (s : ThrSt) (e : QueueEv) : Prop :=
  PcInside g s ∧ match e with
    | .submit _ pkt _ => SubmitOk g s pkt
    | .irq flag => flag ≠ .error
    | .removeTask pkt flag => flag ≠ .error ∧ RemoveOk g s pkt flag
    | .progress addr => HwMove g s (addr <<< g)
    | .client pkt _ => ∀ t ∈ s.thr.taskBusyList, t.pkt ≠ pkt

end

end Cmdq
