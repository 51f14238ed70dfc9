import FireTablet.Cmdq.Emit
import FireTablet.Cmdq.Proof.PktFacts

/-!
# Which addresses the emitted instructions access

The engine (`GceRegs`) as the instruction encoders and the dumps of the driver describe it: a read
or write takes its address from a subsys id and an offset, or, when bit 1 of the low half is set,
from a register that holds the upper bits. `Exact`: a call's accesses are the ones asked for, or the
first of them when an append fails (`targets_exact_iff`). `run_emitted`: on a packet a call appends
what `Emit.emitted` says.
-/

namespace Cmdq

/-! ## The engine -/

/-- The field `s_op` of an instruction. -/
def instSOp (inst : BitVec 64) : BitVec 5 := inst.extractLsb' 48 5

/-- The field `arg_a_type` of an instruction. -/
def instArgAType (inst : BitVec 64) : BitVec 1 := inst.extractLsb' 55 1

/-- The field `arg_b_type` of an instruction. -/
def instArgBType (inst : BitVec 64) : BitVec 1 := inst.extractLsb' 54 1

/-- `CMDQ_GET_32B_VALUE` of an instruction. -/
def inst32 (inst : BitVec 64) : BitVec 32 := inst.extractLsb' 0 32

/-- The registers of a thread, those for addresses and values, and the write mask. -/
structure GceRegs where
  spr : Nat → BitVec 32
  gpr : Nat → BitVec 32
  mask : BitVec 32
  deriving Inhabited

/-- An access: its address (`none`: not an address at all), and the bits that are written. -/
inductive Access
  | read (addr : Option Nat)
  | write (addr : Option Nat) (bits : BitVec 32)
  | poll (addr : Option Nat)
  deriving DecidableEq

/-- The base that is registered for a subsys id. -/
def subsysBase (cltBase : Option CmdqBase) (id : BitVec 8) : Option (BitVec 32) :=
  cltBase.bind fun c => (c.subsys.find? fun s => s.id = id).map CmdqSubsys.base

section
variable (cltBase : Option CmdqBase) (bus : Option Nat → BitVec 32)

/-- A subsys id and an offset. -/
def subsysAddr (id : BitVec 5) (offset : BitVec 16) : Option Nat :=
  (subsysBase cltBase (id.setWidth 8)).map fun base => base.toNat + offset.toNat

/-- The address in a read or write: `low` is the field of the offset, `type` that of its type. -/
def GceRegs.target (regs : GceRegs) (type : BitVec 1) (sOp : BitVec 5) (low : BitVec 16) :
    Option Nat :=
  if type ≠ 0 then none
  else if low &&& cmdqAddrLowBit ≠ 0 then
    some ((regs.spr sOp.toNat).toNat * 2 ^ 16 + (low &&& 0xfffc).toNat)
  else subsysAddr cltBase sOp low

/-- One instruction. `bus` is what reads give. -/
def GceRegs.step (regs : GceRegs) (inst : BitVec 64) : GceRegs × Option Access :=
  let op := instOp inst
  if op = cmdqCodeLogic then
    if instSOp inst = 0 ∧ instArgBType inst = 0 then
      ({ regs with spr := Function.update regs.spr (instArgA inst).toNat (inst32 inst) }, none)
    else (regs, none)
  else if op = cmdqCodeMask then
    if instArgAType inst = 1 then
      ({ regs with gpr := Function.update regs.gpr (instSOp inst).toNat (inst32 inst) }, none)
    else ({ regs with mask := inst32 inst }, none)
  else if op = cmdqCodeReadS then
    let addr := regs.target cltBase (instArgBType inst) (instSOp inst) (cmdqGetArgB inst)
    ({ regs with spr := Function.update regs.spr (instArgA inst).toNat (bus addr) },
      some (.read addr))
  else if op = cmdqCodeWriteS then
    (regs, some (.write (regs.target cltBase (instArgAType inst) (instSOp inst) (instArgA inst))
      0xffffffff))
  else if op = cmdqCodeWriteSWMask then
    (regs, some (.write (regs.target cltBase (instArgAType inst) (instSOp inst) (instArgA inst))
      (~~~regs.mask)))
  else if op = cmdqCodePoll then
    -- bit 0 of the offset asks for the mask
    (regs, some (.poll (if instArgAType inst = 1 then some (regs.gpr (instSOp inst).toNat).toNat
      else subsysAddr cltBase (instSOp inst) (instArgA inst &&& 0xfffe))))
  else (regs, none)

/-- The accesses of some instructions, one after the other. -/
def accesses : GceRegs → List (BitVec 64) → List Access
  | _, [] => []
  | regs, inst :: insts =>
    (regs.step cltBase bus inst).2.toList ++ accesses (regs.step cltBase bus inst).1 insts

end

/-- **A call accesses exactly what is asked for**: from any state of the engine its accesses are
`want`, or the first of them if it returns an error. -/
def Exact (cltBase : Option CmdqBase) (ok : Nat → Bool) (call : Emit) (want : List Access) : Prop :=
  ∀ bus regs,
    accesses cltBase bus regs ((call.emitted ok 0).2.map cmdqPktInstrEncoder) <+: want ∧
      ((call.emitted ok 0).1 = 0 →
        accesses cltBase bus regs ((call.emitted ok 0).2.map cmdqPktInstrEncoder) = want)

/-! ## Calls on a packet -/

/-- The allocations of a call are fresh. -/
def Emit.RunOk (g : Nat) : Emit → List BufAlloc → CmdqPkt → Prop
  | .done _, _, _ => True
  | .append _ _, [], _ => True
  | .append args next, a :: as, pkt => a.Fresh g pkt.buf ∧ ∀ err pkt',
      cmdqPktAppendCommand g a args pkt = some (err, pkt') → (next err).RunOk g as pkt'

theorem emitted_congr {ok ok' : Nat → Bool} (call : Emit) :
    ∀ n, (∀ i, n ≤ i → ok i = ok' i) → call.emitted ok n = call.emitted ok' n := by
  induction call with
  | done ret => exact fun _ _ => rfl
  | append args next ih =>
    intro n h
    have hrest : ∀ err, (next err).emitted ok (n + 1) = (next err).emitted ok' (n + 1) :=
      fun err => ih err (n + 1) fun i hi => h i (by omega)
    rw [Emit.emitted, Emit.emitted, h n (Nat.le_refl _), hrest, hrest]

/-- **On a packet** a call returns and appends what `Emit.emitted` says, for the appends that
succeed. -/
theorem run_emitted {g : Nat} (call : Emit) : ∀ (n : Nat) (as : List BufAlloc) {pkt p : CmdqPkt}
    {log : List (BitVec 64)} {ret : Int}, Chained g log pkt → call.RunOk g as pkt →
      call.run g as pkt = some (ret, p) → ∃ ok, (call.emitted ok n).1 = ret ∧
        Chained g (log ++ (call.emitted ok n).2.map cmdqPktInstrEncoder) p := by
  induction call with
  | done r =>
    intro n as pkt p log ret h _ hrun
    simp only [Emit.run, Option.some.injEq, Prod.mk.injEq] at hrun
    obtain ⟨rfl, rfl⟩ := hrun
    exact ⟨fun _ => true, rfl, by simpa [Emit.emitted] using h⟩
  | append args next ih =>
    intro n as pkt p log ret h hok hrun
    cases as with
    | nil => cases hrun
    | cons a as =>
      rw [Emit.run] at hrun
      have hupdate : ∀ (ok : Nat → Bool) (b : Bool) (err : Int),
          (next err).emitted (Function.update ok n b) (n + 1) = (next err).emitted ok (n + 1) :=
        fun ok b err => emitted_congr (next err) (n + 1) fun i hi =>
          Function.update_of_ne (by omega) _ _
      rcases append_chained h hok.1 args with he | ⟨q, he, -, -, hq⟩
      · rw [he] at hrun
        obtain ⟨ok, hret, hp⟩ := ih _ (n + 1) as h (hok.2 _ _ he) hrun
        refine ⟨Function.update ok n false, ?_, ?_⟩
        · simpa only [Emit.emitted, Function.update_self, Bool.false_eq_true, if_false,
            hupdate] using hret
        · simpa only [Emit.emitted, Function.update_self, Bool.false_eq_true, if_false,
            hupdate] using hp
      · rw [he] at hrun
        obtain ⟨ok, hret, hp⟩ := ih _ (n + 1) as hq (hok.2 _ _ he) hrun
        refine ⟨Function.update ok n true, ?_, ?_⟩
        · rw [Emit.emitted, Function.update_self, hupdate]
          exact hret
        · rw [Emit.emitted, Function.update_self, hupdate]
          simpa using hp

/-- Calls whose allocations give no page. -/
theorem runOk_noBuf (g : Nat) (call : Emit) : ∀ (n : Nat) (pkt : CmdqPkt),
    call.RunOk g (.replicate n noBuf) pkt := by
  induction call with
  | done r => exact fun _ _ => trivial
  | append args next ih =>
    intro n pkt
    cases n with
    | zero => trivial
    | succ n => exact ⟨noBuf_fresh g _, fun err pkt' _ => ih err n pkt'⟩

/-- The packet after a call. -/
def Emit.after (call : Emit) (as : List BufAlloc) (pkt : CmdqPkt) : CmdqPkt :=
  ((call.run GcePlat.v4.shift as pkt).map Prod.snd).getD pkt

/-- A masked write of a register, on a new packet. -/
def maskedWrite : Emit := cmdqPktWriteValue 5 0x10 0xabcd 0xffff

def writtenPkt : CmdqPkt := maskedWrite.after [poolPage 4096, noBuf] .create

/-- A read of an address without a subsys, on that packet. -/
def addrRead : Emit := cmdqPktRead none 0x12345678 1

def readPkt : CmdqPkt := addrRead.after [noBuf, noBuf] writtenPkt

/-- A call that needs no second page, and one whose first append needs a page and gets none. -/
theorem run_emitted_two :
    (∃ ok ok', (maskedWrite.emitted ok 0).1 = 0 ∧ (addrRead.emitted ok' 0).1 = 0 ∧
      Chained GcePlat.v4.shift ([] ++ (maskedWrite.emitted ok 0).2.map cmdqPktInstrEncoder ++
        (addrRead.emitted ok' 0).2.map cmdqPktInstrEncoder) readPkt) ∧
    ∃ ok, (addrRead.emitted ok 0).1 = -enomem ∧
      Chained GcePlat.v4.shift ([] ++ (addrRead.emitted ok 0).2.map cmdqPktInstrEncoder)
        .create := by
  obtain ⟨ok, hret, hw⟩ := run_emitted maskedWrite 0 [poolPage 4096, noBuf] (p := writtenPkt)
    (chained_create GcePlat.v4.shift)
    ⟨poolPage_fresh (by decide) (by simp [CmdqPkt.create]), fun _ _ _ => runOk_noBuf _ _ 1 _⟩ rfl
  obtain ⟨ok', hret', hr⟩ := run_emitted addrRead 0 [noBuf, noBuf] hw (runOk_noBuf _ _ 2 _) rfl
  exact ⟨⟨ok, ok', hret, hret', hr⟩, run_emitted addrRead 0 [noBuf]
    (chained_create GcePlat.v4.shift) (runOk_noBuf _ _ 1 _) rfl⟩

/-! ## The fields of an instruction -/

theorem instSOp_encoder (a : CmdqArgs) :
    instSOp (cmdqPktInstrEncoder a) = a.sOp.setWidth 5 := by
  rw [instSOp, cmdqPktInstrEncoder]
  iterate 3 rw [BitVec.extractLsb'_append_eq_of_le (by decide)]
  exact BitVec.extractLsb'_append_eq_right

theorem instArgAType_encoder (a : CmdqArgs) :
    instArgAType (cmdqPktInstrEncoder a) = a.argAType.setWidth 1 := by
  rw [instArgAType, cmdqPktInstrEncoder]
  iterate 6 rw [BitVec.extractLsb'_append_eq_of_le (by decide)]
  exact BitVec.extractLsb'_append_eq_right

theorem instArgBType_encoder (a : CmdqArgs) :
    instArgBType (cmdqPktInstrEncoder a) = a.argBType.setWidth 1 := by
  rw [instArgBType, cmdqPktInstrEncoder]
  iterate 5 rw [BitVec.extractLsb'_append_eq_of_le (by decide)]
  exact BitVec.extractLsb'_append_eq_right

theorem getArgB_encoder (a : CmdqArgs) : cmdqGetArgB (cmdqPktInstrEncoder a) = a.argB := by
  rw [cmdqGetArgB, cmdqPktInstrEncoder]
  rw [BitVec.extractLsb'_append_eq_of_le (by decide)]
  exact BitVec.extractLsb'_append_eq_right

theorem inst32_encoder (a : CmdqArgs) : inst32 (cmdqPktInstrEncoder a) = a.argB ++ a.argC := by
  apply BitVec.eq_of_getLsbD_eq
  intro i hi
  simp only [inst32, cmdqPktInstrEncoder, BitVec.getLsbD_extractLsb', BitVec.getLsbD_append]
  by_cases h : i < 16
  · simp [h, hi]
  · simp [h, hi]
    omega

/-- An immediate value is put together again. -/
theorem getArgB_append_getArgC (v : BitVec 32) :
    cmdqGetArgB (v.setWidth 64) ++ cmdqGetArgC (v.setWidth 64) = v := by
  apply BitVec.eq_of_getLsbD_eq
  intro i hi
  simp only [cmdqGetArgB, cmdqGetArgC, BitVec.getLsbD_append, BitVec.getLsbD_extractLsb',
    BitVec.getLsbD_setWidth]
  by_cases h : i < 16
  · simp [h]
    omega
  · simp [h, show 16 + (i - 16) = i by omega, show i - 16 < 16 by omega, show i < 64 by omega]

/-! ## Calls -/

section
variable {cltBase : Option CmdqBase} {bus : Option Nat → BitVec 32} {ok : Nat → Bool}

/-- Appends one after the other that stop at the first error. -/
def Emit.straight : List CmdqArgs → Emit
  | [] => .done 0
  | a :: l => .append a fun err => if err ≠ 0 then .done err else straight l

/-- The first `n` appends succeed. -/
def AllOk (ok : Nat → Bool) (n : Nat) : Prop := ∀ i < n, ok i = true

theorem appendCommand_eq (a : CmdqArgs) : appendCommand a = .straight [a] := by
  have : Emit.done = fun err : Int => if err ≠ 0 then .done err else Emit.straight [] := by
    funext err
    by_cases h : err = 0 <;> simp [h, Emit.straight]
  rw [appendCommand, this]
  rfl

theorem straight_orReturn (l l' : List CmdqArgs) :
    (Emit.straight l).orReturn (.straight l') = .straight (l ++ l') := by
  induction l with
  | nil => simp [Emit.straight, Emit.orReturn, Emit.andThen]
  | cons a l ih =>
    simp only [Emit.orReturn, Emit.straight, Emit.andThen, List.cons_append] at ih ⊢
    congr 1
    funext err
    by_cases h : err = 0
    · subst h
      exact ih
    · simp [h, Emit.andThen]

/-- What is appended: everything, or what is before the first failure. -/
theorem emitted_straight (l : List CmdqArgs) (n : Nat) :
    ∃ k ≤ l.length, ((Emit.straight l).emitted ok n).2 = l.take k ∧
      (∀ i < k, ok (n + i) = true) ∧ (((Emit.straight l).emitted ok n).1 = 0 ↔ k = l.length) ∧
      (k < l.length → ok (n + k) = false) := by
  induction l generalizing n with
  | nil => exact ⟨0, Nat.le_refl _, rfl, by simp, by simp [Emit.straight, Emit.emitted], by simp⟩
  | cons a l ih =>
    cases hn : ok n with
    | false =>
      refine ⟨0, Nat.zero_le _, ?_, by simp, ?_, fun _ => hn⟩
      · simp [Emit.straight, Emit.emitted, hn, enomem]
      · simp [Emit.straight, Emit.emitted, hn, enomem]
    | true =>
      obtain ⟨k, hk, hl, hok, hret, hstop⟩ := ih (n + 1)
      refine ⟨k + 1, by simpa using hk, ?_, ?_, ?_, ?_⟩
      · simpa [Emit.straight, Emit.emitted, hn] using hl
      · intro i hi
        cases i with
        | zero => exact hn
        | succ i =>
          have := hok i (by omega)
          rwa [show n + (i + 1) = n + 1 + i by omega]
      · simpa [Emit.straight, Emit.emitted, hn] using hret
      · intro hlt
        have := hstop (by simpa using hlt)
        rwa [show n + (k + 1) = n + 1 + k by omega]

theorem accesses_append (cltBase : Option CmdqBase) (bus : Option Nat → BitVec 32)
    (regs : GceRegs) (l l' : List (BitVec 64)) :
    ∃ regs', accesses cltBase bus regs (l ++ l') =
      accesses cltBase bus regs l ++ accesses cltBase bus regs' l' := by
  induction l generalizing regs with
  | nil => exact ⟨regs, rfl⟩
  | cons inst l ih =>
    obtain ⟨regs', h⟩ := ih (regs.step cltBase bus inst).1
    exact ⟨regs', by simp [accesses, h]⟩

/-- The accesses of the first instructions come first. -/
theorem accesses_take (cltBase : Option CmdqBase) (bus : Option Nat → BitVec 32)
    (regs : GceRegs) (l : List CmdqArgs) (k : Nat) :
    accesses cltBase bus regs ((l.take k).map cmdqPktInstrEncoder) <+:
      accesses cltBase bus regs (l.map cmdqPktInstrEncoder) := by
  obtain ⟨regs', h⟩ := accesses_append cltBase bus regs
    ((l.take k).map cmdqPktInstrEncoder) ((l.drop k).map cmdqPktInstrEncoder)
  rw [← List.map_append, List.take_append_drop] at h
  exact ⟨_, h.symm⟩

/-- **Exactness of a sequence of appends** is that of each part of it that can be appended. -/
theorem exact_straight_iff {l : List CmdqArgs} {want : List Access} :
    Exact cltBase ok (.straight l) want ↔ ∀ k ≤ l.length, AllOk ok k → ∀ bus regs,
      accesses cltBase bus regs ((l.take k).map cmdqPktInstrEncoder) <+: want ∧
        (k = l.length →
          accesses cltBase bus regs ((l.take k).map cmdqPktInstrEncoder) = want) := by
  obtain ⟨m, hm, hl, hok, hret, hstop⟩ := @emitted_straight ok l 0
  simp only [Nat.zero_add] at hok hstop
  rw [Exact, hl, hret]
  constructor
  · intro h k hk hall bus regs
    have hkm : k ≤ m := by
      by_contra hlt
      have := hall m (by omega)
      rw [hstop (by omega)] at this
      exact Bool.false_ne_true this
    obtain ⟨hpre, hfull⟩ := h bus regs
    have htake := accesses_take cltBase bus regs (l.take m) k
    rw [List.take_take, Nat.min_eq_left hkm] at htake
    refine ⟨htake.trans hpre, fun he => ?_⟩
    have hme : m = l.length := by omega
    rw [he, ← hme]
    exact hfull hme
  · intro h bus regs
    exact h m hm hok bus regs

/-- Instructions before the one that accesses something. -/
theorem accesses_take_silent {pre : List CmdqArgs} (x : CmdqArgs)
    (hpre : ∀ bus regs, accesses cltBase bus regs (pre.map cmdqPktInstrEncoder) = []) {k : Nat}
    (hk : k ≤ pre.length) (regs : GceRegs) :
    accesses cltBase bus regs (((pre ++ [x]).take k).map cmdqPktInstrEncoder) = [] := by
  rw [List.take_append_of_le_length hk]
  exact List.prefix_nil.1 (hpre bus regs ▸ accesses_take cltBase bus regs pre k)

/-- A single access that is always the same one. -/
theorem accesses_take_const {pre : List CmdqArgs} {x : CmdqArgs} {w : Access}
    (hpre : ∀ bus regs, accesses cltBase bus regs (pre.map cmdqPktInstrEncoder) = [])
    (hw : ∀ bus regs, accesses cltBase bus regs ((pre ++ [x]).map cmdqPktInstrEncoder) = [w])
    (bus : Option Nat → BitVec 32) (regs : GceRegs) (bus' : Option Nat → BitVec 32)
    (regs' : GceRegs) (k : Nat) :
    accesses cltBase bus regs (((pre ++ [x]).take k).map cmdqPktInstrEncoder) =
      accesses cltBase bus' regs' (((pre ++ [x]).take k).map cmdqPktInstrEncoder) := by
  by_cases hk : k ≤ pre.length
  · rw [accesses_take_silent x hpre hk, accesses_take_silent x hpre hk]
  · rw [List.take_of_length_le (by simp; omega), hw, hw]

/-- A last instruction that accesses something. -/
theorem exact_last_iff {pre : List CmdqArgs} {x : CmdqArgs} {w : Access}
    (hpre : ∀ bus regs, accesses cltBase bus regs (pre.map cmdqPktInstrEncoder) = []) :
    Exact cltBase ok (.straight (pre ++ [x])) [w] ↔ (AllOk ok (pre.length + 1) → ∀ bus regs,
      accesses cltBase bus regs ((pre ++ [x]).map cmdqPktInstrEncoder) = [w]) := by
  have hlen : (pre ++ [x]).length = pre.length + 1 := by simp
  rw [exact_straight_iff, hlen]
  constructor
  · intro h hall bus regs
    have := (h _ (Nat.le_refl _) hall bus regs).2 rfl
    rwa [← hlen, List.take_length] at this
  · intro h k hk hall bus regs
    obtain hlt | rfl : k ≤ pre.length ∨ k = pre.length + 1 := by omega
    · rw [accesses_take_silent x hpre hlt]
      exact ⟨List.nil_prefix, fun he => by omega⟩
    · have := h hall bus regs
      rw [← hlen, List.take_length, this]
      exact ⟨List.prefix_refl _, fun _ => rfl⟩

/-! ## Instructions -/

/-- The instruction of `cmdq_pkt_assign_command`. -/
def assignArgs (regIdx : BitVec 16) (value : BitVec 32) : CmdqArgs :=
  ⟨cmdqGetArgC (value.setWidth 64), cmdqGetArgB (value.setWidth 64), regIdx, cmdqLogicAssign,
    cmdqImmediateValue, cmdqImmediateValue, cmdqRegType, cmdqCodeLogic⟩

/-- The mask instruction, if one is appended. -/
def maskPart (mask : BitVec 32) : List CmdqArgs :=
  if mask ≠ 0xffffffff then
    [⟨cmdqGetArgC ((~~~mask).setWidth 64), cmdqGetArgB ((~~~mask).setWidth 64), 0, 0, 0, 0, 0,
      cmdqCodeMask⟩]
  else []

theorem withMask_straight (mask : BitVec 32) (rest : Bool → List CmdqArgs) :
    withMask mask (fun masked => .straight (rest masked)) =
      .straight (maskPart mask ++ rest (decide (mask ≠ 0xffffffff))) := by
  by_cases h : mask = 0xffffffff
  · simp [withMask, maskPart, h]
  · simp only [withMask, maskPart, ne_eq, h, not_false_eq_true, if_true, appendCommand_eq,
      straight_orReturn, decide_true]

theorem accesses_assign (regs : GceRegs) (regIdx : BitVec 16) (value : BitVec 32)
    (l : List (BitVec 64)) :
    accesses cltBase bus regs (cmdqPktInstrEncoder (assignArgs regIdx value) :: l) =
      accesses cltBase bus { regs with spr := Function.update regs.spr regIdx.toNat value } l := by
  simp [accesses, GceRegs.step, instOp_encoder, instSOp_encoder, instArgBType_encoder,
    instArgA_encoder, inst32_encoder, getArgB_append_getArgC, assignArgs, cmdqCodeLogic,
    cmdqLogicAssign, cmdqImmediateValue]

theorem maskPart_full : maskPart 0xffffffff = [] := rfl

theorem maskPart_of_ne {mask : BitVec 32} (h : mask ≠ 0xffffffff) :
    maskPart mask = [⟨cmdqGetArgC ((~~~mask).setWidth 64), cmdqGetArgB ((~~~mask).setWidth 64), 0,
      0, 0, 0, 0, cmdqCodeMask⟩] := if_pos h

theorem accesses_maskInst (regs : GceRegs) (v : BitVec 32) (l : List (BitVec 64)) :
    accesses cltBase bus regs (cmdqPktInstrEncoder ⟨cmdqGetArgC (v.setWidth 64),
        cmdqGetArgB (v.setWidth 64), 0, 0, 0, 0, 0, cmdqCodeMask⟩ :: l) =
      accesses cltBase bus { regs with mask := v } l := by
  simp [accesses, GceRegs.step, instOp_encoder, instArgAType_encoder, inst32_encoder,
    getArgB_append_getArgC, cmdqCodeLogic, cmdqCodeMask]

theorem accesses_maskPart (regs : GceRegs) (mask : BitVec 32) :
    accesses cltBase bus regs ((maskPart mask).map cmdqPktInstrEncoder) = [] := by
  by_cases h : mask = 0xffffffff
  · rw [h, maskPart_full]
    rfl
  · rw [maskPart_of_ne h, List.map_singleton, accesses_maskInst]
    rfl

/-- The last instruction of a write. -/
def writeArgs (c b a : BitVec 16) (s bt : BitVec 8) (masked : Bool) : CmdqArgs :=
  ⟨c, b, a, s, cmdqImmediateValue, bt, cmdqImmediateValue, writeOp masked⟩

/-- **A masked write** writes the bits that are asked for. -/
theorem accesses_write (regs : GceRegs) (mask : BitVec 32) (c b a : BitVec 16) (s bt : BitVec 8) :
    accesses cltBase bus regs ((maskPart mask ++
        [writeArgs c b a s bt (decide (mask ≠ 0xffffffff))]).map cmdqPktInstrEncoder) =
      [.write (regs.target cltBase 0 (s.setWidth 5) a) mask] := by
  by_cases h : mask = 0xffffffff
  · rw [h, maskPart_full]
    simp [writeArgs, writeOp, accesses, GceRegs.step, instOp_encoder, instArgAType_encoder,
      instSOp_encoder, instArgA_encoder, cmdqCodeLogic, cmdqCodeMask, cmdqCodeReadS,
      cmdqCodeWriteS, cmdqImmediateValue]
  · rw [maskPart_of_ne h, decide_eq_true h, List.map_append, List.map_singleton,
      List.singleton_append, accesses_maskInst]
    simp [writeArgs, writeOp, accesses, GceRegs.step, instOp_encoder, instArgAType_encoder,
      instSOp_encoder, instArgA_encoder, cmdqCodeLogic, cmdqCodeMask, cmdqCodeReadS,
      cmdqCodeWriteS, cmdqCodeWriteSWMask, cmdqImmediateValue, GceRegs.target]

/-- The last instruction of a read. -/
def readArgs (b a : BitVec 16) (s : BitVec 8) : CmdqArgs :=
  ⟨0, b, a, s, cmdqImmediateValue, cmdqImmediateValue, cmdqRegType, cmdqCodeReadS⟩

theorem accesses_read (regs : GceRegs) (b a : BitVec 16) (s : BitVec 8) (l : List (BitVec 64)) :
    accesses cltBase bus regs (cmdqPktInstrEncoder (readArgs b a s) :: l) =
      .read (regs.target cltBase 0 (s.setWidth 5) b) :: accesses cltBase bus { regs with
        spr := Function.update regs.spr a.toNat
          (bus (regs.target cltBase 0 (s.setWidth 5) b)) } l := by
  simp [accesses, GceRegs.step, instOp_encoder, instArgBType_encoder, instSOp_encoder,
    instArgA_encoder, getArgB_encoder, cmdqCodeLogic, cmdqCodeMask, cmdqCodeReadS, readArgs,
    cmdqImmediateValue]

/-! ## Addresses -/

theorem getLsbD_of_aligned {w : Nat} {x : BitVec w} (h : x.toNat % 4 = 0) {i : Nat} (hi : i < 2) :
    x.getLsbD i = false := by
  rw [BitVec.getLsbD, Nat.testBit_eq_decide_div_mod_eq, decide_eq_false_iff_not]
  obtain rfl | rfl : i = 0 ∨ i = 1 := by omega
  · simp
    omega
  · simp
    omega

theorem getLsbD_lowBit {i : Nat} (hi : i < 16) : cmdqAddrLowBit.getLsbD i = decide (i = 1) := by
  have : ∀ j < 16, cmdqAddrLowBit.getLsbD j = decide (j = 1) := by decide
  exact this i hi

theorem getLsbD_lowMask {i : Nat} (hi : i < 16) :
    (0xfffc : BitVec 16).getLsbD i = decide (2 ≤ i) := by
  have : ∀ j < 16, (0xfffc : BitVec 16).getLsbD j = decide (2 ≤ j) := by decide
  exact this i hi

theorem addrLow_flag (addr : BitVec 64) : cmdqGetAddrLow addr &&& cmdqAddrLowBit ≠ 0 := by
  have hbit : (cmdqGetAddrLow addr &&& cmdqAddrLowBit).getLsbD 1 = true := by
    simp [cmdqGetAddrLow, cmdqAddrLowBit]
  intro h
  rw [h] at hbit
  exact absurd hbit (by decide)

theorem addrLow_low {addr : BitVec 64} (ha : addr.toNat % 4 = 0) :
    cmdqGetAddrLow addr &&& 0xfffc = addr.extractLsb' 0 16 := by
  apply BitVec.eq_of_getLsbD_eq
  intro i hi
  rw [cmdqGetAddrLow, BitVec.getLsbD_and, BitVec.getLsbD_or, getLsbD_lowBit hi, getLsbD_lowMask hi]
  by_cases h : i < 2
  · have hbit : (addr.extractLsb' 0 16).getLsbD i = false := by
      rw [BitVec.getLsbD_extractLsb', Nat.zero_add, getLsbD_of_aligned ha h, Bool.and_false]
    simp [hbit, show ¬2 ≤ i by omega]
  · simp [show i ≠ 1 by omega, show 2 ≤ i by omega]

/-- **The two halves of an address** make its lower 48 bits. -/
theorem addr_halves (addr : BitVec 64) :
    (cmdqGetAddrHigh addr).toNat * 2 ^ 16 + (addr.extractLsb' 0 16).toNat =
      addr.toNat % 2 ^ 48 := by
  simp only [cmdqGetAddrHigh, BitVec.extractLsb'_toNat, BitVec.toNat_ushiftRight,
    Nat.shiftRight_eq_div_pow]
  omega

theorem target_high (regs : GceRegs) {addr : BitVec 64} (ha : addr.toNat % 4 = 0) {sOp : BitVec 5}
    (hs : regs.spr sOp.toNat = cmdqGetAddrHigh addr) :
    regs.target cltBase 0 sOp (cmdqGetAddrLow addr) = some (addr.toNat % 2 ^ 48) := by
  rw [GceRegs.target, if_neg (by simp), if_pos (addrLow_flag addr), hs, addrLow_low ha, addr_halves]

theorem target_low (regs : GceRegs) {sOp : BitVec 5} {offset : BitVec 16}
    (ho : offset.toNat % 4 = 0) :
    regs.target cltBase 0 sOp offset = subsysAddr cltBase sOp offset := by
  have hflag : offset &&& cmdqAddrLowBit = 0 := by
    apply BitVec.eq_of_getLsbD_eq
    intro i hi
    rw [BitVec.getLsbD_and, getLsbD_lowBit hi]
    by_cases h : i = 1
    · rw [h, getLsbD_of_aligned ho (by decide)]
      rfl
    · simp [h]
  rw [GceRegs.target, if_neg (by simp), if_neg (by simp [hflag])]

/-! ## Subsys tables -/

/-- The first entry with the base of an address. -/
def findBase (cltBase : Option CmdqBase) (addr : BitVec 32) : Option CmdqSubsys :=
  cltBase.bind fun c => c.subsys.find? fun s => s.base = addr &&& 0xFFFF0000

theorem high_toNat (x : BitVec 32) : (x &&& 0xFFFF0000).toNat = x.toNat / 2 ^ 16 * 2 ^ 16 := by
  have h : x &&& 0xFFFF0000 = (x.extractLsb' 16 16 ++ (0 : BitVec 16) : BitVec 32) := by
    apply BitVec.eq_of_getLsbD_eq
    intro i hi
    have hm : (0xFFFF0000 : BitVec 32).getLsbD i = decide (16 ≤ i) := by
      have : ∀ j < 32, (0xFFFF0000 : BitVec 32).getLsbD j = decide (16 ≤ j) := by decide
      exact this i hi
    rw [BitVec.getLsbD_and, hm, BitVec.getLsbD_append]
    by_cases h : i < 16
    · simp [h, show ¬16 ≤ i by omega]
    · simp [h, show 16 ≤ i by omega, show 16 + (i - 16) = i by omega, show i - 16 < 16 by omega]
  rw [h, BitVec.toNat_append, BitVec.extractLsb'_toNat]
  simp [Nat.shiftRight_eq_div_pow, Nat.shiftLeft_eq]
  omega

theorem high_and_high (x : BitVec 32) : x &&& 0xFFFF0000 &&& 0xFFFF0000 = x &&& 0xFFFF0000 := by
  rw [BitVec.and_assoc, BitVec.and_self]

/-- An address that no entry covers has no id. -/
theorem baseToId_none {addr : BitVec 32} (h : findBase cltBase addr = none) :
    ¬cmdqSubsysBaseToId cltBase addr ≥ 0 := by
  have heq : cmdqSubsysBaseToId cltBase addr = -einval := by
    cases cltBase with
    | none => rfl
    | some c =>
      have hf : (c.subsys.find? fun s => s.base = addr &&& 0xFFFF0000) = none := h
      simp only [cmdqSubsysBaseToId, hf]
  rw [heq]
  decide

theorem baseToId_some {addr : BitVec 32} {s : CmdqSubsys} (h : findBase cltBase addr = some s) :
    cmdqSubsysBaseToId cltBase addr = s.id.toNat ∧ s.id < 32 ∧ ∃ c, cltBase = some c := by
  cases cltBase with
  | none => cases h
  | some c =>
    have hf : (c.subsys.find? fun s => s.base = addr &&& 0xFFFF0000) = some s := h
    have hid := c.ids s (List.mem_of_find?_eq_some hf)
    refine ⟨?_, hid, c, rfl⟩
    have hlt : s.id.toNat < 32 := hid
    simp only [cmdqSubsysBaseToId, hf, BitVec.toInt]
    omega

/-- The registered bases are whole subsystems. -/
theorem subsysBase_aligned {id : BitVec 8} {base : BitVec 32}
    (h : subsysBase cltBase id = some base) : base.toNat % 2 ^ 16 = 0 := by
  cases cltBase with
  | none => cases h
  | some c =>
    obtain ⟨s, hf, rfl⟩ := Option.map_eq_some_iff.1
      (show (c.subsys.find? fun s => s.id = id).map CmdqSubsys.base = some base from h)
    have := congrArg BitVec.toNat (c.aligned s (List.mem_of_find?_eq_some hf))
    simpa [BitVec.extractLsb'_toNat] using this

theorem setWidth_id {id : BitVec 8} (h : id < 32) : (id.setWidth 5).setWidth 8 = id := by
  apply BitVec.eq_of_toNat_eq
  have hlt : id.toNat < 32 := h
  simp only [BitVec.toNat_setWidth]
  omega

end

/-- The id stands for the base of the address. -/
def RightBase (cltBase : Option CmdqBase) (id : BitVec 8) (addr : BitVec 64) : Prop :=
  addr.toNat < 2 ^ 32 ∧ subsysBase cltBase id = some (addr.setWidth 32 &&& 0xFFFF0000)

/-- The base of an address below 4 GB and its offset. -/
theorem subsysAddr_eq_iff {cltBase : Option CmdqBase} {id : BitVec 8} (hid : id < 32)
    (addr : BitVec 64) : subsysAddr cltBase (id.setWidth 5) (cmdqGetRegOffset addr) =
      some addr.toNat ↔ RightBase cltBase id addr := by
  have hoff : (cmdqGetRegOffset addr).toNat = addr.toNat % 2 ^ 16 := by
    simp [cmdqGetRegOffset, BitVec.extractLsb'_toNat]
  have hhigh := high_toNat (addr.setWidth 32)
  rw [BitVec.toNat_setWidth] at hhigh
  rw [subsysAddr, setWidth_id hid, RightBase]
  cases hb : subsysBase cltBase id with
  | none => simp
  | some base =>
    have hal := subsysBase_aligned hb
    have hlt := base.isLt
    simp only [Option.map_some, Option.some.injEq, hoff]
    constructor
    · intro he
      have hsmall : addr.toNat < 2 ^ 32 := by omega
      refine ⟨hsmall, BitVec.eq_of_toNat_eq ?_⟩
      rw [hhigh, Nat.mod_eq_of_lt hsmall]
      omega
    · rintro ⟨hsmall, rfl⟩
      rw [hhigh, Nat.mod_eq_of_lt hsmall]
      omega

/-! ## Writes and reads -/

section
variable {cltBase : Option CmdqBase} {bus : Option Nat → BitVec 32} {ok : Nat → Bool}

theorem findBase_writeBase (addr : BitVec 64) :
    findBase cltBase (writeBase addr) = findBase cltBase (addr.setWidth 32) := by
  have hb : writeBase addr = addr.setWidth 32 &&& 0xFFFF0000 := by
    simp [writeBase, cmdqGetAddrH, sizeofDmaAddr]
  simp only [findBase, hb, high_and_high]

theorem ofInt_id (id : BitVec 8) : BitVec.ofInt 8 (id.toNat : Int) = id := by
  rw [BitVec.ofInt_natCast, BitVec.ofNat_toNat, BitVec.setWidth_eq]

/-- A write through a subsys. -/
theorem exact_subsysWrite (mask : BitVec 32) (c b a : BitVec 16) (id bt : BitVec 8) {n : Nat}
    (ha : a.toNat % 4 = 0) :
    Exact cltBase ok (.straight (maskPart mask ++
        [writeArgs c b a id bt (decide (mask ≠ 0xffffffff))])) [.write (some n) mask] ↔
      (AllOk ok ((maskPart mask).length + 1) →
        subsysAddr cltBase (id.setWidth 5) a = some n) := by
  rw [exact_last_iff fun bus regs => accesses_maskPart regs mask]
  refine imp_congr_right fun _ => ?_
  simp only [accesses_write, target_low _ ha]
  simp

/-- A write through the register for temporary values. -/
theorem exact_highWrite (mask : BitVec 32) (c b : BitVec 16) (bt : BitVec 8) {addr : BitVec 64}
    (ha : addr.toNat % 4 = 0) :
    Exact cltBase ok (.straight (assignArgs cmdqSprForTemp (cmdqGetAddrHigh addr) ::
        (maskPart mask ++ [writeArgs c b (cmdqGetAddrLow addr) 0 bt
          (decide (mask ≠ 0xffffffff))]))) [.write (some addr.toNat) mask] ↔
      (AllOk ok (1 + ((maskPart mask).length + 1)) → addr.toNat < 2 ^ 48) := by
  have hpre : ∀ bus regs, accesses cltBase bus regs
      ((assignArgs cmdqSprForTemp (cmdqGetAddrHigh addr) :: maskPart mask).map
        cmdqPktInstrEncoder) = [] := by
    intro bus regs
    rw [List.map_cons, accesses_assign, accesses_maskPart]
  rw [← List.cons_append, exact_last_iff hpre, List.length_cons, Nat.add_comm 1]
  refine imp_congr_right fun _ => ?_
  simp only [List.cons_append, List.map_cons, accesses_assign, accesses_write]
  have htarget : ∀ regs : GceRegs, GceRegs.target cltBase { regs with
      spr := Function.update regs.spr cmdqSprForTemp.toNat (cmdqGetAddrHigh addr) } 0
      ((0 : BitVec 8).setWidth 5) (cmdqGetAddrLow addr) = some (addr.toNat % 2 ^ 48) :=
    fun regs => target_high _ ha (by simp [cmdqSprForTemp])
  simp only [htarget]
  have hmod : addr.toNat % 2 ^ 48 = addr.toNat ↔ addr.toNat < 2 ^ 48 :=
    Nat.mod_eq_iff_lt (by decide)
  simp

/-- A read through a subsys. -/
theorem exact_subsysRead (b a : BitVec 16) (id : BitVec 8) {n : Nat} (hb : b.toNat % 4 = 0) :
    Exact cltBase ok (.straight [readArgs b a id]) [.read (some n)] ↔
      (AllOk ok 1 → subsysAddr cltBase (id.setWidth 5) b = some n) := by
  rw [← List.nil_append [readArgs b a id], exact_last_iff fun bus regs => rfl]
  refine imp_congr_right fun _ => ?_
  simp only [List.nil_append, List.map_singleton, accesses_read, target_low _ hb, accesses]
  simp

/-- A read through the register for temporary values. -/
theorem exact_highRead (a : BitVec 16) {addr : BitVec 64} (ha : addr.toNat % 4 = 0) :
    Exact cltBase ok (.straight [assignArgs cmdqSprForTemp (cmdqGetAddrHigh addr),
        readArgs (cmdqGetAddrLow addr) a 0]) [.read (some addr.toNat)] ↔
      (AllOk ok 2 → addr.toNat < 2 ^ 48) := by
  have hpre : ∀ bus regs, accesses cltBase bus regs
      ([assignArgs cmdqSprForTemp (cmdqGetAddrHigh addr)].map cmdqPktInstrEncoder) = [] := by
    intro bus regs
    rw [List.map_singleton, accesses_assign]
    rfl
  rw [← List.singleton_append, exact_last_iff hpre]
  refine imp_congr_right fun _ => ?_
  have htarget : ∀ regs : GceRegs, GceRegs.target cltBase { regs with
      spr := Function.update regs.spr cmdqSprForTemp.toNat (cmdqGetAddrHigh addr) } 0
      ((0 : BitVec 8).setWidth 5) (cmdqGetAddrLow addr) = some (addr.toNat % 2 ^ 48) :=
    fun regs => target_high _ ha (by simp [cmdqSprForTemp])
  simp only [List.singleton_append, List.map_cons, List.map_nil, accesses_assign, accesses_read,
    htarget]
  have hmod : addr.toNat % 2 ^ 48 = addr.toNat ↔ addr.toNat < 2 ^ 48 :=
    Nat.mod_eq_iff_lt (by decide)
  simp [accesses]

/-! ## The functions as sequences of appends -/

theorem writeValue_straight (subsys : BitVec 8) (offset : BitVec 16) (value mask : BitVec 32) :
    cmdqPktWriteValue subsys offset value mask = .straight (maskPart mask ++
      [writeArgs (cmdqGetArgC (value.setWidth 64)) (cmdqGetArgB (value.setWidth 64)) offset subsys
        cmdqImmediateValue (decide (mask ≠ 0xffffffff))]) := by
  simp only [cmdqPktWriteValue, appendCommand_eq, withMask_straight]
  rfl

theorem writeReg_straight (subsys : BitVec 8) (offset srcRegIdx : BitVec 16) (mask : BitVec 32) :
    cmdqPktWriteReg subsys offset srcRegIdx mask = .straight (maskPart mask ++
      [writeArgs 0 srcRegIdx offset subsys cmdqRegType (decide (mask ≠ 0xffffffff))]) := by
  simp only [cmdqPktWriteReg, appendCommand_eq, withMask_straight]
  rfl

theorem writeValueAddr_straight (addr : BitVec 64) (value mask : BitVec 32) :
    cmdqPktWriteValueAddr addr value mask =
      .straight (assignArgs cmdqSprForTemp (cmdqGetAddrHigh addr) :: (maskPart mask ++
        [writeArgs (cmdqGetArgC (value.setWidth 64)) (cmdqGetArgB (value.setWidth 64))
          (cmdqGetAddrLow addr) 0 cmdqImmediateValue (decide (mask ≠ 0xffffffff))])) := by
  simp only [cmdqPktWriteValueAddr, cmdqPktAssignCommand, cmdqPktStoreValue, appendCommand_eq,
    withMask_straight, straight_orReturn]
  rfl

theorem addrLow_ne_zero (addr : BitVec 64) : cmdqGetAddrLow addr ≠ 0 := by
  intro h
  exact addrLow_flag addr (by simp [h])

theorem writeRegAddr_straight (addr : BitVec 64) (srcRegIdx : BitVec 16) (mask : BitVec 32) :
    cmdqPktWriteRegAddr addr srcRegIdx mask =
      .straight (assignArgs cmdqSprForTemp (cmdqGetAddrHigh addr) :: (maskPart mask ++
        [writeArgs 0 srcRegIdx (cmdqGetAddrLow addr) 0 cmdqRegType
          (decide (mask ≠ 0xffffffff))])) := by
  simp only [cmdqPktWriteRegAddr, cmdqPktAssignCommand, cmdqPktStoreValueReg,
    if_pos (addrLow_ne_zero addr), appendCommand_eq, withMask_straight, straight_orReturn]
  rfl

theorem readAddr_straight (addr : BitVec 64) (dstRegIdx : BitVec 16) :
    cmdqPktReadAddr addr dstRegIdx = .straight [assignArgs cmdqSprForTemp (cmdqGetAddrHigh addr),
      readArgs (cmdqGetAddrLow addr) dstRegIdx 0] := by
  simp only [cmdqPktReadAddr, cmdqPktAssignCommand, appendCommand_eq, straight_orReturn]
  rfl

theorem readReg_straight (subsys : BitVec 8) (offset dstRegIdx : BitVec 16) :
    cmdqPktReadReg subsys offset dstRegIdx = .straight [readArgs offset dstRegIdx subsys] := by
  rw [cmdqPktReadReg, appendCommand_eq]
  rfl

end

/-- The id that `cmdq_pkt_read` uses: that of the entry at index `id`. -/
def idAt (cltBase : Option CmdqBase) (id : BitVec 8) : BitVec 8 :=
  cltBase.elim 0 fun c => c.idAt id.toNat

/-- When `cmdq_pkt_write` accesses the address. -/
def WriteOk (cltBase : Option CmdqBase) (ok : Nat → Bool) (addr : BitVec 64) (mask : BitVec 32) :
    Prop :=
  match findBase cltBase (addr.setWidth 32) with
  | some s => AllOk ok ((maskPart mask).length + 1) → RightBase cltBase s.id addr
  | none => AllOk ok (1 + ((maskPart mask).length + 1)) → addr.toNat < 2 ^ 48

/-- When `cmdq_pkt_write_indriect` accesses the address. -/
def WriteIndriectOk (cltBase : Option CmdqBase) (ok : Nat → Bool) (addr : BitVec 64)
    (mask : BitVec 32) : Prop :=
  match findBase cltBase (addr.setWidth 32) with
  | some s => AllOk ok ((maskPart mask).length + 1) →
      RightBase cltBase s.id addr ∧ addr.toNat % 2 ^ 16 = 0
  | none => AllOk ok (1 + ((maskPart mask).length + 1)) → addr.toNat < 2 ^ 48

/-- When `cmdq_pkt_read` accesses the address. -/
def ReadOk (cltBase : Option CmdqBase) (ok : Nat → Bool) (addr : BitVec 64) : Prop :=
  match findBase cltBase (addr.setWidth 32) with
  | some s => AllOk ok 1 → RightBase cltBase (idAt cltBase s.id) addr
  | none => AllOk ok 2 → addr.toNat < 2 ^ 48

/-- When `cmdq_pkt_poll` accesses the address. -/
def PollOk (cltBase : Option CmdqBase) (ok : Nat → Bool) (addr mask : BitVec 32) : Prop :=
  match findBase cltBase addr with
  | some s => AllOk ok ((maskPart mask).length + 1) →
      subsysBase cltBase s.id = some (addr &&& 0xFFFF0000)
  | none => AllOk ok (maskPart mask).length → ok ((maskPart mask).length + 1) = true →
      ok (maskPart mask).length = true

/-- How many instructions `cmdq_pkt_read` appends. -/
def readLen (cltBase : Option CmdqBase) (addr : BitVec 64) : Nat :=
  match findBase cltBase (addr.setWidth 32) with
  | some _ => 1
  | none => 2

/-- When `cmdq_pkt_mem_move` accesses the two addresses. -/
def MemMoveOk (cltBase : Option CmdqBase) (ok : Nat → Bool) (src dst : BitVec 64) : Prop :=
  ReadOk cltBase ok src ∧ (AllOk ok (readLen cltBase src) →
    WriteIndriectOk cltBase (fun i => ok (readLen cltBase src + i)) dst 0xffffffff)

section
variable {cltBase : Option CmdqBase} {ok : Nat → Bool} {addr : BitVec 64}

/-- The instructions of `cmdq_pkt_read`. -/
def readPart (cltBase : Option CmdqBase) (addr : BitVec 64) (dstRegIdx : BitVec 16) :
    List CmdqArgs :=
  match findBase cltBase (addr.setWidth 32) with
  | some s => [readArgs (cmdqGetRegOffset addr) dstRegIdx (idAt cltBase s.id)]
  | none => [assignArgs cmdqSprForTemp (cmdqGetAddrHigh addr),
      readArgs (cmdqGetAddrLow addr) dstRegIdx 0]

theorem read_straight (addr : BitVec 64) (dstRegIdx : BitVec 16) :
    cmdqPktRead cltBase addr dstRegIdx = .straight (readPart cltBase addr dstRegIdx) := by
  have hh : cmdqGetAddrH addr = 0 := rfl
  rw [cmdqPktRead, if_pos hh, readPart]
  cases hf : findBase cltBase (addr.setWidth 32) with
  | none =>
    cases cltBase with
    | none => exact readAddr_straight _ _
    | some c => simp only [if_neg (baseToId_none hf), readAddr_straight]
  | some s =>
    obtain ⟨hid, -, c, rfl⟩ := baseToId_some hf
    simp only [hid, ge_iff_le, Int.natCast_nonneg, if_true, readReg_straight, Int.toNat_natCast]
    rfl

/-- Ids in the table, and the zeros after it, are below 32. -/
theorem idAt_lt (cltBase : Option CmdqBase) (id : BitVec 8) : idAt cltBase id < 32 := by
  cases cltBase with
  | none => exact (by decide : (0 : BitVec 8) < 32)
  | some c =>
    show c.idAt id.toNat < 32
    rw [CmdqBase.idAt]
    cases hs : c.subsys[id.toNat]? with
    | none => exact (by decide : (0 : BitVec 8) < 32)
    | some s => exact c.ids s (List.mem_of_getElem? hs)

theorem writeBase_setWidth (addr : BitVec 64) : (writeBase addr).setWidth 16 = 0 := by
  have hb : writeBase addr = addr.setWidth 32 &&& 0xFFFF0000 := by
    simp [writeBase, cmdqGetAddrH, sizeofDmaAddr]
  apply BitVec.eq_of_toNat_eq
  rw [hb, BitVec.toNat_setWidth, high_toNat]
  simp

theorem regOffset_zero (h : addr.toNat % 2 ^ 16 = 0) : cmdqGetRegOffset addr = 0 := by
  apply BitVec.eq_of_toNat_eq
  simpa [cmdqGetRegOffset, BitVec.extractLsb'_toNat] using h

/-- The base alone. -/
theorem subsysAddr_zero_iff {id : BitVec 8} (hid : id < 32) :
    subsysAddr cltBase (id.setWidth 5) 0 = some addr.toNat ↔
      RightBase cltBase id addr ∧ addr.toNat % 2 ^ 16 = 0 := by
  constructor
  · intro h
    have hlow : addr.toNat % 2 ^ 16 = 0 := by
      obtain ⟨base, hb, he⟩ := Option.map_eq_some_iff.1 h
      have := subsysBase_aligned hb
      have he' : base.toNat = addr.toNat := by simpa using he
      rwa [← he']
    refine ⟨(subsysAddr_eq_iff hid addr).1 ?_, hlow⟩
    rwa [regOffset_zero hlow]
  · rintro ⟨hr, hlow⟩
    rw [← regOffset_zero hlow]
    exact (subsysAddr_eq_iff hid addr).2 hr

theorem regOffset_aligned (ha : addr.toNat % 4 = 0) : (cmdqGetRegOffset addr).toNat % 4 = 0 := by
  simp only [cmdqGetRegOffset, BitVec.extractLsb'_toNat]
  omega

theorem write_exact_iff (ha : addr.toNat % 4 = 0) (value mask : BitVec 32) :
    Exact cltBase ok (cmdqPktWrite cltBase addr value mask) [.write (some addr.toNat) mask] ↔
      WriteOk cltBase ok addr mask := by
  rw [WriteOk, ← findBase_writeBase]
  cases hf : findBase cltBase (writeBase addr) with
  | none =>
    simp only [cmdqPktWrite, if_neg (baseToId_none hf), writeValueAddr_straight]
    exact exact_highWrite mask _ _ _ ha
  | some s =>
    obtain ⟨hid, hlt, -⟩ := baseToId_some hf
    simp only [cmdqPktWrite, hid, ge_iff_le, Int.natCast_nonneg, if_true, ofInt_id,
      writeValue_straight]
    rw [exact_subsysWrite _ _ _ _ _ _ (regOffset_aligned ha), subsysAddr_eq_iff hlt]

theorem writeIndriect_exact_iff (ha : addr.toNat % 4 = 0) (srcRegIdx : BitVec 16)
    (mask : BitVec 32) :
    Exact cltBase ok (cmdqPktWriteIndriect cltBase addr srcRegIdx mask)
        [.write (some addr.toNat) mask] ↔
      WriteIndriectOk cltBase ok addr mask := by
  rw [WriteIndriectOk, ← findBase_writeBase]
  cases hf : findBase cltBase (writeBase addr) with
  | none =>
    simp only [cmdqPktWriteIndriect, if_neg (baseToId_none hf), writeRegAddr_straight]
    exact exact_highWrite mask _ _ _ ha
  | some s =>
    obtain ⟨hid, hlt, -⟩ := baseToId_some hf
    simp only [cmdqPktWriteIndriect, hid, ge_iff_le, Int.natCast_nonneg, if_true, ofInt_id,
      writeReg_straight, writeBase_setWidth]
    rw [exact_subsysWrite _ _ _ _ _ _ (by decide), subsysAddr_zero_iff hlt]

theorem read_exact_iff (ha : addr.toNat % 4 = 0) (dstRegIdx : BitVec 16) :
    Exact cltBase ok (cmdqPktRead cltBase addr dstRegIdx) [.read (some addr.toNat)] ↔
      ReadOk cltBase ok addr := by
  rw [ReadOk, read_straight]
  cases hf : findBase cltBase (addr.setWidth 32) with
  | none =>
    simp only [readPart, hf]
    exact exact_highRead _ ha
  | some s =>
    simp only [readPart, hf]
    rw [exact_subsysRead _ _ _ (regOffset_aligned ha), subsysAddr_eq_iff (idAt_lt cltBase s.id)]

/-! ## Polls -/

/-- The last instruction of `cmdq_pkt_poll_reg`. -/
def pollRegArgs (value : BitVec 32) (subsys : BitVec 8) (offset : BitVec 16) (masked : Bool) :
    CmdqArgs :=
  ⟨cmdqGetArgC (value.setWidth 64), cmdqGetArgB (value.setWidth 64),
    if masked then offset ||| 1 else offset, subsys, 0, 0, 0, cmdqCodePoll⟩

theorem pollReg_straight (value : BitVec 32) (subsys : BitVec 8) (offset : BitVec 16)
    (mask : BitVec 32) :
    cmdqPktPollReg value subsys offset mask = .straight (maskPart mask ++
      [pollRegArgs value subsys offset (decide (mask ≠ 0xffffffff))]) := by
  simp only [cmdqPktPollReg, appendCommand_eq, withMask_straight]
  rfl

/-- The mask flag is not part of the offset. -/
theorem pollOffset {offset : BitVec 16} (ho : offset.toNat % 4 = 0) (masked : Bool) :
    (if masked then offset ||| 1 else offset) &&& 65534#16 = offset := by
  have hmask : ∀ j < 16, (65534#16).getLsbD j = decide (j ≠ 0) := by decide
  apply BitVec.eq_of_getLsbD_eq
  intro i hi
  rw [BitVec.getLsbD_and, hmask i hi]
  by_cases h : i = 0
  · rw [h, getLsbD_of_aligned ho (by decide)]
    simp
  · cases masked with
    | false => simp [h]
    | true => simp [h, BitVec.getLsbD_or]

theorem accesses_pollReg {bus : Option Nat → BitVec 32} (regs : GceRegs) (value mask : BitVec 32)
    (subsys : BitVec 8) {offset : BitVec 16} (ho : offset.toNat % 4 = 0) :
    accesses cltBase bus regs ((maskPart mask ++ [pollRegArgs value subsys offset
        (decide (mask ≠ 0xffffffff))]).map cmdqPktInstrEncoder) =
      [.poll (subsysAddr cltBase (subsys.setWidth 5) offset)] := by
  have hpoll : ∀ (regs : GceRegs) (masked : Bool), accesses cltBase bus regs
      [cmdqPktInstrEncoder (pollRegArgs value subsys offset masked)] =
        [.poll (subsysAddr cltBase (subsys.setWidth 5) offset)] := by
    intro regs masked
    have hoff := pollOffset ho masked
    simp only [pollRegArgs]
    generalize (if masked then offset ||| 1 else offset) = low at hoff ⊢
    simp [accesses, GceRegs.step, instOp_encoder, instArgAType_encoder, instSOp_encoder,
      instArgA_encoder, cmdqCodeLogic, cmdqCodeMask, cmdqCodeReadS, cmdqCodeWriteS,
      cmdqCodeWriteSWMask, cmdqCodePoll, hoff]
  by_cases h : mask = 0xffffffff
  · rw [h, maskPart_full]
    exact hpoll regs _
  · rw [maskPart_of_ne h, List.map_append, List.map_singleton, List.map_singleton,
      List.singleton_append, accesses_maskInst]
    exact hpoll _ _

/-- The two last appends of `cmdq_pkt_poll_addr`, the second one made whatever the first one
returns. -/
def pollTail (value addr : BitVec 32) (argA : BitVec 16) (regGpr : BitVec 8) : Emit :=
  (appendCommand ⟨cmdqGetArgC (addr.setWidth 64), cmdqGetArgB (addr.setWidth 64), 0, regGpr, 0, 0,
    1, cmdqCodeMask⟩).andThen fun _ =>
  appendCommand ⟨cmdqGetArgC (value.setWidth 64), cmdqGetArgB (value.setWidth 64), argA, regGpr, 0,
    0, 1, cmdqCodePoll⟩

theorem accesses_move {bus : Option Nat → BitVec 32} (regs : GceRegs) (v : BitVec 32)
    (regGpr : BitVec 8) (l : List (BitVec 64)) :
    accesses cltBase bus regs (cmdqPktInstrEncoder ⟨cmdqGetArgC (v.setWidth 64),
        cmdqGetArgB (v.setWidth 64), 0, regGpr, 0, 0, 1, cmdqCodeMask⟩ :: l) =
      accesses cltBase bus { regs with
        gpr := Function.update regs.gpr (regGpr.setWidth 5).toNat v } l := by
  simp [accesses, GceRegs.step, instOp_encoder, instArgAType_encoder, instSOp_encoder,
    inst32_encoder, getArgB_append_getArgC, cmdqCodeLogic, cmdqCodeMask]

theorem accesses_pollGpr {bus : Option Nat → BitVec 32} (regs : GceRegs) (c b argA : BitVec 16)
    (regGpr : BitVec 8) :
    accesses cltBase bus regs [cmdqPktInstrEncoder ⟨c, b, argA, regGpr, 0, 0, 1, cmdqCodePoll⟩] =
      [.poll (some (regs.gpr (regGpr.setWidth 5).toNat).toNat)] := by
  simp [accesses, GceRegs.step, instOp_encoder, instArgAType_encoder, instSOp_encoder,
    cmdqCodeLogic, cmdqCodeMask, cmdqCodeReadS, cmdqCodeWriteS, cmdqCodeWriteSWMask, cmdqCodePoll]

/-- **The move is needed** by a poll that is appended. -/
theorem pollTail_iff {value addr : BitVec 32} {argA : BitVec 16} {regGpr : BitVec 8} {n : Nat}
    {f : GceRegs → GceRegs} (hf : ∀ regs, (f regs).gpr = regs.gpr) :
    (∀ bus regs,
      accesses cltBase bus (f regs) ((((pollTail value addr argA regGpr).emitted ok n).2).map
        cmdqPktInstrEncoder) <+: [.poll (some addr.toNat)] ∧
      (((pollTail value addr argA regGpr).emitted ok n).1 = 0 →
        accesses cltBase bus (f regs) ((((pollTail value addr argA regGpr).emitted ok n).2).map
          cmdqPktInstrEncoder) = [.poll (some addr.toNat)])) ↔
      (ok (n + 1) = true → ok n = true) := by
  cases hpoll : ok (n + 1) with
  | false =>
    cases hmove : ok n with
    | false =>
      simp [pollTail, appendCommand, Emit.andThen, Emit.emitted, hmove, hpoll, accesses, enomem]
    | true =>
      simp only [pollTail, appendCommand, Emit.andThen, Emit.emitted, hmove, hpoll, if_true,
        Bool.false_eq_true, if_false, List.map_cons, List.map_nil, accesses_move, accesses]
      simp [enomem]
  | true =>
    cases hmove : ok n with
    | false =>
      simp only [pollTail, appendCommand, Emit.andThen, Emit.emitted, hmove, hpoll, if_true,
        Bool.false_eq_true, if_false, List.map_cons, List.map_nil, accesses_pollGpr, hf]
      refine ⟨fun h => ?_, fun h => absurd (h trivial) (by decide)⟩
      -- another value in the register
      have hread := (h (fun _ => 0) ⟨fun _ => 0, fun _ => addr + 1, 0⟩).2
      have hne : (addr + 1).toNat ≠ addr.toNat := by
        intro he
        have := BitVec.eq_of_toNat_eq he
        simp at this
      simp only [forall_const, List.cons.injEq, Access.poll.injEq, Option.some.injEq,
        and_true] at hread
      exact absurd hread hne
    | true =>
      simp only [pollTail, appendCommand, Emit.andThen, Emit.emitted, hmove, hpoll, if_true,
        List.map_cons, List.map_nil, accesses_move, accesses_pollGpr, Function.update_self]
      simp

theorem poll_exact_iff {addr : BitVec 32} (ha : addr.toNat % 4 = 0) (value mask : BitVec 32)
    (regGpr : BitVec 8) :
    Exact cltBase ok (cmdqPktPoll cltBase value addr mask regGpr) [.poll (some addr.toNat)] ↔
      PollOk cltBase ok addr mask := by
  have hself : findBase cltBase (addr &&& 0xFFFF0000) = findBase cltBase addr := by
    simp only [findBase, high_and_high]
  rw [PollOk, ← hself]
  cases hf : findBase cltBase (addr &&& 0xFFFF0000) with
  | none =>
    simp only [cmdqPktPoll, if_neg (baseToId_none hf)]
    by_cases h : mask = 0xffffffff
    · have hcall : cmdqPktPollAddr value addr mask regGpr = pollTail value addr 0 regGpr := by
        rw [cmdqPktPollAddr, withMask, if_neg (not_not.2 h)]
        rfl
      rw [hcall, h, maskPart_full]
      refine (pollTail_iff (f := id) fun _ => rfl).trans ?_
      simp [AllOk]
    · have hcall : cmdqPktPollAddr value addr mask regGpr =
          .append ⟨cmdqGetArgC ((~~~mask).setWidth 64), cmdqGetArgB ((~~~mask).setWidth 64), 0, 0,
            0, 0, 0, cmdqCodeMask⟩ fun err =>
              if err ≠ 0 then .done err else pollTail value addr 1 regGpr := by
        rw [cmdqPktPollAddr, withMask, if_pos h]
        rfl
      have hall : AllOk ok 1 ↔ ok 0 = true :=
        ⟨fun h => h 0 (by decide), fun h i hi => by rwa [show i = 0 by omega]⟩
      rw [hcall, maskPart_of_ne h, List.length_singleton, hall]
      cases hok : ok 0 with
      | false => simp [Exact, Emit.emitted, hok, accesses, enomem]
      | true =>
        simp only [Exact, Emit.emitted, hok, if_true, ne_eq, not_true_eq_false, if_false,
          List.map_cons, accesses_maskInst, forall_const]
        exact pollTail_iff (f := fun regs => { regs with mask := ~~~mask }) fun _ => rfl
  | some s =>
    obtain ⟨hid, hlt, -⟩ := baseToId_some hf
    have hoff : (addr.extractLsb' 0 16).toNat % 4 = 0 := by
      simp only [BitVec.extractLsb'_toNat]
      omega
    simp only [cmdqPktPoll, hid, ge_iff_le, Int.natCast_nonneg, if_true, ofInt_id,
      pollReg_straight]
    rw [exact_last_iff fun bus regs => accesses_maskPart regs mask]
    refine imp_congr_right fun _ => ?_
    simp only [accesses_pollReg _ _ _ _ hoff]
    have heq : subsysAddr cltBase (s.id.setWidth 5) (addr.extractLsb' 0 16) = some addr.toNat ↔
        subsysBase cltBase s.id = some (addr &&& 0xFFFF0000) := by
      have := @subsysAddr_eq_iff cltBase _ hlt (addr.setWidth 64)
      have hw : (addr.setWidth 64).setWidth 32 = addr := by simp
      have hlow : cmdqGetRegOffset (addr.setWidth 64) = addr.extractLsb' 0 16 := by
        apply BitVec.eq_of_toNat_eq
        simp [cmdqGetRegOffset, BitVec.extractLsb'_toNat]
      have hsmall : (addr.setWidth 64).toNat = addr.toNat := by
        rw [BitVec.toNat_setWidth]
        have := addr.isLt
        omega
      rw [hlow, hsmall, RightBase, hw, hsmall] at this
      rw [this, and_iff_right addr.isLt]
    simp [heq]

/-! ## Moves -/

/-- The instructions of `cmdq_pkt_write_indriect`. -/
def indriectPart (cltBase : Option CmdqBase) (addr : BitVec 64) (srcRegIdx : BitVec 16)
    (mask : BitVec 32) : List CmdqArgs :=
  match findBase cltBase (addr.setWidth 32) with
  | some s => maskPart mask ++
      [writeArgs 0 srcRegIdx 0 s.id cmdqRegType (decide (mask ≠ 0xffffffff))]
  | none => assignArgs cmdqSprForTemp (cmdqGetAddrHigh addr) :: (maskPart mask ++
      [writeArgs 0 srcRegIdx (cmdqGetAddrLow addr) 0 cmdqRegType (decide (mask ≠ 0xffffffff))])

theorem writeIndriect_straight (addr : BitVec 64) (srcRegIdx : BitVec 16) (mask : BitVec 32) :
    cmdqPktWriteIndriect cltBase addr srcRegIdx mask =
      .straight (indriectPart cltBase addr srcRegIdx mask) := by
  rw [indriectPart, ← findBase_writeBase]
  cases hf : findBase cltBase (writeBase addr) with
  | none =>
    simp only [cmdqPktWriteIndriect, if_neg (baseToId_none hf), writeRegAddr_straight]
  | some s =>
    obtain ⟨hid, -, -⟩ := baseToId_some hf
    simp only [cmdqPktWriteIndriect, hid, ge_iff_le, Int.natCast_nonneg, if_true, ofInt_id,
      writeReg_straight, writeBase_setWidth]

/-- Two calls one after the other: each is exact where it is reached. -/
theorem exact_append_iff {l l' : List CmdqArgs} {w w' : Access} (hpos : l' ≠ [])
    (hone : ∀ bus regs, ∃ x, accesses cltBase bus regs (l.map cmdqPktInstrEncoder) = [x])
    (hsame : ∀ bus regs bus' regs' k,
      accesses cltBase bus regs ((l'.take k).map cmdqPktInstrEncoder) =
        accesses cltBase bus' regs' ((l'.take k).map cmdqPktInstrEncoder)) :
    Exact cltBase ok (.straight (l ++ l')) [w, w'] ↔
      Exact cltBase ok (.straight l) [w] ∧
        (AllOk ok l.length → Exact cltBase (fun i => ok (l.length + i)) (.straight l') [w']) := by
  have hlen : 0 < l'.length := List.length_pos_iff.2 hpos
  have hshort : ∀ k ≤ l.length, (l ++ l').take k = l.take k := fun k hk =>
    List.take_append_of_le_length hk
  have hlong : ∀ j, (l ++ l').take (l.length + j) = l ++ l'.take j := fun j => by
    rw [List.take_append, List.take_of_length_le (by omega), Nat.add_sub_cancel_left]
  have hacc : ∀ bus regs j, accesses cltBase bus regs ((l ++ l'.take j).map cmdqPktInstrEncoder) =
      accesses cltBase bus regs (l.map cmdqPktInstrEncoder) ++
        accesses cltBase bus regs ((l'.take j).map cmdqPktInstrEncoder) := by
    intro bus regs j
    rw [List.map_append]
    obtain ⟨regs', h⟩ := accesses_append cltBase bus regs
      (l.map cmdqPktInstrEncoder) ((l'.take j).map cmdqPktInstrEncoder)
    rw [h, hsame bus regs' bus regs]
  simp only [exact_straight_iff, List.length_append]
  constructor
  · intro h
    refine ⟨fun k hk hall bus regs => ?_, fun hall j hj hall' bus regs => ?_⟩
    · obtain ⟨x, hx⟩ := hone bus regs
      have hpre := (h k (by omega) hall bus regs).1
      have htake := accesses_take cltBase bus regs l k
      rw [hshort k hk] at hpre
      rw [hx] at htake
      have hone' : accesses cltBase bus regs ((l.take k).map cmdqPktInstrEncoder) <+: [w] :=
        List.prefix_of_prefix_length_le hpre ⟨[w'], rfl⟩ htake.length_le
      refine ⟨hone', fun he => ?_⟩
      rw [he, List.take_length, hx] at hone' ⊢
      simpa using hone'
    · have hk : AllOk ok (l.length + j) := by
        intro i hi
        by_cases hlt : i < l.length
        · exact hall i hlt
        · have hi' : ok (l.length + (i - l.length)) = true := hall' (i - l.length) (by omega)
          rwa [show l.length + (i - l.length) = i by omega] at hi'
      have hfirst := (h l.length (by omega) hall bus regs).1
      obtain ⟨hpre, hfull⟩ := h (l.length + j) (by omega) hk bus regs
      obtain ⟨x, hx⟩ := hone bus regs
      rw [hlong, hacc, hx] at hpre hfull
      rw [hshort _ (Nat.le_refl _), List.take_length, hx] at hfirst
      simp only [List.cons_prefix_cons, List.nil_prefix, and_true] at hfirst
      simp only [List.singleton_append, List.cons_prefix_cons, hfirst, true_and] at hpre
      refine ⟨hpre, fun he => ?_⟩
      have := hfull (by omega)
      simpa [hfirst] using this
  · rintro ⟨hl, hr⟩ k hk hall bus regs
    obtain hle | ⟨j, rfl⟩ : k ≤ l.length ∨ ∃ j, k = l.length + j := by
      obtain h | h := Nat.le_total k l.length
      · exact .inl h
      · exact .inr ⟨_, (Nat.add_sub_cancel' h).symm⟩
    · rw [hshort k hle]
      refine ⟨(hl k hle hall bus regs).1.trans ?_, fun he => by omega⟩
      exact ⟨[w'], rfl⟩
    · have hall1 : AllOk ok l.length := fun i hi => hall i (by omega)
      have hfirst := (hl _ (Nat.le_refl _) hall1 bus regs).2 rfl
      rw [List.take_length] at hfirst
      obtain ⟨hpre, hfull⟩ := hr hall1 j (by omega) (fun i hi => hall _ (by omega)) bus regs
      rw [hlong, hacc, hfirst]
      refine ⟨?_, fun he => ?_⟩
      · simpa using hpre
      · rw [hfull (by omega)]
        rfl

theorem memMove_exact_iff {dst : BitVec 64} (ha : addr.toNat % 4 = 0) (hd : dst.toNat % 4 = 0)
    (swapRegIdx : BitVec 16) :
    Exact cltBase ok (cmdqPktMemMove cltBase addr dst swapRegIdx)
        [.read (some addr.toNat), .write (some dst.toNat) 0xffffffff] ↔
      MemMoveOk cltBase ok addr dst := by
  have hlen : (readPart cltBase addr swapRegIdx).length = readLen cltBase addr := by
    rw [readPart, readLen]
    split <;> rfl
  have hone : ∀ bus regs, ∃ x, accesses cltBase bus regs
      ((readPart cltBase addr swapRegIdx).map cmdqPktInstrEncoder) = [x] := by
    intro bus regs
    rw [readPart]
    split
    · exact ⟨_, accesses_read _ _ _ _ _⟩
    · rw [List.map_cons, accesses_assign]
      exact ⟨_, accesses_read _ _ _ _ _⟩
  rw [MemMoveOk, ← read_exact_iff ha swapRegIdx, ← hlen,
    ← writeIndriect_exact_iff hd swapRegIdx, cmdqPktMemMove, read_straight,
    writeIndriect_straight, straight_orReturn]
  refine exact_append_iff ?_ hone ?_
  · rw [indriectPart]
    split <;> simp
  · intro bus regs bus' regs' k
    rw [indriectPart]
    cases hf : findBase cltBase (dst.setWidth 32) with
    | some s =>
      refine accesses_take_const (w := .write (subsysAddr cltBase (s.id.setWidth 5) 0) 0xffffffff)
        (fun bus regs => accesses_maskPart regs _) ?_ bus regs bus' regs' k
      intro bus regs
      rw [accesses_write, target_low _ (by decide)]
    | none =>
      simp only [← List.cons_append]
      refine accesses_take_const (w := .write (some (dst.toNat % 2 ^ 48)) 0xffffffff)
        (fun bus regs => ?_) ?_ bus regs bus' regs' k
      · rw [List.map_cons, accesses_assign, accesses_maskPart]
      · intro bus regs
        rw [List.cons_append, List.map_cons, accesses_assign, accesses_write]
        have htarget : GceRegs.target cltBase { regs with
            spr := Function.update regs.spr cmdqSprForTemp.toNat (cmdqGetAddrHigh dst) } 0
            ((0 : BitVec 8).setWidth 5) (cmdqGetAddrLow dst) = some (dst.toNat % 2 ^ 48) :=
          target_high _ hd (by simp [cmdqSprForTemp])
        rw [htarget]

end

/-- **The addresses the emitted instructions access.** -/
theorem targets_exact_iff (cltBase : Option CmdqBase) (ok : Nat → Bool) (addr dst : BitVec 64)
    (reg : BitVec 32) (value mask : BitVec 32) (regIdx : BitVec 16) (regGpr : BitVec 8)
    (ha : addr.toNat % 4 = 0) (hd : dst.toNat % 4 = 0) (hr : reg.toNat % 4 = 0) :
    (Exact cltBase ok (cmdqPktWrite cltBase addr value mask) [.write (some addr.toNat) mask] ↔
      WriteOk cltBase ok addr mask) ∧
    (Exact cltBase ok (cmdqPktWriteIndriect cltBase addr regIdx mask)
        [.write (some addr.toNat) mask] ↔
      WriteIndriectOk cltBase ok addr mask) ∧
    (Exact cltBase ok (cmdqPktRead cltBase addr regIdx) [.read (some addr.toNat)] ↔
      ReadOk cltBase ok addr) ∧
    (Exact cltBase ok (cmdqPktPoll cltBase value reg mask regGpr) [.poll (some reg.toNat)] ↔
      PollOk cltBase ok reg mask) ∧
    (Exact cltBase ok (cmdqPktMemMove cltBase addr dst regIdx)
        [.read (some addr.toNat), .write (some dst.toNat) 0xffffffff] ↔
      MemMoveOk cltBase ok addr dst) :=
  ⟨write_exact_iff ha value mask, writeIndriect_exact_iff ha regIdx mask, read_exact_iff ha regIdx,
    poll_exact_iff hr value mask regGpr, memMove_exact_iff ha hd regIdx⟩

/-- A table that is not in the order of its ids. -/
def twoSubsys : CmdqBase where
  subsys := [⟨0x14010000, 1⟩, ⟨0x14000000, 0⟩]
  count_le := by decide
  aligned := by decide
  ids := by decide

/-- A masked write of a display register. -/
theorem targets_exact_write : Exact (some twoSubsys) (fun _ => true)
    (cmdqPktWrite (some twoSubsys) 0x14000004 1 0xff) [.write (some 0x14000004) 0xff] :=
  (targets_exact_iff (some twoSubsys) (fun _ => true) 0x14000004 0x14000004 0x14000004 1 0xff 1 2
    (by decide) (by decide) (by decide)).1.2 fun _ => ⟨by decide, by decide⟩

/-- The offset of an indirect write is lost, the id of a read is used as an index, an address above
4 GB is taken for one below. -/
theorem targets_exact_fails :
    ¬Exact (some twoSubsys) (fun _ => true)
      (cmdqPktWriteIndriect (some twoSubsys) 0x14000004 1 0xffffffff)
      [.write (some 0x14000004) 0xffffffff] ∧
    ¬Exact (some twoSubsys) (fun _ => true) (cmdqPktRead (some twoSubsys) 0x14000004 1)
      [.read (some 0x14000004)] ∧
    ¬Exact (some twoSubsys) (fun _ => true) (cmdqPktWrite (some twoSubsys) 0x114000004 1 0xffffffff)
      [.write (some 0x114000004) 0xffffffff] := by
  refine ⟨fun h => ?_, fun h => ?_, fun h => ?_⟩
  · have hok := (writeIndriect_exact_iff (by decide) _ _).1 h
    exact absurd (hok fun _ _ => rfl).2 (by decide)
  · have hok := (read_exact_iff (by decide) _).1 h
    exact absurd (hok fun _ _ => rfl).2 (by decide)
  · have hok := (write_exact_iff (by decide) _ _).1 h
    exact absurd (hok fun _ _ => rfl).1 (by decide)

end Cmdq
