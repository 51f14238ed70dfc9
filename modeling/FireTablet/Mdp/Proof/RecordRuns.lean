import FireTablet.Mdp.Proof.RecordCopy

/-!
# Runs of buffered calls

An operation is a list of instructions for the encoder, whose results but the last are only logged
(`run_eq`). `Spared` is what spares a call the two ways in which this goes wrong: an allocation that
succeeds after one has failed in the same call, and one that succeeds after a flush has failed with
a part of the command buffer copied.
-/

namespace Mdp.RecordEx

open Cmdq

variable {g : Nat} {mem : Nat → BufAlloc} {s : Handle} {c₀ iss : List (BitVec 64)}
  {eventTable : Nat → Int}

/-! ## Operations as lists of instructions -/

/-- The encoder for one instruction after the other, with the last result. -/
def encodeAll (g : Nat) (mem : Nat → BufAlloc) : Int → List CmdqArgs → Handle → Int × Handle
  | err, [], s => (err, s)
  | _, a :: as, s =>
    encodeAll g mem (cmdqInstrEncoder g mem a s).1 as (cmdqInstrEncoder g mem a s).2

/-- The event has no value that an instruction can name. -/
def badEvent (eventTable : Nat → Int) (event : Int) : Bool :=
  cmdqGetEventOpId eventTable event < 0 || cmdqEventMax ≤ cmdqGetEventOpId eventTable event

/-- The instructions of an event operation. -/
def eventArgs (eventTable : Nat → Int) (argB : BitVec 64) (event : Int) : List CmdqArgs :=
  if badEvent eventTable event then []
  else [wfeArgs (cmdqGetEventOpId eventTable event) argB]

/-- The event of a call that is an event operation, and the register's event of a poll. -/
def Call.event : Call → Option Int
  | .poll .. => some cmdqSyncTokenGprSet4
  | .wait event | .waitNoClear event | .clear event | .set event | .acquire event => some event
  | .readRegToMem .. | .writeReg .. | .flush => none

/-- The mask instruction, for a mask that is not full. -/
def maskList (mask : BitVec 32) : List CmdqArgs :=
  if mask ≠ 0xffffffff then [maskArgs mask] else []

/-- The instructions of a call. -/
def Call.args (eventTable : Nat → Int) : Call → List CmdqArgs
  | .poll addr value mask =>
    let addr := if mask ≠ 0xffffffff then addr ||| 1 else addr
    maskList mask ++
      (eventArgs eventTable (cmdqWfeUpdate ||| cmdqWfeWait ||| cmdqWfeWaitValue)
        cmdqSyncTokenGprSet4 ++
      ([⟨cmdqGetArgC (addr.setWidth 64), cmdqGetArgB (addr.setWidth 64), 0, cmdqDataRegDebug, 0, 0,
          1, cmdqCodeMove⟩,
        ⟨cmdqGetArgC value, cmdqGetArgB value, (addr &&& 1).setWidth 16, cmdqDataRegDebug, 0, 0, 1,
          cmdqCodePoll⟩] ++
      eventArgs eventTable (cmdqWfeUpdate ||| cmdqWfeUpdateValue) cmdqSyncTokenGprSet4))
  | .readRegToMem slot i addr =>
    let dramAddr := slot + i.setWidth 64 * 4
    [assignArgs (addr.setWidth 64),
      ⟨0, cmdqGetAddrLow (addr.setWidth 64), cmdqThrSprIdx1, cmdqSprForTemp.setWidth 8,
        cmdqImmediateValue, cmdqImmediateValue, cmdqRegType, cmdqCodeReadS⟩,
      assignArgs dramAddr,
      ⟨0, cmdqThrSprIdx1, cmdqGetAddrLow dramAddr, cmdqSprForTemp.setWidth 8, cmdqImmediateValue,
        cmdqRegType, cmdqImmediateValue, cmdqCodeWriteS⟩]
  | .writeReg addr value mask =>
    [assignArgs (addr.setWidth 64)] ++ (maskList mask ++
      [⟨cmdqGetArgC value, cmdqGetArgB value, cmdqGetAddrLow (addr.setWidth 64),
        cmdqSprForTemp.setWidth 8, cmdqImmediateValue, cmdqImmediateValue, cmdqImmediateValue,
        if mask ≠ 0xffffffff then cmdqCodeWriteSWMask else cmdqCodeWriteS⟩])
  | .wait event =>
    eventArgs eventTable (cmdqWfeUpdate ||| cmdqWfeWait ||| cmdqWfeWaitValue) event
  | .waitNoClear event => eventArgs eventTable (cmdqWfeWait ||| cmdqWfeWaitValue) event
  | .clear event => eventArgs eventTable cmdqWfeUpdate event
  | .set event => eventArgs eventTable (cmdqWfeUpdate ||| cmdqWfeUpdateValue) event
  | .acquire event =>
    eventArgs eventTable (cmdqWfeUpdate ||| cmdqWfeUpdateValue ||| cmdqWfeWait) event
  | .flush => []

theorem special_subsys (addr : BitVec 32) : special (cmdqOpGetSubsys addr) = true :=
  Bool.or_eq_true_iff.2 (.inr (beq_self_eq_true _))

theorem encodeAll_append (as bs : List CmdqArgs) : ∀ (err : Int) (s : Handle),
    encodeAll g mem err (as ++ bs) s =
      encodeAll g mem (encodeAll g mem err as s).1 bs (encodeAll g mem err as s).2 := by
  induction as with
  | nil => intro err s; rfl
  | cons a as ih => intro err s; exact ih _ _

theorem eventOp_eq (argB : BitVec 64) (event err : Int) (s : Handle) :
    eventOp g mem eventTable argB event s =
      if badEvent eventTable event then
        (einval, (encodeAll g mem err (eventArgs eventTable argB event) s).2)
      else encodeAll g mem err (eventArgs eventTable argB event) s := by
  have hiff : badEvent eventTable event = true ↔ cmdqGetEventOpId eventTable event < 0 ∨
      cmdqGetEventOpId eventTable event ≥ cmdqEventMax := by simp [badEvent]
  rw [eventOp, eventArgs]
  by_cases hb : badEvent eventTable event = true
  · rw [if_pos hb, if_pos hb]
    exact if_pos (hiff.1 hb)
  · rw [if_neg hb, if_neg hb]
    exact if_neg (mt hiff.2 hb)

theorem eventOp_snd (argB : BitVec 64) (event err : Int) (s : Handle) :
    (eventOp g mem eventTable argB event s).2 =
      (encodeAll g mem err (eventArgs eventTable argB event) s).2 := by
  rw [eventOp_eq argB event err]
  split_ifs <;> rfl

/-- **An operation** is its instructions, but for the result when its event is bad. -/
theorem run_eq {c : Call} (hc : c ≠ .flush) (s : Handle) :
    c.run g eventTable mem s =
      if c.event.any (badEvent eventTable) then
        (einval, (encodeAll g mem 0 (c.args eventTable) s).2)
      else encodeAll g mem 0 (c.args eventTable) s := by
  cases c with
  | poll addr value mask =>
    simp only [Call.run, cmdqOpPollEx, special_subsys, if_true, Call.args, Call.event,
      encodeAll_append, Option.any_some, maskList]
    by_cases hm : mask ≠ 0xffffffff
    · simp only [if_pos hm, encodeAll, cmdqOpWaitEx, cmdqOpSetEventEx]
      rw [eventOp_snd _ _ (cmdqInstrEncoder g mem (maskArgs mask) s).1]
      exact eventOp_eq _ _ _ _
    · simp only [if_neg hm, encodeAll, cmdqOpWaitEx, cmdqOpSetEventEx]
      rw [eventOp_snd _ _ 0]
      exact eventOp_eq _ _ _ _
  | readRegToMem slot i addr =>
    simp only [Call.run, cmdqOpReadRegToMemEx, special_subsys, if_true, Call.args, Call.event,
      encodeAll, Option.any_none, Bool.false_eq_true, if_false]
  | writeReg addr value mask =>
    simp only [Call.run, cmdqOpWriteRegEx, special_subsys, if_true, Call.args, Call.event, maskList,
      encodeAll_append, encodeAll, Option.any_none, Bool.false_eq_true, if_false]
    by_cases hm : mask ≠ 0xffffffff
    · simp only [if_pos hm, encodeAll]
    · simp only [if_neg hm, encodeAll]
  | wait event => exact eventOp_eq _ _ 0 s
  | waitNoClear event => exact eventOp_eq _ _ 0 s
  | clear event => exact eventOp_eq _ _ 0 s
  | set event => exact eventOp_eq _ _ 0 s
  | acquire event => exact eventOp_eq _ _ 0 s
  | flush => exact absurd rfl hc

/-! ## Several instructions -/

theorem flush_dead (hi : Inv c₀ iss s) (hd : Dead mem s) :
    cmdqHandleFlushCmdBuf g mem s = (efault, { s with asked := s.asked + 1 }) := by
  have hne : s.cmdBuf ≠ [] := List.ne_nil_of_length_pos (by rw [hd.full]; decide)
  rw [cmdqHandleFlushCmdBuf, cmdqPktCopyCmd,
    copyLoop_dead (Nat.succ_pos _) hne hi.sized hd.avail (hd.none _ (Nat.le_refl _))]
  simp [enomem]

/-- Without memory and room the encoder fails again and again. -/
theorem encodeAll_dead : ∀ (as : List CmdqArgs) {s : Handle} {iss : List (BitVec 64)},
    Inv c₀ iss s → Dead mem s → works (mem (s.asked - 1)) = false →
    ∃ s', encodeAll g mem efault as s = (efault, s') ∧
      Inv c₀ (iss ++ as.map cmdqPktInstrEncoder) s' ∧ s.asked ≤ s'.asked ∧
      works (mem (s'.asked - 1)) = false ∧ Dead mem s'
  | [], s, _, hi, hd, hw => ⟨s, rfl, by simpa using hi, Nat.le_refl _, hw, hd⟩
  | a :: as, s, iss, hi, hd, _ => by
    have henc : cmdqInstrEncoder g mem a s = (efault, { s with asked := s.asked + 1 }) := by
      rw [cmdqInstrEncoder, if_pos ((availBufSize_eq_zero hi).2 hd.full), flush_dead hi hd]
      rfl
    obtain ⟨l, hl, hsub⟩ := hi.stored
    have hi' : Inv c₀ (iss ++ [cmdqPktInstrEncoder a]) { s with asked := s.asked + 1 } :=
      ⟨hi.sized, hi.fits, hi.copied, hi.stuck, l, hl, hsub.trans (List.sublist_append_left ..)⟩
    obtain ⟨s', h, hi'', hle, hw, hd'⟩ := encodeAll_dead as hi'
      ⟨hd.full, hd.avail, fun j hj => hd.none j (Nat.le_of_succ_le hj)⟩
      (hd.none _ (Nat.le_refl _))
    refine ⟨s', by rw [encodeAll, henc, h], ?_, Nat.le_of_succ_le hle, hw, hd'⟩
    simpa using hi''

/-- **The instructions of an operation** are all issued; when an allocation fails, so does the last
of them. -/
theorem encodeAll_spec (hst : Steady mem) : ∀ (as : List CmdqArgs) {s : Handle}
    {iss : List (BitVec 64)}, Inv c₀ iss s → Dry mem s →
    Part mem c₀ iss (as.map cmdqPktInstrEncoder) s (encodeAll g mem 0 as s)
  | [], s, iss, hi, hd => by
    refine ⟨by simpa [encodeAll] using hi, Nat.le_refl _,
      .inl ⟨rfl, hd, fun j h1 h2 => ?_, fun he => ?_⟩⟩
    · exact absurd h2 (not_lt.2 h1)
    · simpa [encodeAll] using he
  | a :: as, s, iss, hi, hd => by
    have ha := encoder_spec (g := g) hi hst hd a
    rw [encodeAll]
    rcases ha.ended with ⟨h0, hd', hw, he⟩ | ⟨h0, hlt, hw, hdead⟩
    · rw [h0]
      have hrest := encodeAll_spec hst as ha.inv hd'
      have happ : iss ++ [cmdqPktInstrEncoder a] ++ as.map cmdqPktInstrEncoder =
          iss ++ (a :: as).map cmdqPktInstrEncoder := by simp
      refine ⟨happ ▸ hrest.inv, Nat.le_trans ha.grows hrest.grows, ?_⟩
      refine hrest.ended.imp (fun ⟨h1, h2, h3, h4⟩ => ⟨h1, h2, fun j hj1 hj2 => ?_, fun hx => ?_⟩)
        fun ⟨h1, h2, h3⟩ => ⟨h1, Nat.lt_of_le_of_lt ha.grows h2, h3⟩
      · by_cases hj : j < (cmdqInstrEncoder g mem a s).2.asked
        · exact hw j hj1 hj
        · exact h3 j (not_lt.1 hj) hj2
      · exact happ ▸ h4 (he hx)
    · obtain ⟨s', h, hi', hle, hw', hdead'⟩ := encodeAll_dead (g := g) as ha.inv hdead hw
      rw [h0, h]
      refine ⟨by simpa using hi', Nat.le_trans ha.grows hle,
        .inr ⟨rfl, Nat.lt_of_lt_of_le hlt hle, hw', hdead'⟩⟩

/-! ## Calls -/

/-- What a call that starts with no allocation made comes to. -/
structure Served (mem : Nat → BufAlloc) (c₀ iss new : List (BitVec 64)) (s : Handle)
    (r : Int × Handle) : Prop where
  inv : Inv c₀ (iss ++ new) r.2
  failed : ∀ j, j < r.2.asked → works (mem j) = false → r.1 ≠ 0
  exact : r.1 = 0 → Exact c₀ iss s → Exact c₀ (iss ++ new) r.2

/-- The instructions that a call issues. -/
def Call.insts (eventTable : Nat → Int) (c : Call) : List (BitVec 64) :=
  (c.args eventTable).map cmdqPktInstrEncoder

theorem run_served (hi : Inv c₀ iss s) (hst : Steady mem) (hd : Dry mem s) (h0 : s.asked = 0)
    (c : Call) : Served mem c₀ iss (c.insts eventTable) s (c.run g eventTable mem s) := by
  by_cases hc : c = .flush
  · subst hc
    have hnew : iss ++ Call.insts eventTable .flush = iss := List.append_nil _
    rcases flush_spec (g := g) hi hst hd with
      ⟨s', hr, hcop, hb, hc', hcont, hsz, hle, hw⟩ | ⟨s', hr, hi', -⟩
    · rw [Call.run, hr]
      obtain ⟨l, hl, hsub⟩ := hi.stored
      refine ⟨⟨hsz, by simp [hb], by simp [hc'], fun h => absurd hc' h, l ++ s.cmdBuf, ?_, ?_⟩,
        fun j hj hf => ?_, fun _ he => ⟨hc', ?_⟩⟩
      · rw [hcont, hl, hcop, hc']
        simp
      · rw [hnew, hb, List.append_nil]
        exact hsub
      · rw [hw j (h0 ▸ Nat.zero_le _) hj] at hf
        cases hf
      · rw [hb, List.append_nil, hcont, he.2, hnew]
    · rw [Call.run, hr]
      exact ⟨hnew.symm ▸ hi', fun _ _ _ => show efault ≠ 0 by decide, fun h => by cases h⟩
  · have hall := encodeAll_spec (g := g) hst (c.args eventTable) hi hd
    rw [run_eq hc]
    split_ifs
    · exact ⟨hall.inv, fun _ _ _ => show einval ≠ 0 by decide, fun h => by cases h⟩
    · refine ⟨hall.inv, fun j hj hf => ?_, fun hr => ?_⟩
      · rcases hall.ended with ⟨-, -, hw, -⟩ | ⟨h, -⟩
        · rw [hw j (h0 ▸ Nat.zero_le _) hj] at hf
          cases hf
        · rw [h]
          decide
      · rcases hall.ended with ⟨-, -, -, he⟩ | ⟨h, -⟩
        · exact he
        · rw [h] at hr
          cases hr

/-! ## Runs -/

/-- What spares a call: no allocation of a call succeeds after one of its allocations has failed,
and none succeeds after a flush has failed with a part of the command buffer copied. -/
def Spared (s : Handle) (i : Call × (Nat → BufAlloc)) : Prop :=
  Steady i.2 ∧ (s.copied ≠ 0 → ∀ j, works (i.2 j) = false)

/-- The instructions that the calls of a run issue. -/
def issued (eventTable : Nat → Int) (es : List ((Call × (Nat → BufAlloc)) × Out)) :
    List (BitVec 64) :=
  es.flatMap fun e => e.1.1.insts eventTable

/-- The record after the calls `es`. -/
structure History (eventTable : Nat → Int) (c₀ : List (BitVec 64))
    (es : List ((Call × (Nat → BufAlloc)) × Out)) (s : Handle) : Prop where
  inv : Inv c₀ (issued eventTable es) s
  exact : (∀ e ∈ es, e.2.ret = 0) → Exact c₀ (issued eventTable es) s
  failed : (∃ e ∈ es, e.2.failed = true) → ∃ e ∈ es, e.2.ret ≠ 0
  flushed : ∀ pre m o, es = pre ++ [((.flush, m), o)] → o.ret = 0 → s.cmdBuf = []

theorem history_step {es : List ((Call × (Nat → BufAlloc)) × Out)}
    (h : History eventTable c₀ es s) (i : Call × (Nat → BufAlloc)) (hs : Spared s i) :
    ∃ o s', step g eventTable s i = some (o, s') ∧ History eventTable c₀ (es ++ [(i, o)]) s' := by
  obtain ⟨c, mem⟩ := i
  have hi : Inv c₀ (issued eventTable es) { s with asked := 0 } :=
    ⟨h.inv.sized, h.inv.fits, h.inv.copied, h.inv.stuck, h.inv.stored⟩
  have hserved : Served mem c₀ (issued eventTable es) (c.insts eventTable) _
      (c.run g eventTable mem { s with asked := 0 }) :=
    run_served hi hs.1 (fun hc j _ => hs.2 hc j) rfl c
  refine ⟨_, _, rfl, ?_⟩
  have hiss (o : Out) : issued eventTable (es ++ [((c, mem), o)]) =
      issued eventTable es ++ c.insts eventTable := by simp [issued]
  refine ⟨hiss _ ▸ hserved.inv, fun hall => ?_, fun ⟨e, he, hf⟩ => ?_, fun pre m o hes hr => ?_⟩
  · rw [hiss]
    refine hserved.exact (hall _ (List.mem_append_right _ (List.mem_singleton.2 rfl))) ?_
    exact h.exact fun e he => hall e (List.mem_append_left _ he)
  · rcases List.mem_append.1 he with he | he
    · obtain ⟨e', he', hr⟩ := h.failed ⟨e, he, hf⟩
      exact ⟨e', List.mem_append_left _ he', hr⟩
    · rw [List.mem_singleton.1 he, List.any_eq_true] at hf
      obtain ⟨j, hj, hw⟩ := hf
      refine ⟨_, List.mem_append_right _ (List.mem_singleton.2 rfl), ?_⟩
      exact hserved.failed j (List.mem_range.1 hj) (by simpa using hw)
  · obtain ⟨-, hlast⟩ := List.append_inj' hes rfl
    simp only [List.cons.injEq, Prod.mk.injEq, and_true] at hlast
    obtain ⟨⟨rfl, rfl⟩, rfl⟩ := hlast
    rcases flush_spec (g := g) hi hs.1 (fun hc j _ => hs.2 hc j) with
      ⟨s', h', -, hb, -⟩ | ⟨s', h', -⟩
    · rw [Call.run, h']
      exact hb
    · rw [Call.run, h'] at hr
      cases hr

/-- **A run of buffered calls** that ends with a flush: if every call returned success the packet
holds its previous content and then all the instructions issued; if an allocation failed, some call
returned an error; and no instruction is stored twice. -/
theorem buffered_runs (g : Nat) (eventTable : Nat → Int) {pkt : CmdqPkt} (hp : Sized pkt)
    (is : List (Call × (Nat → BufAlloc))) (mem : Nat → BufAlloc)
    (h : Sys.Along (step g eventTable) Spared (.start pkt) (is ++ [(.flush, mem)])) :
    ∃ es s', Sys.run (step g eventTable) (.start pkt) (is ++ [(.flush, mem)]) = some (es, s') ∧
      ((∀ e ∈ es, e.2.ret = 0) → s'.pkt.content = pkt.content ++ issued eventTable es) ∧
      ((∃ e ∈ es, e.2.failed = true) → ∃ e ∈ es, e.2.ret ≠ 0) ∧
      ∃ l, s'.pkt.content = pkt.content ++ l ∧ l.Sublist (issued eventTable es) := by
  have hstart : History eventTable pkt.content [] (.start pkt) := by
    refine ⟨⟨hp, by simp [Handle.start], by simp [Handle.start], fun h => absurd rfl h, [], ?_, ?_⟩,
      fun _ => ⟨rfl, ?_⟩, fun ⟨_, he, _⟩ => absurd he List.not_mem_nil, fun pre m o he => ?_⟩
    · simp [Handle.start]
    · simp [Handle.start]
    · simp [Handle.start, issued]
    · simp at he
  obtain ⟨es, s', hrun, hh⟩ := Sys.run_hist_along
    (I := fun es s => History eventTable pkt.content es s) (P := Spared)
    (fun es s i hh hs => history_step hh i hs) _ [] _ hstart h
  rw [List.nil_append] at hh
  refine ⟨es, s', hrun, fun hall => ?_, hh.failed, ?_⟩
  · have hex := (hh.exact hall).2
    obtain ⟨pre, last, he, -, hlast⟩ := List.map_eq_append_iff.1 (Sys.run_inputs hrun)
    obtain ⟨⟨i, o⟩, rfl, hi⟩ := List.map_eq_singleton_iff.1 hlast
    obtain rfl : i = (.flush, mem) := hi
    have hmem : ((Call.flush, mem), o) ∈ es :=
      he ▸ List.mem_append_right _ (List.mem_singleton.2 rfl)
    rw [hh.flushed pre mem o he (hall _ hmem), List.append_nil] at hex
    exact hex
  · obtain ⟨l, hl, hsub⟩ := hh.inv.stored
    refine ⟨l ++ s'.cmdBuf.take s'.copied, by rw [hl, List.append_assoc], ?_⟩
    exact ((List.Sublist.refl l).append (List.take_sublist ..)).trans hsub

/-- A page for every allocation. -/
def somePage : BufAlloc := ⟨true, some ⟨4096, fun _ => 0⟩, none⟩

/-- Two operations and a flush, with memory. -/
theorem buffered_runs_two :
    let is : List (Call × (Nat → BufAlloc)) :=
      [(.wait 3, fun _ => somePage), (.writeReg 0x14001000 5 0xffff, fun _ => somePage)]
    ∃ es s', Sys.run (step 3 fun _ => 7) (.start .create)
        (is ++ [(.flush, fun _ => somePage)]) = some (es, s') ∧
      ((∀ e ∈ es, e.2.ret = 0) →
        s'.pkt.content = CmdqPkt.create.content ++ issued (fun _ => 7) es) ∧
      ((∃ e ∈ es, e.2.failed = true) → ∃ e ∈ es, e.2.ret ≠ 0) ∧
      ∃ l, s'.pkt.content = CmdqPkt.create.content ++ l ∧
        l.Sublist (issued (fun _ => 7) es) :=
  buffered_runs 3 (fun _ => 7) sized_create _ _
    ⟨⟨fun _ _ _ h => h, fun h => absurd rfl h⟩, fun _ _ h => by
      cases h
      exact ⟨⟨fun _ _ _ h => h, fun h => absurd rfl h⟩, fun _ _ h => by
        cases h
        exact ⟨⟨fun _ _ _ h => h, fun h => absurd rfl h⟩, fun _ _ _ => trivial⟩⟩⟩

/-- No memory. -/
def noPage : BufAlloc := ⟨false, none, none⟩

/-- The instruction of a wait for event 7. -/
def waitInst : BitVec 64 :=
  cmdqPktInstrEncoder (wfeArgs 7 (cmdqWfeUpdate ||| cmdqWfeWait ||| cmdqWfeWaitValue))

/-- Waits fill the command buffer. -/
theorem waits_fill (pkt : CmdqPkt) (mem : Nat → BufAlloc) : ∀ (n k : Nat), k + n ≤ 512 →
    Sys.run (step 3 fun _ => 7) ⟨pkt, List.replicate k waitInst, 0, 0⟩
        (List.replicate n (.wait 3, mem)) =
      some (List.replicate n ((.wait 3, mem), ⟨0, false⟩),
        ⟨pkt, List.replicate (k + n) waitInst, 0, 0⟩)
  | 0, k, _ => rfl
  | n + 1, k, h => by
    have hroom : ¬ (Handle.mk pkt (List.replicate k waitInst) 0 0).availBufSize = 0 := by
      simp only [Handle.availBufSize, List.length_replicate, pageSize, cmdqInstSize]
      omega
    have hev : ¬ (cmdqGetEventOpId (fun _ => 7) 3 < 0 ∨
        cmdqGetEventOpId (fun _ => 7) 3 ≥ cmdqEventMax) := by decide
    have hstep : step 3 (fun _ => 7) ⟨pkt, List.replicate k waitInst, 0, 0⟩ (.wait 3, mem) =
        some (⟨0, false⟩, ⟨pkt, List.replicate (k + 1) waitInst, 0, 0⟩) := by
      simp only [step, Call.run, cmdqOpWaitEx, eventOp, if_neg hev, cmdqInstrEncoder, if_neg hroom]
      rw [List.replicate_succ']
      rfl
    rw [List.replicate_succ, Sys.run_cons_some _ hstep, waits_fill pkt mem n (k + 1) (by omega),
      Nat.add_right_comm, Nat.add_assoc]
    rfl

theorem issued_eq (es : List ((Call × (Nat → BufAlloc)) × Out)) :
    issued eventTable es = (es.map Prod.fst).flatMap fun i => i.1.insts eventTable := by
  rw [List.flatMap_map]
  rfl

/-- A run after 512 waits, with what it shows. -/
theorem run_after_fill (is : List (Call × (Nat → BufAlloc))) {shown : List (Int × Bool)} {n : Nat}
    (h : ((Sys.run (step 3 fun _ => 7) ⟨.create, List.replicate 512 waitInst, 0, 0⟩ is).map fun q =>
      (q.1.map fun e => (e.2.ret, e.2.failed), q.2.pkt.content.length)) = some (shown, n)) :
    ∃ es s', Sys.run (step 3 fun _ => 7) (.start .create)
        (List.replicate 512 (.wait 3, fun _ => somePage) ++ is) = some (es, s') ∧
      es.map (fun e => (e.2.ret, e.2.failed)) = List.replicate 512 (0, false) ++ shown ∧
      s'.pkt.content.length = n := by
  obtain ⟨⟨es, s'⟩, hrun, hshown⟩ := Option.map_eq_some_iff.1 h
  rw [Prod.mk.injEq] at hshown
  have hfill := waits_fill .create (fun _ => somePage) 512 0 (by decide)
  rw [Nat.zero_add] at hfill
  refine ⟨_, s', by
    rw [Sys.run_append, show Handle.start .create = ⟨.create, List.replicate 0 waitInst, 0, 0⟩
      from rfl, hfill, Option.bind_some, hrun]
    rfl, ?_, hshown.2⟩
  rw [List.map_append, List.map_replicate, hshown.1]

/-- With a full command buffer, an operation whose first allocation fails returns success and has
lost its first instruction; and a flush that fails after one buffer has its instructions copied
again by the next. -/
theorem buffered_lost_and_repeated :
    (∃ es s', Sys.run (step 3 fun _ => 7) (.start .create)
        (List.replicate 512 (.wait 3, fun _ => somePage) ++
          [(.writeReg 0x14001000 5 0xffffffff, fun j => if j = 0 then noPage else somePage),
            (.flush, fun _ => somePage)]) = some (es, s') ∧
      (∀ e ∈ es, e.2.ret = 0) ∧ (∃ e ∈ es, e.2.failed = true) ∧
      s'.pkt.content ≠ issued (fun _ => 7) es) ∧
    ∃ es s', Sys.run (step 3 fun _ => 7) (.start .create)
        (List.replicate 512 (.wait 3, fun _ => somePage) ++
          [(.flush, fun j => if j = 0 then somePage else noPage),
            (.flush, fun _ => somePage)]) = some (es, s') ∧
      ¬ s'.pkt.content.Sublist (issued (fun _ => 7) es) := by
  constructor
  · obtain ⟨es, s', hrun, hshown, hlen⟩ := run_after_fill
      [(.writeReg 0x14001000 5 0xffffffff, fun j => if j = 0 then noPage else somePage),
        (.flush, fun _ => somePage)]
      (show _ = some ([(0, true), (0, false)], 513) by decide +kernel)
    have hmem (e) (he : e ∈ es) : (e.2.ret, e.2.failed) ∈
        List.replicate 512 (0, false) ++ [(0, true), (0, false)] :=
      hshown ▸ List.mem_map_of_mem he
    refine ⟨es, s', hrun, fun e he => ?_, ?_, fun hc => ?_⟩
    · rcases List.mem_append.1 (hmem e he) with h | h
      · exact (Prod.mk.inj (List.eq_of_mem_replicate h)).1
      · simp only [List.mem_cons, List.not_mem_nil, or_false, Prod.mk.injEq] at h
        exact h.elim And.left And.left
    · have : ((0, true) : Int × Bool) ∈ es.map fun e => (e.2.ret, e.2.failed) := by
        rw [hshown]
        exact List.mem_append_right _ (List.mem_cons_self ..)
      obtain ⟨e, he, heq⟩ := List.mem_map.1 this
      exact ⟨e, he, (Prod.mk.inj heq).2⟩
    · rw [hc, issued_eq, Sys.run_inputs hrun] at hlen
      exact absurd hlen (by decide +kernel)
  · obtain ⟨es, s', hrun, -, hlen⟩ := run_after_fill
      [(.flush, fun j => if j = 0 then somePage else noPage), (.flush, fun _ => somePage)]
      (show _ = some ([(efault, true), (0, false)], 992) by decide +kernel)
    refine ⟨es, s', hrun, fun hc => ?_⟩
    have hle := hc.length_le
    rw [hlen, issued_eq, Sys.run_inputs hrun] at hle
    exact absurd hle (by decide +kernel)

end Mdp.RecordEx
