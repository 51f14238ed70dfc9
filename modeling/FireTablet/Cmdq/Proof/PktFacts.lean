import FireTablet.Cmdq.Pkt

/-!
# What the packet functions do to a packet

`Leads`: full buffers, each with a jump to the next one in its last slot, hold a list of
instructions. `PktOk log pkt`: the packet holds the instructions `log`, its sizes fit its buffers
and its buffers are different pages. Every function keeps it, with the instructions it appends added
to `log`. `Recent` finds the last instructions again when they have moved to a new buffer.

`CmdqPkt.content` reads the buffers one after the other and leaves out the last slot of each that
has a next one. Growing a packet leaves it alone, whatever the pages are (`makeRoom_content`).
-/

namespace Cmdq

/-! ## Instructions -/

theorem instOp_encoder (a : CmdqArgs) : instOp (cmdqPktInstrEncoder a) = a.code := by
  rw [instOp, cmdqPktInstrEncoder]
  iterate 7 rw [BitVec.extractLsb'_append_eq_of_le (by decide)]
  exact BitVec.extractLsb'_eq_self

theorem instArgA_encoder (a : CmdqArgs) : instArgA (cmdqPktInstrEncoder a) = a.argA := by
  rw [instArgA, cmdqPktInstrEncoder]
  iterate 2 rw [BitVec.extractLsb'_append_eq_of_le (by decide)]
  exact BitVec.extractLsb'_append_eq_right

theorem jumpToAbs_append (g pa : Nat) :
    jumpToAbs g pa = (0x10000001#32 ++ BitVec.ofNat 32 (pa >>> g) : BitVec 64) := by
  have hm : (0xFFFFFFFF : BitVec 64) = BitVec.ofNat 64 (2 ^ 32 - 1) := rfl
  have hc : (cmdqCodeJump.setWidth 64 <<< 24 ||| 1) = (0x10000001#32).setWidth 64 := by decide
  apply BitVec.eq_of_getLsbD_eq
  intro i hi
  rw [jumpToAbs, hc, hm]
  simp only [BitVec.getLsbD_or, BitVec.getLsbD_and, BitVec.getLsbD_append,
    BitVec.getLsbD_shiftLeft, BitVec.getLsbD_ofNat, Nat.testBit_two_pow_sub_one,
    BitVec.getLsbD_setWidth]
  by_cases h : i < 32
  · simp [h, hi]
  · simp [h, hi]
    omega

theorem instOp_jumpToAbs (g pa : Nat) : instOp (jumpToAbs g pa) = cmdqCodeJump := by
  rw [jumpToAbs_append, instOp, BitVec.extractLsb'_append_eq_of_le (by decide)]
  decide

/-- **The jump that the driver plants** leads to the address it is given. -/
theorem jumpTarget_jumpToAbs {g pa : Nat} (hd : 2 ^ g ∣ pa) (h : pa < 2 ^ (32 + g)) :
    jumpTarget g (jumpToAbs g pa) = some pa := by
  have ha : instArgA (jumpToAbs g pa) = 1 := by
    rw [jumpToAbs_append, instArgA, BitVec.extractLsb'_append_eq_of_le (by decide)]
    decide
  have hlow : (jumpToAbs g pa).extractLsb' 0 32 = BitVec.ofNat 32 (pa >>> g) := by
    rw [jumpToAbs_append, BitVec.extractLsb'_append_eq_right]
  have hlt : pa / 2 ^ g < 2 ^ 32 := by
    rw [Nat.div_lt_iff_lt_mul (Nat.two_pow_pos g), ← Nat.pow_add]
    exact h
  rw [jumpTarget, if_pos ⟨instOp_jumpToAbs g pa, ha⟩, hlow, BitVec.toNat_ofNat,
    Nat.shiftRight_eq_div_pow, Nat.mod_eq_of_lt hlt, Nat.shiftLeft_eq, Nat.div_mul_cancel hd]

theorem jumpTarget_of_code {g : Nat} {a : CmdqArgs} (h : a.code ≠ cmdqCodeJump) :
    jumpTarget g (cmdqPktInstrEncoder a) = none := by
  simp [jumpTarget, instOp_encoder, h]

theorem jumpTarget_jumpArgs (g : Nat) (offset : Int) :
    jumpTarget g (cmdqPktInstrEncoder (jumpArgs g offset)) = none := by
  simp [jumpTarget, instArgA_encoder, jumpArgs]

theorem encoder_eocArgs : cmdqPktInstrEncoder eocArgs = cmdqEocCmd := by decide

/-! ## The contents of a buffer -/

/-- The instructions in the first `u` bytes of a buffer. -/
def CmdqPktBuffer.insts (b : CmdqPktBuffer) (u : Nat) : List (BitVec 64) :=
  (List.range (u / cmdqInstSize)).map fun j => b.va (cmdqInstSize * j)

@[simp] theorem paBase_put (b : CmdqPktBuffer) (off : Nat) (inst : BitVec 64) :
    (b.put off inst).paBase = b.paBase := rfl

@[simp] theorem va_put_self (b : CmdqPktBuffer) (off : Nat) (inst : BitVec 64) :
    (b.put off inst).va off = inst := by
  simp [CmdqPktBuffer.put]

theorem va_put_of_ne (b : CmdqPktBuffer) {off k : Nat} (inst : BitVec 64) (h : k ≠ off) :
    (b.put off inst).va k = b.va k := by
  simp [CmdqPktBuffer.put, h]

@[simp] theorem insts_zero (b : CmdqPktBuffer) : b.insts 0 = [] := rfl

theorem insts_put_of_le (b : CmdqPktBuffer) {u off : Nat} (inst : BitVec 64) (h : u ≤ off) :
    (b.put off inst).insts u = b.insts u := by
  apply List.map_congr_left
  intro j hj
  have hlt := List.mem_range.1 hj
  apply va_put_of_ne
  simp only [cmdqInstSize] at hlt ⊢
  omega

theorem insts_add (b : CmdqPktBuffer) {u : Nat} (h : cmdqInstSize ∣ u) :
    b.insts (u + cmdqInstSize) = b.insts u ++ [b.va u] := by
  obtain ⟨k, rfl⟩ := h
  have h8 : cmdqInstSize * k + cmdqInstSize = cmdqInstSize * (k + 1) := rfl
  simp only [CmdqPktBuffer.insts, h8, Nat.mul_div_cancel_left _ (show 0 < cmdqInstSize by decide),
    List.range_succ, List.map_append, List.map_cons, List.map_nil]

theorem insts_put (b : CmdqPktBuffer) {u : Nat} (inst : BitVec 64) (h : cmdqInstSize ∣ u) :
    (b.put u inst).insts (u + cmdqInstSize) = b.insts u ++ [inst] := by
  rw [insts_add _ h, insts_put_of_le b inst le_rfl, va_put_self]

/-! ## Packets -/

/-- The slot that holds the jump of a full buffer. -/
abbrev lastSlot : Nat := cmdqCmdBufferSize - cmdqInstSize

/-- Full buffers that lead to the address `next` and hold the instructions `log`. -/
inductive Leads (g : Nat) : List CmdqPktBuffer → Nat → List (BitVec 64) → Prop
  | nil (next : Nat) : Leads g [] next []
  | snoc {pre : List CmdqPktBuffer} {b : CmdqPktBuffer} {next : Nat} {log : List (BitVec 64)} :
      Leads g pre b.paBase log → b.va lastSlot = jumpToAbs g next →
      Leads g (pre ++ [b]) next (log ++ b.insts lastSlot)

/-- The packet's buffers hold the instructions `log`. -/
inductive Holds (g : Nat) (log : List (BitVec 64)) (pkt : CmdqPkt) : Prop
  | empty : pkt.buf = [] → log = [] → Holds g log pkt
  | full (pre : List CmdqPktBuffer) (b : CmdqPktBuffer) (log₀ : List (BitVec 64)) :
      pkt.buf = pre ++ [b] → Leads g pre b.paBase log₀ →
      log = log₀ ++ b.insts (cmdqCmdBufferSize - pkt.availBufSize) → Holds g log pkt

/-- The address of a page that the engine can be sent to. -/
def PageOk (g pa : Nat) : Prop := cmdqBufAllocSize ∣ pa ∧ pa < 2 ^ (32 + g)

instance (g pa : Nat) : Decidable (PageOk g pa) := inferInstanceAs (Decidable (_ ∧ _))

/-- The allocators give pages that the engine can be sent to and that are not in use. -/
def BufAlloc.Fresh (g : Nat) (a : BufAlloc) (bufs : List CmdqPktBuffer) : Prop :=
  ∀ page, a.pool = some page ∨ a.direct = some page →
    PageOk g page.pa ∧ page.pa ∉ bufs.map CmdqPktBuffer.paBase

/-- An allocation that fails. -/
def noBuf : BufAlloc := ⟨false, none, none⟩

theorem noBuf_fresh (g : Nat) (bufs : List CmdqPktBuffer) : noBuf.Fresh g bufs :=
  fun page hp => by simp [noBuf] at hp

/-- A page from the DMA pool. -/
def poolPage (pa : Nat) : BufAlloc := ⟨true, some ⟨pa, fun _ => 0⟩, none⟩

theorem poolPage_fresh {g pa : Nat} {bufs : List CmdqPktBuffer} (hp : PageOk g pa)
    (hn : pa ∉ bufs.map CmdqPktBuffer.paBase) : (poolPage pa).Fresh g bufs := by
  intro page hpage
  simp only [poolPage, Option.some.injEq, reduceCtorEq, or_false] at hpage
  subst hpage
  exact ⟨hp, hn⟩

/-- **The invariant**: the packet holds the instructions `log`. -/
structure PktOk (g : Nat) (log : List (BitVec 64)) (pkt : CmdqPkt) : Prop where
  holds : Holds g log pkt
  sizes : pkt.cmdBufSize + pkt.availBufSize = cmdqCmdBufferSize * pkt.buf.length
  total : pkt.bufSize = cmdqCmdBufferSize * pkt.buf.length
  avail : pkt.availBufSize ≤ cmdqCmdBufferSize
  slots : cmdqInstSize ∣ pkt.availBufSize
  plain : ∀ inst ∈ log, jumpTarget g inst = none
  pages : ∀ b ∈ pkt.buf, PageOk g b.paBase
  apart : (pkt.buf.map CmdqPktBuffer.paBase).Nodup

/-- The invariant, whatever the instructions are. -/
structure Chained (g : Nat) (log : List (BitVec 64)) (pkt : CmdqPkt) : Prop where
  holds : Holds g log pkt
  sizes : pkt.cmdBufSize + pkt.availBufSize = cmdqCmdBufferSize * pkt.buf.length
  total : pkt.bufSize = cmdqCmdBufferSize * pkt.buf.length
  avail : pkt.availBufSize ≤ cmdqCmdBufferSize
  slots : cmdqInstSize ∣ pkt.availBufSize
  pages : ∀ b ∈ pkt.buf, PageOk g b.paBase
  apart : (pkt.buf.map CmdqPktBuffer.paBase).Nodup

theorem PktOk.chained {g : Nat} {log : List (BitVec 64)} {pkt : CmdqPkt} (h : PktOk g log pkt) :
    Chained g log pkt :=
  ⟨h.holds, h.sizes, h.total, h.avail, h.slots, h.pages, h.apart⟩

theorem Chained.pktOk {g : Nat} {log : List (BitVec 64)} {pkt : CmdqPkt} (h : Chained g log pkt)
    (hp : ∀ inst ∈ log, jumpTarget g inst = none) : PktOk g log pkt :=
  ⟨h.holds, h.sizes, h.total, h.avail, h.slots, hp, h.pages, h.apart⟩

theorem chained_create (g : Nat) : Chained g [] .create :=
  ⟨.empty rfl rfl, rfl, rfl, by decide, by decide, by simp [CmdqPkt.create], .nil⟩

theorem pktOk_create (g : Nat) : PktOk g [] .create := (chained_create g).pktOk (by simp)

/-! ## Room for an instruction -/

section
variable {g : Nat} {log : List (BitVec 64)} {pkt : CmdqPkt} {a : BufAlloc}

/-- The instruction that starts `k` bytes before the next free slot. -/
def Recent (pkt : CmdqPkt) (k : Nat) (inst : BitVec 64) : Prop :=
  ∃ pre b, pkt.buf = pre ++ [b] ∧ k ≤ cmdqCmdBufferSize - pkt.availBufSize ∧
    b.va (cmdqCmdBufferSize - pkt.availBufSize - k) = inst

theorem allocBuf_cases (ha : a.Fresh g pkt.buf) :
    cmdqPktAllocBuf a pkt = none ∨ ∃ nb : CmdqPktBuffer,
      cmdqPktAllocBuf a pkt = some (nb, { pkt with
        buf := pkt.buf ++ [nb]
        availBufSize := pkt.availBufSize + cmdqCmdBufferSize
        bufSize := pkt.bufSize + cmdqCmdBufferSize }) ∧
      PageOk g nb.paBase ∧ nb.paBase ∉ pkt.buf.map CmdqPktBuffer.paBase := by
  cases hk : a.kzalloc with
  | false => exact .inl (by simp [cmdqPktAllocBuf, hk])
  | true =>
    cases hp : a.pool with
    | some page =>
      refine .inr ⟨⟨true, page.pa, page.words⟩, ?_, ha page (.inl hp)⟩
      simp [cmdqPktAllocBuf, cmdqPktAllocBuf.added, hk, hp]
    | none =>
      cases hd : a.direct with
      | some page =>
        refine .inr ⟨⟨false, page.pa, page.words⟩, ?_, ha page (.inr hd)⟩
        simp [cmdqPktAllocBuf, cmdqPktAllocBuf.added, hk, hp, hd]
      | none => exact .inl (by simp [cmdqPktAllocBuf, hk, hp, hd])

theorem pages_snoc {bufs : List CmdqPktBuffer} {nb : CmdqPktBuffer}
    (h : ∀ b ∈ bufs, PageOk g b.paBase) (hn : PageOk g nb.paBase) :
    ∀ b ∈ bufs ++ [nb], PageOk g b.paBase := by
  intro b hb
  rcases List.mem_append.1 hb with hb | hb
  · exact h b hb
  · rwa [List.mem_singleton.1 hb]

theorem apart_snoc {bufs : List CmdqPktBuffer} {nb : CmdqPktBuffer}
    (h : (bufs.map CmdqPktBuffer.paBase).Nodup)
    (hn : nb.paBase ∉ bufs.map CmdqPktBuffer.paBase) :
    ((bufs ++ [nb]).map CmdqPktBuffer.paBase).Nodup := by
  rw [List.map_append, List.map_singleton, List.nodup_append]
  refine ⟨h, List.nodup_singleton _, ?_⟩
  intro x hx y hy hxy
  rw [List.mem_singleton.1 hy] at hxy
  exact hn (hxy ▸ hx)

/-- The first buffer of a packet. -/
theorem addCmdBuffer_first (h : Chained g log pkt) {nb : CmdqPktBuffer} (hb : pkt.buf = [])
    (hpage : PageOk g nb.paBase) :
    Chained g log { pkt with
      buf := pkt.buf ++ [nb]
      availBufSize := pkt.availBufSize + cmdqCmdBufferSize
      bufSize := pkt.bufSize + cmdqCmdBufferSize } := by
  have hs := h.sizes
  have ht := h.total
  simp only [hb, List.length_nil, Nat.mul_zero] at hs ht
  have hlog : log = [] := by
    cases h.holds with
    | empty _ hl => exact hl
    | full pre b _ he => simp [hb] at he
  subst hlog
  refine ⟨.full [] nb [] (by simp [hb]) (.nil _) ?_, ?_, ?_, ?_, ?_, ?_, ?_⟩
  · rw [show pkt.availBufSize = 0 by omega, Nat.zero_add, Nat.sub_self, insts_zero, List.nil_append]
  · simp [hb]
    omega
  · simp [hb, ht]
  · simp only
    omega
  · rw [show pkt.availBufSize = 0 by omega, Nat.zero_add]
    show cmdqInstSize ∣ cmdqCmdBufferSize
    decide
  · simpa [hb] using hpage
  · simp [hb]

/-- A full buffer, its last instruction moved and replaced by a jump; or one with a single free
slot, which the jump takes. -/
theorem addCmdBuffer_next (h : Chained g log pkt) (ha0 : pkt.availBufSize ≤ cmdqInstSize)
    {pre : List CmdqPktBuffer} {b nb : CmdqPktBuffer} (hb : pkt.buf = pre ++ [b])
    (hpage : PageOk g nb.paBase) (hnew : nb.paBase ∉ pkt.buf.map CmdqPktBuffer.paBase) :
    Chained g log { pkt with
      buf := pre ++ [b.put lastSlot (jumpToAbs g nb.paBase), nb.put 0 (b.va lastSlot)]
      availBufSize := pkt.availBufSize + cmdqCmdBufferSize - cmdqInstSize
      bufSize := pkt.bufSize + cmdqCmdBufferSize
      cmdBufSize := pkt.cmdBufSize + cmdqInstSize } := by
  have hbufs : pre ++ [b.put lastSlot (jumpToAbs g nb.paBase), nb.put 0 (b.va lastSlot)] =
      (pre ++ [b.put lastSlot (jumpToAbs g nb.paBase)]) ++ [nb.put 0 (b.va lastSlot)] := by simp
  have hmap : (pre ++ [b.put lastSlot (jumpToAbs g nb.paBase)]).map CmdqPktBuffer.paBase =
      pkt.buf.map CmdqPktBuffer.paBase := by simp [hb]
  have hs := h.sizes
  have ht := h.total
  rw [hb, List.length_append, List.length_singleton] at hs ht
  have hholds : Holds g log pkt := h.holds
  cases hholds with
  | empty he => simp [hb] at he
  | full pre' b' log₀ he hl hlog =>
    obtain ⟨rfl, hbb⟩ := List.append_inj' (hb.symm.trans he) rfl
    rw [List.cons.injEq] at hbb
    obtain ⟨rfl, -⟩ := hbb
    refine ⟨.full (pre ++ [b.put lastSlot (jumpToAbs g nb.paBase)]) (nb.put 0 (b.va lastSlot))
      (log₀ ++ b.insts lastSlot) hbufs ?_ ?_, ?_, ?_, ?_, ?_, ?_, ?_⟩
    · rw [paBase_put, ← insts_put_of_le b (jumpToAbs g nb.paBase) le_rfl]
      exact .snoc hl (va_put_self _ _ _)
    · rw [hlog]
      obtain h0 | h8 : pkt.availBufSize = 0 ∨ pkt.availBufSize = cmdqInstSize := by
        obtain ⟨k, hk⟩ := h.slots
        simp only [cmdqInstSize] at hk ha0 ⊢
        omega
      · have hfull : cmdqCmdBufferSize - pkt.availBufSize = lastSlot + cmdqInstSize := by
          rw [h0]
          rfl
        have hone : cmdqCmdBufferSize - (pkt.availBufSize + cmdqCmdBufferSize - cmdqInstSize) =
            0 + cmdqInstSize := by
          rw [h0]
          rfl
        simp only [hone]
        rw [hfull, insts_add b (by decide), insts_put nb _ (by decide), insts_zero,
          List.nil_append, List.append_assoc]
      · -- the moved word is no instruction of the packet, the next one is stored in its place
        have hnone : cmdqCmdBufferSize - (pkt.availBufSize + cmdqCmdBufferSize - cmdqInstSize) =
            0 := by
          rw [h8]
          rfl
        simp only [hnone, insts_zero, List.append_nil]
        rw [h8]
    · simp only [List.length_append, List.length_cons, List.length_nil]
      simp only [cmdqCmdBufferSize, cmdqBufAllocSize, cmdqInstSize] at hs ⊢
      omega
    · simp only [List.length_append, List.length_cons, List.length_nil]
      simp only [cmdqCmdBufferSize, cmdqBufAllocSize, cmdqInstSize] at ht ⊢
      omega
    · simp only
      omega
    · have hadd : cmdqInstSize ∣ pkt.availBufSize + cmdqCmdBufferSize :=
        Nat.dvd_add h.slots (by decide)
      exact Nat.dvd_sub hadd (Nat.dvd_refl _)
    · rw [hbufs]
      refine pages_snoc (fun c hc => ?_) hpage
      rcases List.mem_append.1 hc with hc | hc
      · exact h.pages c (by simp [hb, hc])
      · rw [List.mem_singleton.1 hc]
        exact h.pages b (by simp [hb])
    · rw [hbufs]
      exact apart_snoc (hmap ▸ h.apart) (hmap ▸ hnew)

/-- **`cmdq_pkt_add_cmd_buffer`** where it is called: there is room afterwards, or nothing has
changed. The last instruction is where it can be found again. -/
theorem makeRoom_ok (h : Chained g log pkt) (ha : a.Fresh g pkt.buf) :
    makeRoom g a pkt = (-enomem, pkt) ∨ ∃ p, makeRoom g a pkt = (0, p) ∧ Chained g log p ∧
      p.availBufSize ≠ 0 ∧ ∀ inst, Recent pkt cmdqInstSize inst → Recent p cmdqInstSize inst := by
  by_cases h0 : pkt.availBufSize = 0
  · simp only [makeRoom, h0, if_true, cmdqPktAddCmdBuffer]
    rcases allocBuf_cases ha with hn | ⟨nb, hn, hpage, hnew⟩
    · exact .inl (by rw [hn])
    · refine .inr ?_
      rw [hn]
      cases hlast : pkt.buf.getLast? with
      | none =>
        have hb : pkt.buf = [] := List.getLast?_eq_none_iff.1 hlast
        refine ⟨_, rfl, addCmdBuffer_first h hb hpage, by simp [cmdqCmdBufferSize,
          cmdqBufAllocSize, cmdqInstSize], ?_⟩
        rintro inst ⟨pre, b, he, -⟩
        simp [hb] at he
      | some b =>
        obtain ⟨pre, hb⟩ := List.getLast?_eq_some_iff.1 hlast
        have hdrop : pkt.buf.dropLast = pre := by simp [hb]
        refine ⟨_, rfl, ?_, by simp [h0, cmdqCmdBufferSize, cmdqBufAllocSize, cmdqInstSize], ?_⟩
        · simp only [hdrop]
          exact addCmdBuffer_next h (h0 ▸ Nat.zero_le _) hb hpage hnew
        · rintro inst ⟨pre', b', he, -, hv⟩
          obtain ⟨-, hbb⟩ := List.append_inj' (hb.symm.trans he) rfl
          rw [List.cons.injEq] at hbb
          obtain ⟨rfl, -⟩ := hbb
          refine ⟨pre ++ [b.put lastSlot (jumpToAbs g nb.paBase)], nb.put 0 (b.va lastSlot),
            by simp [hdrop], by simp [h0, cmdqCmdBufferSize, cmdqBufAllocSize, cmdqInstSize], ?_⟩
          rw [h0] at hv
          simp only [h0]
          exact (va_put_self nb 0 _).trans hv
  · exact .inr ⟨pkt, by simp [makeRoom, h0], h, h0, fun _ hi => hi⟩

/-! ## Storing an instruction -/

/-- The packet with one more instruction in the last buffer. -/
def CmdqPkt.stored (pkt : CmdqPkt) (pre : List CmdqPktBuffer) (b : CmdqPktBuffer)
    (inst : BitVec 64) : CmdqPkt :=
  { pkt with
    buf := pre ++ [b.put (cmdqCmdBufferSize - pkt.availBufSize) inst]
    cmdBufSize := pkt.cmdBufSize + cmdqInstSize
    availBufSize := pkt.availBufSize - cmdqInstSize }

theorem stored_ok (h : Chained g log pkt) (h0 : pkt.availBufSize ≠ 0) {pre : List CmdqPktBuffer}
    {b : CmdqPktBuffer} (hb : pkt.buf = pre ++ [b]) (inst : BitVec 64) :
    Chained g (log ++ [inst]) (pkt.stored pre b inst) := by
  have hroom : cmdqInstSize ≤ pkt.availBufSize := Nat.le_of_dvd (by omega) h.slots
  have hav := h.avail
  have hs := h.sizes
  have hslot : cmdqInstSize ∣ cmdqCmdBufferSize - pkt.availBufSize :=
    Nat.dvd_sub (by decide) h.slots
  have hmap : (pre ++ [b.put (cmdqCmdBufferSize - pkt.availBufSize) inst]).map
      CmdqPktBuffer.paBase = pkt.buf.map CmdqPktBuffer.paBase := by simp [hb]
  have hlen : (pre ++ [b.put (cmdqCmdBufferSize - pkt.availBufSize) inst]).length =
      pkt.buf.length := by simp [hb]
  have hholds : Holds g log pkt := h.holds
  cases hholds with
  | empty he => simp [hb] at he
  | full pre' b' log₀ he hl hlog =>
    obtain ⟨rfl, hbb⟩ := List.append_inj' (hb.symm.trans he) rfl
    rw [List.cons.injEq] at hbb
    obtain ⟨rfl, -⟩ := hbb
    refine ⟨.full pre (b.put (cmdqCmdBufferSize - pkt.availBufSize) inst) log₀ rfl hl ?_, ?_, ?_,
      ?_, ?_, ?_, hmap ▸ h.apart⟩
    · have hnext : cmdqCmdBufferSize - (pkt.availBufSize - cmdqInstSize) =
          cmdqCmdBufferSize - pkt.availBufSize + cmdqInstSize := by omega
      simp only [CmdqPkt.stored, hnext]
      rw [insts_put b inst hslot, hlog, List.append_assoc]
    · simp only [CmdqPkt.stored, hlen]
      omega
    · simp only [CmdqPkt.stored, hlen]
      exact h.total
    · simp only [CmdqPkt.stored]
      omega
    · exact Nat.dvd_sub h.slots (Nat.dvd_refl _)
    · intro c hc
      have hc' : c.paBase ∈ pkt.buf.map CmdqPktBuffer.paBase :=
        hmap ▸ List.mem_map_of_mem (f := CmdqPktBuffer.paBase) hc
      obtain ⟨d, hd, hp⟩ := List.mem_map.1 hc'
      exact hp ▸ h.pages d hd

/-- The last instruction becomes the one before the last. -/
theorem recent_stored (h : Chained g log pkt) (h0 : pkt.availBufSize ≠ 0)
    {pre : List CmdqPktBuffer} {b : CmdqPktBuffer} (hb : pkt.buf = pre ++ [b])
    {inst v : BitVec 64} (hv : Recent pkt cmdqInstSize v) :
    Recent (pkt.stored pre b inst) (cmdqInstSize * 2) v := by
  have hroom : cmdqInstSize ≤ pkt.availBufSize := Nat.le_of_dvd (by omega) h.slots
  have hav := h.avail
  obtain ⟨pre', b', he, hk, hv⟩ := hv
  obtain ⟨rfl, hbb⟩ := List.append_inj' (hb.symm.trans he) rfl
  rw [List.cons.injEq] at hbb
  obtain ⟨rfl, -⟩ := hbb
  have hnext : cmdqCmdBufferSize - (pkt.availBufSize - cmdqInstSize) - cmdqInstSize * 2 =
      cmdqCmdBufferSize - pkt.availBufSize - cmdqInstSize := by
    simp only [cmdqInstSize] at *
    omega
  refine ⟨pre, b.put (cmdqCmdBufferSize - pkt.availBufSize) inst, rfl, ?_, ?_⟩
  · simp only [CmdqPkt.stored]
    simp only [cmdqInstSize] at *
    omega
  · simp only [CmdqPkt.stored, hnext]
    rw [va_put_of_ne _ _ (by simp only [cmdqInstSize] at *; omega), hv]

theorem recent_last (h : Chained g log pkt) (h0 : pkt.availBufSize ≠ 0) (pre : List CmdqPktBuffer)
    (b : CmdqPktBuffer) (inst : BitVec 64) :
    Recent (pkt.stored pre b inst) cmdqInstSize inst := by
  have hroom : cmdqInstSize ≤ pkt.availBufSize := Nat.le_of_dvd (by omega) h.slots
  have hav := h.avail
  have hback : cmdqCmdBufferSize - (pkt.availBufSize - cmdqInstSize) - cmdqInstSize =
      cmdqCmdBufferSize - pkt.availBufSize := by omega
  refine ⟨pre, b.put (cmdqCmdBufferSize - pkt.availBufSize) inst, rfl, ?_, ?_⟩
  · simp only [CmdqPkt.stored]
    omega
  · simp only [CmdqPkt.stored, hback]
    exact va_put_self _ _ _

theorem getLast_of_room (h : Chained g log pkt) (h0 : pkt.availBufSize ≠ 0) :
    ∃ pre b, pkt.buf = pre ++ [b] := by
  have hne : pkt.buf ≠ [] := by
    intro hb
    have hs := h.sizes
    rw [hb] at hs
    simp only [List.length_nil, Nat.mul_zero] at hs
    omega
  obtain ⟨pre, b, hb⟩ := List.eq_nil_or_concat pkt.buf |>.resolve_left hne
  exact ⟨pre, b, by simpa using hb⟩

/-- What an append that finds room does. -/
theorem append_of_room (h0 : pkt.availBufSize ≠ 0) {pre : List CmdqPktBuffer}
    {b : CmdqPktBuffer} (hb : pkt.buf = pre ++ [b]) (args : CmdqArgs) :
    cmdqPktAppendCommand g a args pkt =
      some (0, pkt.stored pre b (cmdqPktInstrEncoder args)) := by
  simp [cmdqPktAppendCommand, makeRoom, h0, hb, CmdqPkt.stored]

/-- **`cmdq_pkt_append_command`**. -/
theorem append_chained (h : Chained g log pkt) (ha : a.Fresh g pkt.buf) (args : CmdqArgs) :
    cmdqPktAppendCommand g a args pkt = some (-enomem, pkt) ∨
      ∃ p, cmdqPktAppendCommand g a args pkt = some (0, p) ∧
        Recent p cmdqInstSize (cmdqPktInstrEncoder args) ∧
        (∀ v, Recent pkt cmdqInstSize v → Recent p (cmdqInstSize * 2) v) ∧
        Chained g (log ++ [cmdqPktInstrEncoder args]) p := by
  rcases makeRoom_ok h ha with hr | ⟨p, hr, hp, h0, hrec⟩
  · exact .inl (by simp [cmdqPktAppendCommand, hr, enomem])
  · obtain ⟨pre, b, hb⟩ := getLast_of_room hp h0
    refine .inr ⟨p.stored pre b (cmdqPktInstrEncoder args), ?_, recent_last hp h0 pre b _, ?_, ?_⟩
    · simp [cmdqPktAppendCommand, hr, hb, CmdqPkt.stored]
    · exact fun v hv => recent_stored hp h0 hb (hrec v hv)
    · exact stored_ok hp h0 hb _

/-- An append of an instruction that does not jump. -/
theorem append_ok (h : PktOk g log pkt) (ha : a.Fresh g pkt.buf) (args : CmdqArgs) :
    cmdqPktAppendCommand g a args pkt = some (-enomem, pkt) ∨
      ∃ p, cmdqPktAppendCommand g a args pkt = some (0, p) ∧
        Recent p cmdqInstSize (cmdqPktInstrEncoder args) ∧
        (∀ v, Recent pkt cmdqInstSize v → Recent p (cmdqInstSize * 2) v) ∧
        (jumpTarget g (cmdqPktInstrEncoder args) = none →
          PktOk g (log ++ [cmdqPktInstrEncoder args]) p) := by
  rcases append_chained h.chained ha args with he | ⟨p, he, hlast, hprev, hp⟩
  · exact .inl he
  · refine .inr ⟨p, he, hlast, hprev, fun hi => hp.pktOk ?_⟩
    intro v hv
    rcases List.mem_append.1 hv with hv | hv
    · exact h.plain v hv
    · rwa [List.mem_singleton.1 hv]

/-- **`cmdq_pkt_get_curr_buf_pa`**. -/
theorem getCurrBufPa_ok (h : PktOk g log pkt) (ha : a.Fresh g pkt.buf) :
    cmdqPktGetCurrBufPa g a pkt = some (2 ^ 64 - 12, pkt) ∨
      ∃ p pre b, cmdqPktGetCurrBufPa g a pkt =
          some (b.paBase + cmdqCmdBufferSize - p.availBufSize, p) ∧
        PktOk g log p ∧ p.availBufSize ≠ 0 ∧ p.buf = pre ++ [b] := by
  rcases makeRoom_ok h.chained ha with hr | ⟨p, hr, hp, h0, -⟩
  · refine .inl ?_
    have hc : (BitVec.ofInt 64 (-enomem)).toNat = 2 ^ 64 - 12 := by decide
    simp only [cmdqPktGetCurrBufPa, hr, show -enomem < 0 by decide, if_true, hc]
  · obtain ⟨pre, b, hb⟩ := getLast_of_room hp h0
    exact .inr ⟨p, pre, b, by simp [cmdqPktGetCurrBufPa, hr, hb], hp.pktOk h.plain, h0, hb⟩

end

/-! ## The instructions of a packet without its jumps -/

variable {g : Nat} {pkt : CmdqPkt} {a : BufAlloc}

/-- The instructions in the buffers, the jumps between them aside. -/
def CmdqPkt.content (pkt : CmdqPkt) : List (BitVec 64) :=
  (pkt.buf.dropLast.flatMap fun b => b.insts lastSlot) ++
    pkt.buf.getLast?.elim [] fun b => b.insts (cmdqCmdBufferSize - pkt.availBufSize)

/-- The free part of the last buffer is a number of whole slots. -/
structure Sized (pkt : CmdqPkt) : Prop where
  slots : cmdqInstSize ∣ pkt.availBufSize
  avail : pkt.availBufSize ≤ cmdqCmdBufferSize
  empty : pkt.buf = [] → pkt.availBufSize = 0

theorem sized_create : Sized .create := ⟨by decide, by decide, fun _ => rfl⟩

theorem content_snoc (pre : List CmdqPktBuffer) (b : CmdqPktBuffer) (h : pkt.buf = pre ++ [b]) :
    pkt.content = (pre.flatMap fun c => c.insts lastSlot) ++
      b.insts (cmdqCmdBufferSize - pkt.availBufSize) := by
  simp [CmdqPkt.content, h]

theorem content_nil (h : pkt.buf = []) : pkt.content = [] := by
  simp [CmdqPkt.content, h]

theorem Sized.last (h : Sized pkt) (h0 : pkt.availBufSize ≠ 0) : ∃ pre b, pkt.buf = pre ++ [b] := by
  obtain hb | ⟨pre, b, hb⟩ := List.eq_nil_or_concat pkt.buf
  · exact absurd (h.empty hb) h0
  · exact ⟨pre, b, by simpa using hb⟩

theorem allocBuf_eq (a : BufAlloc) (pkt : CmdqPkt) :
    (cmdqPktAllocBuf a pkt = none ∧ (a.kzalloc && (a.pool.isSome || a.direct.isSome)) = false) ∨
    ∃ nb : CmdqPktBuffer, cmdqPktAllocBuf a pkt = some (nb, { pkt with
        buf := pkt.buf ++ [nb]
        availBufSize := pkt.availBufSize + cmdqCmdBufferSize
        bufSize := pkt.bufSize + cmdqCmdBufferSize }) ∧
      (a.kzalloc && (a.pool.isSome || a.direct.isSome)) = true := by
  cases hk : a.kzalloc with
  | false => exact .inl (by simp [cmdqPktAllocBuf, hk])
  | true =>
    cases hp : a.pool with
    | some page =>
      exact .inr ⟨⟨true, page.pa, page.words⟩,
        by simp [cmdqPktAllocBuf, cmdqPktAllocBuf.added, hk, hp], by simp⟩
    | none =>
      cases hd : a.direct with
      | some page =>
        exact .inr ⟨⟨false, page.pa, page.words⟩,
          by simp [cmdqPktAllocBuf, cmdqPktAllocBuf.added, hk, hp, hd], by simp⟩
      | none => exact .inl (by simp [cmdqPktAllocBuf, hk, hp, hd])

/-- **Making room** leaves the instructions alone, and fails only when there is no memory. -/
theorem makeRoom_content (h : Sized pkt) (a : BufAlloc) :
    (makeRoom g a pkt = (-enomem, pkt) ∧ pkt.availBufSize = 0 ∧
      (a.kzalloc && (a.pool.isSome || a.direct.isSome)) = false) ∨
    ∃ p, makeRoom g a pkt = (0, p) ∧ Sized p ∧ p.availBufSize ≠ 0 ∧ p.content = pkt.content ∧
      (pkt.availBufSize = 0 → (a.kzalloc && (a.pool.isSome || a.direct.isSome)) = true) := by
  by_cases h0 : pkt.availBufSize = 0
  swap
  · exact .inr ⟨pkt, by simp [makeRoom, h0], h, h0, rfl, fun h' => absurd h' h0⟩
  have hsize : cmdqInstSize ∣ cmdqCmdBufferSize ∧ cmdqCmdBufferSize ≠ 0 := by decide
  have hnext : cmdqInstSize ∣ cmdqCmdBufferSize - cmdqInstSize ∧
      cmdqCmdBufferSize - cmdqInstSize ≤ cmdqCmdBufferSize ∧
      cmdqCmdBufferSize - cmdqInstSize ≠ 0 := by decide
  simp only [makeRoom, h0, if_true, cmdqPktAddCmdBuffer]
  rcases allocBuf_eq a pkt with ⟨hn, hw⟩ | ⟨nb, hn, hw⟩
  · exact .inl ⟨by rw [hn], trivial, hw⟩
  refine .inr ?_
  rw [hn]
  obtain hb | ⟨pre, b, hb⟩ := List.eq_nil_or_concat pkt.buf
  · rw [hb]
    simp only [List.getLast?_nil, List.nil_append, h0, Nat.zero_add]
    refine ⟨_, rfl, ⟨hsize.1, Nat.le_refl _, fun h => by simp at h⟩, hsize.2, ?_, fun _ => hw⟩
    rw [content_nil hb, content_snoc [] nb rfl]
    simp
  · rw [List.concat_eq_append] at hb
    rw [hb]
    simp only [List.getLast?_append, List.getLast?_singleton, Option.some_or,
      List.dropLast_concat, h0, Nat.zero_add]
    refine ⟨_, rfl, ⟨hnext.1, hnext.2.1, fun h => by simp at h⟩, hnext.2.2, ?_, fun _ => hw⟩
    have hfull : cmdqCmdBufferSize - 0 = lastSlot + cmdqInstSize := by decide
    have hone : cmdqCmdBufferSize - (cmdqCmdBufferSize - cmdqInstSize) = 0 + cmdqInstSize := by
      decide
    rw [content_snoc pre b hb, h0, hfull, insts_add b (by decide),
      content_snoc (pre ++ [b.put lastSlot (jumpToAbs g nb.paBase)]) (nb.put 0 (b.va lastSlot))
        (by simp)]
    simp only [hone]
    rw [insts_put nb _ (by decide), List.flatMap_append, List.flatMap_singleton,
      insts_put_of_le b _ (Nat.le_refl _)]
    simp

end Cmdq
