import FireTablet.Cmdq.Proof.PktFacts
import FireTablet.Lib.Run

/-!
# A packet is the sequence of its instructions

`pkt_chain`: after any sequence of calls, the engine that starts at the first buffer runs exactly
the appended instructions, in order. An offset of `cmd_buf_size` is the next free slot while the
last buffer has room, and past all buffers when it is full (`pkt_offset_fails`).
-/

namespace Cmdq

section
variable {g : Nat} {log : List (BitVec 64)} {pkt : CmdqPkt}

/-! ## Offsets -/

theorem bufAt_last (pre : List CmdqPktBuffer) (b : CmdqPktBuffer) {u : Nat}
    (hu : u < cmdqCmdBufferSize) :
    bufAt (pre ++ [b]) (cmdqCmdBufferSize * pre.length + u) = some (b, u) := by
  induction pre with
  | nil => simp [bufAt, hu]
  | cons c pre ih =>
    have hge : cmdqCmdBufferSize ≤ cmdqCmdBufferSize * (pre.length + 1) + u := by
      rw [Nat.mul_succ]
      omega
    have hsub : cmdqCmdBufferSize * (pre.length + 1) + u - cmdqCmdBufferSize =
        cmdqCmdBufferSize * pre.length + u := by
      rw [Nat.mul_succ]
      omega
    simp only [List.cons_append, List.length_cons, bufAt, ge_iff_le, hge, if_true, hsub]
    exact ih

theorem bufAt_past (bufs : List CmdqPktBuffer) :
    bufAt bufs (cmdqCmdBufferSize * bufs.length) = none := by
  induction bufs with
  | nil => rfl
  | cons c bufs ih =>
    have hsub : cmdqCmdBufferSize * (bufs.length + 1) - cmdqCmdBufferSize =
        cmdqCmdBufferSize * bufs.length := by
      rw [Nat.mul_succ]
      omega
    simp only [List.length_cons, bufAt, hsub]
    rw [if_pos (by rw [Nat.mul_succ]; omega)]
    exact ih

/-- `cmd_buf_size` counts the full buffers and the used part of the last one. -/
theorem cmdBufSize_eq (h : Chained g log pkt) {pre : List CmdqPktBuffer} {b : CmdqPktBuffer}
    (hb : pkt.buf = pre ++ [b]) : pkt.cmdBufSize =
      cmdqCmdBufferSize * pre.length + (cmdqCmdBufferSize - pkt.availBufSize) := by
  have hs := h.sizes
  have hav := h.avail
  rw [hb, List.length_append, List.length_singleton, Nat.mul_succ] at hs
  omega

theorem bufAt_recent (h : Chained g log pkt) {pre : List CmdqPktBuffer} {b : CmdqPktBuffer}
    (hb : pkt.buf = pre ++ [b]) {k : Nat} (hk0 : 0 < k)
    (hk : k ≤ cmdqCmdBufferSize - pkt.availBufSize) :
    bufAt pkt.buf (pkt.cmdBufSize - k) =
      some (b, cmdqCmdBufferSize - pkt.availBufSize - k) := by
  rw [cmdBufSize_eq h hb, hb, Nat.add_sub_assoc hk]
  exact bufAt_last pre b (by omega)

/-- A packet that ends with the two instructions of `cmdq_pkt_finalize`. -/
theorem isFinalized_of_recent (h : Chained g log pkt)
    (hr : Recent pkt (cmdqInstSize * 2) cmdqEocCmd) : cmdqPktIsFinalized pkt = true := by
  obtain ⟨pre, b, hb, hk, hv⟩ := hr
  have hge : ¬pkt.cmdBufSize < cmdqInstSize * 2 := by
    rw [cmdBufSize_eq h hb]
    omega
  have hat := bufAt_recent h hb (by decide) hk
  simp only [cmdqPktIsFinalized, hge, if_false, cmdqPktGetVaByOffset, hat, hv, decide_true]

/-- `cmdq_pkt_finalize` when the packet is not finalized: the `EOC` and the jump, or as many of them
as there is memory for. -/
theorem finalize_cases {a b : BufAlloc} (h : PktOk g log pkt) (ha : a.Fresh g pkt.buf)
    (hb : ∀ p, cmdqPktAppendCommand g a eocArgs pkt = some (0, p) → b.Fresh g p.buf)
    (hn : cmdqPktIsFinalized pkt = false) :
    (cmdqPktAppendCommand g a eocArgs pkt = some (-enomem, pkt) ∧
      cmdqPktFinalize g a b pkt = some (-enomem, pkt)) ∨
    (∃ p, cmdqPktAppendCommand g a eocArgs pkt = some (0, p) ∧
      cmdqPktFinalize g a b pkt = some (-enomem, p) ∧ PktOk g (log ++ [cmdqEocCmd]) p) ∨
    (∃ p q, cmdqPktAppendCommand g a eocArgs pkt = some (0, p) ∧
      cmdqPktFinalize g a b pkt = some (0, q) ∧ cmdqPktIsFinalized q = true ∧
      PktOk g (log ++ [cmdqEocCmd] ++
        [cmdqPktInstrEncoder (jumpArgs g cmdqJumpPass)]) q) := by
  rcases append_ok h ha eocArgs with he | ⟨p, he, hlast, -, hok⟩
  · refine .inl ⟨he, ?_⟩
    simp [cmdqPktFinalize, hn, he, enomem]
  · have hp := hok (jumpTarget_of_code (by decide))
    rw [encoder_eocArgs] at hp hlast
    rcases append_ok hp (hb p he) (jumpArgs g cmdqJumpPass) with hj | ⟨q, hj, -, hprev, hok'⟩
    · refine .inr (.inl ⟨p, he, ?_, hp⟩)
      simp [cmdqPktFinalize, hn, he, cmdqPktJump, hj, enomem]
    · have hq := hok' (jumpTarget_jumpArgs g cmdqJumpPass)
      refine .inr (.inr ⟨p, q, he, ?_, isFinalized_of_recent hq.chained (hprev _ hlast), hq⟩)
      simp [cmdqPktFinalize, hn, he, cmdqPktJump, hj]

/-! ## What the engine reads -/

/-- The word at a physical address. -/
def CmdqPkt.word (pkt : CmdqPkt) (addr : Nat) : Option (BitVec 64) :=
  (pkt.buf.find? fun b => b.paBase ≤ addr && addr < b.paBase + cmdqCmdBufferSize).map fun b =>
    b.va (addr - b.paBase)

/-- The words that are the jumps from one buffer to the next. -/
def CmdqPkt.isLink (pkt : CmdqPkt) (addr : Nat) : Bool :=
  pkt.buf.dropLast.any fun b => b.paBase + lastSlot == addr

/-- The word at a physical address, and whether it is a jump from one buffer to the next. -/
def CmdqPkt.cell (pkt : CmdqPkt) (addr : Nat) : Option (Bool × BitVec 64) :=
  (pkt.word addr).map fun inst => (pkt.isLink addr, inst)

/-- Where the engine goes on after a jump from one buffer to the next. -/
def linkTarget (g : Nat) (cell : Bool × BitVec 64) : Option Nat :=
  if cell.1 then jumpTarget g cell.2 else none

/-- Pages that share an address are the same. -/
theorem page_unique {x y k m : Nat} (hx : cmdqBufAllocSize ∣ x) (hy : cmdqBufAllocSize ∣ y)
    (hk : k < cmdqBufAllocSize) (hm : m < cmdqBufAllocSize) (he : x + k = y + m) : x = y := by
  obtain ⟨i, rfl⟩ := hx
  obtain ⟨j, rfl⟩ := hy
  simp only [cmdqBufAllocSize] at *
  omega

theorem word_of_mem (h : Chained g log pkt) {b : CmdqPktBuffer} (hb : b ∈ pkt.buf) {off : Nat}
    (ho : off < cmdqCmdBufferSize) : pkt.word (b.paBase + off) = some (b.va off) := by
  have hlt : cmdqCmdBufferSize < cmdqBufAllocSize := by decide
  cases hf : pkt.buf.find? fun c =>
      c.paBase ≤ b.paBase + off && b.paBase + off < c.paBase + cmdqCmdBufferSize with
  | none =>
    have := List.find?_eq_none.1 hf b hb
    simp at this
    omega
  | some c =>
    have hc := List.find?_some hf
    have hm := List.mem_of_find?_eq_some hf
    simp only [Bool.and_eq_true, decide_eq_true_eq] at hc
    have hp : b.paBase = c.paBase :=
      page_unique (h.pages b hb).1 (h.pages c hm).1 (k := off)
        (m := b.paBase + off - c.paBase) (by omega) (by omega) (by omega)
    have hbc : b = c := List.inj_on_of_nodup_map h.apart hb hm hp
    subst hbc
    simp [CmdqPkt.word, hf]

/-- The last buffer's free part is in none of the other buffers. -/
theorem ne_end {pre : List CmdqPktBuffer} {b c : CmdqPktBuffer} (h : Chained g log pkt)
    (hb : pkt.buf = pre ++ [b]) (hc : c ∈ pre) {off u : Nat} (ho : off < cmdqCmdBufferSize)
    (hu : u ≤ cmdqCmdBufferSize) : c.paBase + off ≠ b.paBase + u := by
  intro he
  have hlt : cmdqCmdBufferSize < cmdqBufAllocSize := by decide
  have hp : c.paBase = b.paBase :=
    page_unique (h.pages c (by simp [hb, hc])).1 (h.pages b (by simp [hb])).1 (by omega)
      (by omega) he
  have hd := h.apart
  rw [hb, List.map_append, List.map_singleton, List.nodup_append] at hd
  exact hd.2.2 _ (List.mem_map_of_mem hc) _ (List.mem_singleton.2 rfl) hp

/-- The jump of a buffer that has a next one. -/
theorem cell_jump (h : Chained g log pkt) {b : CmdqPktBuffer} (hb : b ∈ pkt.buf.dropLast) :
    pkt.cell (b.paBase + lastSlot) = some (true, b.va lastSlot) := by
  have hlink : pkt.isLink (b.paBase + lastSlot) = true :=
    List.any_eq_true.2 ⟨b, hb, by simp⟩
  rw [CmdqPkt.cell, word_of_mem h (List.mem_of_mem_dropLast hb) (by decide), hlink,
    Option.map_some]

/-- The instructions before the last slot. -/
theorem cell_inst (h : Chained g log pkt) {b : CmdqPktBuffer} (hb : b ∈ pkt.buf) {off : Nat}
    (ho : off < lastSlot) : pkt.cell (b.paBase + off) = some (false, b.va off) := by
  have hlt : lastSlot < cmdqCmdBufferSize := by decide
  have hpage : cmdqCmdBufferSize < cmdqBufAllocSize := by decide
  have hlink : pkt.isLink (b.paBase + off) = false := by
    refine List.any_eq_false.2 fun c hc he => ?_
    have hce := beq_iff_eq.1 he
    have hp : c.paBase = b.paBase :=
      page_unique (h.pages c (List.mem_of_mem_dropLast hc)).1 (h.pages b hb).1 (by omega)
        (by omega) hce
    omega
  rw [CmdqPkt.cell, word_of_mem h hb (by omega), hlink, Option.map_some]

/-- The instructions of the last buffer. -/
theorem cell_last (h : Chained g log pkt) {pre : List CmdqPktBuffer} {b : CmdqPktBuffer}
    (hb : pkt.buf = pre ++ [b]) {off : Nat} (ho : off < cmdqCmdBufferSize) :
    pkt.cell (b.paBase + off) = some (false, b.va off) := by
  have hlink : pkt.isLink (b.paBase + off) = false := by
    refine List.any_eq_false.2 fun c hc he => ?_
    rw [hb, List.dropLast_concat] at hc
    exact ne_end h hb hc (by decide) (Nat.le_of_lt ho) (beq_iff_eq.1 he)
  rw [CmdqPkt.cell, word_of_mem h (by simp [hb]) ho, hlink, Option.map_some]

/-- The instructions in the first `m` slots of a buffer are run one after the other. -/
theorem follow_insts {b : CmdqPktBuffer} {m stop : Nat}
    (hcell : ∀ off < cmdqInstSize * m, pkt.cell (b.paBase + off) = some (false, b.va off))
    (hstop : ∀ off, off < cmdqInstSize * m → b.paBase + off ≠ stop) {fuel : Nat}
    {l : List (Bool × BitVec 64)}
    (hl : Code.follow pkt.cell (linkTarget g) cmdqInstSize stop fuel
      (b.paBase + cmdqInstSize * m) = some l) :
    Code.follow pkt.cell (linkTarget g) cmdqInstSize stop (fuel + m) b.paBase =
      some ((b.insts (cmdqInstSize * m)).map (Prod.mk false) ++ l) := by
  have hmul : ∀ j < m, cmdqInstSize * j < cmdqInstSize * m := fun j hj =>
    Nat.mul_lt_mul_of_pos_left hj (by decide)
  have hinsts : (b.insts (cmdqInstSize * m)).map (Prod.mk false) =
      (List.range m).map fun j => (false, b.va (cmdqInstSize * j)) := by
    rw [CmdqPktBuffer.insts, Nat.mul_div_cancel_left _ (show 0 < cmdqInstSize by decide),
      List.map_map]
    rfl
  rw [hinsts]
  apply Code.follow_line m b.paBase _ _ _ hl
  · intro j hj
    exact hstop _ (hmul j hj)
  · intro j hj
    exact hcell _ (hmul j hj)
  · intro j hj
    rfl

/-- The address of the first of some buffers, which lead to `next`. -/
def firstPa (pre : List CmdqPktBuffer) (next : Nat) : Nat :=
  match pre with
  | [] => next
  | b :: _ => b.paBase

/-- Full buffers are run through, the jumps at their ends included. -/
theorem follow_leads (h : Chained g log pkt) (hg : g ≤ 12) {pre : List CmdqPktBuffer}
    {next stop : Nat} {log' : List (BitVec 64)} (hleads : Leads g pre next log')
    (hpre : ∀ c ∈ pre, c ∈ pkt.buf.dropLast) (hnext : PageOk g next)
    (hstop : ∀ c ∈ pre, ∀ off < cmdqCmdBufferSize, c.paBase + off ≠ stop) {fuel : Nat}
    {l : List (Bool × BitVec 64)}
    (hl : Code.follow pkt.cell (linkTarget g) cmdqInstSize stop fuel next = some l) :
    Code.follow pkt.cell (linkTarget g) cmdqInstSize stop (fuel + 480 * pre.length)
      (firstPa pre next) = some (log'.map (Prod.mk false) ++ l) := by
  induction hleads generalizing fuel l with
  | nil => exact hl
  | @snoc pre b next log' hleads hjump ih =>
    have hb : b ∈ pkt.buf.dropLast := hpre b (by simp)
    have hmem : b ∈ pkt.buf := List.mem_of_mem_dropLast hb
    have hdvd : 2 ^ g ∣ next := Nat.dvd_trans (Nat.pow_dvd_pow 2 hg) hnext.1
    have hslot : cmdqInstSize * 479 = lastSlot := rfl
    have htarget : linkTarget g (true, b.va lastSlot) = some next := by
      rw [linkTarget, if_pos rfl, hjump]
      exact jumpTarget_jumpToAbs hdvd hnext.2
    have hlast : Code.follow pkt.cell (linkTarget g) cmdqInstSize stop (fuel + 1)
        (b.paBase + cmdqInstSize * 479) = some l := by
      rw [hslot, Code.follow_jump (hstop b (by simp) _ (by decide)) (cell_jump h hb) htarget]
      exact hl
    have hline := follow_insts (m := 479) (fun off ho => cell_inst h hmem ho)
      (fun off ho => hstop b (by simp) off (Nat.lt_trans ho (by decide))) hlast
    have hrec := ih (fun c hc => hpre c (by simp [hc])) (h.pages b hmem)
      (fun c hc => hstop c (by simp [hc])) hline
    have hfirst : firstPa (pre ++ [b]) next = firstPa pre b.paBase := by cases pre <;> rfl
    have hfuel : fuel + 480 * (pre ++ [b]).length = fuel + 1 + 479 + 480 * pre.length := by
      rw [List.length_append, List.length_singleton]
      omega
    rw [hfirst, hfuel, hrec, hslot, List.map_append, List.append_assoc]

/-- **Following the buffers** of a packet gives its instructions, whatever they are. -/
theorem follow_chained (h : Chained g log pkt) (hg : g ≤ 12) {fuel : Nat}
    (hf : pkt.cmdBufSize / cmdqInstSize + 1 ≤ fuel) :
    Code.follow pkt.cell (linkTarget g) cmdqInstSize pkt.endPa fuel pkt.startPa =
      some (log.map (Prod.mk false)) := by
  have hholds : Holds g log pkt := h.holds
  cases hholds with
  | empty he hlog =>
    obtain ⟨k, rfl⟩ := Nat.exists_eq_add_of_lt (Nat.lt_of_lt_of_le (Nat.succ_pos _) hf)
    rw [Nat.zero_add]
    have hstart : pkt.startPa = pkt.endPa := by simp [CmdqPkt.startPa, CmdqPkt.endPa, he]
    rw [hstart, Code.follow_stop, hlog, List.map_nil]
  | full pre b log₀ he hleads hlog =>
    have hav := h.avail
    obtain ⟨m, hm⟩ : cmdqInstSize ∣ cmdqCmdBufferSize - pkt.availBufSize :=
      Nat.dvd_sub (by decide) h.slots
    have hend : pkt.endPa = b.paBase + cmdqInstSize * m := by
      simp only [CmdqPkt.endPa, he, List.getLast?_append, List.getLast?_singleton,
        Option.some_or]
      omega
    rw [hm] at hlog
    have hline : Code.follow pkt.cell (linkTarget g) cmdqInstSize pkt.endPa (1 + m) b.paBase =
        some ((b.insts (cmdqInstSize * m)).map (Prod.mk false) ++ []) := by
      apply follow_insts
      · intro off ho
        exact cell_last h he (by omega)
      · intro off ho
        rw [hend]
        omega
      · rw [hend]
        exact Code.follow_stop 0
    have hall := follow_leads h hg hleads (fun c hc => by simp [he, hc])
      (h.pages b (by simp [he])) (fun c hc off ho => by
        rw [hend]
        exact ne_end h he hc ho (by omega)) hline
    have hstart : pkt.startPa = firstPa pre b.paBase := by
      rw [CmdqPkt.startPa, he]
      cases pre <;> rfl
    have hcmd := cmdBufSize_eq h he
    have hfuel : 1 + m + 480 * pre.length ≤ fuel := by
      simp only [cmdqInstSize, cmdqCmdBufferSize, cmdqBufAllocSize] at hcmd hm hf
      omega
    rw [List.append_nil, ← List.map_append, ← hlog, ← hstart] at hall
    obtain ⟨k, rfl⟩ := Nat.exists_eq_add_of_le hfuel
    exact Code.follow_mono hall k

/-- An engine that only jumps where the buffers do. -/
theorem follow_plain {stop fuel pc : Nat}
    (hf : Code.follow pkt.cell (linkTarget g) cmdqInstSize stop fuel pc =
      some (log.map (Prod.mk false)))
    (hplain : ∀ inst ∈ log, jumpTarget g inst = none) :
    Code.follow pkt.word (jumpTarget g) cmdqInstSize stop fuel pc = some log := by
  have hword : ∀ addr, pkt.word addr = (pkt.cell addr).map Prod.snd := by
    intro addr
    simp [CmdqPkt.cell, Function.comp_def]
  have htarget : ∀ v a, linkTarget g v = some a → jumpTarget g v.2 = some a := by
    intro v a hv
    cases hl : v.1 <;> simp_all [linkTarget]
  have hmap := Code.follow_map hword htarget hf fun v hv => by
    obtain ⟨inst, hi, rfl⟩ := List.mem_map.1 hv
    exact hplain inst hi
  rwa [List.map_map, show (Prod.snd ∘ Prod.mk false : BitVec 64 → BitVec 64) = id from rfl,
    List.map_id] at hmap

/-- **Following a packet** gives its instructions. -/
theorem follow_ok (h : PktOk g log pkt) (hg : g ≤ 12) {fuel : Nat}
    (hf : pkt.cmdBufSize / cmdqInstSize + 1 ≤ fuel) :
    Code.follow pkt.word (jumpTarget g) cmdqInstSize pkt.endPa fuel pkt.startPa = some log :=
  follow_plain (follow_chained h.chained hg hf) h.plain

/-! ## Calls -/

/-- The calls that are considered: no jumps are appended, and new pages are not in use. -/
def PktOp.Ok (g : Nat) (pkt : CmdqPkt) : PktOp → Prop
  | .append args a => args.code ≠ cmdqCodeJump ∧ a.Fresh g pkt.buf
  | .getCurrBufPa a => a.Fresh g pkt.buf
  | .finalize a b => a.Fresh g pkt.buf ∧
      ∀ p, cmdqPktAppendCommand g a eocArgs pkt = some (0, p) → b.Fresh g p.buf

/-- **One call** adds the instructions it appends. -/
theorem step_ok (h : PktOk g log pkt) {op : PktOp} (hop : op.Ok g pkt) :
    ∃ o p, op.step g pkt = some (o, p) ∧ PktOk g (log ++ o.appended) p := by
  cases op with
  | append args a =>
    obtain ⟨hcode, ha⟩ := hop
    rcases append_ok h ha args with he | ⟨p, he, -, -, hp⟩
    · exact ⟨⟨-enomem, []⟩, pkt, by simp [PktOp.step, he, enomem], by simpa using h⟩
    · exact ⟨⟨0, [cmdqPktInstrEncoder args]⟩, p, by simp [PktOp.step, he],
        hp (jumpTarget_of_code hcode)⟩
  | getCurrBufPa a =>
    rcases getCurrBufPa_ok h hop with he | ⟨p, _, b, he, hp, -⟩
    · exact ⟨_, pkt, by rw [PktOp.step, he]; rfl, by simpa using h⟩
    · exact ⟨_, p, by rw [PktOp.step, he]; rfl, by simpa using hp⟩
  | finalize a b =>
    obtain ⟨ha, hb⟩ := hop
    cases hn : cmdqPktIsFinalized pkt with
    | true =>
      exact ⟨⟨0, []⟩, pkt, by simp [PktOp.step, cmdqPktFinalize, finalizeAppended, hn],
        by simpa using h⟩
    | false =>
      rcases finalize_cases h ha hb hn with ⟨he, hf⟩ | ⟨p, he, hf, hp⟩ | ⟨p, q, he, hf, -, hq⟩
      · exact ⟨⟨-enomem, []⟩, pkt,
          by simp [PktOp.step, hf, finalizeAppended, hn, he, enomem], by simpa using h⟩
      · exact ⟨⟨-enomem, [cmdqEocCmd]⟩, p,
          by simp [PktOp.step, hf, finalizeAppended, hn, he, enomem, encoder_eocArgs], hp⟩
      · refine ⟨⟨0, [cmdqEocCmd, cmdqPktInstrEncoder (jumpArgs g cmdqJumpPass)]⟩, q,
          by simp [PktOp.step, hf, finalizeAppended, hn, encoder_eocArgs], ?_⟩
        simpa using hq

/-- The word that is stored, and no other. -/
theorem word_stored (h : PktOk g log pkt) (h0 : pkt.availBufSize ≠ 0) {pre : List CmdqPktBuffer}
    {b : CmdqPktBuffer} (hb : pkt.buf = pre ++ [b]) (inst : BitVec 64) (addr : Nat) :
    (pkt.stored pre b inst).word addr =
      if addr = b.paBase + (cmdqCmdBufferSize - pkt.availBufSize) then some inst
      else pkt.word addr := by
  have hav := h.avail
  have hp : ∀ c ∈ pre, ∀ off < cmdqCmdBufferSize,
      c.paBase + off ≠ b.paBase + (cmdqCmdBufferSize - pkt.availBufSize) :=
    fun c hc off ho => ne_end h.chained hb hc ho (Nat.sub_le _ _)
  rw [CmdqPkt.word, CmdqPkt.word, hb, CmdqPkt.stored, List.find?_append, List.find?_append]
  cases hf : pre.find? fun c => c.paBase ≤ addr && addr < c.paBase + cmdqCmdBufferSize with
  | some c =>
    have hc := List.find?_some hf
    have hm := List.mem_of_find?_eq_some hf
    simp only [Bool.and_eq_true, decide_eq_true_eq] at hc
    have hne : addr ≠ b.paBase + (cmdqCmdBufferSize - pkt.availBufSize) := by
      have := hp c hm (addr - c.paBase) (by omega)
      omega
    simp [hne]
  | none =>
    by_cases hin : b.paBase ≤ addr ∧ addr < b.paBase + cmdqCmdBufferSize
    · by_cases he : addr = b.paBase + (cmdqCmdBufferSize - pkt.availBufSize)
      · subst he
        simp [hin]
      · have hne : addr - b.paBase ≠ cmdqCmdBufferSize - pkt.availBufSize := by omega
        simp [hin, he, va_put_of_ne _ _ hne]
    · have he : addr ≠ b.paBase + (cmdqCmdBufferSize - pkt.availBufSize) := by omega
      by_cases hle : b.paBase ≤ addr
      · have hlt : ¬addr < b.paBase + cmdqCmdBufferSize := fun hlt => hin ⟨hle, hlt⟩
        simp [hlt, he]
      · simp [hle, he]

/-- What holds of a packet that the instructions `log` were appended to. -/
structure PktSpec (g : Nat) (log : List (BitVec 64)) (pkt : CmdqPkt) : Prop where
  /-- The engine runs exactly these instructions. -/
  follow : ∀ fuel, pkt.cmdBufSize / cmdqInstSize + 1 ≤ fuel →
    Code.follow pkt.word (jumpTarget g) cmdqInstSize pkt.endPa fuel pkt.startPa = some log
  /-- The offset of the next free slot, if the last buffer has one. -/
  offset : pkt.availBufSize ≠ 0 → ∃ b, pkt.buf.getLast? = some b ∧
    cmdqPktGetVaByOffset pkt pkt.cmdBufSize =
      some (b, cmdqCmdBufferSize - pkt.availBufSize) ∧
    (pkt.cmdBufSize < 2 ^ 32 → cmdqPktGetPaByOffset pkt pkt.cmdBufSize = pkt.endPa)
  /-- Past all buffers otherwise. -/
  offsetFull : pkt.availBufSize = 0 →
    pkt.cmdBufSize = cmdqCmdBufferSize * pkt.buf.length ∧
    cmdqPktGetVaByOffset pkt pkt.cmdBufSize = none ∧
    (pkt.cmdBufSize < 2 ^ 32 → cmdqPktGetPaByOffset pkt pkt.cmdBufSize = 0)
  /-- Where the next instruction will be stored. -/
  currBufPa : ∀ a, a.Fresh g pkt.buf → ∃ pa p, cmdqPktGetCurrBufPa g a pkt = some (pa, p) ∧
    (pa = 2 ^ 64 - 12 ∧ p = pkt ∨ pa < 2 ^ 64 - 12 ∧ ∀ args b, ∃ q,
      cmdqPktAppendCommand g b args p = some (0, q) ∧
      ∀ addr, q.word addr = if addr = pa then some (cmdqPktInstrEncoder args) else p.word addr)
  /-- A failed append changes nothing. -/
  appendFails : ∀ a args r p, cmdqPktAppendCommand g a args pkt = some (r, p) → r ≠ 0 → p = pkt
  /-- A finalized packet stays as it is. -/
  finalizeAgain : ∀ a b p, PktOp.Ok g pkt (.finalize a b) →
    cmdqPktFinalize g a b pkt = some (0, p) → ∀ c d, cmdqPktFinalize g c d p = some (0, p)

theorem endPa_eq (h : PktOk g log pkt) {pre : List CmdqPktBuffer} {b : CmdqPktBuffer}
    (hb : pkt.buf = pre ++ [b]) :
    pkt.endPa = b.paBase + (cmdqCmdBufferSize - pkt.availBufSize) := by
  have hav := h.avail
  simp only [CmdqPkt.endPa, hb, List.getLast?_append, List.getLast?_singleton, Option.some_or]
  omega

theorem offset_room (h : PktOk g log pkt) (h0 : pkt.availBufSize ≠ 0) :
    ∃ b, pkt.buf.getLast? = some b ∧
      cmdqPktGetVaByOffset pkt pkt.cmdBufSize =
        some (b, cmdqCmdBufferSize - pkt.availBufSize) ∧
      (pkt.cmdBufSize < 2 ^ 32 → cmdqPktGetPaByOffset pkt pkt.cmdBufSize = pkt.endPa) := by
  obtain ⟨pre, b, hb⟩ := getLast_of_room h.chained h0
  have hav := h.avail
  have hat : bufAt pkt.buf pkt.cmdBufSize = some (b, cmdqCmdBufferSize - pkt.availBufSize) := by
    rw [cmdBufSize_eq h.chained hb, hb]
    exact bufAt_last pre b (by omega)
  refine ⟨b, by simp [hb], hat, ?_⟩
  intro hlt
  rw [cmdqPktGetPaByOffset, Nat.mod_eq_of_lt hlt, hat, endPa_eq h hb]

theorem offset_full (h : PktOk g log pkt) (h0 : pkt.availBufSize = 0) :
    pkt.cmdBufSize = cmdqCmdBufferSize * pkt.buf.length ∧
      cmdqPktGetVaByOffset pkt pkt.cmdBufSize = none ∧
      (pkt.cmdBufSize < 2 ^ 32 → cmdqPktGetPaByOffset pkt pkt.cmdBufSize = 0) := by
  have hs := h.sizes
  rw [h0, Nat.add_zero] at hs
  have hat : bufAt pkt.buf pkt.cmdBufSize = none := hs ▸ bufAt_past pkt.buf
  refine ⟨hs, hat, ?_⟩
  intro hlt
  rw [cmdqPktGetPaByOffset, Nat.mod_eq_of_lt hlt, hat]

theorem currBufPa_spec (h : PktOk g log pkt) (hg : g ≤ 12) {a : BufAlloc}
    (ha : a.Fresh g pkt.buf) :
    ∃ pa p, cmdqPktGetCurrBufPa g a pkt = some (pa, p) ∧
      (pa = 2 ^ 64 - 12 ∧ p = pkt ∨ pa < 2 ^ 64 - 12 ∧ ∀ args b, ∃ q,
        cmdqPktAppendCommand g b args p = some (0, q) ∧
        ∀ addr, q.word addr =
          if addr = pa then some (cmdqPktInstrEncoder args) else p.word addr) := by
  rcases getCurrBufPa_ok h ha with he | ⟨p, pre, b, he, hp, h0, hb⟩
  · exact ⟨_, _, he, .inl ⟨rfl, rfl⟩⟩
  · have hav := hp.avail
    have hpa : b.paBase + cmdqCmdBufferSize - p.availBufSize =
        b.paBase + (cmdqCmdBufferSize - p.availBufSize) := by omega
    refine ⟨_, p, he, .inr ⟨?_, ?_⟩⟩
    · have hlt := (hp.pages b (by simp [hb])).2
      have hpow : 2 ^ (32 + g) ≤ 2 ^ 44 := Nat.pow_le_pow_right (by decide) (by omega)
      have hsize : cmdqCmdBufferSize = 3840 := rfl
      omega
    · intro args c
      refine ⟨_, append_of_room h0 hb args, ?_⟩
      intro addr
      rw [word_stored hp h0 hb, hpa]

theorem append_fails {a : BufAlloc} {args : CmdqArgs} {r : Int} {p : CmdqPkt}
    (he : cmdqPktAppendCommand g a args pkt = some (r, p)) (hr : r ≠ 0) : p = pkt := by
  simp only [cmdqPktAppendCommand] at he
  split_ifs at he with hroom
  · simp only [Option.some.injEq, Prod.mk.injEq] at he
    obtain ⟨-, rfl⟩ := he
    rw [makeRoom] at hroom ⊢
    split_ifs at hroom ⊢ with h0
    · rw [cmdqPktAddCmdBuffer] at hroom ⊢
      cases hn : cmdqPktAllocBuf a pkt with
      | none => rfl
      | some nb =>
        rw [hn] at hroom
        cases hl : pkt.buf.getLast? <;> simp [hl] at hroom
    · rfl
  · obtain ⟨b, -, hb⟩ := Option.map_eq_some_iff.1 he
    simp only [Prod.mk.injEq] at hb
    exact absurd hb.1.symm hr

theorem finalize_again (h : PktOk g log pkt) {a b : BufAlloc} {p : CmdqPkt}
    (hop : PktOp.Ok g pkt (.finalize a b)) (hf : cmdqPktFinalize g a b pkt = some (0, p))
    (c d : BufAlloc) : cmdqPktFinalize g c d p = some (0, p) := by
  have hfin : cmdqPktIsFinalized p = true := by
    cases hn : cmdqPktIsFinalized pkt with
    | true =>
      simp only [cmdqPktFinalize, hn, if_true, Option.some.injEq, Prod.mk.injEq, true_and] at hf
      exact hf ▸ hn
    | false =>
      rcases finalize_cases h hop.1 hop.2 hn with ⟨-, he⟩ | ⟨_, -, he, -⟩ | ⟨_, q, -, he, hq, -⟩
      · simp [he, enomem] at hf
      · simp [he, enomem] at hf
      · simp only [he, Option.some.injEq, Prod.mk.injEq, true_and] at hf
        exact hf ▸ hq
  simp [cmdqPktFinalize, hfin]

theorem PktOk.spec (h : PktOk g log pkt) (hg : g ≤ 12) : PktSpec g log pkt where
  follow _ hf := follow_ok h hg hf
  offset := offset_room h
  offsetFull := offset_full h
  currBufPa _ ha := currBufPa_spec h hg ha
  appendFails _ _ _ _ := append_fails
  finalizeAgain _ _ _ hop hf := finalize_again h hop hf

end

theorem GcePlat.shift_le (plat : GcePlat) : plat.shift ≤ 12 := by
  cases plat <;> decide

/-- What was appended in a history of calls. -/
def appended (es : List (PktOp × PktOut)) : List (BitVec 64) := es.flatMap fun e => e.2.appended

/-- **The packet chain**: after any sequence of calls on a new packet, following the packet gives
exactly what was appended. -/
theorem pkt_chain (plat : GcePlat) (ops : List PktOp)
    (hops : Sys.Along (PktOp.step plat.shift) (PktOp.Ok plat.shift) .create ops) :
    ∃ es pkt, Sys.run (PktOp.step plat.shift) .create ops = some (es, pkt) ∧
      PktSpec plat.shift (appended es) pkt := by
  have hstep : ∀ (es : List (PktOp × PktOut)) pkt (op : PktOp),
      PktOk plat.shift (appended es) pkt → op.Ok plat.shift pkt →
      ∃ o p, op.step plat.shift pkt = some (o, p) ∧
        PktOk plat.shift (appended (es ++ [(op, o)])) p := by
    intro es pkt op h hop
    obtain ⟨o, p, hs, hp⟩ := step_ok h hop
    exact ⟨o, p, hs, by simpa [appended] using hp⟩
  obtain ⟨es, pkt, hrun, hpkt⟩ := Sys.run_hist_along
    (I := fun es pkt => PktOk plat.shift (appended es) pkt) hstep ops [] .create
    (pktOk_create plat.shift) hops
  exact ⟨es, pkt, hrun, hpkt.spec plat.shift_le⟩

/-! ## A full buffer -/

/-- `CMDQ_CODE_MASK` with `n` in `arg_c`. -/
def maskArgs (n : Nat) : CmdqArgs := ⟨BitVec.ofNat 16 n, 0, 0, 0, 0, 0, 0, 0x02⟩

/-- The calls that fill a buffer. -/
def fillOps : List PktOp :=
  .append (maskArgs 0) (poolPage 4096) :: .replicate 479 (.append (maskArgs 0) noBuf)

/-- `k` instructions in a single buffer. -/
def Part (k : Nat) (pkt : CmdqPkt) : Prop :=
  ∃ b, pkt.buf = [b] ∧ b.paBase = 4096 ∧ pkt.availBufSize = cmdqCmdBufferSize - cmdqInstSize * k ∧
    pkt.cmdBufSize = cmdqInstSize * k ∧
    b.va (cmdqInstSize * k - cmdqInstSize) = cmdqPktInstrEncoder (maskArgs 0)

theorem part_step {g k : Nat} {pkt : CmdqPkt} (h : Part k pkt) (hk : k < 480) :
    ∃ o p, PktOp.step g pkt (.append (maskArgs 0) noBuf) = some (o, p) ∧ Part (k + 1) p := by
  obtain ⟨b, hb, hpa, hav, hcmd, -⟩ := h
  have hmul : cmdqInstSize * (k + 1) = cmdqInstSize * k + cmdqInstSize := rfl
  have hsize : cmdqCmdBufferSize = cmdqInstSize * 480 := rfl
  have hlt : cmdqInstSize * k + cmdqInstSize ≤ cmdqInstSize * 480 := by
    rw [← hmul]
    exact Nat.mul_le_mul_left _ hk
  have h8 : 0 < cmdqInstSize := by decide
  have happ : cmdqPktAppendCommand g noBuf (maskArgs 0) pkt =
      some (0, pkt.stored [] b (cmdqPktInstrEncoder (maskArgs 0))) :=
    append_of_room (by omega) (by simpa using hb) _
  refine ⟨_, _, by rw [PktOp.step, happ]; rfl, b.put _ _, rfl, hpa, ?_, ?_, ?_⟩
  · simp only [CmdqPkt.stored]
    omega
  · simp only [CmdqPkt.stored]
    omega
  · rw [show cmdqCmdBufferSize - pkt.availBufSize = cmdqInstSize * (k + 1) - cmdqInstSize by omega]
    exact va_put_self _ _ _

theorem part_run {g : Nat} (n k : Nat) {pkt : CmdqPkt} (h : Part k pkt) (hk : k + n ≤ 480) :
    Sys.Along (PktOp.step g) (PktOp.Ok g) pkt (.replicate n (.append (maskArgs 0) noBuf)) ∧
      ∃ es p, Sys.run (PktOp.step g) pkt (.replicate n (.append (maskArgs 0) noBuf)) =
        some (es, p) ∧ Part (k + n) p := by
  induction n generalizing k pkt with
  | zero => exact ⟨trivial, [], pkt, rfl, h⟩
  | succ n ih =>
    obtain ⟨o, p, hs, hp⟩ := part_step (g := g) h (by omega)
    obtain ⟨hal, es, q, hrun, hq⟩ := ih (k + 1) hp (by omega)
    have hok : PktOp.Ok g pkt (.append (maskArgs 0) noBuf) :=
      ⟨by decide, noBuf_fresh _ _⟩
    refine ⟨Sys.along_cons hok hs hal, (.append (maskArgs 0) noBuf, o) :: es, q, ?_, ?_⟩
    · rw [List.replicate_succ, Sys.run_cons_some _ hs, hrun]
      rfl
    · rwa [show k + (n + 1) = k + 1 + n by omega]

theorem fill_run : Sys.Along (PktOp.step GcePlat.v4.shift) (PktOp.Ok GcePlat.v4.shift) .create
      fillOps ∧
    ∃ es pkt, Sys.run (PktOp.step GcePlat.v4.shift) .create fillOps = some (es, pkt) ∧
      Part 480 pkt := by
  obtain ⟨p, hfirst, hpart⟩ : ∃ p, PktOp.step GcePlat.v4.shift .create
      (.append (maskArgs 0) (poolPage 4096)) = some (⟨0, [cmdqPktInstrEncoder (maskArgs 0)]⟩, p) ∧
      Part 1 p :=
    ⟨_, rfl, _, rfl, rfl, rfl, rfl, rfl⟩
  have hok : PktOp.Ok GcePlat.v4.shift .create (.append (maskArgs 0) (poolPage 4096)) :=
    ⟨by decide, poolPage_fresh (by decide) (by simp [CmdqPkt.create])⟩
  obtain ⟨hal, es, pkt, hrun, hfull⟩ :=
    part_run (g := GcePlat.v4.shift) 479 1 hpart (by decide)
  refine ⟨Sys.along_cons hok hfirst hal, (.append (maskArgs 0) (poolPage 4096),
    ⟨0, [cmdqPktInstrEncoder (maskArgs 0)]⟩) :: es, pkt, ?_, hfull⟩
  rw [fillOps, Sys.run_cons_some _ hfirst, hrun]
  rfl

theorem pkt_chain_two : ∃ es pkt,
    Sys.run (PktOp.step GcePlat.v4.shift) .create
      (fillOps ++ [.append (maskArgs 1) (poolPage 8192), .finalize noBuf noBuf]) =
        some (es, pkt) ∧
    PktSpec GcePlat.v4.shift (appended es) pkt := by
  obtain ⟨hal, es, pkt, hrun, b, hb, hpa, -⟩ := fill_run
  refine pkt_chain .v4 _ (Sys.along_append hal fun es' pkt' hrun' => ?_)
  rw [hrun] at hrun'
  cases hrun'
  -- the buffer is full: the append takes a second page
  refine ⟨⟨by decide, poolPage_fresh (by decide) ?_⟩, fun o p _ =>
    ⟨⟨noBuf_fresh _ _, fun _ _ => noBuf_fresh _ _⟩, fun _ _ _ => trivial⟩⟩
  rw [hb, List.map_singleton, hpa]
  decide

/-- A full buffer has no slot at the offset `cmd_buf_size`: the next instruction is stored one slot
further, and the moved instruction is what is found at that offset. -/
theorem pkt_offset_fails :
    Sys.Along (PktOp.step GcePlat.v4.shift) (PktOp.Ok GcePlat.v4.shift) .create fillOps ∧
    ∃ es pkt q b, Sys.run (PktOp.step GcePlat.v4.shift) .create fillOps = some (es, pkt) ∧
      cmdqPktGetVaByOffset pkt pkt.cmdBufSize = none ∧
      cmdqPktAppendCommand GcePlat.v4.shift (poolPage 8192) (maskArgs 1) pkt = some (0, q) ∧
      cmdqPktGetVaByOffset q pkt.cmdBufSize = some (b, 0) ∧
      b.va 0 ≠ cmdqPktInstrEncoder (maskArgs 1) ∧
      cmdqPktGetVaByOffset q (pkt.cmdBufSize + cmdqInstSize) = some (b, cmdqInstSize) ∧
      b.va cmdqInstSize = cmdqPktInstrEncoder (maskArgs 1) := by
  obtain ⟨hal, es, pkt, hrun, b, hb, -, hav, hcmd, hva⟩ := fill_run
  have h0 : pkt.availBufSize = 0 := hav
  have hc : pkt.cmdBufSize = 3840 := hcmd
  have hv : b.va lastSlot = cmdqPktInstrEncoder (maskArgs 0) := hva
  let new : CmdqPktBuffer := (CmdqPktBuffer.put ⟨true, 8192, fun _ => 0⟩ 0 (b.va lastSlot)).put
    cmdqInstSize (cmdqPktInstrEncoder (maskArgs 1))
  obtain ⟨q, hq, hbuf⟩ : ∃ q, cmdqPktAppendCommand GcePlat.v4.shift (poolPage 8192) (maskArgs 1)
      pkt = some (0, q) ∧ q.buf = [b.put lastSlot (jumpToAbs GcePlat.v4.shift 8192), new] := by
    simp only [cmdqPktAppendCommand, makeRoom, h0, if_true, cmdqPktAddCmdBuffer, cmdqPktAllocBuf,
      poolPage, cmdqPktAllocBuf.added, hb, List.getLast?_singleton]
    exact ⟨_, rfl, rfl⟩
  refine ⟨hal, es, pkt, q, new, hrun, ?_, hq, ?_, ?_, ?_, ?_⟩
  · rw [cmdqPktGetVaByOffset, hb, hc]
    rfl
  · rw [cmdqPktGetVaByOffset, hbuf, hc]
    rfl
  · rw [va_put_of_ne _ _ (by decide), va_put_self, hv]
    decide
  · rw [cmdqPktGetVaByOffset, hbuf, hc]
    rfl
  · exact va_put_self _ _ _

end Cmdq
