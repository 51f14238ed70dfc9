import FireTablet.Cmdq.Proof.PktChain
import FireTablet.Cmdq.Queue

/-!
# Facts about queued packets

Where the packets of a list are on pages of their own, an address is inside at most one of them
(`Apart.spans`), `cmdq_task_is_current_run` tells which (`current_iff`), and the end of a packet is
inside none (`endPa_not_spans`). Changing last instructions and priorities moves no packet
(`SameShape`).
-/

namespace Cmdq

section
variable {g : Nat} {pkt p q : CmdqPkt} {pa : Nat}

/-! ## Registers -/

/-- An aligned address below 4 GiB comes back from a register. -/
theorem reg_back (hg : g ≤ 3) (hd : cmdqInstSize ∣ pa) (hlt : pa < 2 ^ 32) :
    ((pa >>> g) % 2 ^ 32) <<< g = pa := by
  have h8 : 2 ^ g ∣ pa := by
    have : 2 ^ g ∣ 2 ^ 3 := Nat.pow_dvd_pow 2 hg
    exact this.trans hd
  have hle : pa / 2 ^ g ≤ pa := Nat.div_le_self _ _
  rw [Nat.shiftRight_eq_div_pow, Nat.mod_eq_of_lt (by omega), Nat.shiftLeft_eq,
    Nat.div_mul_cancel h8]

/-- A jump to an aligned address below 4 GiB. -/
theorem jumpTarget_jumpByPa (hg : g ≤ 3) (hd : cmdqInstSize ∣ pa) (hlt : pa < 2 ^ 32) :
    jumpTarget g (jumpByPa g pa) = some pa := by
  have hsmall : pa >>> g < 2 ^ 32 := by
    have hle : pa / 2 ^ g ≤ pa := Nat.div_le_self _ _
    rw [Nat.shiftRight_eq_div_pow]
    omega
  have heq : jumpByPa g pa = jumpToAbs g pa := by
    have hmask : BitVec.ofNat 64 (pa >>> g) &&& 0xFFFFFFFF = BitVec.ofNat 64 (pa >>> g) := by
      apply BitVec.eq_of_toNat_eq
      rw [BitVec.toNat_and, BitVec.toNat_ofNat, Nat.mod_eq_of_lt (by omega)]
      exact (Nat.and_two_pow_sub_one_eq_mod _ 32).trans (Nat.mod_eq_of_lt hsmall)
    rw [jumpByPa, jumpToAbs, hmask]
    rfl
  rw [heq]
  refine jumpTarget_jumpToAbs ?_ ?_
  · have : 2 ^ g ∣ 2 ^ 3 := Nat.pow_dvd_pow 2 hg
    exact this.trans hd
  · have : 2 ^ 32 ≤ 2 ^ (32 + g) := Nat.pow_le_pow_right (by decide) (by omega)
    omega

/-! ## Pages -/

/-- An address on one of the packet's pages. -/
def CmdqPkt.OnPage (pkt : CmdqPkt) (pa : Nat) : Prop :=
  ∃ base ∈ pkt.bases, base ≤ pa ∧ pa < base + cmdqBufAllocSize

theorem inBuffers_page {avail : Nat} {bases : List Nat} (h : InBuffers avail pa bases) :
    ∃ base ∈ bases, base ≤ pa ∧ pa < base + cmdqCmdBufferSize := by
  induction bases with
  | nil => exact h.elim
  | cons base bases ih =>
    cases bases with
    | nil =>
      obtain ⟨hle, hlt⟩ := h
      exact ⟨base, by simp, hle, by omega⟩
    | cons base' bases =>
      rcases h with h | h
      · exact ⟨base, by simp, h⟩
      · obtain ⟨b, hb, hpa⟩ := ih h
        exact ⟨b, List.mem_cons_of_mem _ hb, hpa⟩

theorem CmdqPkt.Spans.onPage (h : pkt.Spans pa) : pkt.OnPage pa := by
  obtain ⟨base, hb, hle, hlt⟩ := inBuffers_page h
  have : cmdqCmdBufferSize ≤ cmdqBufAllocSize := by decide
  exact ⟨base, hb, hle, by omega⟩

/-- Packets that share no page share no address. -/
theorem Apart.onPage (h : Apart p q) (hp : Placed p) (hq : Placed q) (hpa : p.OnPage pa) :
    ¬q.OnPage pa := by
  rintro ⟨base', hb', hle', hlt'⟩
  obtain ⟨base, hb, hle, hlt⟩ := hpa
  have he : base = base' := page_unique (k := pa - base) (m := pa - base') (hp.page base hb).1
    (hq.page base' hb').1 (by omega) (by omega) (by omega)
  exact h base hb (he ▸ hb')

theorem Apart.symm (h : Apart p q) : Apart q p := fun base hq hp => h base hp hq

/-! ## Start and end -/

/-- The last page and where the packet ends in it. -/
theorem Placed.end (h : Placed pkt) : ∃ init base, pkt.bases = init ++ [base] ∧
    pkt.endPa = base + (cmdqCmdBufferSize - pkt.availBufSize) := by
  rcases List.eq_nil_or_concat' pkt.buf with hb | ⟨init, b, hb⟩
  · exact absurd (by rw [CmdqPkt.bases, hb]; rfl) h.ne
  · have hu := h.used
    refine ⟨init.map CmdqPktBuffer.paBase, b.paBase, by simp [CmdqPkt.bases, hb], ?_⟩
    simp only [CmdqPkt.endPa, hb, List.getLast?_append, List.getLast?_singleton, Option.some_or]
    omega

theorem Placed.endPa_onPage (h : Placed pkt) : pkt.OnPage pkt.endPa := by
  obtain ⟨init, base, hb, he⟩ := h.end
  have : cmdqCmdBufferSize < cmdqBufAllocSize := by decide
  exact ⟨base, by simp [hb], by omega, by omega⟩

theorem Placed.endPa_lt (h : Placed pkt) : pkt.endPa < 2 ^ 32 := by
  obtain ⟨init, base, hb, he⟩ := h.end
  have hp := (h.page base (by simp [hb])).2
  have : cmdqCmdBufferSize < cmdqBufAllocSize := by decide
  omega

theorem Placed.endPa_slot (h : Placed pkt) : cmdqInstSize ∣ pkt.endPa := by
  obtain ⟨init, base, hb, he⟩ := h.end
  have hp := (h.page base (by simp [hb])).1
  have hs := h.slots
  have hu := h.used
  simp only [cmdqBufAllocSize, cmdqInstSize, cmdqCmdBufferSize] at *
  omega

theorem inBuffers_cons_cons {avail base base' : Nat} {bases : List Nat} :
    InBuffers avail pa (base :: base' :: bases) ↔
      (base ≤ pa ∧ pa < base + cmdqCmdBufferSize) ∨ InBuffers avail pa (base' :: bases) := Iff.rfl

theorem inBuffers_snoc {avail base : Nat} (init : List Nat) :
    InBuffers avail pa (init ++ [base]) ↔
      (∃ b ∈ init, b ≤ pa ∧ pa < b + cmdqCmdBufferSize) ∨
        base ≤ pa ∧ pa < base + (cmdqCmdBufferSize - avail) := by
  induction init with
  | nil => simp [InBuffers]
  | cons b init ih =>
    have hne : init ++ [base] ≠ [] := by simp
    obtain ⟨b', rest, hrest⟩ := List.exists_cons_of_ne_nil hne
    rw [List.cons_append, hrest, inBuffers_cons_cons, ← hrest, ih]
    simp only [List.mem_cons, exists_eq_or_imp]
    exact or_assoc.symm

/-- The end of a packet is behind its instructions. -/
theorem Placed.endPa_not_spans (h : Placed pkt) : ¬pkt.Spans pkt.endPa := by
  obtain ⟨init, base, hb, he⟩ := h.end
  rw [CmdqPkt.Spans, hb, inBuffers_snoc]
  rintro (⟨b, hbm, hle, hlt⟩ | ⟨-, hlt⟩)
  · have hlt' : cmdqCmdBufferSize < cmdqBufAllocSize := by decide
    have heq : b = base := page_unique (k := pkt.endPa - b) (m := pkt.endPa - base)
      (h.page b (by simp [hb, hbm])).1 (h.page base (by simp [hb])).1 (by omega) (by omega)
      (by omega)
    have hnd := h.nodup
    rw [hb, List.nodup_append] at hnd
    exact hnd.2.2 b hbm base (by simp) heq
  · omega

theorem Placed.start (h : Placed pkt) : ∃ rest, pkt.bases = pkt.startPa :: rest := by
  cases hb : pkt.buf with
  | nil => exact absurd (by rw [CmdqPkt.bases, hb]; rfl) h.ne
  | cons b bufs => exact ⟨bufs.map CmdqPktBuffer.paBase, by simp [CmdqPkt.bases, CmdqPkt.startPa, hb]⟩

/-- The first instruction. -/
theorem Placed.start_spans (h : Placed pkt) : pkt.Spans pkt.startPa := by
  obtain ⟨rest, hb⟩ := h.start
  have hu := h.used
  have : 0 < cmdqInstSize := by decide
  rw [CmdqPkt.Spans, hb]
  cases rest with
  | nil => exact ⟨le_rfl, by omega⟩
  | cons base bases => exact .inl ⟨le_rfl, by omega⟩

theorem Placed.startPa_slot (h : Placed pkt) : cmdqInstSize ∣ pkt.startPa := by
  obtain ⟨rest, hb⟩ := h.start
  exact Nat.dvd_trans (by decide) (h.page pkt.startPa (by simp [hb])).1

theorem Placed.startPa_lt (h : Placed pkt) : pkt.startPa < 2 ^ 32 := by
  obtain ⟨rest, hb⟩ := h.start
  have hp := (h.page pkt.startPa (by simp [hb])).2
  have : 0 < cmdqBufAllocSize := by decide
  omega

theorem Placed.lt_of_spans (h : Placed pkt) (hs : pkt.Spans pa) : pa < 2 ^ 32 := by
  obtain ⟨base, hb, -, hlt⟩ := hs.onPage
  have hp := (h.page base hb).2
  omega

/-- **`cmdq_task_is_current_run`** for packets below 4 GiB. -/
theorem current_iff (h : Placed pkt) : cmdqTaskIsCurrentRun pa pkt = true ↔ pkt.Spans pa := by
  have hpage : ∀ b ∈ pkt.buf, b.paBase + cmdqBufAllocSize ≤ 2 ^ 32 := fun b hb =>
    (h.page b.paBase (List.mem_map_of_mem hb)).2
  have hlt : cmdqCmdBufferSize < cmdqBufAllocSize := by decide
  rw [cmdqTaskIsCurrentRun, CmdqPkt.Spans, CmdqPkt.bases]
  generalize pkt.buf = bufs at hpage
  have hb : ∀ (b : CmdqPktBuffer) (size : Nat), b.paBase + cmdqBufAllocSize ≤ 2 ^ 32 → size ≤ cmdqCmdBufferSize →
      (b.hasPa size pa = true ↔ b.paBase ≤ pa ∧ pa < b.paBase + size) := by
    intro b size hle hsize
    simp only [CmdqPktBuffer.hasPa, Bool.and_eq_true, decide_eq_true_eq]
    rw [Nat.mod_eq_of_lt (by omega)]
  induction bufs with
  | nil => simp [cmdqTaskIsCurrentRun.go, InBuffers]
  | cons b bufs ih =>
    have hb0 := hpage b (by simp)
    cases bufs with
    | nil =>
      rw [cmdqTaskIsCurrentRun.go, hb b _ hb0 (by omega)]
      rfl
    | cons b' bufs =>
      have hrest := ih fun c hc => hpage c (List.mem_cons_of_mem _ hc)
      have hgo : cmdqTaskIsCurrentRun.go pa pkt (b :: b' :: bufs) =
          (b.hasPa cmdqCmdBufferSize pa || cmdqTaskIsCurrentRun.go pa pkt (b' :: bufs)) := rfl
      rw [hgo, Bool.or_eq_true, hb b _ hb0 le_rfl]
      exact or_congr_right hrest

/-! ## What moves no packet -/

/-- The same buffers, filled as far. -/
def SameShape (p q : CmdqPkt) : Prop := p.bases = q.bases ∧ p.availBufSize = q.availBufSize

theorem SameShape.spans (h : SameShape p q) : p.Spans pa ↔ q.Spans pa := by
  rw [CmdqPkt.Spans, CmdqPkt.Spans, h.1, h.2]

theorem SameShape.placed (h : SameShape p q) (hp : Placed p) : Placed q := by
  obtain ⟨hb, ha⟩ := h
  exact ⟨hb ▸ hp.ne, hb ▸ hp.page, hb ▸ hp.nodup, ha ▸ hp.used, ha ▸ hp.slots⟩

theorem SameShape.startPa (h : SameShape p q) : p.startPa = q.startPa := by
  have he : ∀ r : CmdqPkt, r.startPa = r.bases.head?.getD 0 := by
    intro r
    rw [CmdqPkt.startPa, CmdqPkt.bases]
    cases r.buf <;> rfl
  rw [he, he, h.1]

theorem SameShape.refl (p : CmdqPkt) : SameShape p p := ⟨rfl, rfl⟩

theorem SameShape.trans {r : CmdqPkt} (h : SameShape p q) (h' : SameShape q r) : SameShape p r :=
  ⟨h.1.trans h'.1, h.2.trans h'.2⟩

theorem putTail_shape (pkt : CmdqPkt) (inst : BitVec 64) : SameShape (pkt.putTail inst) pkt := by
  rcases List.eq_nil_or_concat' pkt.buf with hb | ⟨init, b, hb⟩
  · simp [CmdqPkt.putTail, hb, SameShape]
  · simp [CmdqPkt.putTail, hb, SameShape, CmdqPkt.bases]

theorem putTail_tail (h : pkt.bases ≠ []) (inst : BitVec 64) : (pkt.putTail inst).tail = inst := by
  rcases List.eq_nil_or_concat' pkt.buf with hb | ⟨init, b, hb⟩
  · exact absurd (by rw [CmdqPkt.bases, hb]; rfl) h
  · simp [CmdqPkt.putTail, CmdqPkt.tail, hb]

end

end Cmdq
