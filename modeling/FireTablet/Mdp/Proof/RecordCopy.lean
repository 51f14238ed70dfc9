import FireTablet.Cmdq.Proof.PktFacts
import FireTablet.Mdp.RecordEx
import Mathlib.Tactic.SplitIfs

/-!
# Copies of a command buffer

A copy adds a front part of its instructions to the packet: all of them, or what there is memory for
(`copyLoop_spec`). A flush that fails leaves the command buffer as it is; the next one starts from
its beginning again.
-/

namespace Mdp.RecordEx

open Cmdq

variable {g : Nat} {mem : Nat → BufAlloc} {pkt : CmdqPkt} {s : Handle}

theorem insts_putAll : ∀ (insts : List (BitVec 64)) (b : CmdqPktBuffer) {u : Nat},
    cmdqInstSize ∣ u →
    (putAll b u insts).insts (u + cmdqInstSize * insts.length) = b.insts u ++ insts
  | [], b, u, _ => by simp [putAll]
  | inst :: insts, b, u, h => by
    have hnext := insts_putAll insts (b.put u inst) (Nat.dvd_add h (Nat.dvd_refl cmdqInstSize))
    have hlen : u + cmdqInstSize + cmdqInstSize * insts.length =
        u + cmdqInstSize * (inst :: insts).length := by
      rw [List.length_cons, Nat.mul_succ]
      omega
    rw [hlen] at hnext
    rw [putAll, hnext, insts_put b inst h, List.append_assoc, List.singleton_append]

/-- Instructions that there is room for are added at the end. -/
theorem copyBuffer_spec (h : Sized pkt) (h0 : pkt.availBufSize ≠ 0) {insts : List (BitVec 64)}
    (hn : cmdqInstSize * insts.length ≤ pkt.availBufSize) :
    Sized (copyBuffer pkt insts) ∧ (copyBuffer pkt insts).content = pkt.content ++ insts ∧
      (copyBuffer pkt insts).availBufSize = pkt.availBufSize - cmdqInstSize * insts.length := by
  obtain ⟨pre, b, hb⟩ := h.last h0
  have hbuf : (copyBuffer pkt insts).buf =
      pre ++ [putAll b (cmdqCmdBufferSize - pkt.availBufSize) insts] := by
    simp [copyBuffer, hb]
  refine ⟨⟨?_, ?_, fun he => by simp [hbuf] at he⟩, ?_, rfl⟩
  · exact Nat.dvd_sub h.slots (Nat.dvd_mul_right ..)
  · exact Nat.le_trans (Nat.sub_le ..) h.avail
  · have hused : cmdqCmdBufferSize - (copyBuffer pkt insts).availBufSize =
        cmdqCmdBufferSize - pkt.availBufSize + cmdqInstSize * insts.length := by
      have := h.avail
      show cmdqCmdBufferSize - (pkt.availBufSize - cmdqInstSize * insts.length) = _
      omega
    rw [content_snoc pre _ hbuf, content_snoc pre b hb, hused,
      insts_putAll insts b (Nat.dvd_sub (by decide) h.slots), List.append_assoc]

/-- What a copy that starts with `asked` allocations made does. -/
structure Copies (mem : Nat → BufAlloc) (asked : Nat) (src : List (BitVec 64)) (pkt : CmdqPkt)
    (c : Copy) : Prop where
  sized : Sized c.pkt
  content : ∃ done, src = done ++ c.left ∧ c.pkt.content = pkt.content ++ done
  grows : asked ≤ c.asked
  ended : (c.status = 0 ∧ c.left = [] ∧ ∀ j, asked ≤ j → j < c.asked → works (mem j) = true) ∨
    (c.status = -enomem ∧ c.left ≠ [] ∧ c.pkt.availBufSize = 0 ∧ asked < c.asked ∧
      works (mem (c.asked - 1)) = false)

/-- **The loop of `cmdq_pkt_copy_cmd`**. -/
theorem copyLoop_spec : ∀ {fuel asked : Nat} {src : List (BitVec 64)} {pkt : CmdqPkt},
    src.length < fuel → Sized pkt → Copies mem asked src pkt (copyLoop g mem fuel asked src pkt)
  | 0, _, _, _, hf, _ => absurd hf (Nat.not_lt_zero _)
  | fuel + 1, asked, src, pkt, hf, h => by
    rw [copyLoop]
    by_cases hsrc : src = []
    · rw [if_pos hsrc]
      exact ⟨h, ⟨[], by simp [hsrc], by simp⟩, Nat.le_refl _,
        .inl ⟨rfl, rfl, fun j h1 h2 => absurd h2 (by simpa using h1)⟩⟩
    rw [if_neg hsrc]
    simp only
    have hpos : 0 < src.length := List.length_pos_of_ne_nil hsrc
    rcases makeRoom_content h (mem asked) with ⟨hr, h0, hw⟩ | ⟨p, hr, hp, hp0, hcont, hw⟩
    · rw [hr, if_pos (by decide : -enomem < 0), if_pos h0]
      exact ⟨h, ⟨[], rfl, by simp⟩, Nat.le_succ _,
        .inr ⟨rfl, hsrc, h0, Nat.lt_succ_self _, hw⟩⟩
    rw [hr]
    simp only [Int.lt_irrefl, if_false]
    set n := min p.availBufSize (cmdqInstSize * src.length) / cmdqInstSize with hn
    obtain ⟨k, hk⟩ := hp.slots
    have hn' : n = min k src.length := by
      rw [hn, hk, Nat.mul_min_mul_left, Nat.mul_div_cancel_left _ (by decide)]
    have hk0 : 0 < k := Nat.pos_of_ne_zero fun hk0 => hp0 (by rw [hk, hk0]; rfl)
    have hlen : (src.take n).length = n := by rw [List.length_take]; omega
    have hroom : cmdqInstSize * (src.take n).length ≤ p.availBufSize := by
      rw [hlen, hk]
      exact Nat.mul_le_mul_left _ (by omega)
    obtain ⟨hs1, hc1, ha1⟩ := copyBuffer_spec hp hp0 hroom
    set asked' := if pkt.availBufSize = 0 then asked + 1 else asked with hasked
    have hle : asked ≤ asked' := by
      rw [hasked]
      split_ifs <;> omega
    have hlt : (src.drop n).length < fuel := by
      rw [List.length_drop]
      omega
    have hrec : Copies mem asked' (src.drop n) (copyBuffer p (src.take n)) _ :=
      copyLoop_spec hlt hs1
    have hfirst (j : Nat) (h1 : asked ≤ j) (h2 : j < asked') : works (mem j) = true := by
      by_cases h0 : pkt.availBufSize = 0
      · rw [hasked, if_pos h0] at h2
        rw [show j = asked by omega]
        exact hw h0
      · rw [hasked, if_neg h0] at h2
        omega
    obtain ⟨done, hd, hdc⟩ := hrec.content
    refine ⟨hrec.sized, ⟨src.take n ++ done, ?_, ?_⟩, Nat.le_trans hle hrec.grows, ?_⟩
    · rw [List.append_assoc, ← hd, List.take_append_drop]
    · rw [hdc, hc1, hcont, List.append_assoc]
    · refine hrec.ended.imp (fun ⟨h1, h2, h3⟩ => ⟨h1, h2, fun j hj1 hj2 => ?_⟩)
        fun ⟨h1, h2, h3, h4, h5⟩ => ⟨h1, h2, h3, Nat.lt_of_le_of_lt hle h4, h5⟩
      by_cases hj : j < asked'
      · exact hfirst j hj1 hj
      · exact h3 j (not_lt.1 hj) hj2

/-- A full packet and no memory: nothing is copied. -/
theorem copyLoop_dead {fuel asked : Nat} {src : List (BitVec 64)} (hf : 0 < fuel)
    (hsrc : src ≠ []) (h : Sized pkt) (h0 : pkt.availBufSize = 0)
    (hw : works (mem asked) = false) :
    copyLoop g mem fuel asked src pkt = ⟨-enomem, src, asked + 1, pkt⟩ := by
  obtain ⟨fuel, rfl⟩ := Nat.exists_eq_succ_of_ne_zero (Nat.ne_of_gt hf)
  rw [copyLoop, if_neg hsrc]
  rcases makeRoom_content h (mem asked) with ⟨hr, -⟩ | ⟨p, -, -, -, -, hw'⟩
  · simp only
    rw [hr, if_pos (by decide : -enomem < 0), if_pos h0]
  · rw [works, hw' h0] at hw
    cases hw

/-! ## Flushes and the encoder -/

/-- The answers of a call: no allocation succeeds after one has failed. -/
def Steady (mem : Nat → BufAlloc) : Prop :=
  ∀ i j, i ≤ j → works (mem j) = true → works (mem i) = true

/-- When a flush that failed has copied instructions, there is no memory any more. -/
def Dry (mem : Nat → BufAlloc) (s : Handle) : Prop :=
  s.copied ≠ 0 → ∀ j, s.asked ≤ j → works (mem j) = false

/-- The packet holds `c₀` and then some of the instructions `iss` that were issued, each at most
once: those of `l`, and the front part of the command buffer that a failed flush has copied. -/
structure Inv (c₀ iss : List (BitVec 64)) (s : Handle) : Prop where
  sized : Sized s.pkt
  fits : s.cmdBuf.length ≤ 512
  copied : s.copied ≤ s.cmdBuf.length
  stuck : s.copied ≠ 0 → s.pkt.availBufSize = 0
  stored : ∃ l, s.pkt.content = c₀ ++ l ++ s.cmdBuf.take s.copied ∧ (l ++ s.cmdBuf).Sublist iss

/-- The packet and the command buffer hold `c₀` and all the instructions that were issued. -/
def Exact (c₀ iss : List (BitVec 64)) (s : Handle) : Prop :=
  s.copied = 0 ∧ s.pkt.content ++ s.cmdBuf = c₀ ++ iss

/-- The command buffer and the packet are full and there is no memory. -/
structure Dead (mem : Nat → BufAlloc) (s : Handle) : Prop where
  full : s.cmdBuf.length = 512
  avail : s.pkt.availBufSize = 0
  none : ∀ j, s.asked ≤ j → works (mem j) = false

variable {c₀ iss : List (BitVec 64)}

theorem availBufSize_eq_zero (hi : Inv c₀ iss s) : s.availBufSize = 0 ↔ s.cmdBuf.length = 512 := by
  have := hi.fits
  simp only [Handle.availBufSize, pageSize, cmdqInstSize]
  omega

/-- **`cmdq_handle_flush_cmd_buf`** copies everything, or fails when an allocation fails. -/
theorem flush_spec (hi : Inv c₀ iss s) (hst : Steady mem) (hd : Dry mem s) :
    (∃ s', cmdqHandleFlushCmdBuf g mem s = (0, s') ∧ s.copied = 0 ∧ s'.cmdBuf = [] ∧
      s'.copied = 0 ∧ s'.pkt.content = s.pkt.content ++ s.cmdBuf ∧ Sized s'.pkt ∧
      s.asked ≤ s'.asked ∧ ∀ j, s.asked ≤ j → j < s'.asked → works (mem j) = true) ∨
    ∃ s', cmdqHandleFlushCmdBuf g mem s = (efault, s') ∧ Inv c₀ iss s' ∧ s'.cmdBuf = s.cmdBuf ∧
      s'.pkt.availBufSize = 0 ∧ s.asked < s'.asked ∧
      ∀ j, s'.asked - 1 ≤ j → works (mem j) = false := by
  have hdead {k : Nat} (hk : works (mem k) = false) (j : Nat) (hj : k ≤ j) :
      works (mem j) = false :=
    Bool.eq_false_iff.2 fun hw => by rw [hst k j hj hw] at hk; cases hk
  obtain ⟨l, hl, hsub⟩ := hi.stored
  by_cases hc : s.copied = 0
  · have hcopy : Copies mem s.asked s.cmdBuf s.pkt
        (copyLoop g mem (s.cmdBuf.length + 1) s.asked s.cmdBuf s.pkt) :=
      copyLoop_spec (Nat.lt_succ_self s.cmdBuf.length) hi.sized
    rw [cmdqHandleFlushCmdBuf, cmdqPktCopyCmd]
    generalize copyLoop g mem (s.cmdBuf.length + 1) s.asked s.cmdBuf s.pkt = c at hcopy
    obtain ⟨done, hdone, hcont⟩ := hcopy.content
    rcases hcopy.ended with ⟨h0, hleft, hw⟩ | ⟨h0, hleft, hav, hlt, hw⟩
    · refine .inl ⟨_, by rw [h0]; rfl, hc, rfl, rfl, ?_, hcopy.sized, hcopy.grows, hw⟩
      rw [hleft, List.append_nil] at hdone
      rw [hcont, hdone]
    · have hcop : max s.copied (s.cmdBuf.length - c.left.length) = done.length := by
        rw [hc, hdone, List.length_append]
        omega
      refine .inr ⟨⟨c.pkt, s.cmdBuf, c.asked, max s.copied (s.cmdBuf.length - c.left.length)⟩,
        by rw [h0]; rfl, ⟨hcopy.sized, hi.fits, ?_, fun _ => hav, l, ?_, hsub⟩, rfl, hav, hlt,
        hdead hw⟩
      · show max s.copied (s.cmdBuf.length - c.left.length) ≤ s.cmdBuf.length
        omega
      · simp only [hcop]
        rw [hcont, hl, hc, List.take_zero, List.append_nil, hdone, List.take_left]
  · have hne : s.cmdBuf ≠ [] := fun he => hc (by
      have := hi.copied
      rw [he] at this
      exact Nat.le_zero.1 this)
    have hw := hd hc s.asked (Nat.le_refl _)
    rw [cmdqHandleFlushCmdBuf, cmdqPktCopyCmd,
      copyLoop_dead (Nat.succ_pos _) hne hi.sized (hi.stuck hc) hw]
    refine .inr ⟨_, rfl, ⟨hi.sized, hi.fits, ?_, fun _ => hi.stuck hc, l, ?_, hsub⟩, rfl,
      hi.stuck hc, Nat.lt_succ_self _, hdead hw⟩
    · simpa using hi.copied
    · simpa using hl

/-- What a part of a call that issues the instructions `new` comes to. -/
structure Part (mem : Nat → BufAlloc) (c₀ iss new : List (BitVec 64)) (s : Handle)
    (r : Int × Handle) : Prop where
  inv : Inv c₀ (iss ++ new) r.2
  grows : s.asked ≤ r.2.asked
  ended : (r.1 = 0 ∧ Dry mem r.2 ∧ (∀ j, s.asked ≤ j → j < r.2.asked → works (mem j) = true) ∧
      (Exact c₀ iss s → Exact c₀ (iss ++ new) r.2)) ∨
    (r.1 = efault ∧ s.asked < r.2.asked ∧ works (mem (r.2.asked - 1)) = false ∧ Dead mem r.2)

/-- **`cmdq_instr_encoder`** issues its instruction, or leaves a full command buffer. -/
theorem encoder_spec (hi : Inv c₀ iss s) (hst : Steady mem) (hd : Dry mem s) (a : CmdqArgs) :
    Part mem c₀ iss [cmdqPktInstrEncoder a] s (cmdqInstrEncoder g mem a s) := by
  obtain ⟨l, hl, hsub⟩ := hi.stored
  rw [cmdqInstrEncoder]
  by_cases hfull : s.availBufSize = 0
  · rw [if_pos hfull]
    simp only
    rcases flush_spec (g := g) hi hst hd with
      ⟨s', hr, hc, hb, hc', hcont, hsz, hle, hw⟩ | ⟨s', hr, hi', hb, hav, hlt, hw⟩
    · rw [hr]
      simp only [ne_eq, not_true_eq_false, if_false, hb, List.nil_append]
      refine ⟨⟨hsz, by simp, by simp [hc'], fun h => absurd hc' h, l ++ s.cmdBuf, ?_, ?_⟩, hle,
        .inl ⟨rfl, fun h => absurd hc' h, hw, fun he => ⟨hc', ?_⟩⟩⟩
      · rw [hcont, hl, hc, hc']
        simp
      · exact hsub.append (List.Sublist.refl _)
      · rw [hcont, he.2, List.append_assoc]
    · rw [hr]
      refine ⟨⟨hi'.sized, hi'.fits, hi'.copied, hi'.stuck, ?_⟩, Nat.le_of_lt hlt,
        .inr ⟨rfl, hlt, hw _ (Nat.le_refl _), ⟨?_, hav, fun j hj => hw j ?_⟩⟩⟩
      · obtain ⟨l', hl', hsub'⟩ := hi'.stored
        exact ⟨l', hl', hsub'.trans (List.sublist_append_left ..)⟩
      · rw [if_pos (show efault ≠ 0 by decide), hb]
        exact (availBufSize_eq_zero hi).1 hfull
      · exact Nat.le_trans (Nat.sub_le ..) hj
  · rw [if_neg hfull]
    have hlen := mt (availBufSize_eq_zero hi).2 hfull
    have hfits := hi.fits
    refine ⟨⟨hi.sized, ?_, ?_, hi.stuck, l, ?_, ?_⟩, Nat.le_refl _,
      .inl ⟨rfl, hd, fun j h1 h2 => absurd h2 (not_lt.2 h1), fun he => ⟨he.1, ?_⟩⟩⟩
    · rw [List.length_append, List.length_singleton]
      omega
    · exact Nat.le_trans hi.copied (by simp)
    · rw [List.take_append_of_le_length hi.copied]
      exact hl
    · rw [← List.append_assoc]
      exact hsub.append (List.Sublist.refl _)
    · rw [← List.append_assoc, he.2, List.append_assoc]

end Mdp.RecordEx
