import FireTablet.Wpc.Iout
import Mathlib.Data.Nat.Find
import Mathlib.Tactic.SplitIfs

/-!
# What the writes of a calibration leave on the chip

`writeRegs_ok` and `writeRegs_fails` say how far the loops come for a pattern of failing writes,
`word_writeRegs` and `word_writeRegs_apart` what the registers then hold. The registers of the
calibration do not overlap (`apart_regs`).

An update ends in one of four ways: the driver is not ready for it, all writes succeed, a write
fails and the masking succeeds, or a write of the masking fails as well. Only the third is reported
wrongly, and only if the calibration is then not on the chip: the result of the masking takes the
place of the error (`update_right_iff`).
-/

namespace Wpc.Iout

variable {env : Nat → Turn} {c : Chip} {r : CalReg} {rs : List CalReg}

/-! ## One write -/

/-- The 16 bits at one address do not overlap those at the other. -/
def Apart (a b : Nat) : Prop := a ≠ b ∧ a + 1 ≠ b ∧ a ≠ b + 1

instance (a b : Nat) : Decidable (Apart a b) := by
  unfold Apart
  infer_instance

theorem Apart.symm {a b : Nat} (h : Apart a b) : Apart b a :=
  ⟨h.1.symm, h.2.2.symm, h.2.1.symm⟩

@[simp] theorem p922xWriteBuffer_ret : (p922xWriteBuffer env c r).1 = (env c.time).ret := by
  unfold p922xWriteBuffer
  dsimp only
  split_ifs with h
  · exact h.symm
  · rfl

@[simp] theorem p922xWriteBuffer_time : (p922xWriteBuffer env c r).2.time = c.time + 1 := by
  unfold p922xWriteBuffer
  dsimp only
  split_ifs <;> rfl

theorem word_p922xWriteBuffer (h : (env c.time).ret = 0) :
    (p922xWriteBuffer env c r).2.word r.addr = r.val.toNat := by
  have hlt := r.val.toNat_lt
  have hlo : (UInt8.ofNat (r.val.toNat % 256)).toNat = r.val.toNat % 256 := by
    rw [UInt8.toNat_ofNat']
    omega
  have hhi : (UInt8.ofNat (r.val.toNat / 256)).toNat = r.val.toNat / 256 := by
    rw [UInt8.toNat_ofNat']
    omega
  unfold p922xWriteBuffer Chip.word
  simp only [h, if_true, Nat.add_eq_left, Nat.one_ne_zero, if_false, hlo, hhi]
  omega

theorem word_p922xWriteBuffer_apart {a : Nat} (h : Apart r.addr a) :
    (p922xWriteBuffer env c r).2.word a = c.word a := by
  obtain ⟨h1, h2, h3⟩ := h
  have e1 : a ≠ r.addr := Ne.symm h1
  have e2 : a ≠ r.addr + 1 := Ne.symm h2
  have e3 : a + 1 ≠ r.addr := Ne.symm h3
  have e4 : a + 1 ≠ r.addr + 1 := by omega
  unfold p922xWriteBuffer Chip.word
  dsimp only
  split_ifs <;> simp only [e1, e2, e3, e4, or_self, if_false]

/-! ## The loops -/

/-- A number of writes from a time on succeed. -/
def Succeed (env : Nat → Turn) (t n : Nat) : Prop := ∀ k < n, (env (t + k)).ret = 0

/-- The first write that fails from a time on. -/
structure FailsAt (env : Nat → Turn) (t j : Nat) : Prop where
  before : Succeed env t j
  fails : (env (t + j)).ret ≠ 0

theorem succeed_or_fails (env : Nat → Turn) (t n : Nat) :
    Succeed env t n ∨ ∃ j < n, FailsAt env t j := by
  by_cases h : ∃ j, j < n ∧ (env (t + j)).ret ≠ 0
  · obtain ⟨hlt, hne⟩ := Nat.find_spec h
    refine .inr ⟨Nat.find h, hlt, ⟨fun k hk => ?_, hne⟩⟩
    by_contra hk'
    exact Nat.find_min h hk ⟨hk.trans hlt, hk'⟩
  · left
    intro k hk
    by_contra hk'
    exact h ⟨k, hk, hk'⟩

theorem succeed_cons {t n : Nat} :
    Succeed env t (n + 1) ↔ (env t).ret = 0 ∧ Succeed env (t + 1) n := by
  constructor
  · intro h
    refine ⟨h 0 (Nat.succ_pos n), fun k hk => ?_⟩
    have := h (k + 1) (Nat.succ_lt_succ hk)
    rwa [show t + (k + 1) = t + 1 + k by omega] at this
  · intro h k hk
    cases k with
    | zero => exact h.1
    | succ k =>
      rw [show t + (k + 1) = t + 1 + k by omega]
      exact h.2 k (Nat.lt_of_succ_lt_succ hk)

theorem writeRegs_cons (h : (env c.time).ret = 0) :
    writeRegs env c (r :: rs) =
      { writeRegs env (p922xWriteBuffer env c r).2 rs with
        done := r :: (writeRegs env (p922xWriteBuffer env c r).2 rs).done } := by
  simp only [writeRegs, p922xWriteBuffer_ret, h, if_true]

/-- The loop when no write fails. -/
theorem writeRegs_ok (rs : List CalReg) (h : Succeed env c.time rs.length) :
    (writeRegs env c rs).ret = 0 ∧ (writeRegs env c rs).done = rs ∧
      (writeRegs env c rs).chip.time = c.time + rs.length := by
  induction rs generalizing c with
  | nil => exact ⟨rfl, rfl, rfl⟩
  | cons r rs ih =>
    obtain ⟨h0, h1⟩ := succeed_cons.1 h
    rw [writeRegs_cons h0]
    have := ih (c := (p922xWriteBuffer env c r).2) (by rwa [p922xWriteBuffer_time])
    rw [p922xWriteBuffer_time] at this
    refine ⟨this.1, ?_, ?_⟩
    · show r :: _ = _
      rw [this.2.1]
    · show Chip.time _ = _
      rw [this.2.2, List.length_cons]
      omega

/-- The loop up to the first write that fails. -/
theorem writeRegs_fails (rs : List CalReg) {j : Nat} (hj : j < rs.length)
    (h : FailsAt env c.time j) :
    (writeRegs env c rs).ret = (env (c.time + j)).ret ∧ (writeRegs env c rs).done = rs.take j ∧
      (writeRegs env c rs).chip.time = c.time + j + 1 := by
  induction rs generalizing c j with
  | nil => cases hj
  | cons r rs ih =>
    cases j with
    | zero =>
      have h0 : (env c.time).ret ≠ 0 := h.fails
      simp only [writeRegs, p922xWriteBuffer_ret, h0, if_false, p922xWriteBuffer_time,
        Nat.add_zero, List.take_zero, and_self]
    | succ j =>
      obtain ⟨h0, h1⟩ := succeed_cons.1 h.before
      have hf := h.fails
      rw [show c.time + (j + 1) = c.time + 1 + j by omega] at hf
      rw [writeRegs_cons h0]
      have := ih (c := (p922xWriteBuffer env c r).2) (Nat.lt_of_succ_lt_succ hj) (by
        rw [p922xWriteBuffer_time]
        exact ⟨h1, hf⟩)
      rw [p922xWriteBuffer_time] at this
      refine ⟨?_, ?_, ?_⟩
      · show Writes.ret _ = _
        rw [this.1, show c.time + (j + 1) = c.time + 1 + j by omega]
      · show r :: _ = _
        rw [this.2.1, List.take_succ_cons]
      · show Chip.time _ = _
        rw [this.2.2]
        omega

/-- Two loops with one way out are one loop. -/
theorem writeRegs_append (qs : List CalReg) :
    writeRegs env c (rs ++ qs) =
      if (writeRegs env c rs).ret = 0 then
        { writeRegs env (writeRegs env c rs).chip qs with
          done := (writeRegs env c rs).done ++
            (writeRegs env (writeRegs env c rs).chip qs).done }
      else writeRegs env c rs := by
  induction rs generalizing c with
  | nil => rfl
  | cons r rs ih =>
    by_cases h : (env c.time).ret = 0
    · rw [List.cons_append, writeRegs_cons h, writeRegs_cons h, ih]
      split_ifs <;> rfl
    · simp only [List.cons_append, writeRegs, p922xWriteBuffer_ret, h, if_false]

/-- The loop does not touch what its registers do not overlap. -/
theorem word_writeRegs_apart {a : Nat} (h : ∀ r ∈ rs, Apart r.addr a) :
    (writeRegs env c rs).chip.word a = c.word a := by
  induction rs generalizing c with
  | nil => rfl
  | cons r rs ih =>
    have hr := h r (.head _)
    by_cases h0 : (env c.time).ret = 0
    · rw [writeRegs_cons h0]
      show Chip.word _ a = _
      rw [ih fun q hq => h q (.tail _ hq), word_p922xWriteBuffer_apart hr]
    · simp only [writeRegs, p922xWriteBuffer_ret, h0, if_false]
      exact word_p922xWriteBuffer_apart hr

/-- The registers that were written hold their values. -/
theorem word_writeRegs (hp : rs.Pairwise fun r q => Apart r.addr q.addr)
    (hr : r ∈ (writeRegs env c rs).done) :
    (writeRegs env c rs).chip.word r.addr = r.val.toNat := by
  induction rs generalizing c with
  | nil => cases hr
  | cons q rs ih =>
    obtain ⟨hq, hp⟩ := List.pairwise_cons.1 hp
    by_cases h0 : (env c.time).ret = 0
    · rw [writeRegs_cons h0] at hr ⊢
      obtain rfl | hr := List.mem_cons.1 hr
      · show Chip.word _ _ = _
        rw [word_writeRegs_apart fun p hp => (hq p hp).symm, word_p922xWriteBuffer h0]
      · exact ih hp hr
    · simp only [writeRegs, p922xWriteBuffer_ret, h0, if_false] at hr
      cases hr

/-! ## The registers of the calibration -/

/-- The registers in the order in which they are written. -/
def IoutCalData.regs (d : IoutCalData) : List CalReg := d.areas ++ d.thresholds

def regAddrs : List Nat :=
  [0x12, 0x14, 0x16, 0x18, 0x1a, 0x0a, 0x28, 0x42, 0x64, 0x66, 0x0c, 0x0e, 0x2c, 0x2e]

theorem regs_addr (d : IoutCalData) : d.regs.map CalReg.addr = regAddrs := rfl

theorem masks_addr : masks.map CalReg.addr = regAddrs.drop 10 := rfl

@[simp] theorem regs_length (d : IoutCalData) : d.regs.length = 14 := rfl

@[simp] theorem masks_length : masks.length = 4 := rfl

theorem apart_regAddrs : regAddrs.Pairwise Apart := by decide

theorem apart_regs (d : IoutCalData) : d.regs.Pairwise fun r q => Apart r.addr q.addr :=
  List.pairwise_map.1 apart_regAddrs

theorem apart_masks : masks.Pairwise fun r q => Apart r.addr q.addr :=
  List.pairwise_map.1 (apart_regAddrs.sublist (List.drop_sublist 10 regAddrs))

/-- The masking does not touch the areas. -/
theorem masks_apart {d : IoutCalData} (hr : r ∈ d.areas) : ∀ q ∈ masks, Apart q.addr r.addr := by
  have h := (List.pairwise_append.1 (apart_regs d)).2.2 r hr
  intro q hq
  obtain ⟨i, -, rfl⟩ := List.mem_map.1 hq
  exact (h ⟨thresholdAddr i, d.threshold i⟩ (List.mem_map.2 ⟨i, List.mem_finRange i, rfl⟩)).symm

/-! ## Updates of the calibration -/

variable {s : Dev} {j m : Nat}

/-- All gains, offsets and thresholds were written and are on the chip. -/
def Updated (d : IoutCalData) (done : List CalReg) (c : Chip) : Prop :=
  ∀ r ∈ d.regs, r ∈ done ∧ c.word r.addr = r.val.toNat

/-- Every threshold is 0, so that nothing is applied. -/
def Masked (c : Chip) : Prop := ∀ i, c.word (thresholdAddr i) = 0

/-- Success is reported for what is on the chip and nothing else, and what is not is masked or
reported as an error. -/
structure Right (ret : Int) (d : IoutCalData) (done : List CalReg) (c : Chip) : Prop where
  success : 0 ≤ ret ↔ Updated d done c
  otherwise : ¬ Updated d done c → Masked c ∨ ret < 0

theorem right_of_error {ret : Int} {d : IoutCalData} {done : List CalReg} {c : Chip}
    (h : ret < 0) (hu : ¬ Updated d done c) : Right ret d done c := by
  constructor
  · constructor
    · intro h0
      exact absurd h0 (Int.not_le.2 h)
    · intro h0
      exact absurd h0 hu
  · intro _
    exact .inr h

/-- The registers of which a write succeeded leave one out, if the loop stopped before its end and
the masking did, or before the thresholds. -/
theorem left_out : ∀ j < 14, ∀ m < 5, m < 4 ∨ j < 10 →
    ¬ ∀ a ∈ regAddrs, a ∈ regAddrs.take j ++ (regAddrs.drop 10).take m := by decide

theorem not_updated {d : IoutCalData} {c : Chip} (hj : j < 14) (hm : m < 5)
    (h : m < 4 ∨ j < 10) : ¬ Updated d (d.regs.take j ++ masks.take m) c := by
  intro hu
  apply left_out j hj m hm h
  intro a ha
  rw [← regs_addr d] at ha
  obtain ⟨r, hr, rfl⟩ := List.mem_map.1 ha
  have hmem := List.mem_map_of_mem (f := CalReg.addr) (hu r hr).1
  rwa [List.map_append, List.map_take, List.map_take, regs_addr, masks_addr] at hmem

theorem not_updated_nil {d : IoutCalData} {c : Chip} : ¬ Updated d [] c :=
  not_updated (show 0 < 14 by decide) (show 0 < 5 by decide) (.inl (by decide))

/-! ## The update -/

theorem idme_error {idme : Idme} {e : Int} (h : (idmeGetWpcIoutCal idme).1 = .error e) : e < 0 := by
  unfold idmeGetWpcIoutCal at h
  split_ifs at h
  · cases h
    decide
  · cases h
    decide
  · cases hv : idme.value with
    | none =>
      rw [hv] at h
      cases h
      decide
    | some text =>
      rw [hv] at h
      cases h

/-- The driver is ready for an update. -/
def Dev.Ready (s : Dev) : Prop := s.isCalDataReady = true ∧ s.isSramUpdated = true

theorem update_not_ready (h : ¬ s.Ready) :
    updateIoutCalData env s = ⟨-22, s.chip, []⟩ := by
  unfold updateIoutCalData
  rw [if_pos]
  unfold Dev.Ready at h
  cases hc : s.isCalDataReady
  · rfl
  · cases hs : s.isSramUpdated
    · rfl
    · exact absurd ⟨hc, hs⟩ h

theorem update_ready (h : s.Ready) :
    updateIoutCalData env s =
      if (writeRegs env s.chip s.ioutCalData.regs).ret = 0 then
        writeRegs env s.chip s.ioutCalData.regs
      else
        { maskIoutCalData env (writeRegs env s.chip s.ioutCalData.regs).chip with
          done := (writeRegs env s.chip s.ioutCalData.regs).done ++
            (maskIoutCalData env (writeRegs env s.chip s.ioutCalData.regs).chip).done } := by
  unfold updateIoutCalData IoutCalData.regs
  rw [if_neg (by rw [h.1, h.2]; decide), writeRegs_append]
  dsimp only
  by_cases h1 : (writeRegs env s.chip s.ioutCalData.areas).ret = 0
  · simp only [h1, if_true]
  · simp only [h1, if_false]

/-- All writes succeed. -/
theorem update_ok (h : s.Ready) (hs : Succeed env s.chip.time 14) :
    (updateIoutCalData env s).ret = 0 ∧
      Updated s.ioutCalData (updateIoutCalData env s).done (updateIoutCalData env s).chip := by
  have hw := writeRegs_ok s.ioutCalData.regs hs
  rw [update_ready h, if_pos hw.1]
  refine ⟨hw.1, fun r hr => ?_⟩
  have hd : r ∈ (writeRegs env s.chip s.ioutCalData.regs).done := by
    rw [hw.2.1]
    exact hr
  exact ⟨hd, word_writeRegs (apart_regs _) hd⟩

/-- What a failed write leads to. -/
theorem update_fails (h : s.Ready) (hj : j < 14) (hf : FailsAt env s.chip.time j) :
    (writeRegs env s.chip s.ioutCalData.regs).chip.time = s.chip.time + j + 1 ∧
    updateIoutCalData env s =
      { maskIoutCalData env (writeRegs env s.chip s.ioutCalData.regs).chip with
        done := s.ioutCalData.regs.take j ++
          (maskIoutCalData env (writeRegs env s.chip s.ioutCalData.regs).chip).done } := by
  have hw := writeRegs_fails s.ioutCalData.regs hj hf
  refine ⟨hw.2.2, ?_⟩
  rw [update_ready h, if_neg, hw.2.1]
  rw [hw.1]
  exact hf.fails

/-- A write fails, and one of the masking as well. -/
theorem update_unmasked (h : s.Ready) (hj : j < 14) (hf : FailsAt env s.chip.time j) (hm : m < 4)
    (hg : FailsAt env (s.chip.time + j + 1) m) :
    Right (updateIoutCalData env s).ret s.ioutCalData (updateIoutCalData env s).done
      (updateIoutCalData env s).chip := by
  obtain ⟨ht, hu⟩ := update_fails h hj hf
  rw [← ht] at hg
  have hw := writeRegs_fails masks hm hg
  rw [hu]
  apply right_of_error
  · show Writes.ret _ < 0
    have hle := (env ((writeRegs env s.chip s.ioutCalData.regs).chip.time + m)).ret_le
    have hne := hg.fails
    unfold maskIoutCalData
    rw [hw.1]
    omega
  · show ¬ Updated _ (_ ++ (maskIoutCalData _ _).done) _
    unfold maskIoutCalData
    rw [hw.2.1]
    exact not_updated hj (hm.trans (by decide)) (.inl hm)

/-- Only thresholds were not written, and all are 0. -/
def Harmless (d : IoutCalData) (j : Nat) : Prop := 10 ≤ j ∧ ∀ i, d.threshold i = 0

/-- A write fails and the masking succeeds: success is reported. -/
theorem update_masked (h : s.Ready) (hj : j < 14) (hf : FailsAt env s.chip.time j)
    (hm : Succeed env (s.chip.time + j + 1) 4) :
    (updateIoutCalData env s).ret = 0 ∧ Masked (updateIoutCalData env s).chip ∧
      (Updated s.ioutCalData (updateIoutCalData env s).done (updateIoutCalData env s).chip ↔
        Harmless s.ioutCalData j) := by
  obtain ⟨ht, hu⟩ := update_fails h hj hf
  rw [← ht] at hm
  have hw := writeRegs_ok masks hm
  rw [hu]
  unfold maskIoutCalData
  have hmasked :
      Masked (writeRegs env (writeRegs env s.chip s.ioutCalData.regs).chip masks).chip := by
    intro i
    have hi : (⟨thresholdAddr i, 0⟩ : CalReg) ∈ masks :=
      List.mem_map.2 ⟨i, List.mem_finRange i, rfl⟩
    rw [← hw.2.1] at hi
    exact word_writeRegs apart_masks hi
  refine ⟨hw.1, hmasked, ?_⟩
  rw [hw.2.1]
  constructor
  · intro hup
    constructor
    · by_contra hj'
      exact not_updated hj (show 4 < 5 by decide) (.inr (Nat.not_le.1 hj')) hup
    · intro i
      have hi : (⟨thresholdAddr i, s.ioutCalData.threshold i⟩ : CalReg) ∈ s.ioutCalData.regs :=
        List.mem_append_right _ (List.mem_map.2 ⟨i, List.mem_finRange i, rfl⟩)
      have := (hup _ hi).2
      rw [hmasked i] at this
      exact UInt16.toNat_inj.1 this.symm
  · rintro ⟨h10, h0⟩ r hr
    obtain hr | hr := List.mem_append.1 hr
    · have hareas : s.ioutCalData.regs.take 10 = s.ioutCalData.areas := rfl
      have hd : r ∈ s.ioutCalData.regs.take j := by
        apply List.take_subset_take_left _ h10
        rw [hareas]
        exact hr
      refine ⟨List.mem_append_left _ hd, ?_⟩
      show Chip.word _ _ = _
      rw [word_writeRegs_apart (masks_apart hr)]
      apply word_writeRegs (apart_regs _)
      rw [(writeRegs_fails s.ioutCalData.regs hj hf).2.1]
      exact hd
    · obtain ⟨i, hi, rfl⟩ := List.mem_map.1 hr
      rw [h0 i]
      exact ⟨List.mem_append_right _ (List.mem_map.2 ⟨i, hi, rfl⟩), hmasked i⟩

/-- A write fails, the masking succeeds, and the calibration is not on the chip by chance. -/
def Replaced (env : Nat → Turn) (s : Dev) : Prop :=
  s.Ready ∧ ∃ j < 14, FailsAt env s.chip.time j ∧ Succeed env (s.chip.time + j + 1) 4 ∧
    ¬ Harmless s.ioutCalData j

theorem update_right_iff (env : Nat → Turn) (s : Dev) :
    Right (updateIoutCalData env s).ret s.ioutCalData (updateIoutCalData env s).done
      (updateIoutCalData env s).chip ↔ ¬ Replaced env s := by
  constructor
  · rintro hr ⟨h, j, hj, hf, hm, hh⟩
    have hu := update_masked h hj hf hm
    exact hh (hu.2.2.1 (hr.success.1 hu.1.ge))
  · intro hn
    by_cases h : s.Ready
    · obtain hs | ⟨j, hj, hf⟩ := succeed_or_fails env s.chip.time 14
      · have hu := update_ok h hs
        exact ⟨⟨fun _ => hu.2, fun _ => hu.1.ge⟩, fun hnot => absurd hu.2 hnot⟩
      · obtain hm | ⟨m, hm, hg⟩ := succeed_or_fails env (s.chip.time + j + 1) 4
        · have hu := update_masked h hj hf hm
          have hh : Harmless s.ioutCalData j := by
            by_contra hh
            exact hn ⟨h, j, hj, hf, hm, hh⟩
          exact ⟨⟨fun _ => hu.2.2.2 hh, fun _ => hu.1.ge⟩, fun _ => .inl hu.2.1⟩
        · exact update_unmasked h hj hf hm hg
    · rw [update_not_ready h]
      exact right_of_error (show (-22 : Int) < 0 by decide) not_updated_nil

/-! ## The calls -/

/-- What leads to an update. -/
inductive Call where
  | update
  | ioutCalDataStore (buf : CStr) (count : Nat) (idme : Idme)
  | forceIoutCalDataStore (buf : CStr) (count : Nat) (alloc : Bool) (behind : CStr)

def Call.run (env : Nat → Turn) (s : Dev) : Call → Outcome
  | .update =>
    let u := updateIoutCalData env s
    ⟨u.ret, { s with chip := u.chip }, u.done, []⟩
  | .ioutCalDataStore buf count idme => Iout.ioutCalDataStore env s buf count idme
  | .forceIoutCalDataStore buf count alloc behind =>
    Iout.forceIoutCalDataStore env s buf count alloc behind

/-- The file is asked to mask the calibration instead. -/
def Call.Masks : Call → Prop
  | .ioutCalDataStore buf _ _ => Kstrtox.kstrtoint buf.chars 10 = .ok 0
  | _ => False

/-- The device for which a call comes to update the calibration. -/
def Call.updating (s : Dev) : Call → Option Dev
  | .update => some s
  | .ioutCalDataStore buf _ idme =>
    if Kstrtox.kstrtoint buf.chars 10 = .ok 1 then
      match (idmeGetWpcIoutCal idme).1 with
      | .ok w => some { s with ioutCalData := .ofWords w, isCalDataReady := true }
      | .error _ => none
    else none
  | .forceIoutCalDataStore buf _ alloc behind =>
    if buf.chars.length = 57 ∧ alloc then
      some { s with
        ioutCalData := .ofWords (word (hexToBytes (buf.chars.take 56 ++ behind.chars))) }
    else none

/-- The outcome of a call is right. -/
def Outcome.Right (o : Outcome) : Prop :=
  Iout.Right o.ret o.dev.ioutCalData o.done o.dev.chip

/-- A store reports what the update does. -/
theorem right_store {u : Writes} {d : IoutCalData} {count : Nat} :
    Right (if u.ret = 0 then (count : Int) else u.ret) d u.done u.chip ↔
      Right u.ret d u.done u.chip := by
  have hsign : 0 ≤ (if u.ret = 0 then (count : Int) else u.ret) ↔ 0 ≤ u.ret := by
    split_ifs with h
    · rw [h]
      exact iff_of_true (Int.natCast_nonneg count) (Int.le_refl 0)
    · exact Iff.rfl
  constructor
  · intro h
    refine ⟨hsign.symm.trans h.success, fun hnot => (h.otherwise hnot).imp_right fun hlt => ?_⟩
    exact Int.not_le.1 fun h0 => Int.not_le.2 hlt (hsign.2 h0)
  · intro h
    refine ⟨hsign.trans h.success, fun hnot => (h.otherwise hnot).imp_right fun hlt => ?_⟩
    exact Int.not_le.1 fun h0 => Int.not_le.2 hlt (hsign.1 h0)

/-! ## The outcomes of the calls -/

/-- A call that is refused before it comes to an update. -/
theorem refused {s : Dev} {c : Call} {o : Outcome} (he : o.ret < 0) (hd : o.done = [])
    (hu : c.updating s = none) :
    o.Right ↔ ∀ u, c.updating s = some u → ¬ Replaced env u := by
  apply iff_of_true
  · apply right_of_error he
    rw [hd]
    exact not_updated_nil
  · intro u h
    rw [hu] at h
    cases h

section

variable (env : Nat → Turn) (s : Dev)

theorem iout_right_iff (buf : CStr) (count : Nat) (idme : Idme)
    (hm : Kstrtox.kstrtoint buf.chars 10 ≠ .ok 0) :
    (ioutCalDataStore env s buf count idme).Right ↔
      ∀ u, (Call.ioutCalDataStore buf count idme).updating s = some u → ¬ Replaced env u := by
  cases hk : Kstrtox.kstrtoint buf.chars 10 with
  | error e =>
    have ho : ioutCalDataStore env s buf count idme = ⟨e, s, [], []⟩ := by
      simp only [ioutCalDataStore, hk]
    rw [ho]
    exact refused (Kstrtox.kstrtoint_error hk) rfl (by simp [Call.updating, hk])
  | ok val =>
    have h0 : val ≠ 0 := by
      rintro rfl
      exact hm hk
    by_cases h1 : val = 1
    · subst h1
      cases hi : (idmeGetWpcIoutCal idme).1 with
      | error e =>
        have he : e < 0 := idme_error hi
        have ho : ioutCalDataStore env s buf count idme =
            ⟨e, s, [], (idmeGetWpcIoutCal idme).2⟩ := by
          simp [ioutCalDataStore, getIoutCalData, hk, hi, he.ne]
        rw [ho]
        exact refused he rfl (by simp [Call.updating, hk, hi])
      | ok w =>
        simp only [ioutCalDataStore, getIoutCalData, Call.updating, hk, hi, h0, if_true, if_false,
          Option.some.injEq, forall_eq']
        rw [← update_right_iff]
        exact right_store
    · have ho : ioutCalDataStore env s buf count idme = ⟨-22, s, [], []⟩ := by
        simp only [ioutCalDataStore, hk, h0, h1, if_false]
      rw [ho]
      exact refused (show (-22 : Int) < 0 by decide) rfl (by simp [Call.updating, hk, h1])

theorem force_right_iff (buf : CStr) (count : Nat) (alloc : Bool) (behind : CStr) :
    (forceIoutCalDataStore env s buf count alloc behind).Right ↔
      ∀ u, (Call.forceIoutCalDataStore buf count alloc behind).updating s = some u →
        ¬ Replaced env u := by
  by_cases hl : buf.chars.length = 57
  · have hsize : (buf.chars.length : Int) - 1 = 56 := by omega
    cases alloc with
    | false =>
      have hret : (forceIoutCalDataStore env s buf count false behind).ret = -12 := by
        simp [forceIoutCalDataStore, hsize]
      have hdone : (forceIoutCalDataStore env s buf count false behind).done = [] := by
        simp [forceIoutCalDataStore, hsize]
      refine refused ?_ hdone (by simp [Call.updating])
      rw [hret]
      decide
    | true =>
      simp only [forceIoutCalDataStore, Call.updating, ne_eq, Bool.not_true, Bool.false_eq_true,
        hl, and_self, if_true, if_false, Option.some.injEq, forall_eq']
      rw [← update_right_iff]
      exact right_store
  · have hsize : (buf.chars.length : Int) - 1 ≠ 56 := by omega
    have hret : (forceIoutCalDataStore env s buf count alloc behind).ret = -22 := by
      simp only [forceIoutCalDataStore, hsize, ne_eq, not_false_eq_true, if_true]
    have hdone : (forceIoutCalDataStore env s buf count alloc behind).done = [] := by
      simp only [forceIoutCalDataStore, hsize, ne_eq, not_false_eq_true, if_true]
    refine refused ?_ hdone (by simp [Call.updating, hl])
    rw [hret]
    decide

end

/-- An update and the stores that come to one are right unless the masking takes the place of an
error. -/
theorem call_right_iff (env : Nat → Turn) (s : Dev) (c : Call) (hm : ¬ c.Masks) :
    (c.run env s).Right ↔ ∀ u, c.updating s = some u → ¬ Replaced env u := by
  cases c with
  | update =>
    simp only [Call.updating, Option.some.injEq, forall_eq']
    exact update_right_iff env s
  | ioutCalDataStore buf count idme => exact iout_right_iff env s buf count idme hm
  | forceIoutCalDataStore buf count alloc behind =>
    exact force_right_iff env s buf count alloc behind

/-- A chip that is ready, with the calibration of the driver. -/
def readyDev : Dev := ⟨calData, true, true, ⟨fun _ => 0, 0⟩⟩

/-- Only the first of the writes fails. -/
def firstFails (t : Nat) : Turn :=
  if t = 0 then ⟨-5, fun _ b => b, by decide⟩ else ⟨0, fun _ b => b, Int.le_refl 0⟩

theorem call_right_unfailing :
    (Call.update.run (fun _ => ⟨0, fun _ b => b, Int.le_refl 0⟩) readyDev).Right := by
  refine (call_right_iff _ readyDev .update id).2 ?_
  rintro u - ⟨-, j, -, hf, -⟩
  exact hf.fails rfl

/-- One write of fourteen fails, the four of the masking succeed, and the update succeeds. -/
theorem update_not_right : ¬ (Call.update.run firstFails readyDev).Right := by
  intro h
  refine (update_right_iff firstFails readyDev).1 h ⟨⟨rfl, rfl⟩, 0, by decide, ⟨?_, ?_⟩, ?_, ?_⟩
  · intro k hk
    cases hk
  · show (-5 : Int) ≠ 0
    decide
  · intro k _
    have hne : readyDev.chip.time + 0 + 1 + k ≠ 0 := by omega
    simp only [firstFails, hne, if_false]
  · rintro ⟨h10, -⟩
    exact absurd h10 (by decide)

end Wpc.Iout
