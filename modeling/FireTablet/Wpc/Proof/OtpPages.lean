import FireTablet.Wpc.Otp
import Mathlib.Data.List.TakeWhile
import Mathlib.Tactic.SplitIfs
import Mathlib.Data.List.Range

/-!
# A packet and its confirmation

While the status is not 1, the boot loader changes nothing. A packet that has been written in full
is one whose checksum it accepts, and the status 2 is read only after it has been programmed.

Each page ends up where it belongs if its address has 16 bits, and the zeros that are not sent are
those of the memory (`programPages_image`). The pages are read in full, so an image must consist of
whole pages.
-/

namespace Wpc.Otp

/-! ## Bytes -/

section
variable (m : Nat → UInt8)

/-- The memory after some writes. -/
def patch (m : Nat → UInt8) (ws : List (Nat × UInt8)) : Nat → UInt8 :=
  ws.foldl (fun m w => Function.update m w.1 w.2) m

@[simp] theorem patch_nil : patch m [] = m := rfl

@[simp] theorem patch_cons (w : Nat × UInt8) (ws : List (Nat × UInt8)) :
    patch m (w :: ws) = patch (Function.update m w.1 w.2) ws := rfl

theorem patch_bytesAt_below (bs : List UInt8) {reg a : Nat} (h : a < reg) :
    patch m (bytesAt reg bs) a = m a := by
  induction bs generalizing m reg with
  | nil => rfl
  | cons b bs ih =>
    rw [bytesAt, patch_cons, ih _ (by omega), Function.update_of_ne (by omega)]

/-- The bytes that were written one after the other. -/
theorem patch_bytesAt (bs : List UInt8) (reg : Nat) {k : Nat} (h : k < bs.length) :
    patch m (bytesAt reg bs) (reg + k) = bs[k] := by
  induction bs generalizing m reg k with
  | nil => simp at h
  | cons b bs ih =>
    rw [bytesAt, patch_cons]
    cases k with
    | zero =>
      rw [patch_bytesAt_below _ _ (by omega)]
      exact Function.update_self ..
    | succ k =>
      have hk := ih (Function.update m reg b) (reg + 1) (by simpa using h)
      rw [show reg + (k + 1) = reg + 1 + k by omega, hk]
      rfl

end

theorem mem_bytesAt {w : Nat × UInt8} {reg : Nat} {bs : List UInt8} (h : w ∈ bytesAt reg bs) :
    reg ≤ w.1 := by
  induction bs generalizing reg with
  | nil => cases h
  | cons b bs ih =>
    rcases List.mem_cons.1 h with rfl | h
    · exact Nat.le_refl _
    · have := ih h
      omega

/-- The zeros at the end. -/
theorem getElem_of_codeLength_le {data : List UInt8} {k : Nat} (h : codeLength data ≤ k)
    (hk : k < data.length) : data[k] = 0 := by
  let p := fun b : UInt8 => decide (b = 0)
  have hsplit : data =
      (data.reverse.dropWhile p).reverse ++ (data.reverse.takeWhile p).reverse := by
    rw [← List.reverse_append, List.takeWhile_append_dropWhile, List.reverse_reverse]
  have hlen : (data.reverse.dropWhile p).reverse.length = codeLength data := List.length_reverse
  have hmem : data[k] ∈ data.reverse.takeWhile p := by
    rw [List.getElem_of_eq hsplit hk, List.getElem_append_right (by omega), ← List.mem_reverse]
    exact List.getElem_mem _
  simpa [p] using List.mem_takeWhile_imp hmem

theorem codeLength_le (data : List UInt8) : codeLength data ≤ data.length := by
  have := (List.dropWhile_sublist (fun b : UInt8 => decide (b = 0)) (l := data.reverse)).length_le
  rwa [List.length_reverse] at this

/-! ## The boot loader -/

/-- A packet in the SRAM, validated. -/
structure Loaded (c : Chip) (start : Nat) (data : List UInt8) : Prop where
  status : c.mem 0x400 = 1
  startAddr : c.word 0x402 = start
  codeLength : c.word 0x404 = data.length
  dataChksum : c.word 0x406 = checkSum start data
  dataBuf : ∀ k (h : k < data.length), c.mem (0x408 + k) = data[k]

/-- The memory with some bytes programmed. -/
def burn (otp : Nat → UInt8) (start : Nat) (data : List UInt8) : Nat → UInt8 := fun a =>
  if start ≤ a ∧ a < start + data.length then data.getD (a - start) 0 else otp a

theorem Chip.bootLoader_quiet {c : Chip} (h : c.mem 0x400 ≠ 1) : c.bootLoader = c := if_neg h

theorem Loaded.dataSum {c : Chip} {start : Nat} {data : List UInt8} (h : Loaded c start data) :
    c.dataSum data.length = (data.map UInt8.toNat).sum := by
  unfold Chip.dataSum
  congr 1
  refine List.ext_getElem (by simp) ?_
  intro k h1 h2
  rw [List.length_map, List.length_range] at h1
  rw [List.getElem_map, List.getElem_map, List.getElem_range, h.dataBuf k h1]

/-- A validated packet is programmed. -/
theorem Loaded.bootLoader {c : Chip} {start : Nat} {data : List UInt8} (h : Loaded c start data) :
    c.bootLoader = ⟨Function.update c.mem 0x400 2, burn c.otp start data⟩ := by
  have hsum : c.word 0x406 = (c.word 0x402 + c.word 0x404 + c.dataSum (c.word 0x404)) % 65536 := by
    rw [h.dataChksum, h.startAddr, h.codeLength, h.dataSum, checkSum]
    congr 1
    omega
  rw [Chip.bootLoader, if_pos h.status]
  simp only
  rw [if_pos hsum, h.startAddr, h.codeLength]
  congr 1
  funext a
  unfold burn
  by_cases ha : start ≤ a ∧ a < start + data.length
  · rw [if_pos ha, if_pos ha, h.dataBuf (a - start) (by omega), List.getD_eq_getElem?_getD,
      List.getElem?_eq_getElem (by omega), Option.getD_some]
  · rw [if_neg ha, if_neg ha]

/-! ## Accesses -/

/-- The boot loader has nothing to do. -/
def Quiet (s : State) : Prop := s.chip.mem 0x400 ≠ 1

section
variable (env : Nat → Turn)

theorem Quiet.look {s : State} (h : Quiet s) : look env s = s.chip := by
  unfold Otp.look
  split_ifs
  · exact Chip.bootLoader_quiet h
  · rfl

theorem p922xWrite_ok {s : State} (h : Quiet s) {reg : Nat} {val : UInt8}
    (hok : (p922xWrite env s reg val).1 = true) :
    (p922xWrite env s reg val).2.chip = ⟨Function.update s.chip.mem reg val, s.chip.otp⟩ := by
  have ht : (env s.time).ok = true := hok
  simp only [p922xWrite, h.look env, ht, Bool.true_or, if_true]

/-- Writes that do not validate a packet. -/
theorem writes_ok {ws : List (Nat × UInt8)} (hws : ∀ w ∈ ws, w.1 = 0x400 → w.2 ≠ 1) {s : State}
    (h : Quiet s) (hok : (writes env s ws).1 = true) :
    (writes env s ws).2.chip = ⟨patch s.chip.mem ws, s.chip.otp⟩ ∧ Quiet (writes env s ws).2 := by
  induction ws generalizing s with
  | nil => exact ⟨rfl, h⟩
  | cons w ws ih =>
    rw [writes] at hok ⊢
    by_cases hw : (p922xWrite env s w.1 w.2).1 = true
    · simp only [hw, if_true] at hok ⊢
      have hchip := p922xWrite_ok env h hw
      have hquiet : Quiet (p922xWrite env s w.1 w.2).2 := by
        unfold Quiet
        rw [hchip]
        by_cases hreg : (0x400 : Nat) = w.1
        · simp only [hreg, Function.update_self]
          exact hws w (List.mem_cons_self ..) hreg.symm
        · simp only [Function.update_of_ne hreg]
          exact h
      obtain ⟨h1, h2⟩ := ih (fun w hw => hws w (List.mem_cons_of_mem _ hw)) hquiet hok
      rw [h1, hchip]
      exact ⟨rfl, h2⟩
    · rw [if_neg hw] at hok
      exact absurd hok hw

end

/-! ## A packet -/

theorem word_le16 {x : Nat} (h : x < 65536) :
    (UInt8.ofNat (x % 256)).toNat + 256 * (UInt8.ofNat (x / 256 % 256)).toNat = x := by
  rw [UInt8.toNat_ofNat', UInt8.toNat_ofNat']
  omega

section
variable {start : Nat} {data : List UInt8}

theorem packet_eq (start : Nat) (data : List UInt8) : packet start data = 0 :: 0 ::
    UInt8.ofNat (start % 256) :: UInt8.ofNat (start / 256 % 256) ::
    UInt8.ofNat (data.length % 256) :: UInt8.ofNat (data.length / 256 % 256) ::
    UInt8.ofNat (checkSum start data % 256) :: UInt8.ofNat (checkSum start data / 256 % 256) ::
    data := rfl

/-- No write of a packet validates it. -/
theorem packet_quiet {w : Nat × UInt8} (h : w ∈ bytesAt 0x400 (packet start data))
    (hw : w.1 = 0x400) : w.2 ≠ 1 := by
  rw [packet_eq, bytesAt] at h
  rcases List.mem_cons.1 h with rfl | h
  · decide
  · have := mem_bytesAt h
    omega

/-- A packet that was written and validated. -/
theorem loaded_packet (m otp : Nat → UInt8) (hstart : start < 65536) (hlen : data.length ≤ 128) :
    Loaded ⟨Function.update (patch m (bytesAt 0x400 (packet start data))) 0x400 1, otp⟩ start
      data := by
  let c : Chip := ⟨Function.update (patch m (bytesAt 0x400 (packet start data))) 0x400 1, otp⟩
  have hbyte (k : Nat) (hk0 : 0 < k) (hk : k < (packet start data).length) :
      c.mem (0x400 + k) = (packet start data)[k] := by
    have hne : 0x400 + k ≠ 0x400 := by omega
    exact (Function.update_of_ne hne ..).trans (patch_bytesAt m _ _ hk)
  have hword (k : Nat) (hk0 : 0 < k) (hk : k + 1 < (packet start data).length) :
      c.word (0x400 + k) =
        (packet start data)[k].toNat + 256 * (packet start data)[k + 1].toNat := by
    rw [Chip.word, hbyte k hk0 (by omega), Nat.add_assoc, hbyte (k + 1) (by omega) hk]
  have hplen : (packet start data).length = data.length + 8 := rfl
  have hsum : checkSum start data < 65536 := Nat.mod_lt _ (by decide)
  constructor
  · show Function.update (patch m (bytesAt 0x400 (packet start data))) 0x400 1 0x400 = 1
    rw [Function.update_self]
  · exact (hword 2 (by omega) (by omega)).trans (word_le16 hstart)
  · exact (hword 4 (by omega) (by omega)).trans (word_le16 (by omega))
  · exact (hword 6 (by omega) (by omega)).trans (word_le16 hsum)
  · intro k hk
    have h := hbyte (k + 8) (by omega) (by omega)
    rw [show 0x400 + (k + 8) = 0x408 + k by omega] at h
    exact h

end

/-- The packet is waiting for the boot loader, or it has been programmed and confirmed. -/
def Pending (c : Chip) (start : Nat) (data : List UInt8) (otp : Nat → UInt8) : Prop :=
  Loaded c start data ∧ c.otp = otp ∨ c.mem 0x400 = 2 ∧ c.otp = burn otp start data

section
variable {start : Nat} {data : List UInt8} {otp : Nat → UInt8} (env : Nat → Turn)

theorem Pending.bootLoader {c : Chip} (h : Pending c start data otp) :
    Pending c.bootLoader start data otp := by
  rcases h with ⟨h, ho⟩ | ⟨h, ho⟩
  · rw [h.bootLoader, ho]
    refine .inr ⟨?_, rfl⟩
    show Function.update c.mem 0x400 2 0x400 = 2
    rw [Function.update_self]
  · rw [Chip.bootLoader_quiet (by rw [h]; decide)]
    exact .inr ⟨h, ho⟩

theorem Pending.look {s : State} (h : Pending s.chip start data otp) :
    Pending (look env s) start data otp := by
  unfold Otp.look
  split_ifs
  · exact h.bootLoader
  · exact h

/-- A status of 2 has been read from a chip that has programmed the packet. -/
theorem poll_ok (n : Nat) {s : State} (h : Pending s.chip start data otp) {status : UInt8}
    (hstatus : status ≠ 2) (hok : (poll env n s status).1 = 2) :
    (poll env n s status).2.chip.mem 0x400 = 2 ∧
      (poll env n s status).2.chip.otp = burn otp start data := by
  induction n generalizing s status with
  | zero => exact absurd hok hstatus
  | succ n ih =>
    have hlook := h.look env
    rw [poll] at hok ⊢
    by_cases hone : (p922xRead env s 0x400 status).1 = 1
    · simp only [hone, if_true] at hok ⊢
      exact ih hlook (by decide) hok
    · simp only [hone, if_false] at hok ⊢
      -- the read has succeeded, since the value is another one than before
      rcases hlook with ⟨hl, -⟩ | hdone
      · unfold p922xRead at hok hone
        simp only [hl.status] at hok hone
        split_ifs at hok hone
        · exact absurd rfl hone
        · exact absurd hok hstatus
      · exact hdone

/-- A packet that is confirmed has been programmed. -/
theorem sendPacket_ok {s : State} (h : Quiet s) (hstart : start < 65536)
    (hlen : data.length ≤ 128) (hok : (sendPacket env s start data).1 = true) :
    (sendPacket env s start data).2.chip.otp = burn s.chip.otp start data ∧
      Quiet (sendPacket env s start data).2 := by
  unfold sendPacket at hok ⊢
  by_cases h1 : (writes env s (bytesAt 0x400 (packet start data))).1 = true
  · obtain ⟨hchip, hquiet⟩ := writes_ok env (fun w => packet_quiet) h h1
    simp only [h1, if_true] at hok ⊢
    by_cases h2 : (p922xWrite env (writes env s (bytesAt 0x400 (packet start data))).2 0x400 1).1 =
        true
    · have hval := p922xWrite_ok env hquiet h2
      rw [hchip] at hval
      simp only [h2, if_true, decide_eq_true_eq] at hok ⊢
      have hpend : Pending (p922xWrite env (writes env s (bytesAt 0x400 (packet start data))).2
          0x400 1).2.chip start data s.chip.otp := by
        rw [hval]
        exact .inl ⟨loaded_packet _ _ hstart hlen, rfl⟩
      obtain ⟨hm, ho⟩ := poll_ok env 7 hpend (by decide) hok
      refine ⟨ho, ?_⟩
      unfold Quiet
      rw [hm]
      decide
    · rw [if_neg h2] at hok
      exact absurd hok h2
  · rw [if_neg h1] at hok
    exact absurd hok h1

end

/-! ## A page -/

section
variable (src : Nat → UInt8) (off : Nat)

/-- The bytes that are copied for a page. -/
def page (src : Nat → UInt8) (off : Nat) : List UInt8 := (List.range 128).map fun j => src (off + j)

@[simp] theorem length_page : (page src off).length = 128 := by simp [page]

theorem getElem_page {k : Nat} (h : k < (page src off).length) :
    (page src off)[k] = src (off + k) := by
  simp [page]

/-- The bytes that are sent. -/
def sentData (src : Nat → UInt8) (off : Nat) : List UInt8 :=
  (page src off).take (codeLength (page src off))

theorem length_sentData : (sentData src off).length = codeLength (page src off) :=
  List.length_take_of_le (codeLength_le _)

theorem length_sentData_le : (sentData src off).length ≤ 128 := by
  have := codeLength_le (page src off)
  rw [length_page] at this
  rwa [length_sentData]

/-- With the zeros that are not sent, a page is as in the image. -/
theorem burn_sentData {otp : Nat → UInt8} {start a : Nat} (h : start ≤ a) (h' : a < start + 128)
    (h0 : otp a = 0) : burn otp start (sentData src off) a = src (off + (a - start)) := by
  have hlen := length_sentData src off
  unfold burn
  by_cases ha : start ≤ a ∧ a < start + (sentData src off).length
  · rw [if_pos ha, List.getD_eq_getElem?_getD, List.getElem?_eq_getElem (by omega),
      Option.getD_some]
    unfold sentData
    rw [List.getElem_take, getElem_page]
  · rw [if_neg ha, h0, ← getElem_page src off (k := a - start) (by rw [length_page]; omega)]
    exact (getElem_of_codeLength_le (by omega) _).symm

theorem burn_other {otp : Nat → UInt8} {start a : Nat} (h : ¬ (start ≤ a ∧ a < start + 128)) :
    burn otp start (sentData src off) a = otp a := by
  have := length_sentData_le src off
  exact if_neg (by omega)

/-- Nothing is sent of a page of zeros, and of no other. -/
theorem codeLength_page_eq_zero :
    codeLength (page src off) = 0 ↔ ∀ j < 128, src (off + j) = 0 := by
  constructor
  · intro h j hj
    rw [← getElem_page src off (k := j) (by rwa [length_page])]
    exact getElem_of_codeLength_le (by omega) _
  · intro h
    unfold codeLength
    rw [List.length_eq_zero_iff, List.dropWhile_eq_nil_iff]
    intro b hb
    obtain ⟨j, hj, rfl⟩ := List.mem_map.1 (List.mem_reverse.1 hb)
    simpa using h j (List.mem_range.1 hj)

end

/-! ## The loop over the pages -/

section
variable (env : Nat → Turn) (src : Nat → UInt8) (dest : Nat)

/-- The packet of a page. -/
def sendPage (off : Nat) (s : State) : Bool × State :=
  sendPacket env s ((dest + off) % 65536) (sentData src off)

/-- The indices at which a page is read. -/
def pageReads (off : Nat) : List Nat := (List.range 128).map fun j => off + j

theorem programPages_zero (n : Nat) {off : Nat} (h : codeLength (page src off) = 0) (s : State) :
    programPages env src dest (n + 1) off s =
      { programPages env src dest n (off + 128) s with
        reads := pageReads off ++ (programPages env src dest n (off + 128) s).reads } :=
  if_pos h

theorem programPages_sent (n : Nat) {off : Nat} (h : codeLength (page src off) ≠ 0) {s : State}
    (hok : (sendPage env src dest off s).1 = true) :
    programPages env src dest (n + 1) off s =
      { programPages env src dest n (off + 128) (sendPage env src dest off s).2 with
        reads := pageReads off ++
          (programPages env src dest n (off + 128) (sendPage env src dest off s).2).reads
        sent := ((dest + off) % 65536, true) ::
          (programPages env src dest n (off + 128) (sendPage env src dest off s).2).sent } :=
  (if_neg h).trans (if_pos hok)

theorem programPages_failed (n : Nat) {off : Nat} (h : codeLength (page src off) ≠ 0) {s : State}
    (hok : ¬ (sendPage env src dest off s).1 = true) :
    programPages env src dest (n + 1) off s =
      ⟨false, (sendPage env src dest off s).2, pageReads off, [((dest + off) % 65536, false)]⟩ :=
  (if_neg h).trans (if_neg hok)

theorem sendPage_ok {off : Nat} {s : State} (h : Quiet s)
    (hok : (sendPage env src dest off s).1 = true) :
    (sendPage env src dest off s).2.chip.otp =
        burn s.chip.otp ((dest + off) % 65536) (sentData src off) ∧
      Quiet (sendPage env src dest off s).2 :=
  sendPacket_ok env h (Nat.mod_lt _ (by decide)) (length_sentData_le src off) hok

theorem mem_pageReads {off k : Nat} : k ∈ pageReads off ↔ off ≤ k ∧ k < off + 128 := by
  unfold pageReads
  rw [List.mem_map]
  constructor
  · rintro ⟨j, hj, rfl⟩
    have := List.mem_range.1 hj
    omega
  · rintro ⟨h1, h2⟩
    exact ⟨k - off, List.mem_range.2 (by omega), by omega⟩

/-- Nothing is read behind the last page. -/
theorem programPages_reads (n off : Nat) (s : State) :
    ∀ k ∈ (programPages env src dest n off s).reads, k < off + 128 * n := by
  induction n generalizing off s with
  | zero => simp [programPages]
  | succ n ih =>
    intro k hk
    by_cases h0 : codeLength (page src off) = 0
    · rw [programPages_zero env src dest n h0] at hk
      rcases List.mem_append.1 hk with hk | hk
      · have := mem_pageReads.1 hk
        omega
      · have := ih _ _ k hk
        omega
    · by_cases hok : (sendPage env src dest off s).1 = true
      · rw [programPages_sent env src dest n h0 hok] at hk
        rcases List.mem_append.1 hk with hk | hk
        · have := mem_pageReads.1 hk
          omega
        · have := ih _ _ k hk
          omega
      · rw [programPages_failed env src dest n h0 hok] at hk
        have := mem_pageReads.1 hk
        omega

/-- Without a failure everything up to there is read. -/
theorem programPages_reads_all (n off : Nat) (s : State)
    (hret : (programPages env src dest n off s).ret = true) {k : Nat} (hk : off ≤ k)
    (hk' : k < off + 128 * n) : k ∈ (programPages env src dest n off s).reads := by
  induction n generalizing off s with
  | zero => omega
  | succ n ih =>
    by_cases hpage : k < off + 128
    · have hmem : k ∈ pageReads off := mem_pageReads.2 ⟨hk, hpage⟩
      by_cases h0 : codeLength (page src off) = 0
      · rw [programPages_zero env src dest n h0]
        exact List.mem_append_left _ hmem
      · by_cases hok : (sendPage env src dest off s).1 = true
        · rw [programPages_sent env src dest n h0 hok]
          exact List.mem_append_left _ hmem
        · rw [programPages_failed env src dest n h0 hok]
          exact hmem
    · by_cases h0 : codeLength (page src off) = 0
      · rw [programPages_zero env src dest n h0] at hret ⊢
        exact List.mem_append_right _ (ih _ _ hret (by omega) (by omega))
      · by_cases hok : (sendPage env src dest off s).1 = true
        · rw [programPages_sent env src dest n h0 hok] at hret ⊢
          exact List.mem_append_right _ (ih _ _ hret (by omega) (by omega))
        · rw [programPages_failed env src dest n h0 hok] at hret
          cases hret

/-- A packet that is not confirmed ends the loop with a failure. -/
theorem programPages_sent_confirmed (n off : Nat) (s : State)
    (h : ∃ x ∈ (programPages env src dest n off s).sent, x.2 = false) :
    (programPages env src dest n off s).ret = false := by
  induction n generalizing off s with
  | zero => simp [programPages] at h
  | succ n ih =>
    obtain ⟨x, hx, hx2⟩ := h
    by_cases h0 : codeLength (page src off) = 0
    · rw [programPages_zero env src dest n h0] at hx ⊢
      exact ih _ _ ⟨x, hx, hx2⟩
    · by_cases hok : (sendPage env src dest off s).1 = true
      · rw [programPages_sent env src dest n h0 hok] at hx ⊢
        rcases List.mem_cons.1 hx with rfl | hx
        · cases hx2
        · exact ih _ _ ⟨x, hx, hx2⟩
      · rw [programPages_failed env src dest n h0 hok]

/-- A run without a failure leaves no packet validated. -/
theorem programPages_quiet (n off : Nat) {s : State} (h : Quiet s)
    (hret : (programPages env src dest n off s).ret = true) :
    Quiet (programPages env src dest n off s).state := by
  induction n generalizing off s with
  | zero => exact h
  | succ n ih =>
    by_cases h0 : codeLength (page src off) = 0
    · rw [programPages_zero env src dest n h0] at hret ⊢
      exact ih _ h hret
    · by_cases hok : (sendPage env src dest off s).1 = true
      · rw [programPages_sent env src dest n h0 hok] at hret ⊢
        exact ih _ (sendPage_ok env src dest h hok).2 hret
      · rw [programPages_failed env src dest n h0 hok] at hret
        cases hret

/-- Addresses outside of the pages keep what they have. -/
theorem programPages_frame (n off : Nat) {s : State} (h : Quiet s)
    (hret : (programPages env src dest n off s).ret = true) {a : Nat}
    (ha : ∀ q < n, ¬ ((dest + (off + 128 * q)) % 65536 ≤ a ∧
      a < (dest + (off + 128 * q)) % 65536 + 128)) :
    (programPages env src dest n off s).state.chip.otp a = s.chip.otp a := by
  induction n generalizing off s with
  | zero => rfl
  | succ n ih =>
    have hrest : ∀ q < n, ¬ ((dest + (off + 128 + 128 * q)) % 65536 ≤ a ∧
        a < (dest + (off + 128 + 128 * q)) % 65536 + 128) := by
      intro q hq
      have := ha (q + 1) (by omega)
      rwa [show off + 128 * (q + 1) = off + 128 + 128 * q by omega] at this
    by_cases h0 : codeLength (page src off) = 0
    · rw [programPages_zero env src dest n h0] at hret ⊢
      exact ih _ h hret hrest
    · by_cases hok : (sendPage env src dest off s).1 = true
      · obtain ⟨hotp, hquiet⟩ := sendPage_ok env src dest h hok
        rw [programPages_sent env src dest n h0 hok] at hret ⊢
        refine (ih _ hquiet hret hrest).trans ?_
        rw [hotp]
        exact burn_other src off (by simpa using ha 0 (by omega))
      · rw [programPages_failed env src dest n h0 hok] at hret
        cases hret

/-- After the pages the memory holds them, where those with data have 16-bit addresses. -/
theorem programPages_image (n off : Nat) {s : State} (h : Quiet s)
    (hret : (programPages env src dest n off s).ret = true) (hoff : off % 128 = 0)
    (hplaced : ∀ k, off ≤ k → k < off + 128 * n → src k ≠ 0 → dest + k / 128 * 128 < 65536)
    (hzero : ∀ a, dest + off ≤ a → s.chip.otp a = 0) (a : Nat) :
    (programPages env src dest n off s).state.chip.otp a =
      if dest + off ≤ a ∧ a < dest + off + 128 * n then src (a - dest) else s.chip.otp a := by
  induction n generalizing off s with
  | zero => exact (if_neg (by omega)).symm
  | succ n ih =>
    have hrest : ∀ k, off + 128 ≤ k → k < off + 128 + 128 * n → src k ≠ 0 →
        dest + k / 128 * 128 < 65536 := fun k h1 h2 => hplaced k (by omega) (by omega)
    by_cases h0 : codeLength (page src off) = 0
    · rw [programPages_zero env src dest n h0] at hret ⊢
      refine (ih (off + 128) h hret (by omega) hrest (fun a ha => hzero a (by omega))).trans ?_
      by_cases hpage : dest + off ≤ a ∧ a < dest + off + 128
      · have hsrc := (codeLength_page_eq_zero src off).1 h0 (a - dest - off) (by omega)
        rw [show off + (a - dest - off) = a - dest by omega] at hsrc
        rw [if_neg (by omega), if_pos (by omega), hsrc]
        exact hzero a hpage.1
      · by_cases hin : dest + (off + 128) ≤ a ∧ a < dest + (off + 128) + 128 * n
        · rw [if_pos hin, if_pos (by omega)]
        · rw [if_neg hin, if_neg (by omega)]
    · by_cases hok : (sendPage env src dest off s).1 = true
      · obtain ⟨hotp, hquiet⟩ := sendPage_ok env src dest h hok
        have hstart : (dest + off) % 65536 = dest + off := by
          have hne : ∃ j < 128, src (off + j) ≠ 0 := by
            by_contra hno
            refine h0 ((codeLength_page_eq_zero src off).2 ?_)
            intro j hj
            by_contra hj0
            exact hno ⟨j, hj, hj0⟩
          obtain ⟨j, hj, hj0⟩ := hne
          have := hplaced (off + j) (by omega) (by omega) hj0
          omega
        rw [hstart] at hotp
        rw [programPages_sent env src dest n h0 hok] at hret ⊢
        have hzero' : ∀ a, dest + (off + 128) ≤ a →
            (sendPage env src dest off s).2.chip.otp a = 0 := by
          intro a ha
          rw [hotp, burn_other src off (by omega)]
          exact hzero a (by omega)
        refine (ih (off + 128) hquiet hret (by omega) hrest hzero').trans ?_
        rw [hotp]
        by_cases hpage : dest + off ≤ a ∧ a < dest + off + 128
        · rw [if_neg (by omega), if_pos (by omega),
            burn_sentData src off hpage.1 (by omega) (hzero a hpage.1)]
          congr 1
          omega
        · rw [burn_other src off (by omega)]
          by_cases hin : dest + (off + 128) ≤ a ∧ a < dest + (off + 128) + 128 * n
          · rw [if_pos hin, if_pos (by omega)]
          · rw [if_neg hin, if_neg (by omega)]
      · rw [programPages_failed env src dest n h0 hok] at hret
        cases hret

end

end Wpc.Otp
