import FireTablet.Wpc.Proof.OtpPages
import Mathlib.Tactic.SplitIfs

/-!
# Programming an image

`program_fw` leaves the image in the OTP memory, whatever fails on the way, when the image consists
of whole pages and its data have 16-bit addresses (`programs_iff`). When nothing fails and the boot
loader is fast, every other image shows it.
-/

namespace Wpc.Otp

/-! ## Nothing fails -/

/-- Every access succeeds, after the boot loader has looked. -/
def smooth (_ : Nat) : Turn := ⟨true, true, true⟩

theorem writes_smooth (s : State) (ws : List (Nat × UInt8)) : (writes smooth s ws).1 = true := by
  induction ws generalizing s with
  | nil => rfl
  | cons w ws ih =>
    have hw : (p922xWrite smooth s w.1 w.2).1 = true := rfl
    rw [writes, if_pos hw]
    exact ih _

/-- The first read of the status finds the packet programmed. -/
theorem poll_smooth {s : State} {start : Nat} {data : List UInt8} (h : Loaded s.chip start data)
    (n : Nat) (status : UInt8) : (poll smooth (n + 1) s status).1 = 2 := by
  have hread : (p922xRead smooth s 0x400 status).1 = 2 := by
    show s.chip.bootLoader.mem 0x400 = 2
    rw [h.bootLoader]
    exact Function.update_self (0x400 : Nat) (2 : UInt8) s.chip.mem
  rw [poll, hread, if_neg (by decide)]
  exact hread

theorem sendPacket_smooth {s : State} (h : Quiet s) {start : Nat} {data : List UInt8}
    (hstart : start < 65536) (hlen : data.length ≤ 128) :
    (sendPacket smooth s start data).1 = true := by
  have h1 := writes_smooth s (bytesAt 0x400 (packet start data))
  obtain ⟨hchip, hquiet⟩ := writes_ok smooth (fun w => packet_quiet) h h1
  have h2 : (p922xWrite smooth (writes smooth s (bytesAt 0x400 (packet start data))).2 0x400 1).1 =
    true := rfl
  have hval := p922xWrite_ok smooth hquiet h2
  rw [hchip] at hval
  have hload := loaded_packet s.chip.mem s.chip.otp hstart hlen
  rw [← hval] at hload
  unfold sendPacket
  simp only [h1, h2, if_true, decide_eq_true_eq]
  exact poll_smooth hload 6 0

theorem programPages_smooth (src : Nat → UInt8) (dest n off : Nat) {s : State} (h : Quiet s) :
    (programPages smooth src dest n off s).ret = true := by
  induction n generalizing off s with
  | zero => rfl
  | succ n ih =>
    by_cases h0 : codeLength (page src off) = 0
    · rw [programPages_zero smooth src dest n h0]
      exact ih _ h
    · have hok : (sendPage smooth src dest off s).1 = true :=
        sendPacket_smooth h (Nat.mod_lt _ (by decide)) (length_sentData_le src off)
      rw [programPages_sent smooth src dest n h0 hok]
      exact ih _ (sendPage_ok smooth src dest h hok).2

/-! ## The whole function -/

section
variable (env : Nat → Turn) (bootloader : List UInt8)

theorem setup_quiet : ∀ w ∈ setup bootloader, w.1 = 0x400 → w.2 ≠ 1 := by
  intro w hw h
  unfold setup at hw
  rw [List.mem_append, List.mem_append] at hw
  rcases hw with (hw | hw) | hw
  · rcases List.mem_cons.1 hw with rfl | hw
    · cases h
    · rw [List.mem_singleton.1 hw] at h
      cases h
  · have := mem_bytesAt hw
    omega
  · rw [List.mem_singleton.1 hw] at h
    cases h

/-- The write that resets the chip changes no OTP memory and no status. -/
theorem p922xWrite_reset {s : State} (h : Quiet s) :
    (p922xWrite env s 0x3040 0x80).2.chip.otp = s.chip.otp ∧
      Quiet (p922xWrite env s 0x3040 0x80).2 := by
  unfold Quiet p922xWrite
  simp only [h.look env]
  split_ifs
  · refine ⟨rfl, ?_⟩
    show Function.update s.chip.mem 0x3040 0x80 0x400 ≠ 1
    rw [Function.update_of_ne (by decide)]
    exact h
  · exact ⟨rfl, h⟩

/-- The state in which the pages are programmed. -/
def started (s : State) : State :=
  (p922xWrite env (writes env s (setup bootloader)).2 0x3040 0x80).2

theorem started_spec {s : State} (h : Quiet s)
    (hok : (writes env s (setup bootloader)).1 = true) :
    (started env bootloader s).chip.otp = s.chip.otp ∧ Quiet (started env bootloader s) := by
  obtain ⟨hchip, hquiet⟩ := writes_ok env (setup_quiet bootloader) h hok
  obtain ⟨hotp, hq⟩ := p922xWrite_reset env hquiet
  exact ⟨hotp.trans (by rw [hchip]), hq⟩

/-- The writes that restore the system. -/
def restore : List (Nat × UInt8) := [(0x3000, 0x5a), (0x3048, 0x00)]

theorem restore_quiet : ∀ w ∈ restore, w.1 = 0x400 → w.2 ≠ 1 := by
  intro w hw h
  rcases List.mem_cons.1 hw with rfl | hw
  · cases h
  · rw [List.mem_singleton.1 hw] at h
    cases h

/-- The end of the function, when the pages are programmed. -/
def finished (p : Pages) : Pages :=
  { p with ret := (writes env p.state restore).1, state := (writes env p.state restore).2 }

/-- The pages of a run whose set-up has succeeded. -/
def pagesOf (s : State) (dest : Nat) (src : Nat → UInt8) (size : Nat) : Pages :=
  programPages env src dest (pageCount dest size) 0 (started env bootloader s)

/-- The set-up fails, the pages fail, or the end decides. -/
theorem programFw_cases (s : State) (dest : Nat) (src : Nat → UInt8) (size : Nat) :
    (∃ s', programFw env bootloader s dest src size = ⟨false, s', [], []⟩) ∨
    (writes env s (setup bootloader)).1 = true ∧
      ((pagesOf env bootloader s dest src size).ret = false ∧
          programFw env bootloader s dest src size = pagesOf env bootloader s dest src size ∨
        (pagesOf env bootloader s dest src size).ret = true ∧
          programFw env bootloader s dest src size =
            finished env (pagesOf env bootloader s dest src size)) := by
  by_cases hset : (writes env s (setup bootloader)).1 = true
  · refine .inr ⟨hset, ?_⟩
    have heq : programFw env bootloader s dest src size =
        if (pagesOf env bootloader s dest src size).ret = true then
          finished env (pagesOf env bootloader s dest src size)
        else pagesOf env bootloader s dest src size := if_pos hset
    cases hret : (pagesOf env bootloader s dest src size).ret with
    | true => exact .inr ⟨rfl, heq.trans (if_pos hret)⟩
    | false => exact .inl ⟨rfl, heq.trans (if_neg (by simp [hret]))⟩
  · exact .inl ⟨_, if_neg hset⟩

end

/-! ## When an image is programmed -/

/-- What is asked of the function for an image: it reads only the image, success means that the
OTP memory, zero before, holds the image at its destination and zeros elsewhere, and a packet that
is not confirmed means failure. -/
def Programs (bootloader : List UInt8) (dest : Nat) (src : Nat → UInt8) (size : Nat) : Prop :=
  ∀ env s, Quiet s → (∀ a, s.chip.otp a = 0) →
    (∀ k ∈ (programFw env bootloader s dest src size).reads, k < size) ∧
    ((programFw env bootloader s dest src size).ret = true → ∀ a,
      (programFw env bootloader s dest src size).state.chip.otp a =
        if dest ≤ a ∧ a < dest + size then src (a - dest) else 0) ∧
    ((∃ x ∈ (programFw env bootloader s dest src size).sent, x.2 = false) →
      (programFw env bootloader s dest src size).ret = false)

/-- An image of whole pages, with its data in pages that have 16-bit addresses. -/
structure Programmable (dest : Nat) (src : Nat → UInt8) (size : Nat) : Prop where
  whole : dest + size < 4294967296 → size % 128 = 0
  placed : ∀ k < size, src k ≠ 0 → dest + size < 4294967296 ∧ dest + k / 128 * 128 < 65536

section
variable {bootloader : List UInt8} {dest size : Nat} {src : Nat → UInt8}

theorem Programmable.programs (h : Programmable dest src size) :
    Programs bootloader dest src size := by
  intro env s hq hzero
  have hcount : 128 * pageCount dest size ≤ size := by
    unfold pageCount
    split_ifs with hlt
    · have := h.whole hlt
      omega
    · omega
  rcases programFw_cases env bootloader s dest src size with ⟨s', hres⟩ | ⟨hset, hcase⟩
  · rw [hres]
    refine ⟨by simp, ?_, by simp⟩
    intro hret
    cases hret
  obtain ⟨hotp, hquiet⟩ := started_spec env bootloader hq hset
  have hreads : ∀ k ∈ (pagesOf env bootloader s dest src size).reads, k < size := by
    intro k hk
    have := programPages_reads env src dest _ _ _ k hk
    omega
  rcases hcase with ⟨hret, hres⟩ | ⟨hret, hres⟩ <;> rw [hres]
  · refine ⟨hreads, ?_, fun _ => hret⟩
    intro htrue
    cases hret.symm.trans htrue
  refine ⟨hreads, ?_, ?_⟩
  · intro hok a
    have himage := programPages_image env src dest (pageCount dest size) 0 hquiet hret rfl
      (fun k _ hk hne => (h.placed k (by omega) hne).2) (fun a _ => by rw [hotp, hzero]) a
    have hpq : Quiet (pagesOf env bootloader s dest src size).state :=
      programPages_quiet env src dest _ _ hquiet hret
    obtain ⟨hchip, -⟩ := writes_ok env restore_quiet hpq hok
    show (writes env (pagesOf env bootloader s dest src size).state restore).2.chip.otp a = _
    rw [hchip]
    refine himage.trans ?_
    rw [hotp, hzero]
    by_cases hlt : dest + size < 4294967296
    · have hwhole := h.whole hlt
      have hpages : 128 * pageCount dest size = size := by
        rw [pageCount, if_pos hlt]
        omega
      rw [hpages, Nat.add_zero]
    · have hpages : pageCount dest size = 0 := if_neg hlt
      rw [hpages, if_neg (by omega)]
      split_ifs with ha
      · by_contra hne
        exact hlt (h.placed (a - dest) (by omega) (Ne.symm hne)).1
      · rfl
  · intro hsent
    have := programPages_sent_confirmed env src dest _ _ _ hsent
    cases hret.symm.trans this

/-- A chip with no packet and an empty memory. -/
def blank : State := ⟨⟨fun _ => 0, fun _ => 0⟩, 0⟩

theorem quiet_blank : Quiet blank := show (0 : UInt8) ≠ 1 by decide

theorem Programs.programmable (h : Programs bootloader dest src size) :
    Programmable dest src size := by
  obtain ⟨hreads, hotp, -⟩ := h smooth blank quiet_blank fun _ => rfl
  have hset := writes_smooth blank (setup bootloader)
  obtain ⟨hstart, hquiet⟩ := started_spec smooth bootloader quiet_blank hset
  have hret : (pagesOf smooth bootloader blank dest src size).ret = true :=
    programPages_smooth src dest _ _ hquiet
  have hres : programFw smooth bootloader blank dest src size =
      finished smooth (pagesOf smooth bootloader blank dest src size) :=
    (if_pos hset).trans (if_pos hret)
  have hrest := writes_smooth (pagesOf smooth bootloader blank dest src size).state restore
  have hpq : Quiet (pagesOf smooth bootloader blank dest src size).state :=
    programPages_quiet smooth src dest _ _ hquiet hret
  rw [hres] at hreads hotp
  have hotp := hotp hrest
  simp only [finished, (writes_ok smooth restore_quiet hpq hrest).1] at hotp
  constructor
  · intro hlt
    by_contra hpart
    -- the last page is read in full
    have hcount : pageCount dest size = (size + 127) / 128 := if_pos hlt
    have hread := programPages_reads_all smooth src dest (pageCount dest size) 0 _ hret
      (k := 128 * pageCount dest size - 1) (by omega) (by omega)
    have := hreads _ hread
    omega
  · intro k hk hne
    have hk' := hotp (dest + k)
    rw [if_pos ⟨by omega, by omega⟩, Nat.add_sub_cancel_left] at hk'
    by_contra hno
    -- no page is programmed at the address of this byte
    have hframe := programPages_frame smooth src dest (pageCount dest size) 0 hquiet hret
      (a := dest + k) (by
        intro q hq
        unfold pageCount at hq
        split_ifs at hq with hlt
        · have : 65536 ≤ dest + k / 128 * 128 := by
            by_contra hlow
            exact hno ⟨hlt, by omega⟩
          omega
        · omega)
    rw [hstart] at hframe
    exact hne (hk'.symm.trans hframe)

/-- The function is right for exactly these images. -/
theorem programs_iff (bootloader : List UInt8) (dest : Nat) (src : Nat → UInt8) (size : Nat) :
    Programs bootloader dest src size ↔ Programmable dest src size := by
  constructor
  · intro h
    exact h.programmable
  · intro h
    exact h.programs

end

/-- Of an image of 9664 bytes, as the one of the driver, 64 bytes are read behind its end. -/
theorem programFw_partial : ¬ Programs (List.replicate 512 0) 0 (fun _ => 1) 9664 := by
  intro h
  exact absurd (h.programmable.whole (by decide)) (by decide)

end Wpc.Otp
