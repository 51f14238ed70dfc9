import FireTablet.Acenna.Proof.KmodFacts

/-!
# The arguments of the accelerator's requests

The indices of a SYNC request are not compared with the table, nor is the offset with zero, and the
sum of offset and size is compared as a 32-bit number. The offset of a register request may be the
number of registers, one too large. Requests that meet one of these gaps are accepted though they
are not valid, all others only when they are (`sync_valid_iff`, `reg_valid_iff`).

An `ALLOC` that fails leaves the device as it was, but for the last thing that can fail: the buffer
stays when the answer cannot be copied to user space (`alloc_atomic_iff`).
-/

namespace Acenna

open CInt

/-! ## Indices -/

theorem areaAt_inTable {dev : NnaDeviceData} (outside : Int → MemArea) {clientid memid : Int}
    (h : inTable clientid memid = true) :
    dev.areaAt outside clientid memid = dev.allocatedMemAreas (slotOf clientid memid) := by
  simp only [inTable, Bool.and_eq_true, decide_eq_true_eq] at h
  simp only [nnaMaxClients, nnaMaxAllocatedMemareasPerClient] at h
  unfold NnaDeviceData.areaAt nnaMaxClients nnaMaxAllocatedMemareasPerClient
  dsimp only
  rw [if_pos (by omega), show (clientid * (128 : Nat) + memid) / (128 : Nat) = clientid by omega,
    show (clientid * (128 : Nat) + memid) % (128 : Nat) = memid by omega]

/-! ## SYNC -/

/-- A SYNC request is valid: its indices are in the table and its range in the area's buffer. -/
def MemAreaSync.Valid (req : MemAreaSync) (dev : NnaDeviceData) : Prop :=
  inTable req.clientid req.memid = true ∧ 0 ≤ req.offset ∧
    req.offset + req.size ≤ (dev.allocatedMemAreas (slotOf req.clientid req.memid)).size

instance (req : MemAreaSync) (dev : NnaDeviceData) : Decidable (req.Valid dev) :=
  inferInstanceAs (Decidable (_ ∧ _ ∧ _))

/-- A SYNC request that the driver's tests let through: it is read, the record it names has a
buffer, and the 32-bit sum is not above the buffer's size. -/
def SyncPasses (req : MemAreaSync) (copyFromUser : Bool) (outside : Int → MemArea)
    (dev : NnaDeviceData) : Prop :=
  let area := dev.areaAt outside req.clientid req.memid
  copyFromUser = true ∧ ¬(area.phyAddr = 0 ∨ area.kvirtAddr = 0 ∨ area.size = 0) ∧
    i32 (req.offset + req.size) ≤ area.size

theorem ioctlSync_accepts (req : MemAreaSync) (copyFromUser oSync : Bool)
    (outside : Int → MemArea) (dev : NnaDeviceData) :
    (ioctlSync req copyFromUser oSync outside dev).1 = 0 ↔
      SyncPasses req copyFromUser outside dev := by
  unfold ioctlSync SyncPasses
  dsimp only
  by_cases hcopy : ¬ copyFromUser = true
  · rw [if_pos hcopy]
    exact ⟨fun h => absurd h (by decide), fun h => absurd h.1 hcopy⟩
  rw [if_neg hcopy]
  by_cases hnull : (dev.areaAt outside req.clientid req.memid).phyAddr = 0 ∨
      (dev.areaAt outside req.clientid req.memid).kvirtAddr = 0 ∨
      (dev.areaAt outside req.clientid req.memid).size = 0
  · rw [if_pos hnull]
    exact ⟨fun h => absurd h (by decide), fun h => absurd hnull h.2.1⟩
  rw [if_neg hnull]
  by_cases hsum : i32 (req.offset + req.size) > (dev.areaAt outside req.clientid req.memid).size
  · rw [if_pos hsum]
    exact ⟨fun h => absurd h (by decide), fun h => absurd h.2.2 (by omega)⟩
  rw [if_neg hsum]
  refine ⟨fun _ => ⟨not_not.1 hcopy, hnull, by omega⟩, fun _ => ?_⟩
  split <;> rfl

/-- **An accepted SYNC request** is valid except in the three gaps of the tests. -/
theorem sync_valid {req : MemAreaSync} (hsize : IsI32 req.size) (copyFromUser oSync : Bool)
    (outside : Int → MemArea) {dev : NnaDeviceData}
    (harea : ∀ slot, IsI32 (dev.allocatedMemAreas slot).size) :
    ((ioctlSync req copyFromUser oSync outside dev).1 = 0 → req.Valid dev) ↔
      ¬(SyncPasses req copyFromUser outside dev ∧
        (inTable req.clientid req.memid = false ∨ req.offset < 0 ∨
          2 ^ 31 ≤ req.offset + req.size)) := by
  rw [ioctlSync_accepts]
  constructor
  · rintro hvalid ⟨hpass, hgap⟩
    obtain ⟨htable, hoff, hsum⟩ := hvalid hpass
    have hle := harea (slotOf req.clientid req.memid)
    unfold IsI32 at hle
    rcases hgap with hgap | hgap | hgap
    · rw [htable] at hgap
      cases hgap
    · omega
    · omega
  · intro hno hpass
    have hgaps := fun hgap => hno ⟨hpass, hgap⟩
    have htable : inTable req.clientid req.memid = true :=
      Bool.not_eq_false _ ▸ fun h => hgaps (.inl h)
    have hoff : 0 ≤ req.offset := Int.not_lt.1 fun h => hgaps (.inr (.inl h))
    have hlt : req.offset + req.size < 2 ^ 31 := Int.not_le.1 fun h => hgaps (.inr (.inr h))
    obtain ⟨-, -, hsum⟩ := hpass
    unfold IsI32 at hsize
    rw [areaAt_inTable outside htable, i32_eq (by unfold IsI32; omega)] at hsum
    exact ⟨htable, hoff, hsum⟩

/-! ## Registers -/

/-- The word at an address lies in the register resource. -/
def RegAccess.Inside (a : RegAccess) (resourceSize : Nat) : Prop := a.regAddr + 4 ≤ resourceSize

instance (a : RegAccess) (resourceSize : Nat) : Decidable (a.Inside resourceSize) :=
  inferInstanceAs (Decidable (_ ≤ _))

/-- The word that a register request accesses. -/
theorem ioctlReg_access {cmd : RegCmd} {req : RegAccessRequest} (h : IsI32 req.offset)
    {resourceSize : Nat} {regs : Nat → Nat} {copyFromUser copyToUser : Bool} :
    (∀ a, (ioctlReg cmd req resourceSize regs copyFromUser copyToUser).2 = some a →
      copyFromUser = true ∧ a.regAddr = 4 * req.offset.toNat ∧ 0 ≤ req.offset ∧
        req.offset ≤ (resourceSize / 4 : Nat)) ∧
    (copyFromUser = true → 0 ≤ req.offset → req.offset ≤ (resourceSize / 4 : Nat) →
      ∃ a, (ioctlReg cmd req resourceSize regs copyFromUser copyToUser).2 = some a ∧
        a.regAddr = 4 * req.offset.toNat) := by
  unfold ioctlReg
  by_cases hcopy : ¬ copyFromUser = true
  · rw [if_pos hcopy]
    exact ⟨fun a ha => (Option.some_ne_none a ha.symm).elim, fun h => absurd h hcopy⟩
  rw [if_neg hcopy]
  by_cases hoff : req.offset < 0 ∨ u64 req.offset > (resourceSize / 4 : Nat)
  · rw [if_pos hoff]
    refine ⟨fun a ha => (Option.some_ne_none a ha.symm).elim, fun _ h0 hle => ?_⟩
    unfold IsI32 at h
    rw [u64_eq h0 (by omega)] at hoff
    omega
  · rw [if_neg hoff]
    unfold IsI32 at h
    have h0 : 0 ≤ req.offset := Int.not_lt.1 fun h => hoff (.inl h)
    have hle : req.offset ≤ (resourceSize / 4 : Nat) := by
      rw [← u64_eq h0 (by omega)]
      exact Int.not_lt.1 fun h => hoff (.inr h)
    cases cmd with
    | read =>
      exact ⟨fun a ha => ⟨not_not.1 hcopy, by cases ha; rfl, h0, hle⟩, fun _ _ _ => ⟨_, rfl, rfl⟩⟩
    | write =>
      exact ⟨fun a ha => ⟨not_not.1 hcopy, by cases ha; rfl, h0, hle⟩, fun _ _ _ => ⟨_, rfl, rfl⟩⟩

/-- **A register request** accesses a word of the resource unless its offset is the number of
words. -/
theorem reg_valid {cmd : RegCmd} {req : RegAccessRequest} (h : IsI32 req.offset)
    (resourceSize : Nat) (regs : Nat → Nat) (copyFromUser copyToUser : Bool) :
    (∀ a, (ioctlReg cmd req resourceSize regs copyFromUser copyToUser).2 = some a →
      a.Inside resourceSize) ↔
    ¬(copyFromUser = true ∧ req.offset = (resourceSize / 4 : Nat)) := by
  obtain ⟨hsome, hex⟩ := @ioctlReg_access cmd req h resourceSize regs copyFromUser copyToUser
  constructor
  · rintro hall ⟨hcopy, hoff⟩
    obtain ⟨a, ha, haddr⟩ := hex hcopy (by omega) (by omega)
    have hin := hall a ha
    unfold RegAccess.Inside at hin
    omega
  · intro hno a ha
    obtain ⟨hcopy, haddr, h0, hle⟩ := hsome a ha
    have hne : req.offset ≠ (resourceSize / 4 : Nat) := fun hoff => hno ⟨hcopy, hoff⟩
    unfold RegAccess.Inside
    omega

/-! ## Both kinds of requests -/

/-- **The tests of the arguments** let a request that is not valid through in these cases only: a
SYNC request that passes them with an index outside the table, a negative offset or a sum above
`INT_MAX`, and a register request with the number of words as its offset. -/
theorem args_valid_iff (sync : MemAreaSync) (oSync : Bool) (outside : Int → MemArea)
    (dev : NnaDeviceData) (cmd : RegCmd) (req : RegAccessRequest) (resourceSize : Nat)
    (regs : Nat → Nat) (copyFromUser copyToUser : Bool) :
    (IsI32 sync.size → (∀ slot, IsI32 (dev.allocatedMemAreas slot).size) →
      (((ioctlSync sync copyFromUser oSync outside dev).1 = 0 → sync.Valid dev) ↔
        ¬(SyncPasses sync copyFromUser outside dev ∧
          (inTable sync.clientid sync.memid = false ∨ sync.offset < 0 ∨
            2 ^ 31 ≤ sync.offset + sync.size)))) ∧
    (IsI32 req.offset →
      ((∀ a, (ioctlReg cmd req resourceSize regs copyFromUser copyToUser).2 = some a →
          a.Inside resourceSize) ↔
        ¬(copyFromUser = true ∧ req.offset = (resourceSize / 4 : Nat)))) :=
  ⟨fun hsize harea => sync_valid hsize copyFromUser oSync outside harea,
    fun h => reg_valid h resourceSize regs copyFromUser copyToUser⟩

/-- A device with one buffer of a page. -/
def pageDevice : NnaDeviceData :=
  ⟨true, true, 1, 1, 4096, fun slot =>
    if slot = (0, 0) then ⟨0x80000000, 0xffff8000, 4096, 0, 0, 0⟩ else ⟨0, 0, 0, 0, 0, 0⟩⟩

theorem pageDevice_sizes (slot : Slot) : IsI32 (pageDevice.allocatedMemAreas slot).size := by
  unfold pageDevice
  dsimp only
  split <;> exact ⟨by decide, by decide⟩

theorem args_valid_iff_pageDevice :
    (((ioctlSync ⟨0, 0, 64, 128, 0⟩ true false (fun _ => ⟨0, 0, 0, 0, 0, 0⟩) pageDevice).1 = 0 →
        MemAreaSync.Valid ⟨0, 0, 64, 128, 0⟩ pageDevice) ↔
      ¬(SyncPasses ⟨0, 0, 64, 128, 0⟩ true (fun _ => ⟨0, 0, 0, 0, 0, 0⟩) pageDevice ∧
        (inTable 0 0 = false ∨ (128 : Int) < 0 ∨ (2 ^ 31 : Int) ≤ 128 + 64))) ∧
    ((∀ a, (ioctlReg .read ⟨3, 0⟩ 4096 (fun _ => 7) true true).2 = some a → a.Inside 4096) ↔
      ¬(true = true ∧ (3 : Int) = ((4096 / 4 : Nat) : Int))) :=
  have h := args_valid_iff ⟨0, 0, 64, 128, 0⟩ false (fun _ => ⟨0, 0, 0, 0, 0, 0⟩) pageDevice .read
    ⟨3, 0⟩ 4096 (fun _ => 7) true true
  ⟨h.1 ⟨by decide, by decide⟩ pageDevice_sizes, h.2 ⟨by decide, by decide⟩⟩

/-- Memory behind the table that looks like a buffer's record. -/
def likeBuffer : Int → MemArea := fun _ => ⟨0x90000000, 0xffff9000, 4096, 0, 0, 0⟩

/-- A client index outside the table, a negative offset, a sum that wraps round and the word behind
the registers are all accepted. -/
theorem args_gaps :
    ((ioctlSync ⟨16, 0, 64, 0, 0⟩ true false likeBuffer pageDevice).1 = 0 ∧
      ¬ MemAreaSync.Valid ⟨16, 0, 64, 0, 0⟩ pageDevice) ∧
    ((ioctlSync ⟨0, 0, 64, -64, 0⟩ true false likeBuffer pageDevice).1 = 0 ∧
      ¬ MemAreaSync.Valid ⟨0, 0, 64, -64, 0⟩ pageDevice) ∧
    ((ioctlSync ⟨0, 0, 2 ^ 31 - 1, 1, 0⟩ true false likeBuffer pageDevice).1 = 0 ∧
      ¬ MemAreaSync.Valid ⟨0, 0, 2 ^ 31 - 1, 1, 0⟩ pageDevice) ∧
    (ioctlReg .write ⟨1024, 1⟩ 4096 (fun _ => 0) true true = (0, some ⟨4096, 1⟩) ∧
      ¬ RegAccess.Inside ⟨4096, 1⟩ 4096) := by
  decide

/-! ## ALLOC -/

/-- An `ALLOC` that comes to the allocation: it is read, its arguments are in range and its area has
no buffer. -/
structure AllocPasses (req : MemAreaRequest) (env : AllocEnv) (dev : NnaDeviceData) : Prop where
  copy : env.copyFromUser = true
  table : inTable req.clientid req.memid = true
  pos : 0 < req.size
  lt : req.size < nnaMaxMemareaSize
  free : (dev.allocatedMemAreas req.slot).kvirtAddr = 0

theorem ioctlAlloc_passes {req : MemAreaRequest} {env : AllocEnv} {dev : NnaDeviceData}
    (h : AllocPasses req env dev) :
    ioctlAlloc req env dev =
      if isErrOrNull env.kvirtAddr then
        (if i32 env.kvirtAddr = 0 then -enomem else i32 env.kvirtAddr,
          dev.setArea req.slot (dev.allocatedMemAreas req.slot).empty)
      else (if env.copyToUser then 0 else -efault, dev.alloc req env) := by
  unfold ioctlAlloc
  rw [if_neg (not_not_intro h.copy), if_neg (not_not_intro ⟨h.table, h.pos, h.lt⟩)]
  dsimp only
  exact if_neg (not_not_intro h.free)

theorem ioctlAlloc_refused {req : MemAreaRequest} {env : AllocEnv} {dev : NnaDeviceData}
    (h : ¬ AllocPasses req env dev) : ioctlAlloc req env dev = (-efault, dev) := by
  unfold ioctlAlloc
  by_cases hcopy : ¬ env.copyFromUser = true
  · exact if_pos hcopy
  rw [if_neg hcopy]
  by_cases hargs : inTable req.clientid req.memid = true ∧ req.size > 0 ∧
      req.size < nnaMaxMemareaSize
  · rw [if_neg (not_not_intro hargs)]
    exact if_pos fun hfree => h ⟨not_not.1 hcopy, hargs.1, hargs.2.1, hargs.2.2, hfree⟩
  · exact if_pos hargs

/-- An area without a buffer that has no address and no size either, as the driver leaves it. -/
def MemArea.Blank (area : MemArea) : Prop := area.phyAddr = 0 ∧ area.size = 0

theorem MemArea.Blank.empty_eq {area : MemArea} (h : area.Blank) (hk : area.kvirtAddr = 0) :
    area.empty = area := by
  obtain ⟨phyAddr, kvirtAddr, size, vmStart, vmEnd, syncMode⟩ := area
  obtain ⟨hphy, hsize⟩ := h
  dsimp only at hphy hsize hk
  rw [MemArea.empty, hphy, hsize, hk]

/-- Emptying an area that has no buffer. -/
theorem setArea_empty {dev : NnaDeviceData} {slot : Slot}
    (hk : (dev.allocatedMemAreas slot).kvirtAddr = 0) :
    dev.setArea slot (dev.allocatedMemAreas slot).empty = dev ↔
      (dev.allocatedMemAreas slot).Blank := by
  constructor
  · intro heq
    have harea := congrArg (fun d => NnaDeviceData.allocatedMemAreas d slot) heq
    simp only [NnaDeviceData.setArea, Function.update_self] at harea
    exact ⟨(congrArg MemArea.phyAddr harea).symm, (congrArg MemArea.size harea).symm⟩
  · intro hblank
    rw [hblank.empty_eq hk, NnaDeviceData.setArea, Function.update_eq_self]

/-- The device with a buffer more is another one. -/
theorem alloc_ne {req : MemAreaRequest} {env : AllocEnv} {dev : NnaDeviceData}
    (hk : isErrOrNull env.kvirtAddr = false)
    (hfree : (dev.allocatedMemAreas req.slot).kvirtAddr = 0) : dev.alloc req env ≠ dev := by
  intro heq
  have harea := congrArg (fun d => (NnaDeviceData.allocatedMemAreas d req.slot).kvirtAddr) heq
  simp only [NnaDeviceData.alloc, NnaDeviceData.setArea, Function.update_self, MemArea.fill,
    hfree] at harea
  rw [harea] at hk
  cases hk

/-- **A failed `ALLOC`** leaves the device as it was unless the answer to user space fails, the
last step, or the memory for an area that has no buffer but an address or a size. -/
theorem alloc_atomic_iff (req : MemAreaRequest) (env : AllocEnv) (dev : NnaDeviceData) :
    ((ioctlAlloc req env dev).1 ≠ 0 → (ioctlAlloc req env dev).2 = dev) ↔
      ¬(AllocPasses req env dev ∧
        (isErrOrNull env.kvirtAddr = false ∧ env.copyToUser = false ∨
          isErrOrNull env.kvirtAddr = true ∧ ¬(dev.allocatedMemAreas req.slot).Blank)) := by
  by_cases hpass : AllocPasses req env dev
  · rw [ioctlAlloc_passes hpass]
    cases hk : isErrOrNull env.kvirtAddr with
    | true =>
      have herr : (if i32 env.kvirtAddr = 0 then -enomem else i32 env.kvirtAddr) ≠ 0 := by
        split
        · decide
        · assumption
      simp [hpass, herr, setArea_empty hpass.free]
    | false =>
      have hne := alloc_ne hk hpass.free
      cases hto : env.copyToUser with
      | true => simp
      | false => simp [hpass, hne, efault]
  · rw [ioctlAlloc_refused hpass]
    exact ⟨fun _ h => hpass h.1, fun _ _ => rfl⟩

/-- The request of one page for the second area of the first client. -/
def pageRequest : MemAreaRequest := ⟨0, 1, 100, 0⟩

/-- **An answer that user space does not get**: the request fails and the buffer stays. -/
theorem alloc_not_atomic :
    (ioctlAlloc pageRequest ⟨true, false, 0xffffa000, 0xa0000000⟩ pageDevice).1 = -efault ∧
    ((ioctlAlloc pageRequest ⟨true, false, 0xffffa000, 0xa0000000⟩ pageDevice).2.allocatedMemAreas
      (0, 1)).size = 4096 ∧
    (ioctlAlloc pageRequest ⟨true, false, 0xffffa000, 0xa0000000⟩
      pageDevice).2.buffersAllocated = 2 ∧
    ¬ ∀ (req : MemAreaRequest) (env : AllocEnv) (dev : NnaDeviceData),
      (ioctlAlloc req env dev).1 ≠ 0 → (ioctlAlloc req env dev).2 = dev := by
  refine ⟨by decide, by decide, by decide, fun hall => ?_⟩
  have heq := hall pageRequest ⟨true, false, 0xffffa000, 0xa0000000⟩ pageDevice (by decide)
  exact absurd (congrArg NnaDeviceData.buffersAllocated heq) (by decide)

end Acenna
