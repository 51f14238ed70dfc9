import FireTablet.Acenna.Kmod

/-!
# The ioctls on buffers

What `ALLOC` and `DEALLOC` can do to the device, once for the results about runs: a request is
refused and nothing changes, or one area is emptied or filled (`ioctlAlloc_cases`,
`ioctlDealloc_cases`).
-/

namespace Acenna

open CInt

/-- The area of a request. -/
def MemAreaRequest.slot (req : MemAreaRequest) : Slot := slotOf req.clientid req.memid

/-- A place in the table. -/
def InTable (slot : Slot) : Prop :=
  slot.1 < nnaMaxClients ∧ slot.2 < nnaMaxAllocatedMemareasPerClient

theorem inTable_slotOf {clientid memid : Int} (h : inTable clientid memid = true) :
    InTable (slotOf clientid memid) := by
  simp only [inTable, Bool.and_eq_true, decide_eq_true_eq] at h
  simp only [nnaMaxClients, nnaMaxAllocatedMemareasPerClient] at h
  simp only [InTable, slotOf, nnaMaxClients, nnaMaxAllocatedMemareasPerClient]
  omega

/-- An area without its buffer. -/
def MemArea.empty (area : MemArea) : MemArea := { area with kvirtAddr := 0, phyAddr := 0, size := 0 }

/-- An area with the buffer of a request. -/
def MemArea.fill (area : MemArea) (req : MemAreaRequest) (env : AllocEnv) : MemArea :=
  { area with
    kvirtAddr := env.kvirtAddr, phyAddr := env.phyAddr, size := allocSize req.size
    syncMode := req.syncMode }

/-- A request that is carried out: it is for an area of the table without a buffer. -/
structure AllocArgs (req : MemAreaRequest) (dev : NnaDeviceData) : Prop where
  slot : InTable req.slot
  pos : 0 < req.size
  lt : req.size < nnaMaxMemareaSize
  free : (dev.allocatedMemAreas req.slot).kvirtAddr = 0

/-- The device after a buffer is allocated for a request. -/
def NnaDeviceData.alloc (dev : NnaDeviceData) (req : MemAreaRequest) (env : AllocEnv) :
    NnaDeviceData :=
  { dev.setArea req.slot ((dev.allocatedMemAreas req.slot).fill req env) with
    memAllocated := i32 (dev.memAllocated + allocSize req.size)
    buffersAllocated := i32 (dev.buffersAllocated + 1) }

/-- **`ALLOC`** is refused, gets no memory, or allocates. -/
theorem ioctlAlloc_cases (req : MemAreaRequest) (env : AllocEnv) (dev : NnaDeviceData) :
    ioctlAlloc req env dev = (-efault, dev) ∨
    (AllocArgs req dev ∧ isErrOrNull env.kvirtAddr = true ∧
      ioctlAlloc req env dev =
        (if i32 env.kvirtAddr = 0 then -enomem else i32 env.kvirtAddr,
          dev.setArea req.slot (dev.allocatedMemAreas req.slot).empty)) ∨
    (AllocArgs req dev ∧ isErrOrNull env.kvirtAddr = false ∧
      ioctlAlloc req env dev = (if env.copyToUser then 0 else -efault, dev.alloc req env)) := by
  unfold ioctlAlloc
  by_cases hcopy : ¬ env.copyFromUser = true
  · exact .inl (if_pos hcopy)
  rw [if_neg hcopy]
  by_cases hargs : inTable req.clientid req.memid = true ∧ req.size > 0 ∧
      req.size < nnaMaxMemareaSize
  · rw [if_neg (not_not_intro hargs)]
    dsimp only
    by_cases hk : (dev.allocatedMemAreas (slotOf req.clientid req.memid)).kvirtAddr = 0
    · rw [if_neg (not_not_intro hk)]
      have ha : AllocArgs req dev := ⟨inTable_slotOf hargs.1, hargs.2.1, hargs.2.2, hk⟩
      cases herr : isErrOrNull env.kvirtAddr with
      | true => exact .inr (.inl ⟨ha, rfl, rfl⟩)
      | false => exact .inr (.inr ⟨ha, rfl, rfl⟩)
    · exact .inl (if_pos hk)
  · exact .inl (if_pos hargs)

/-- **`DEALLOC`** is refused, or frees the buffer of an area. -/
theorem ioctlDealloc_cases (req : MemAreaRequest) (copyFromUser : Bool) (dev : NnaDeviceData) :
    ioctlDealloc req copyFromUser dev = (-efault, dev) ∨
    (InTable req.slot ∧ (dev.allocatedMemAreas req.slot).kvirtAddr ≠ 0 ∧
      0 < (dev.allocatedMemAreas req.slot).size ∧
      ioctlDealloc req copyFromUser dev = (0, freeArea dev req.slot)) := by
  unfold ioctlDealloc
  by_cases hcopy : ¬ copyFromUser = true
  · exact .inl (if_pos hcopy)
  rw [if_neg hcopy]
  by_cases hslot : ¬ inTable req.clientid req.memid = true
  · exact .inl (if_pos hslot)
  rw [if_neg hslot]
  dsimp only
  by_cases harea : (dev.allocatedMemAreas (slotOf req.clientid req.memid)).kvirtAddr ≠ 0 ∧
      (dev.allocatedMemAreas (slotOf req.clientid req.memid)).size > 0
  · exact .inr ⟨inTable_slotOf (not_not.1 hslot), harea.1, harea.2, if_pos harea⟩
  · exact .inl (if_neg harea)

/-- **`mmap`** leaves the device as it is, or changes what one area remembers. -/
theorem nnaDeviceFileMmap_cases {pfnValid : Nat → Bool} {oSync : Bool} {dmaMmap : Int} {vma : Vma}
    {dev : NnaDeviceData} {res : Int × Vma × NnaDeviceData}
    (h : nnaDeviceFileMmap pfnValid oSync dmaMmap vma dev = res) :
    res.2.2 = dev ∨ ∃ slot vmStart vmEnd,
      res.2.2 = dev.setArea slot { dev.allocatedMemAreas slot with vmStart, vmEnd } := by
  rw [nnaDeviceFileMmap] at h
  generalize i32 (vma.vmPgoff / 1000) = clientid at h
  generalize i32 (vma.vmPgoff % 1000) = memid at h
  by_cases hslot : ¬ inTable clientid memid = true
  · rw [if_pos hslot] at h; exact .inl (h ▸ rfl)
  rw [if_neg hslot] at h
  generalize slotOf clientid memid = slot at h
  by_cases harea : ¬((dev.allocatedMemAreas slot).kvirtAddr ≠ 0 ∧
      (dev.allocatedMemAreas slot).size ≠ 0)
  · rw [if_pos harea] at h; exact .inl (h ▸ rfl)
  rw [if_neg harea] at h
  refine .inr ⟨slot, ?_⟩
  cases hpfn : pfnValid ((dev.allocatedMemAreas slot).phyAddr / pageSize) with
  | true => rw [if_pos hpfn] at h; exact ⟨_, _, by rw [← h]⟩
  | false =>
    rw [if_neg (by rw [hpfn]; exact nofun)] at h
    by_cases hret : dmaMmap = 0
    · rw [if_pos hret] at h; exact ⟨_, _, by rw [← h]⟩
    · rw [if_neg hret] at h; exact ⟨_, _, by rw [← h]⟩

/-- The size of a buffer is a whole number of pages, up to the limit. -/
theorem allocSize_ok {size : Int} (h : 0 < size) (hlt : size < nnaMaxMemareaSize) :
    0 < allocSize size ∧ allocSize size % pageSize = 0 ∧ allocSize size ≤ nnaMaxMemareaSize := by
  unfold nnaMaxMemareaSize at *
  unfold allocSize pageSize
  omega

/-- What `buffers_cleanup` keeps is what freeing one buffer keeps. -/
theorem buffersCleanup_induction {P : NnaDeviceData → Prop}
    (hfree : ∀ dev slot, P dev → InTable slot → (dev.allocatedMemAreas slot).kvirtAddr ≠ 0 →
      P (freeArea dev slot)) {dev : NnaDeviceData} (h : P dev) : P (buffersCleanup dev) := by
  have hfold : ∀ (f : NnaDeviceData → Nat → NnaDeviceData) (is : List Nat),
      (∀ dev, ∀ i ∈ is, P dev → P (f dev i)) → ∀ dev, P dev → P (is.foldl f dev) := by
    intro f is
    induction is with
    | nil => exact fun _ _ h => h
    | cons i is ih =>
      exact fun hf dev h => ih (fun dev j hj => hf dev j (List.mem_cons_of_mem _ hj)) _
        (hf dev i List.mem_cons_self h)
  refine hfold _ _ (fun dev c hc h => hfold _ _ (fun dev m hm h => ?_) dev h) dev h
  split
  next hk => exact hfree dev (c, m) h ⟨List.mem_range.1 hc, List.mem_range.1 hm⟩ hk
  next => exact h

/-! ## Steps -/

/-- What a step can do to the device. -/
inductive DevStep (pfnValid : Nat → Bool) (dev : NnaDeviceData) : NnaOp → NnaDeviceData → Prop
  | same (op : NnaOp) : DevStep pfnValid dev op dev
  | opened (oSync : Bool) :
      DevStep pfnValid dev (.openFile oSync) { dev with devLock := true, isOpen := true }
  | released (op : NnaOp) : DevStep pfnValid dev op (nnaDeviceFileRelease dev)
  | alloc (req : MemAreaRequest) (env : AllocEnv) :
      DevStep pfnValid dev (.alloc req env) (ioctlAlloc req env dev).2
  | dealloc (req : MemAreaRequest) (copyFromUser : Bool) :
      DevStep pfnValid dev (.dealloc req copyFromUser) (ioctlDealloc req copyFromUser dev).2
  | mmap (mm addr len pgoff : Nat) {dmaMmap : Int} {oSync : Bool} {vma : Vma}
      {res : Int × Vma × NnaDeviceData} :
      nnaDeviceFileMmap pfnValid oSync dmaMmap vma dev = res →
      DevStep pfnValid dev (.mmap mm addr len pgoff dmaMmap) res.2.2

theorem fput_dev {pfnValid : Nat → Bool} {s : NnaSys} {dev : NnaDeviceData} {op : NnaOp}
    (h : s.dev = dev) : DevStep pfnValid dev op (fput s).dev := by
  subst h
  unfold fput
  split
  · exact .released op
  · exact .same op

@[simp] theorem closed_areas (dev : NnaDeviceData) :
    dev.closed.allocatedMemAreas = dev.allocatedMemAreas := rfl

theorem NnaSys.map_dev (s : NnaSys) (vmas : List Vma) (res : Int × Vma × NnaDeviceData) :
    (s.map vmas res).2.dev = res.2.2 := rfl

/-- **A step** is always possible, and does one thing to the device. -/
theorem nnaStep_dev (pfnValid : Nat → Bool) (s : NnaSys) (op : NnaOp) :
    ∃ out s', nnaStep pfnValid s op = some (out, s') ∧ DevStep pfnValid s.dev op s'.dev := by
  cases op with
  | openFile oSync =>
    refine ⟨_, (nnaDeviceFileOpen oSync s).2, rfl, ?_⟩
    unfold nnaDeviceFileOpen
    split
    · exact .same _
    · exact .opened oSync
  | closeFile => exact ⟨_, _, rfl, fput_dev rfl⟩
  | alloc req env =>
    by_cases hf : s.file = none
    · exact ⟨_, _, by rw [nnaStep, if_pos hf], .same _⟩
    · exact ⟨_, _, by rw [nnaStep, if_neg hf], .alloc req env⟩
  | dealloc req copyFromUser =>
    by_cases hf : s.file = none
    · exact ⟨_, _, by rw [nnaStep, if_pos hf], .same _⟩
    · exact ⟨_, _, by rw [nnaStep, if_neg hf], .dealloc req copyFromUser⟩
  | mmap mm addr len pgoff dmaMmap =>
    cases hf : s.file with
    | none => exact ⟨_, _, by rw [nnaStep, hf], .same _⟩
    | some oSync =>
      refine ⟨_, (sysMmap pfnValid oSync mm addr len pgoff dmaMmap s).2, by rw [nnaStep, hf], ?_⟩
      unfold sysMmap
      split
      · exact .same _
      · rw [NnaSys.map_dev]
        exact .mmap mm addr len pgoff rfl
  | munmap mm addr len how =>
    by_cases harg : addr % pageSize ≠ 0 ∨ len = 0
    · exact ⟨_, _, by rw [nnaStep, if_pos harg], .same _⟩
    · exact ⟨_, fput { s with vmas := doMunmap mm addr (addr + pageAlign len) how s.vmas },
        by rw [nnaStep, if_neg harg], fput_dev rfl⟩
  | fault mm addr =>
    cases hv : s.findVma mm addr with
    | none => exact ⟨_, _, by rw [nnaStep, hv], .same _⟩
    | some vma => exact ⟨_, _, by rw [nnaStep, hv], .same _⟩

end Acenna
