import FireTablet.Acenna.Proof.KmodFacts
import FireTablet.Lib.Run

/-!
# Page faults of mapped buffers

A fault finds its buffer by the address at which the mapping starts. The table remembers that
address of an area after `munmap`, `DEALLOC` and release, so that two areas may have the same, and
the size that is left behind the fault's offset wraps when the mapping is longer than the buffer.
In a run in which neither plays a part at any fault, a fault resolves to a page of the buffer that
is allocated for the mapping's own area, or fails (`fault_isolated`).
-/

namespace Acenna

open CInt

/-- The area has a buffer and remembers a start address. -/
def Remembers (dev : NnaDeviceData) (slot : Slot) (vmStart : Nat) : Prop :=
  slot.1 < nnaMaxClients ∧ slot.2 < nnaMaxAllocatedMemareasPerClient ∧
    (dev.allocatedMemAreas slot).vmStart = vmStart ∧ (dev.allocatedMemAreas slot).size ≠ 0

/-- The search comes to `t` before `slot`, or prefers `slot`: that of a later client, and of a
smaller `memid` for one client. -/
def Preferred (slot t : Slot) : Prop := t.1 < slot.1 ∨ t.1 = slot.1 ∧ slot.2 < t.2

/-- The buffers have no byte in common. -/
def Apart (a b : MemArea) : Prop :=
  a.size = 0 ∨ b.size = 0 ∨ a.phyAddr + a.size ≤ b.phyAddr ∨ b.phyAddr + b.size ≤ a.phyAddr

/-- The page lies in the buffer. -/
def PageIn (area : MemArea) (pfn : Nat) : Prop :=
  area.kvirtAddr ≠ 0 ∧ area.phyAddr ≤ pfn * pageSize ∧
    ((pfn * pageSize + pageSize : Nat) : Int) ≤ area.phyAddr + area.size

/-- The page has no byte of the buffer. -/
def PageOff (area : MemArea) (pfn : Nat) : Prop :=
  area.size = 0 ∨ ((pfn * pageSize + pageSize : Nat) : Int) ≤ area.phyAddr ∨
    (area.phyAddr + area.size : Int) ≤ (pfn * pageSize : Nat)

/-- A fault that resolves does so to a page of the buffer now allocated for the area that was
mapped, and of no other buffer. -/
def FaultOk (s : NnaSys) (op : NnaOp) (out : NnaOut) : Prop :=
  match op with
  | .fault mm addr => ∀ vma pfn, s.findVma mm addr = some vma → out = .page (some pfn) →
      PageIn (s.dev.allocatedMemAreas vma.slot) pfn ∧
      ∀ slot, slot ≠ vma.slot → PageOff (s.dev.allocatedMemAreas slot) pfn
  | _ => True

/-- The condition on a fault: of the areas with a buffer that remember the mapping's start the own
one is preferred to all others, and the offset is not past the end of its buffer. -/
structure FaultFits (dev : NnaDeviceData) (vma : Vma) (pgoff : Nat) : Prop where
  own : ∀ slot, Remembers dev slot vma.vmStart → slot ≠ vma.slot →
    Remembers dev vma.slot vma.vmStart ∧ Preferred vma.slot slot
  inside : Remembers dev vma.slot vma.vmStart →
    (pgoff * pageSize : Nat) ≤ (dev.allocatedMemAreas vma.slot).size

/-- What `dma_alloc_coherent` promises of the memory it gives: it starts at a page, has addresses,
and is not in use. -/
structure DmaOk (dev : NnaDeviceData) (size : Int) (phyAddr : Nat) : Prop where
  aligned : phyAddr % pageSize = 0
  bounded : (phyAddr : Int) + allocSize size ≤ 2 ^ 64
  unused : ∀ slot, Apart ⟨phyAddr, 0, allocSize size, 0, 0, 0⟩ (dev.allocatedMemAreas slot)

/-- The condition on a step. -/
def NnaFits (s : NnaSys) : NnaOp → Prop
  | .alloc req env => isErrOrNull env.kvirtAddr = false → 0 < req.size →
      DmaOk s.dev req.size env.phyAddr
  | .fault mm addr => ∀ vma, s.findVma mm addr = some vma → vma.faults = true →
      FaultFits s.dev vma (linearPageIndex vma addr)
  | _ => True

/-! ## The search -/

/-- The last index with a result, in a loop that goes on when it has found one. -/
theorem foldl_last {β : Type} {g : Nat → Option β} {f : Option (Nat × β) → Nat → Option (Nat × β)}
    (hsome : ∀ found c b, g c = some b → f found c = some (c, b))
    (hnone : ∀ found c, g c = none → f found c = found) {n c : Nat} {b : β}
    (h : (List.range n).foldl f none = some (c, b)) :
    c < n ∧ g c = some b ∧ ∀ d, c < d → d < n → g d = none := by
  induction n with
  | zero => cases h
  | succ n ih =>
    rw [List.range_succ, List.foldl_append, List.foldl_cons, List.foldl_nil] at h
    cases hg : g n with
    | some b' =>
      rw [hsome _ _ _ hg] at h
      cases h
      exact ⟨Nat.lt_succ_self _, hg, fun d h1 h2 => by omega⟩
    | none =>
      rw [hnone _ _ hg] at h
      obtain ⟨hc, hb, hlast⟩ := ih h
      refine ⟨by omega, hb, fun d h1 h2 => ?_⟩
      rcases Nat.lt_or_ge d n with hd | hd
      · exact hlast d h1 hd
      · rw [show d = n by omega]; exact hg

/-- **The search** finds the area that is preferred among those that remember the address. -/
theorem faultArea_spec {dev : NnaDeviceData} {vmStart : Nat} {slot : Slot}
    (h : faultArea dev vmStart = some slot) : Remembers dev slot vmStart ∧
      ∀ t, Remembers dev t vmStart → ¬ Preferred t slot := by
  obtain ⟨clientid, memid⟩ := slot
  obtain ⟨hc, hfind, hlast⟩ := foldl_last (g := faultMemid dev vmStart)
    (fun _ c b hb => by rw [hb]) (fun _ c hb => by rw [hb]) h
  rw [faultMemid, List.find?_range_eq_some] at hfind
  simp only [decide_eq_true_eq, List.mem_range] at hfind
  obtain ⟨⟨hstart, hsize⟩, hm, hfirst⟩ := hfind
  refine ⟨⟨hc, hm, hstart, hsize⟩, ?_⟩
  rintro ⟨c, m⟩ ⟨htc, htm, hts, htz⟩ hpref
  rcases hpref with hlt | ⟨heq, hlt⟩
  · have hnone := hlast c hlt htc
    rw [faultMemid, List.find?_eq_none] at hnone
    exact hnone m (List.mem_range.2 htm) (by simp [hts, htz])
  · obtain rfl : clientid = c := heq
    have hno := hfirst m hlt
    simp [hts, htz] at hno

/-! ## The buffers -/

/-- An area has no buffer, or one of whole pages. -/
structure AreaOk (area : MemArea) : Prop where
  kvirt : area.size ≠ 0 → area.kvirtAddr ≠ 0
  nonneg : 0 ≤ area.size
  le : area.size ≤ nnaMaxMemareaSize
  whole : area.size % pageSize = 0
  aligned : area.phyAddr % pageSize = 0
  bounded : (area.phyAddr : Int) + area.size ≤ 2 ^ 64

/-- The areas have separate buffers. -/
structure AreasOk (areas : Slot → MemArea) : Prop where
  area : ∀ slot, AreaOk (areas slot)
  apart : ∀ slot t, slot ≠ t → Apart (areas slot) (areas t)

theorem Apart.symm {a b : MemArea} (h : Apart a b) : Apart b a := by
  unfold Apart at *; omega

theorem AreasOk.update {areas : Slot → MemArea} (h : AreasOk areas) {slot : Slot} {area : MemArea}
    (ha : AreaOk area) (hapart : ∀ t, t ≠ slot → Apart area (areas t)) :
    AreasOk (Function.update areas slot area) := by
  refine ⟨fun t => ?_, fun t u htu => ?_⟩
  · by_cases ht : t = slot
    · subst ht; rwa [Function.update_self]
    · rw [Function.update_of_ne ht]; exact h.area t
  · by_cases ht : t = slot <;> by_cases hu : u = slot
    · exact absurd (ht.trans hu.symm) htu
    · subst ht
      rw [Function.update_self, Function.update_of_ne hu]
      exact hapart u hu
    · subst hu
      rw [Function.update_self, Function.update_of_ne ht]
      exact (hapart t ht).symm
    · rw [Function.update_of_ne ht, Function.update_of_ne hu]
      exact h.apart t u htu

/-- An area loses its buffer. -/
theorem AreasOk.empty {areas : Slot → MemArea} (h : AreasOk areas) (slot : Slot) :
    AreasOk (Function.update areas slot (areas slot).empty) :=
  h.update ⟨fun h0 => absurd rfl h0, Int.le_refl _, show (0 : Int) ≤ nnaMaxMemareaSize by decide,
    rfl, rfl, show ((0 : Nat) : Int) + 0 ≤ 2 ^ 64 by decide⟩ fun _ _ => .inl rfl

/-- An area is mapped elsewhere. -/
theorem AreasOk.remap {areas : Slot → MemArea} (h : AreasOk areas) (slot : Slot)
    (vmStart vmEnd : Nat) :
    AreasOk (Function.update areas slot { areas slot with vmStart, vmEnd }) :=
  h.update (let a := h.area slot; ⟨a.kvirt, a.nonneg, a.le, a.whole, a.aligned, a.bounded⟩)
    fun t ht => h.apart slot t (Ne.symm ht)

theorem buffersCleanup_ok {dev : NnaDeviceData} (h : AreasOk dev.allocatedMemAreas) :
    AreasOk (buffersCleanup dev).allocatedMemAreas :=
  buffersCleanup_induction (P := fun dev => AreasOk dev.allocatedMemAreas)
    (fun _ slot h _ _ => h.empty slot) h

theorem ioctlAlloc_ok {dev : NnaDeviceData} (h : AreasOk dev.allocatedMemAreas)
    {req : MemAreaRequest} {env : AllocEnv} (hdma : isErrOrNull env.kvirtAddr = false →
      0 < req.size → DmaOk dev req.size env.phyAddr) :
    AreasOk (ioctlAlloc req env dev).2.allocatedMemAreas := by
  rcases ioctlAlloc_cases req env dev with he | ⟨-, -, he⟩ | ⟨ha, herr, he⟩ <;> rw [he]
  · exact h
  · exact h.empty _
  · obtain ⟨hpos, hwhole, hle⟩ := allocSize_ok ha.pos ha.lt
    obtain ⟨haligned, hbounded, hunused⟩ := hdma herr ha.pos
    refine h.update ⟨fun _ h0 => ?_, Int.le_of_lt hpos, hle, hwhole, haligned, hbounded⟩
      fun t _ => hunused t
    rw [show env.kvirtAddr = 0 from h0] at herr
    cases herr

theorem ioctlDealloc_ok {dev : NnaDeviceData} (h : AreasOk dev.allocatedMemAreas)
    (req : MemAreaRequest) (copyFromUser : Bool) :
    AreasOk (ioctlDealloc req copyFromUser dev).2.allocatedMemAreas := by
  rcases ioctlDealloc_cases req copyFromUser dev with he | ⟨-, -, -, he⟩ <;> rw [he]
  · exact h
  · exact h.empty _

/-- **One step** keeps the buffers separate. -/
theorem devStep_ok {pfnValid : Nat → Bool} {s : NnaSys} {op : NnaOp} {dev' : NnaDeviceData}
    (h : AreasOk s.dev.allocatedMemAreas) (hf : NnaFits s op)
    (hstep : DevStep pfnValid s.dev op dev') : AreasOk dev'.allocatedMemAreas := by
  cases hstep with
  | same => exact h
  | opened => exact h
  | released =>
    rw [nnaDeviceFileRelease, closed_areas]
    exact buffersCleanup_ok h
  | alloc req env => exact ioctlAlloc_ok h hf
  | dealloc req copyFromUser => exact ioctlDealloc_ok h req copyFromUser
  | mmap mm addr len pgoff hres =>
    rcases nnaDeviceFileMmap_cases hres with he | ⟨slot, vmStart, vmEnd, he⟩ <;> rw [he]
    · exact h
    · exact h.remap slot vmStart vmEnd

/-! ## The fault -/

/-- What is checked of a page: that a page is left behind the offset, as far as the difference did
not wrap, and that the page is memory. -/
theorem faultPage_eq_some {pfnValid : Nat → Bool} {area : MemArea} {pgoff pfn : Nat} :
    faultPage pfnValid area pgoff = some pfn ↔
      (pageSize : Int) ≤ u64 (area.size - (pgoff * pageSize % 2 ^ 64 : Nat)) ∧
      pfnValid pfn = true ∧
      (area.phyAddr + pgoff * pageSize % 2 ^ 64) % 2 ^ 64 / pageSize = pfn := by
  rw [faultPage]
  generalize u64 (area.size - (pgoff * pageSize % 2 ^ 64 : Nat)) = availableSize
  generalize (area.phyAddr + pgoff * pageSize % 2 ^ 64) % 2 ^ 64 / pageSize = p
  by_cases hav : (pageSize : Int) > availableSize
  · rw [if_pos hav]
    exact ⟨nofun, fun h => absurd h.1 (Int.not_le.2 hav)⟩
  · rw [if_neg hav]
    cases hp : pfnValid p with
    | true => simp; grind
    | false => simp; grind

/-- An offset inside a buffer of whole pages is at a page of the buffer. -/
theorem faultPage_pageIn {pfnValid : Nat → Bool} {area : MemArea} {pgoff pfn : Nat} (h : AreaOk area)
    (hsize : area.size ≠ 0) (hfit : (pgoff * pageSize : Nat) ≤ area.size)
    (hpage : faultPage pfnValid area pgoff = some pfn) : PageIn area pfn := by
  obtain ⟨hkvirt, hnn, hle, -, haligned, hbounded⟩ := h
  obtain ⟨hav, -, hpfn⟩ := faultPage_eq_some.1 hpage
  have h64 : (2 : Nat) ^ 64 = 18446744073709551616 := rfl
  rw [show (2 : Int) ^ 64 = 18446744073709551616 from rfl] at hbounded
  rw [h64] at hav hpfn
  simp only [pageSize, nnaMaxMemareaSize] at *
  rw [Nat.mod_eq_of_lt (show pgoff * 4096 < 18446744073709551616 by omega)] at hav hpfn
  have hu : u64 (area.size - (pgoff * 4096 : Nat)) = area.size - (pgoff * 4096 : Nat) :=
    u64_eq (by omega) (by omega)
  rw [hu] at hav
  rw [Nat.mod_eq_of_lt (show area.phyAddr + pgoff * 4096 < 18446744073709551616 by omega)] at hpfn
  have hne := hkvirt hsize
  have hpage : pfn * 4096 = area.phyAddr + pgoff * 4096 := by omega
  clear hu hpfn h64 hle hbounded hkvirt
  unfold PageIn
  simp only [pageSize]
  rw [hpage]
  omega

/-- **Past the end** of a buffer the difference wraps, and the page there is given out. -/
theorem faultPage_past_end {pfnValid : Nat → Bool} {area : MemArea} {pgoff pfn : Nat}
    (h : AreaOk area) (hpast : area.size < (pgoff * pageSize : Nat))
    (hoff : (area.phyAddr + pgoff * pageSize) < 2 ^ 63)
    (hpfn : (area.phyAddr + pgoff * pageSize) / pageSize = pfn) (hvalid : pfnValid pfn = true) :
    faultPage pfnValid area pgoff = some pfn := by
  have hnn := h.nonneg
  rw [show (2 : Nat) ^ 63 = 9223372036854775808 from rfl] at hoff
  have hlt : pgoff * pageSize < 18446744073709551616 := by omega
  refine faultPage_eq_some.2 ⟨?_, hvalid, ?_⟩
  · rw [show (2 : Nat) ^ 64 = 18446744073709551616 from rfl, Nat.mod_eq_of_lt hlt]
    unfold u64
    simp only [pageSize] at *
    omega
  · rw [show (2 : Nat) ^ 64 = 18446744073709551616 from rfl, Nat.mod_eq_of_lt hlt,
      Nat.mod_eq_of_lt (by omega), hpfn]

example : faultPage (fun _ => true) ⟨0x10000000, 1, 4096, 0, 0, 0⟩ 2 = some 0x10002 :=
  faultPage_past_end ⟨by decide, by decide, by decide, by decide, by decide, by decide⟩
    (by decide) (by decide) (by decide) rfl

/-- **A fault that meets the condition** gives a page of the own buffer. -/
theorem fault_pageIn {pfnValid : Nat → Bool} {dev : NnaDeviceData}
    (h : AreasOk dev.allocatedMemAreas) {vma : Vma} {pgoff : Nat} (hf : FaultFits dev vma pgoff)
    {pfn : Nat} (hpage : nnaDeviceVmaFault pfnValid vma pgoff dev = some pfn) :
    PageIn (dev.allocatedMemAreas vma.slot) pfn := by
  obtain ⟨slot, harea, hpage⟩ := Option.bind_eq_some_iff.1 hpage
  obtain ⟨hrem, hlast⟩ := faultArea_spec harea
  have hslot : slot = vma.slot := by
    by_contra hne
    obtain ⟨hown, hpref⟩ := hf.own slot hrem hne
    exact hlast _ hown hpref
  subst hslot
  exact faultPage_pageIn (h.area _) hrem.2.2.2 (hf.inside hrem) hpage

/-- A page of one buffer is off the others. -/
theorem PageIn.off {a b : MemArea} {pfn : Nat} (h : PageIn a pfn) (hapart : Apart a b)
    (ha : a.size ≠ 0) : PageOff b pfn := by
  obtain ⟨-, h1, h2⟩ := h
  unfold Apart at hapart
  unfold PageOff
  generalize pfn * pageSize = p at *
  generalize p + pageSize = q at *
  omega

/-- A page comes from the driver's handler. -/
theorem nnaStep_page {pfnValid : Nat → Bool} {s s' : NnaSys} {mm addr pfn : Nat} {vma : Vma}
    (hvma : s.findVma mm addr = some vma)
    (h : nnaStep pfnValid s (.fault mm addr) = some (.page (some pfn), s')) :
    vma.faults = true ∧
      nnaDeviceVmaFault pfnValid vma (linearPageIndex vma addr) s.dev = some pfn := by
  rw [nnaStep, hvma, Option.some.injEq, Prod.mk.injEq, NnaOut.page.injEq] at h
  split at h
  next hf => exact ⟨hf, h.1⟩
  next => exact absurd h.1 (Option.some_ne_none pfn).symm

theorem nnaInit_ok (syncMode : Int) : AreasOk (nnaInit syncMode).dev.allocatedMemAreas :=
  ⟨fun _ => ⟨fun h => absurd rfl h, Int.le_refl _, show (0 : Int) ≤ nnaMaxMemareaSize by decide,
    rfl, rfl, show ((0 : Nat) : Int) + 0 ≤ 2 ^ 64 by decide⟩, fun _ _ _ => .inl rfl⟩

/-- **One step** is a fault that is isolated, or none. -/
theorem nnaStep_faultOk {pfnValid : Nat → Bool} {s s' : NnaSys} {op : NnaOp} {out : NnaOut}
    (hok : AreasOk s.dev.allocatedMemAreas) (hp : NnaFits s op)
    (hstep : nnaStep pfnValid s op = some (out, s')) : FaultOk s op out := by
  cases op with
  | fault mm addr =>
    rintro vma pfn hvma rfl
    obtain ⟨hfaults, hpage⟩ := nnaStep_page hvma hstep
    have hin := fault_pageIn hok (hp vma hvma hfaults) hpage
    refine ⟨hin, fun slot hne => hin.off (hok.apart _ _ (Ne.symm hne)) fun h0 => ?_⟩
    obtain ⟨-, h1, h2⟩ := hin
    rw [h0] at h2
    simp only [pageSize] at h1 h2
    omega
  | openFile => trivial
  | closeFile => trivial
  | alloc => trivial
  | dealloc => trivial
  | mmap => trivial
  | munmap => trivial

/-- **Faults are isolated** in every run that meets the condition. -/
theorem fault_isolated (pfnValid : Nat → Bool) (syncMode : Int) (ops : List NnaOp)
    (hf : Sys.Along (nnaStep pfnValid) NnaFits (nnaInit syncMode) ops) :
    ∃ outs s', Sys.run (nnaStep pfnValid) (nnaInit syncMode) ops = some (outs, s') ∧
      Sys.Trace (fun s op out _ => FaultOk s op out) (nnaInit syncMode) outs s' := by
  have hstep : ∀ s op, AreasOk s.dev.allocatedMemAreas → NnaFits s op →
      ∃ out s', nnaStep pfnValid s op = some (out, s') ∧
        AreasOk s'.dev.allocatedMemAreas ∧ FaultOk s op out := fun s op hok hp => by
    obtain ⟨out, s', hs, hdev⟩ := nnaStep_dev pfnValid s op
    exact ⟨out, s', hs, devStep_ok hok hp hdev, nnaStep_faultOk hok hp hs⟩
  obtain ⟨outs, s', hrun, -, ht⟩ := Sys.run_sim id (I := fun s => AreasOk s.dev.allocatedMemAreas)
    (R := fun s op out _ => FaultOk s op out) hstep ops (nnaInit syncMode) (nnaInit_ok syncMode) hf
  exact ⟨outs, s', hrun, ht⟩

/-- Memory starts at `0x10000000`. -/
def memory (pfn : Nat) : Bool := decide (0x10000 ≤ pfn)

/-- A request for one page. -/
def onePage (memid : Int) : MemAreaRequest := ⟨0, memid, 4096, 0⟩

/-- The first area is allocated and mapped. -/
def mapOps : List NnaOp :=
  [.openFile false, .alloc (onePage 0) ⟨true, true, 0xffffff8010000000, 0x10000000⟩,
    .mmap 1 0x7f0000000000 4096 0 0]

theorem fault_isolated_map : ∃ outs s',
    Sys.run (nnaStep memory) (nnaInit 0) (mapOps ++ [.fault 1 0x7f0000000000]) = some (outs, s') ∧
      Sys.Trace (fun s op out _ => FaultOk s op out) (nnaInit 0) outs s' := by
  refine fault_isolated memory 0 _ ?_
  refine Sys.along_cons trivial rfl (Sys.along_cons ?_ rfl (Sys.along_cons trivial rfl
    (Sys.along_cons ?_ rfl trivial)))
  · intro _ _
    exact ⟨by decide, by decide, fun _ => .inr (.inl rfl)⟩
  · rintro vma hvma -
    obtain rfl : Vma.mk 1 0x7f0000000000 0x7f0000001000 0 false .default true (0, 0) = vma :=
      Option.some.inj hvma
    refine ⟨fun slot hrem hne => absurd ?_ hrem.2.2.2, fun _ => ?_⟩
    · have hother : ∀ (areas : Slot → MemArea) (area : MemArea),
          Function.update areas (0, 0) area slot = areas slot :=
        fun areas area => Function.update_of_ne hne area areas
      exact congrArg MemArea.size ((hother _ _).trans (hother _ _))
    · decide

/-- Its mapping goes, and the second area is mapped at the same address. -/
def remapOps : List NnaOp :=
  mapOps ++ [.munmap 1 0x7f0000000000 4096 .unmaps,
    .alloc (onePage 1) ⟨true, true, 0xffffff8020000000, 0x20000000⟩,
    .mmap 1 0x7f0000000000 4096 1 0]

/-- A fault of the second area's mapping resolves to the first area's page. -/
theorem fault_remapped : ∃ outs s,
    Sys.run (nnaStep memory) (nnaInit 0) remapOps = some (outs, s) ∧
      nnaStep memory s (.fault 1 0x7f0000000000) = some (.page (some 0x10000), s) ∧
      ¬ FaultOk s (.fault 1 0x7f0000000000) (.page (some 0x10000)) := by
  refine ⟨_, _, rfl, ?_, fun h => ?_⟩
  · have hfault : ∀ s : NnaSys, s.findVma 1 0x7f0000000000 =
          some ⟨1, 0x7f0000000000, 0x7f0000001000, 0, false, .default, true, (0, 1)⟩ →
        nnaDeviceVmaFault memory ⟨1, 0x7f0000000000, 0x7f0000001000, 0, false, .default, true,
          (0, 1)⟩ 0 s.dev = some 0x10000 →
        nnaStep memory s (.fault 1 0x7f0000000000) = some (.page (some 0x10000), s) := by
      intro s hvma hpage
      rw [nnaStep, hvma]
      exact congrArg (fun p => some (NnaOut.page p, s)) hpage
    exact hfault _ rfl (by decide +kernel)
  · have hin := (h ⟨1, 0x7f0000000000, 0x7f0000001000, 0, false, .default, true, (0, 1)⟩ _
      rfl rfl).1.2.1
    exact absurd (show (0x20000000 : Nat) ≤ 0x10000 * 4096 from hin) (by decide)

end Acenna
