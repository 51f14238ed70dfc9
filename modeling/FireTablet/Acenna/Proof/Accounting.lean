import FireTablet.Acenna.Proof.KmodFacts
import FireTablet.Lib.Run
import Mathlib.Algebra.BigOperators.Group.Finset.Basic
import Mathlib.Algebra.BigOperators.Ring.Finset
import Mathlib.Algebra.Order.BigOperators.Group.Finset

/-!
# The counters of the buffers

The device has one counter of buffers and one of bytes, whatever the client. In every state that is
reached the first is the number of areas with a buffer, and the second the sum of their sizes as an
`int` (`accounting`): it is the sum itself while the buffers have less than 2 GiB together.
-/

namespace Acenna

open CInt

/-! ## Sums over the table -/

/-- The places of the table. -/
def table : Finset Slot :=
  Finset.range nnaMaxClients ×ˢ Finset.range nnaMaxAllocatedMemareasPerClient

theorem mem_table {slot : Slot} : slot ∈ table ↔ InTable slot := by
  simp [table, InTable]

theorem card_table : table.card = 2048 := by
  simp [table, nnaMaxClients, nnaMaxAllocatedMemareasPerClient]

/-- A sum after one place is changed. -/
theorem sum_setArea {areas : Slot → MemArea} {slot : Slot} (h : InTable slot) (area : MemArea)
    (f : MemArea → Int) :
    ∑ t ∈ table, f (Function.update areas slot area t) =
      ∑ t ∈ table, f (areas t) - f (areas slot) + f area := by
  have hmem : slot ∈ table := mem_table.2 h
  have hf : ∀ t, f (Function.update areas slot area t) =
      Function.update (fun t => f (areas t)) slot (f area) t := by
    intro t
    by_cases ht : t = slot
    · subst ht; simp
    · simp [Function.update_of_ne ht]
  simp only [hf]
  rw [Finset.sum_update_of_mem hmem, Finset.sdiff_singleton_eq_erase,
    ← Finset.add_sum_erase table (fun t => f (areas t)) hmem]
  omega

/-- The number of areas with a buffer. -/
def occupied (areas : Slot → MemArea) : Int :=
  (table.filter fun slot => (areas slot).kvirtAddr ≠ 0).card

/-- The sizes of the buffers together. -/
def totalSize (areas : Slot → MemArea) : Int := ∑ slot ∈ table, (areas slot).size

theorem occupied_eq_sum (areas : Slot → MemArea) :
    occupied areas = ∑ slot ∈ table, if (areas slot).kvirtAddr ≠ 0 then (1 : Int) else 0 := by
  rw [occupied, Finset.card_filter, Nat.cast_sum]
  exact Finset.sum_congr rfl fun slot _ => by split <;> rfl

theorem occupied_nonneg (areas : Slot → MemArea) : 0 ≤ occupied areas := Int.natCast_nonneg _

theorem occupied_le (areas : Slot → MemArea) : occupied areas ≤ 2048 := by
  have h := Finset.card_filter_le table fun slot => (areas slot).kvirtAddr ≠ 0
  rw [card_table] at h
  exact Int.ofNat_le.2 h

/-- An area with a buffer is counted. -/
theorem occupied_pos {areas : Slot → MemArea} {slot : Slot} (h : InTable slot)
    (hk : (areas slot).kvirtAddr ≠ 0) : 1 ≤ occupied areas := by
  have hmem : slot ∈ table.filter fun slot => (areas slot).kvirtAddr ≠ 0 :=
    Finset.mem_filter.2 ⟨mem_table.2 h, hk⟩
  have hpos := Finset.card_pos.2 ⟨slot, hmem⟩
  unfold occupied
  omega

/-! ## The accounts -/

/-- An area has an address exactly when it has a size, of whole pages. -/
structure SlotOk (area : MemArea) : Prop where
  kvirt : area.kvirtAddr ≠ 0 ↔ 0 < area.size
  nonneg : 0 ≤ area.size
  whole : area.size % pageSize = 0

/-- The counters are right. -/
structure Accounted (dev : NnaDeviceData) : Prop where
  slot : ∀ slot, SlotOk (dev.allocatedMemAreas slot)
  buffers : dev.buffersAllocated = occupied dev.allocatedMemAreas
  mem : dev.memAllocated = i32 (totalSize dev.allocatedMemAreas)

theorem SlotOk.empty (area : MemArea) : SlotOk area.empty :=
  ⟨⟨fun h => absurd rfl h, fun h => absurd h (Int.lt_irrefl 0)⟩, Int.le_refl 0, rfl⟩

theorem SlotOk.size_eq_zero {area : MemArea} (h : SlotOk area) (hk : area.kvirtAddr = 0) :
    area.size = 0 := by
  have hpos := h.kvirt
  have hnn := h.nonneg
  rw [hk] at hpos
  omega

theorem slots_setArea {areas : Slot → MemArea} (h : ∀ t, SlotOk (areas t)) (slot : Slot)
    {area : MemArea} (ha : SlotOk area) (t : Slot) : SlotOk (Function.update areas slot area t) := by
  by_cases ht : t = slot
  · subst ht; rwa [Function.update_self]
  · rw [Function.update_of_ne ht]; exact h t

/-- The counts after one place is changed. -/
theorem occupied_setArea {m : Slot → MemArea} {slot : Slot} (h : InTable slot) (area : MemArea) :
    occupied (Function.update m slot area) =
      occupied m - (if (m slot).kvirtAddr ≠ 0 then 1 else 0) +
        (if area.kvirtAddr ≠ 0 then 1 else 0) := by
  rw [occupied_eq_sum, occupied_eq_sum]
  exact sum_setArea h area fun area => if area.kvirtAddr ≠ 0 then 1 else 0

theorem totalSize_setArea {m : Slot → MemArea} {slot : Slot} (h : InTable slot)
    (area : MemArea) : totalSize (Function.update m slot area) =
      totalSize m - (m slot).size + area.size :=
  sum_setArea h area MemArea.size

/-- A counter that is within the table does not wrap. -/
theorem i32_occupied {x : Int} (h0 : 0 ≤ x) (h : x ≤ 2049) : i32 x = x :=
  i32_eq (by unfold IsI32; omega)

/-- Freeing a buffer. -/
theorem Accounted.free {dev : NnaDeviceData} (h : Accounted dev) {slot : Slot} (hs : InTable slot)
    (hk : (dev.allocatedMemAreas slot).kvirtAddr ≠ 0) : Accounted (freeArea dev slot) := by
  refine ⟨fun t => slots_setArea h.slot slot (SlotOk.empty _) t, ?_, ?_⟩
  · have hpos := occupied_pos hs hk
    have hle := occupied_le dev.allocatedMemAreas
    have hocc := occupied_setArea (m := dev.allocatedMemAreas) hs
      (dev.allocatedMemAreas slot).empty
    rw [if_pos hk, if_neg (not_not_intro (show MemArea.kvirtAddr (MemArea.empty _) = 0
      from rfl))] at hocc
    show i32 (dev.buffersAllocated - 1) =
      occupied (Function.update dev.allocatedMemAreas slot (dev.allocatedMemAreas slot).empty)
    rw [hocc, h.buffers, i32_occupied (by omega) (by omega), Int.add_zero]
  · have htot := totalSize_setArea (m := dev.allocatedMemAreas) hs
      (dev.allocatedMemAreas slot).empty
    show i32 (dev.memAllocated - (dev.allocatedMemAreas slot).size) =
      i32 (totalSize (Function.update dev.allocatedMemAreas slot
        (dev.allocatedMemAreas slot).empty))
    rw [htot, h.mem]
    show _ = i32 (_ + 0)
    unfold i32
    omega

/-- Allocating a buffer. -/
theorem Accounted.alloc {dev : NnaDeviceData} (h : Accounted dev) {req : MemAreaRequest}
    {env : AllocEnv} (ha : AllocArgs req dev) (herr : isErrOrNull env.kvirtAddr = false) :
    Accounted (dev.alloc req env) := by
  obtain ⟨hpos, hwhole, -⟩ := allocSize_ok ha.pos ha.lt
  have hk : env.kvirtAddr ≠ 0 := by
    intro h0
    rw [h0] at herr
    cases herr
  have hfill : SlotOk ((dev.allocatedMemAreas req.slot).fill req env) :=
    ⟨⟨fun _ => hpos, fun _ => hk⟩, Int.le_of_lt hpos, hwhole⟩
  refine ⟨fun t => slots_setArea h.slot req.slot hfill t, ?_, ?_⟩
  · have hle := occupied_le dev.allocatedMemAreas
    have h0 := occupied_nonneg dev.allocatedMemAreas
    have hocc := occupied_setArea (m := dev.allocatedMemAreas) ha.slot
      ((dev.allocatedMemAreas req.slot).fill req env)
    rw [if_neg (not_not_intro ha.free), if_pos (show MemArea.kvirtAddr (MemArea.fill _ req env) ≠ 0
      from hk)] at hocc
    show i32 (dev.buffersAllocated + 1) = occupied (Function.update dev.allocatedMemAreas req.slot
      ((dev.allocatedMemAreas req.slot).fill req env))
    rw [hocc, h.buffers, i32_occupied (by omega) (by omega), Int.sub_zero]
  · have htot := totalSize_setArea (m := dev.allocatedMemAreas) ha.slot
      ((dev.allocatedMemAreas req.slot).fill req env)
    rw [(h.slot req.slot).size_eq_zero ha.free, Int.sub_zero] at htot
    show i32 (dev.memAllocated + allocSize req.size) = i32 (totalSize (Function.update
      dev.allocatedMemAreas req.slot ((dev.allocatedMemAreas req.slot).fill req env)))
    rw [htot, h.mem]
    show _ = i32 (_ + allocSize req.size)
    unfold i32
    omega

/-- An area changes that has the same buffer as before. -/
theorem Accounted.setArea {dev : NnaDeviceData} (h : Accounted dev) {slot : Slot} {area : MemArea}
    (hk : area.kvirtAddr = (dev.allocatedMemAreas slot).kvirtAddr)
    (hsize : area.size = (dev.allocatedMemAreas slot).size) : Accounted (dev.setArea slot area) := by
  have hok : SlotOk area := by
    obtain ⟨h1, h2, h3⟩ := h.slot slot
    exact ⟨by rw [hk, hsize]; exact h1, by rw [hsize]; exact h2, by rw [hsize]; exact h3⟩
  have hsame : ∀ t, (Function.update dev.allocatedMemAreas slot area t).kvirtAddr =
      (dev.allocatedMemAreas t).kvirtAddr ∧
      (Function.update dev.allocatedMemAreas slot area t).size =
        (dev.allocatedMemAreas t).size := by
    intro t
    by_cases ht : t = slot
    · subst ht; rw [Function.update_self]; exact ⟨hk, hsize⟩
    · rw [Function.update_of_ne ht]; exact ⟨rfl, rfl⟩
  refine ⟨fun t => slots_setArea h.slot slot hok t, ?_, ?_⟩
  · show dev.buffersAllocated = occupied (Function.update dev.allocatedMemAreas slot area)
    rw [h.buffers]
    simp [occupied, hsame]
  · show dev.memAllocated = i32 (totalSize (Function.update dev.allocatedMemAreas slot area))
    rw [h.mem]
    simp [totalSize, hsame]

/-! ## Steps and runs -/

theorem nnaInit_accounted (syncMode : Int) : Accounted (nnaInit syncMode).dev := by
  refine ⟨fun _ => SlotOk.empty ⟨0, 0, 0, 0, 0, 0⟩, ?_, ?_⟩
  · show (0 : Int) = occupied fun _ => ⟨0, 0, 0, 0, 0, 0⟩
    simp [occupied]
  · show (0 : Int) = i32 (totalSize fun _ => ⟨0, 0, 0, 0, 0, 0⟩)
    simp [totalSize, i32]

theorem Accounted.closed {dev : NnaDeviceData} (h : Accounted dev) : Accounted dev.closed :=
  ⟨h.slot, h.buffers, h.mem⟩

/-- **One step** keeps the accounts. -/
theorem devStep_accounted {pfnValid : Nat → Bool} {dev dev' : NnaDeviceData} {op : NnaOp}
    (h : Accounted dev) (hstep : DevStep pfnValid dev op dev') : Accounted dev' := by
  cases hstep with
  | same => exact h
  | opened => exact ⟨h.slot, h.buffers, h.mem⟩
  | released =>
    have hclean : Accounted (buffersCleanup dev) :=
      buffersCleanup_induction (fun _ _ h hs hk => h.free hs hk) h
    rw [nnaDeviceFileRelease]
    exact hclean.closed
  | alloc req env =>
    rcases ioctlAlloc_cases req env dev with he | ⟨ha, -, he⟩ | ⟨ha, herr, he⟩
    · rw [he]; exact h
    · rw [he]
      exact h.setArea ha.free.symm ((h.slot req.slot).size_eq_zero ha.free).symm
    · rw [he]; exact h.alloc ha herr
  | dealloc req copyFromUser =>
    rcases ioctlDealloc_cases req copyFromUser dev with he | ⟨hs, hk, -, he⟩
    · rw [he]; exact h
    · rw [he]; exact h.free hs hk
  | mmap mm addr len pgoff hres =>
    rcases nnaDeviceFileMmap_cases hres with he | ⟨slot, vmStart, vmEnd, he⟩
    · rw [he]; exact h
    · rw [he]; exact h.setArea rfl rfl

/-- **The accounts** are right in every state that is reached. -/
theorem accounting (pfnValid : Nat → Bool) (syncMode : Int) (ops : List NnaOp) :
    ∃ outs s, Sys.run (nnaStep pfnValid) (nnaInit syncMode) ops = some (outs, s) ∧
      Accounted s.dev ∧ 0 ≤ s.dev.buffersAllocated ∧ s.dev.buffersAllocated ≤ 2048 ∧
      (totalSize s.dev.allocatedMemAreas < 2 ^ 31 →
        s.dev.memAllocated = totalSize s.dev.allocatedMemAreas ∧ 0 ≤ s.dev.memAllocated) := by
  have hstep : ∀ s op, Accounted s.dev → True → ∃ out s', nnaStep pfnValid s op = some (out, s') ∧
      Accounted s'.dev ∧ True := by
    intro s op h _
    obtain ⟨out, s', hs, hdev⟩ := nnaStep_dev pfnValid s op
    exact ⟨out, s', hs, devStep_accounted h hdev, trivial⟩
  obtain ⟨outs, s, hrun, h, -⟩ := Sys.run_sim id (I := fun s => Accounted s.dev)
    (P := fun _ _ => True) (R := fun _ _ _ _ => True) hstep ops (nnaInit syncMode)
    (nnaInit_accounted syncMode) (Sys.along_of_forall (fun _ _ => trivial) ops _)
  refine ⟨outs, s, hrun, h, ?_, ?_, fun hlt => ?_⟩
  · rw [h.buffers]; exact occupied_nonneg _
  · rw [h.buffers]; exact occupied_le _
  · have hnn : 0 ≤ totalSize s.dev.allocatedMemAreas :=
      Finset.sum_nonneg fun slot _ => (h.slot slot).nonneg
    have hmem := h.mem
    rw [i32_eq (by unfold IsI32; omega)] at hmem
    exact ⟨hmem, by omega⟩

/-- The number of buffers of a client. -/
def clientOccupied (areas : Slot → MemArea) (clientid : Nat) : Nat :=
  (List.range nnaMaxAllocatedMemareasPerClient).countP fun memid =>
    (areas (clientid, memid)).kvirtAddr ≠ 0

/-- A buffer for each of two clients. -/
def twoClients : List NnaOp :=
  [.openFile false, .alloc ⟨0, 0, 4096, 0⟩ ⟨true, true, 0xffffff8010000000, 0x10000000⟩,
    .alloc ⟨1, 0, 4096, 0⟩ ⟨true, true, 0xffffff8020000000, 0x20000000⟩]

/-- Sixteen buffers of 128 MiB. -/
def twoGiB : List NnaOp :=
  .openFile false :: (List.range 16).map fun memid : Nat =>
    .alloc ⟨0, memid, 0x7ffffff, 0⟩
      ⟨true, true, 0xffffff8100000000 + memid * 0x8000000, 0x100000000 + memid * 0x8000000⟩

/-- The counter of buffers is that of both clients, and the counter of bytes may be negative. -/
theorem accounting_shared :
    (∃ outs s, Sys.run (nnaStep fun _ => true) (nnaInit 0) twoClients = some (outs, s) ∧
      s.dev.buffersAllocated = 2 ∧ clientOccupied s.dev.allocatedMemAreas 0 = 1 ∧
      clientOccupied s.dev.allocatedMemAreas 1 = 1) ∧
    ∃ outs s, Sys.run (nnaStep fun _ => true) (nnaInit 0) twoGiB = some (outs, s) ∧
      s.dev.memAllocated = -2 ^ 31 := by
  refine ⟨⟨_, _, rfl, ?_, ?_, ?_⟩, ?_⟩
  · decide +kernel
  · decide +kernel
  · decide +kernel
  · have hmem : (Sys.run (nnaStep fun _ => true) (nnaInit 0) twoGiB).map
        (fun q => q.2.dev.memAllocated) = some (-2 ^ 31) := by decide +kernel
    obtain ⟨q, hq, hm⟩ := Option.map_eq_some_iff.1 hmem
    exact ⟨q.1, q.2, hq, hm⟩

end Acenna
