import FireTablet.Lib.CInt
import Mathlib.Logic.Function.Basic
import Mathlib.Algebra.Group.Int.Defs
import Mathlib.Algebra.Group.Nat.Defs

/-!
# The buffers of the neural network accelerator (`acenna_kmod.c`)

The driver has a table of buffers, one for each memory area of each client. `ALLOC` and `DEALLOC`
fill and empty an area, `mmap` remembers the address at which the area is mapped, and a page fault
finds the area again by that address. The kernel's part is modelled with it as far as it decides
what the driver sees: mapped areas that `munmap` cuts (`mm/mmap.c`), the page offset of a fault, and
the file, which is released when it is closed and nothing of it is mapped.
-/

namespace Acenna

open CInt

/-- `PAGE_SIZE`, `1 << PAGE_SHIFT`. -/
def pageSize : Nat := 4096

/-- `NNA_MAX_CLIENTS`. -/
def nnaMaxClients : Nat := 16

/-- `NNA_MAX_ALLOCATED_MEMAREAS_PER_CLIENT`. -/
def nnaMaxAllocatedMemareasPerClient : Nat := 128

/-- `NNA_MAX_MEMAREA_SIZE`. -/
def nnaMaxMemareaSize : Int := 128 * 1024 * 1024

/-- The error numbers that are returned. -/
def enxio : Int := 6
def ebadf : Int := 9
def enomem : Int := 12
def efault : Int := 14
def einval : Int := 22
def erestartsys : Int := 512

/-- A place in the table: `clientid` and `memid`. -/
abbrev Slot := Nat × Nat

/-- `struct stAllocatedMemArea`; an address is 0 where C has `NULL`. -/
structure MemArea where
  phyAddr : Nat
  kvirtAddr : Nat
  size : Int
  vmStart : Nat
  vmEnd : Nat
  syncMode : Int

/-- `struct nna_device_data`: `devLock` is locked while the device is open. -/
structure NnaDeviceData where
  devLock : Bool
  isOpen : Bool
  syncMode : Int
  buffersAllocated : Int
  memAllocated : Int
  allocatedMemAreas : Slot → MemArea

/-- `vm_page_prot`: all modes but the default are write combined on arm64. -/
inductive PageProt
  | default
  | writecombine
  deriving DecidableEq

/-- `struct vm_area_struct` of a mapping in the address space `vmMm`. `faults` says that `vm_ops`
are those of the driver; `slot` is the area that it was mapped for. -/
structure Vma where
  vmMm : Nat
  vmStart : Nat
  vmEnd : Nat
  vmPgoff : Nat
  vmIo : Bool
  vmPageProt : PageProt
  faults : Bool
  slot : Slot
  deriving DecidableEq

/-- `stMemAreaRequest` as it comes from user space. -/
structure MemAreaRequest where
  clientid : Int
  memid : Int
  size : Int
  syncMode : Int

/-! ## Buffers -/

/-- The index is inside the table. -/
def inTable (clientid memid : Int) : Bool :=
  clientid ≥ 0 && clientid < nnaMaxClients && memid ≥ 0 && memid < nnaMaxAllocatedMemareasPerClient

/-- The table's place of indices that are inside. -/
def slotOf (clientid memid : Int) : Slot := (clientid.toNat, memid.toNat)

/-- An area is changed. -/
def NnaDeviceData.setArea (dev : NnaDeviceData) (slot : Slot) (area : MemArea) : NnaDeviceData :=
  { dev with allocatedMemAreas := Function.update dev.allocatedMemAreas slot area }

/-- A buffer is freed: the same lines in `DEALLOC` and in `buffers_cleanup`. -/
def freeArea (dev : NnaDeviceData) (slot : Slot) : NnaDeviceData :=
  let area := dev.allocatedMemAreas slot
  { dev.setArea slot { area with kvirtAddr := 0, phyAddr := 0, size := 0 } with
    memAllocated := i32 (dev.memAllocated - area.size)
    buffersAllocated := i32 (dev.buffersAllocated - 1) }

/-- `buffers_cleanup`. -/
def buffersCleanup (dev : NnaDeviceData) : NnaDeviceData :=
  (List.range nnaMaxClients).foldl (fun dev clientid =>
    (List.range nnaMaxAllocatedMemareasPerClient).foldl (fun dev memid =>
      if (dev.allocatedMemAreas (clientid, memid)).kvirtAddr ≠ 0 then freeArea dev (clientid, memid)
      else dev) dev) dev

/-- What the kernel answers during an `ALLOC`: whether the request is read and written back, and the
two addresses from `dma_alloc_coherent`. -/
structure AllocEnv where
  copyFromUser : Bool
  copyToUser : Bool
  kvirtAddr : Nat
  phyAddr : Nat

/-- `IS_ERR_OR_NULL`. -/
def isErrOrNull (p : Nat) : Bool := p == 0 || decide (p ≥ 2 ^ 64 - 4095)

/-- `alloc_size`. -/
def allocSize (size : Int) : Int := (size + (pageSize - 1)) / pageSize * pageSize

/-- `NNA_IOCTL_ALLOC`. -/
def ioctlAlloc (req : MemAreaRequest) (env : AllocEnv) (dev : NnaDeviceData) :
    Int × NnaDeviceData :=
  if ¬ env.copyFromUser then (-efault, dev)
  else if ¬(inTable req.clientid req.memid ∧ req.size > 0 ∧ req.size < nnaMaxMemareaSize) then
    (-efault, dev)
  else
    let slot := slotOf req.clientid req.memid
    let area := dev.allocatedMemAreas slot
    if area.kvirtAddr ≠ 0 then (-efault, dev)
    else if isErrOrNull env.kvirtAddr then
      let retval := i32 env.kvirtAddr
      (if retval = 0 then -enomem else retval,
        dev.setArea slot { area with kvirtAddr := 0, phyAddr := 0, size := 0 })
    else
      let dev := { dev.setArea slot { area with
          kvirtAddr := env.kvirtAddr, phyAddr := env.phyAddr, size := allocSize req.size,
          syncMode := req.syncMode } with
        memAllocated := i32 (dev.memAllocated + allocSize req.size)
        buffersAllocated := i32 (dev.buffersAllocated + 1) }
      (if env.copyToUser then 0 else -efault, dev)

/-- `NNA_IOCTL_DEALLOC`. -/
def ioctlDealloc (req : MemAreaRequest) (copyFromUser : Bool) (dev : NnaDeviceData) :
    Int × NnaDeviceData :=
  if ¬ copyFromUser then (-efault, dev)
  else if ¬ inTable req.clientid req.memid then (-efault, dev)
  else
    let area := dev.allocatedMemAreas (slotOf req.clientid req.memid)
    if area.kvirtAddr ≠ 0 ∧ area.size > 0 then (0, freeArea dev (slotOf req.clientid req.memid))
    else (-efault, dev)

/-! ## Syncing and registers -/

/-- `stMemAreaSync` as it comes from user space. -/
structure MemAreaSync where
  clientid : Int
  memid : Int
  size : Int
  offset : Int
  dataDirection : Int

/-- `SYNC_MODE_NONCACHED`. -/
def syncModeNoncached : Int := 1

/-- `allocatedMemAreas[clientid][memid]` for any indices: the record that many records from the
table's start, `outside` the table whatever the memory there holds. -/
def NnaDeviceData.areaAt (dev : NnaDeviceData) (outside : Int → MemArea) (clientid memid : Int) :
    MemArea :=
  let i := clientid * nnaMaxAllocatedMemareasPerClient + memid
  if 0 ≤ i ∧ i < nnaMaxClients * nnaMaxAllocatedMemareasPerClient then
    dev.allocatedMemAreas (slotOf (i / nnaMaxAllocatedMemareasPerClient)
      (i % nnaMaxAllocatedMemareasPerClient))
  else outside i

/-- A call of `dma_sync_single_for_device` or `dma_sync_single_for_cpu`. -/
structure DmaSync where
  phyAddr : Nat
  size : Int
  dataDirection : Int
  deriving DecidableEq

/-- `NNA_IOCTL_SYNC_FOR_DEVICE` and `NNA_IOCTL_SYNC_FOR_CPU`: the result and what is synced. -/
def ioctlSync (req : MemAreaSync) (copyFromUser oSync : Bool) (outside : Int → MemArea)
    (dev : NnaDeviceData) : Int × Option DmaSync :=
  if ¬ copyFromUser then (-efault, none)
  else
    let area := dev.areaAt outside req.clientid req.memid
    if area.phyAddr = 0 ∨ area.kvirtAddr = 0 ∨ area.size = 0 then (-enxio, none)
    else if i32 (req.offset + req.size) > area.size then (-einval, none)
    else if area.syncMode = syncModeNoncached ∨ oSync ∨ req.size = 0 then (0, none)
    else (0, some ⟨area.phyAddr, area.size, req.dataDirection⟩)

/-- `regAccessRequest_t` as it comes from user space. -/
structure RegAccessRequest where
  offset : Int
  value : Nat

/-- `NNA_IOCTL_REG_READ` and `NNA_IOCTL_REG_WRITE`. -/
inductive RegCmd
  | read
  | write
  deriving DecidableEq

/-- An access to the 32-bit word at an address from `nna_reg_base` on, with its value. -/
structure RegAccess where
  regAddr : Nat
  value : Nat
  deriving DecidableEq

/-- A register request: the result and the access. `resourceSize` is `resource_size(&nna_res)`,
`regs` what the registers read. -/
def ioctlReg (cmd : RegCmd) (req : RegAccessRequest) (resourceSize : Nat) (regs : Nat → Nat)
    (copyFromUser copyToUser : Bool) : Int × Option RegAccess :=
  if ¬ copyFromUser then (-efault, none)
  else if req.offset < 0 ∨ u64 req.offset > (resourceSize / 4 : Nat) then (-einval, none)
  else
    let regAddr := 4 * req.offset.toNat
    match cmd with
    | .read => (if copyToUser then 0 else -efault, some ⟨regAddr, regs regAddr⟩)
    | .write => (0, some ⟨regAddr, req.value⟩)

/-! ## Mappings -/

section
variable (pfnValid : Nat → Bool)

/-- The page protection of a synchronisation mode. -/
def syncProt (syncMode : Int) (vma : Vma) : Vma :=
  if syncMode % 4 = 0 then vma else { vma with vmIo := true, vmPageProt := .writecombine }

/-- `nna_device_file_mmap`; `dmaMmap` is the answer of `dma_mmap_coherent`. -/
def nnaDeviceFileMmap (oSync : Bool) (dmaMmap : Int) (vma : Vma) (dev : NnaDeviceData) :
    Int × Vma × NnaDeviceData :=
  let clientid := i32 (vma.vmPgoff / 1000)
  let memid := i32 (vma.vmPgoff % 1000)
  if ¬ inTable clientid memid then (-efault, vma, dev)
  else
    let slot := slotOf clientid memid
    let area := dev.allocatedMemAreas slot
    if ¬(area.kvirtAddr ≠ 0 ∧ area.size ≠ 0) then (-efault, vma, dev)
    else
      let vma :=
        if (oSync ∨ dev.syncMode / 4 % 2 = 1) ∧ area.syncMode = 0 then syncProt dev.syncMode vma
        else syncProt area.syncMode vma
      let vma := { vma with vmPgoff := 0, slot }
      let mapped := dev.setArea slot { area with vmStart := vma.vmStart, vmEnd := vma.vmEnd }
      if pfnValid (area.phyAddr / pageSize) then (0, { vma with faults := true }, mapped)
      else if dmaMmap = 0 then (0, vma, mapped)
      else (dmaMmap, vma, dev.setArea slot { area with vmStart := 0, vmEnd := 0 })

/-- The loop over `memid` in `_nna_device_vma_fault`, which the `break` leaves. -/
def faultMemid (dev : NnaDeviceData) (vmStart clientid : Nat) : Option Nat :=
  (List.range nnaMaxAllocatedMemareasPerClient).find? fun memid =>
    (dev.allocatedMemAreas (clientid, memid)).vmStart = vmStart ∧
      (dev.allocatedMemAreas (clientid, memid)).size ≠ 0

/-- The loop over `clientid` around it, which goes on. -/
def faultArea (dev : NnaDeviceData) (vmStart : Nat) : Option Slot :=
  (List.range nnaMaxClients).foldl (fun found clientid =>
    match faultMemid dev vmStart clientid with
    | some memid => some (clientid, memid)
    | none => found) none

/-- The page at a page offset of a buffer. -/
def faultPage (area : MemArea) (pgoff : Nat) : Option Nat :=
  let offset := pgoff * pageSize % 2 ^ 64
  let physAddr := (area.phyAddr + offset) % 2 ^ 64
  let availableSize := u64 (area.size - offset)
  let pageFrameNum := physAddr / pageSize
  if pageSize > availableSize then none
  else if ¬ pfnValid pageFrameNum then none
  else some pageFrameNum

/-- `_nna_device_vma_fault` at a page offset: the number of the page, or `none` for
`VM_FAULT_SIGBUS`. -/
def nnaDeviceVmaFault (vma : Vma) (pgoff : Nat) (dev : NnaDeviceData) : Option Nat :=
  (faultArea dev vma.vmStart).bind fun slot =>
    faultPage pfnValid (dev.allocatedMemAreas slot) pgoff

end

/-! ## The kernel around the driver -/

/-- `__split_vma` of the areas of an address space at `addr`. -/
def splitVma (mm addr : Nat) (vma : Vma) : List Vma :=
  if vma.vmMm = mm ∧ vma.vmStart < addr ∧ addr < vma.vmEnd then
    [{ vma with vmEnd := addr },
      { vma with vmStart := addr, vmPgoff := vma.vmPgoff + (addr - vma.vmStart) / pageSize }]
  else [vma]

/-- How far `munmap` comes: it may run out of memory before either split. -/
inductive Munmap
  | fails
  | splits
  | unmaps

/-- What `munmap` returns. -/
def Munmap.ret : Munmap → Int
  | .unmaps => 0
  | _ => -enomem

/-- `__do_munmap` of the addresses from `start` to `stop`. -/
def doMunmap (mm start stop : Nat) (how : Munmap) (vmas : List Vma) : List Vma :=
  match how with
  | .fails => vmas
  | .splits => vmas.flatMap (splitVma mm start)
  | .unmaps => ((vmas.flatMap (splitVma mm start)).flatMap (splitVma mm stop)).filter fun vma =>
      ¬(vma.vmMm = mm ∧ start ≤ vma.vmStart ∧ vma.vmEnd ≤ stop)

/-- The device, its file while it is open (with its flag `O_SYNC`), and what is mapped of it. -/
structure NnaSys where
  dev : NnaDeviceData
  file : Option Bool
  vmas : List Vma

/-- The device is not open any more. -/
def NnaDeviceData.closed (dev : NnaDeviceData) : NnaDeviceData :=
  { dev with isOpen := false, devLock := false }

/-- `nna_device_file_release`. -/
def nnaDeviceFileRelease (dev : NnaDeviceData) : NnaDeviceData := (buffersCleanup dev).closed

/-- The kernel releases the file when it is closed and nothing of it is mapped. -/
def fput (s : NnaSys) : NnaSys :=
  if s.file = none ∧ s.vmas = [] ∧ s.dev.devLock then { s with dev := nnaDeviceFileRelease s.dev }
  else s

/-- What user space does. -/
inductive NnaOp
  | openFile (oSync : Bool)
  | closeFile
  | alloc (req : MemAreaRequest) (env : AllocEnv)
  | dealloc (req : MemAreaRequest) (copyFromUser : Bool)
  | mmap (mm addr len pgoff : Nat) (dmaMmap : Int)
  | munmap (mm addr len : Nat) (how : Munmap)
  | fault (mm addr : Nat)

/-- What it gets: a result, a page or `SIGBUS`, or `SIGSEGV`. -/
inductive NnaOut
  | ret (r : Int)
  | page (pfn : Option Nat)
  | segv
  deriving DecidableEq

/-- `PAGE_ALIGN`. -/
def pageAlign (len : Nat) : Nat := (len + (pageSize - 1)) / pageSize * pageSize

/-- The area at an address. -/
def NnaSys.findVma (s : NnaSys) (mm addr : Nat) : Option Vma :=
  s.vmas.find? fun vma => vma.vmMm = mm ∧ vma.vmStart ≤ addr ∧ addr < vma.vmEnd

/-- `linear_page_index`. -/
def linearPageIndex (vma : Vma) (addr : Nat) : Nat :=
  (addr - vma.vmStart) / pageSize + vma.vmPgoff

/-- `nna_device_file_open`. -/
def nnaDeviceFileOpen (oSync : Bool) (s : NnaSys) : Int × NnaSys :=
  if s.dev.devLock then (-erestartsys, s)
  else (0, { s with dev := { s.dev with devLock := true, isOpen := true }, file := some oSync })

/-- The mapping is there once the driver has accepted it. -/
def NnaSys.map (s : NnaSys) (vmas : List Vma) (res : Int × Vma × NnaDeviceData) : Int × NnaSys :=
  (res.1, { s with dev := res.2.2, vmas := if res.1 = 0 then res.2.1 :: vmas else vmas })

/-- `mmap` of the file at an address that the kernel found or was given. -/
def sysMmap (pfnValid : Nat → Bool) (oSync : Bool) (mm addr len pgoff : Nat) (dmaMmap : Int)
    (s : NnaSys) : Int × NnaSys :=
  if addr % pageSize ≠ 0 ∨ len = 0 then (-einval, s)
  else
    s.map (doMunmap mm addr (addr + pageAlign len) .unmaps s.vmas)
      (nnaDeviceFileMmap pfnValid oSync dmaMmap
        ⟨mm, addr, addr + pageAlign len, pgoff, false, .default, false, (0, 0)⟩ s.dev)

/-- One step. -/
def nnaStep (pfnValid : Nat → Bool) (s : NnaSys) : NnaOp → Option (NnaOut × NnaSys)
  | .openFile oSync => let (r, s) := nnaDeviceFileOpen oSync s; some (.ret r, s)
  | .closeFile => some (.ret 0, fput { s with file := none })
  | .alloc req env =>
    if s.file = none then some (.ret (-ebadf), s)
    else let (r, dev) := ioctlAlloc req env s.dev; some (.ret r, { s with dev })
  | .dealloc req copyFromUser =>
    if s.file = none then some (.ret (-ebadf), s)
    else let (r, dev) := ioctlDealloc req copyFromUser s.dev; some (.ret r, { s with dev })
  | .mmap mm addr len pgoff dmaMmap =>
    match s.file with
    | none => some (.ret (-ebadf), s)
    | some oSync =>
      let (r, s) := sysMmap pfnValid oSync mm addr len pgoff dmaMmap s
      some (.ret r, s)
  | .munmap mm addr len how =>
    if addr % pageSize ≠ 0 ∨ len = 0 then some (.ret (-einval), s)
    else
      some (.ret how.ret, fput { s with vmas := doMunmap mm addr (addr + pageAlign len) how s.vmas })
  | .fault mm addr =>
    match s.findVma mm addr with
    | none => some (.segv, s)
    | some vma =>
      some (.page (if vma.faults then
          nnaDeviceVmaFault pfnValid vma (linearPageIndex vma addr) s.dev
        else none), s)

/-- The device after it is probed. -/
def nnaInit (syncMode : Int) : NnaSys :=
  ⟨⟨false, false, syncMode, 0, 0, fun _ => ⟨0, 0, 0, 0, 0, 0⟩⟩, none, []⟩

end Acenna
