import Mathlib.Data.List.Basic

/-!
# The compressed memory dump (`mdump.c`)

After a crash the compressed dump lies in physical memory. It is read through a file, and one chunk
of it at a time is mapped. Offsets and counts are those of `loff_t` and `size_t`, and an access that
leaves the mapping is `none`.
-/

namespace Mdump

def erange : Int := 34
def pageSize : Nat := 4096

/-- `PHYMEM_MAP_CHUNK`. -/
def chunk : Nat := 0x2000000

/-- `COMPRESS_START_ADDRESS`. -/
def start : Nat := 0x72300000

/-! ## Mapping -/

/-- Pages mapped at consecutive addresses, by their frame numbers, and the address in the first page
that is handed out. -/
structure Vmap where
  count : Nat
  pfn : Nat → Nat
  offset : Nat

/-- The physical address of the `k`-th byte. -/
def Vmap.phys (m : Vmap) (k : Nat) : Nat :=
  m.pfn ((m.offset + k) / pageSize) * pageSize + (m.offset + k) % pageSize

/-- The pages cover `count` bytes from the `k`-th one. -/
def Vmap.Covers (m : Vmap) (k count : Nat) : Prop := m.offset + k + count ≤ m.count * pageSize

instance (m : Vmap) (k count : Nat) : Decidable (m.Covers k count) :=
  inferInstanceAs (Decidable (_ ≤ _))

/-- `remap_lowmem`; `ok` says whether the page array and the mapping are to be had. -/
def remapLowmem (ok : Bool) (start size : Nat) : Option Vmap :=
  let pageStart := start - start % pageSize
  let pageCount := (size + start % pageSize + (pageSize - 1)) / pageSize
  if ok then
    some ⟨pageCount, fun i => (pageStart + i * pageSize) / pageSize, start % pageSize⟩
  else none

/-- `struct mdcompbinattr`; `vaddr` is `none` for `NULL`. -/
structure Compdump where
  vaddr : Option Vmap
  paddr : Nat
  size : Nat

/-- The file's attribute and the physical memory. -/
structure State where
  dump : Compdump
  mem : Nat → UInt8

/-! ## Reading -/

/-- A call of `read`, with the outcome of a mapping. -/
structure Read where
  off : Int
  count : Nat
  ok : Bool
  off_ge : -9223372036854775808 ≤ off
  off_lt : off < 9223372036854775808
  count_lt : count < 18446744073709551616

/-- What is returned: the value, the addresses that were copied from and what was there. -/
structure Answer where
  ret : Int
  source : List Nat
  bytes : List UInt8
  deriving DecidableEq

/-- The offset as it is compared. -/
def Read.uoff (r : Read) : Nat := (r.off % 18446744073709551616).toNat

/-- The start of the chunk that an offset is in. -/
def expbase (off : Nat) : Nat := (off - off % chunk + start) % 18446744073709551616

/-- Another chunk is mapped. -/
def Compdump.Remaps (d : Compdump) (off : Nat) : Prop := expbase off > d.paddr % 4294967296

instance (d : Compdump) (off : Nat) : Decidable (d.Remaps off) := inferInstanceAs (Decidable (_ > _))

/-- Clear what has been copied. -/
def State.clear (s : State) (source : List Nat) : State :=
  { s with mem := fun a => if a ∈ source then 0 else s.mem a }

/-- Copy `count` bytes of the mapping, behind the first `k`, clear them and flush them. -/
def Vmap.take (m : Vmap) (s : State) (k count : Nat) : Option (Answer × State) :=
  if m.Covers k count then
    let source := (List.range count).map fun i => m.phys (k + i)
    some (⟨count, source, source.map s.mem⟩, s.clear source)
  else none

/-- The end of `mdump_compdump_binary_read`, with the chunk as mapped. -/
def readMapped (s : State) (off count : Nat) : Option (Answer × State) :=
  let skip := off - (expbase off - start)
  let count := if (skip + count) % 18446744073709551616 > chunk then chunk - skip else count
  if count ≠ 0 then
    match s.dump.vaddr with
    | none => none
    | some m => m.take s skip count
  else some (⟨0, [], []⟩, s)

/-- `mdump_compdump_binary_read`. -/
def mdumpCompdumpBinaryRead (s : State) (r : Read) : Option (Answer × State) :=
  let off := r.uoff
  if off > s.dump.size then some (⟨-erange, [], []⟩, s)
  else
    let count :=
      if (off + r.count) % 18446744073709551616 > s.dump.size then s.dump.size - off else r.count
    if s.dump.Remaps off then
      match remapLowmem r.ok (expbase off) chunk with
      | none => some (⟨0, [], []⟩, { s with dump := { s.dump with vaddr := none } })
      | some m =>
        readMapped { s with dump := { s.dump with vaddr := some m, paddr := expbase off } } off count
    else readMapped s off count

/-- A read, or a change of the memory by others. -/
inductive Event where
  | read (r : Read)
  | memory (mem : Nat → UInt8)

def step (s : State) : Event → Option (Answer × State)
  | .read r => mdumpCompdumpBinaryRead s r
  | .memory mem => some (⟨0, [], []⟩, { s with mem := mem })

/-! ## The check at the start -/

/-- `COMP_HEAD_SIGNATURE`, with the terminating zero. -/
def compHeadSignature : List UInt8 :=
  [85, 70, 66, 76, 67, 79, 77, 80, 68, 85, 77, 80, 83, 84, 65, 0]

/-- The size of `struct compress_file_header`. -/
def headerSize : Nat := 24

/-- Some bytes of the mapping. -/
def Vmap.bytes (m : Vmap) (mem : Nat → UInt8) (k count : Nat) : List UInt8 :=
  (List.range count).map fun i => mem (m.phys (k + i))

/-- A `uint32_t` of the mapping. -/
def Vmap.word (m : Vmap) (mem : Nat → UInt8) (k : Nat) : Nat :=
  (m.bytes mem k 4).foldr (fun b n => b.toNat + 256 * n) 0

/-- `check_compress_dump`, with the outcomes of the mapping and of the file's creation: the
attribute with a file, if there is one. -/
def checkCompressDump (enableFlags backupReason : Nat) (mapOk createOk : Bool) (mem : Nat → UInt8) :
    Option Compdump :=
  if enableFlags = 0 ∨ backupReason ≠ 0x3C ∧ backupReason ≠ 0x2D ∧ backupReason ≠ 0xE1 then none
  else
    match remapLowmem mapOk start chunk with
    | none => none
    | some m =>
      if m.bytes mem 0 16 ≠ compHeadSignature then none
      else if m.word mem 16 = 0 ∨ m.word mem 20 ≤ headerSize then none
      else if createOk then some ⟨some m, start, m.word mem 20⟩
      else none

end Mdump
