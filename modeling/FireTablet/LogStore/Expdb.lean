import Mathlib.Data.Fintype.Basic
import FireTablet.Lib.CInt
import FireTablet.Lib.Buf
import FireTablet.Lib.Mem

/-!
# The log in the expdb partition (`log_store.c`)

The last `EXPDB_LOG_SIZE` bytes of the partition are the log area. A header lies `reserve[1]` bytes
before the end of the partition, and a table of the logs that were stored follows it. The functions
read the header, change it and write it back; `log_store_to_emmc` also writes the lines of the
kernel log, from the offset in the header on.
-/

namespace LogStore

def logEmmcSig : UInt32 := 0x785690ef
def flagDisable : UInt32 := 0x44495341
def flagEnable : UInt32 := 0x454E454E
def logBlockSize : Nat := 512
def expdbLogSize : Nat := 2097152
def headerIndexMax : UInt32 := 0x10
def logLastKernel : UInt32 := 0x06
def bootPhaseMask : UInt32 := 0xf
def enospc : Int := 28

/-- `sizeof(struct log_emmc_header)`. -/
def sizeofHeader : Nat := 52

/-- `sizeof(struct emmc_log)`. -/
def sizeofEmmcLog : Nat := 12

/-! ## The header -/

/-! `enum EMMC_STORE_FLAG_TYPE`, as indices into `reserve_flag`. -/

def uartLog : Fin 11 := 0
def logIndex : Fin 11 := 1
def printkRatelimit : Fin 11 := 2
def kedumpCtl : Fin 11 := 3
def bootStep : Fin 11 := 4
def emmcStoreFlagTypeNr : Int := 5

/-- `struct log_emmc_header`. -/
structure LogEmmcHeader where
  sig : UInt32
  offset : UInt32
  reserveFlag : Fin 11 → UInt32
  deriving DecidableEq

namespace LogEmmcHeader

/-- A header that has just been formatted. -/
def fresh : LogEmmcHeader := ⟨logEmmcSig, 0, fun _ => 0⟩

def setFlag (h : LogEmmcHeader) (type : Fin 11) (v : UInt32) : LogEmmcHeader :=
  { h with reserveFlag := Function.update h.reserveFlag type v }

def encode (h : LogEmmcHeader) : List UInt8 :=
  Bytes.ofWords (h.sig :: h.offset :: List.ofFn h.reserveFlag)

/-- The header in a buffer of zeros over which bytes have been read. -/
def decode (bs : List UInt8) : LogEmmcHeader :=
  ⟨Bytes.word bs 0, Bytes.word bs 1, fun i => Bytes.word bs (i + 2)⟩

/-- The header is formatted if its signature is wrong. -/
def format (h : LogEmmcHeader) : LogEmmcHeader := if h.sig ≠ logEmmcSig then fresh else h

end LogEmmcHeader

/-! ## The partition as an open file -/

/-- The size of the partition, and `sram_header->reserve[1]` as `log_store_early_init` accepts it.
-/
structure Expdb where
  fileSize : Nat
  reserve1 : Nat
  pos : 0 < reserve1
  le : reserve1 ≤ expdbLogSize
  log_le : expdbLogSize ≤ fileSize
  lt : fileSize < 2 ^ 31

/-- What is written where. -/
inductive Area
  | header
  | index
  | text
  deriving DecidableEq, Repr

/-- A write: what it is for, its position and how many bytes were written. -/
structure Write where
  area : Area
  pos : Nat
  len : Nat
  deriving DecidableEq, Repr

/-- The open partition with the writes so far. -/
structure Filp where
  disk : Mem
  pos : Nat
  writes : List Write

section
variable (p : Expdb)

/-- `llseek(filp, pos, SEEK_SET)`; a position outside of the partition is refused. -/
def llseek (f : Filp) (pos : Int) : Filp :=
  if 0 ≤ pos ∧ pos ≤ p.fileSize then { f with pos := pos.toNat } else f

/-- The bytes that `read` reads. -/
def read (f : Filp) (n : Nat) : List UInt8 := f.disk.load f.pos (min n (p.fileSize - f.pos))

/-- `write`, up to the end of the partition. -/
def write (f : Filp) (area : Area) (bs : List UInt8) : Int × Filp :=
  if p.fileSize ≤ f.pos ∧ bs ≠ [] then (-enospc, f)
  else
    let n := min bs.length (p.fileSize - f.pos)
    (n, ⟨f.disk.store f.pos (bs.take n), f.pos + n, f.writes ++ [⟨area, f.pos, n⟩]⟩)

/-- The position of the header. -/
def headerPos : Int := p.fileSize - p.reserve1

/-- The header is read into zeros. -/
def readHeader (disk : Mem) : LogEmmcHeader :=
  .decode (read p (llseek p ⟨disk, 0, []⟩ (headerPos p)) sizeofHeader)

/-- The header is written. -/
def writeHeader (f : Filp) (pos : Int) (h : LogEmmcHeader) : Filp :=
  (write p (llseek p f pos) .header h.encode).2

/-! ## The functions -/

/-- The partition and the static `last_boot_phase`. -/
structure State where
  disk : Mem
  lastBootPhase : UInt32

/-- The boot step of a header for a new phase. -/
def LogEmmcHeader.setBootStep (h : LogEmmcHeader) (step : UInt32) : LogEmmcHeader :=
  h.setFlag bootStep ((h.reserveFlag bootStep &&& (bootPhaseMask <<< 4)) ||| (step <<< 0))

/-- `set_boot_phase`; `needSave` is `NEED_SAVE_TO_EMMC` in the flag of the DRAM buffer, `opened`
that the partition could be opened. -/
def setBootPhase (s : State) (step : UInt32) (needSave opened : Bool) : State × List Write :=
  if needSave ∨ ¬ opened then (s, [])
  else
    let h := readHeader p s.disk
    let last := if h.sig = logEmmcSig ∧ s.lastBootPhase = 0 then
      (h.reserveFlag bootStep >>> 4) &&& bootPhaseMask else s.lastBootPhase
    let f := writeHeader p ⟨s.disk, 0, []⟩ (headerPos p) (h.format.setBootStep step)
    (⟨f.disk, last⟩, f.writes)

/-- A line that `kmsg_dump_get_line_nolock` copies into a buffer of `LOG_BLOCK_SIZE` bytes. -/
abbrev Line := { bs : List UInt8 // bs.length ≤ logBlockSize }

/-- The place of a line: at the offset, or at the start of the log area where it would come too near
to its end. -/
def lineStart (offset : Nat) (line : Line) : Nat :=
  if offset + line.val.length + logBlockSize > expdbLogSize then 0 else offset

/-- One turn of the loop of `log_store_to_emmc`. -/
def storeLine (r : Nat × Filp) (line : Line) : Nat × Filp :=
  let offset := lineStart r.1 line
  let w := write p (llseek p r.2 (p.fileSize - expdbLogSize + offset)) .text line.val
  (if w.1 < 0 then offset else (offset + w.1.toNat) % 2 ^ 32, w.2)

/-- `log_store_to_emmc`, with the lines of the kernel log. -/
def logStoreToEmmc (s : State) (lines : List Line) (opened : Bool) : State × List Write :=
  if ¬ opened then (s, [])
  else
    let h := (readHeader p s.disk).format
    let r := lines.foldl (storeLine p) (h.offset.toNat, ⟨s.disk, 0, []⟩)
    let stop := UInt32.ofNat r.1
    -- the position of the table entry is an `int`
    let size := CInt.i32 (headerPos p + sizeofHeader +
      (h.reserveFlag logIndex).toNat * sizeofEmmcLog)
    let f := (write p (llseek p r.2 size) .index (Bytes.ofWords [logLastKernel, h.offset, stop])).2
    let index := (h.reserveFlag logIndex + 1) % headerIndexMax
    let f := writeHeader p f (headerPos p) ({ h with offset := stop }.setFlag logIndex index)
    (⟨f.disk, s.lastBootPhase⟩, f.writes)

/-- What `set_emmc_config` stores for a value. -/
def configValue (type : Fin 11) (value : Int) : UInt32 :=
  if type = uartLog ∨ type = printkRatelimit ∨ type = kedumpCtl then
    if value ≠ 0 then flagEnable else flagDisable
  else UInt32.ofNat (CInt.u32 value).toNat

/-- `set_emmc_config`; the header is written one block before the end of the partition. -/
def setEmmcConfig (s : State) (type value : Int) (opened : Bool) : Int × State × List Write :=
  if emmcStoreFlagTypeNr ≤ type ∨ type < 0 ∨ ¬ opened then (-1, s, [])
  else
    let h := readHeader p s.disk
    if h.sig ≠ logEmmcSig then (-1, s, [])
    else
      let flag := Fin.ofNat 11 type.toNat
      let f := writeHeader p ⟨s.disk, 0, []⟩ (p.fileSize - logBlockSize)
        (h.setFlag flag (configValue flag value))
      (0, ⟨f.disk, s.lastBootPhase⟩, f.writes)

/-- `read_emmc_config`. -/
def readEmmcConfig (s : State) (opened : Bool) : Int × Option LogEmmcHeader :=
  if ¬ opened then (-1, none)
  else
    let h := readHeader p s.disk
    if h.sig ≠ logEmmcSig then (-1, some h) else (0, some h)

/-- The calls. -/
inductive Op
  | setBootPhase (step : UInt32) (needSave opened : Bool)
  | logStoreToEmmc (lines : List Line) (opened : Bool)
  | setEmmcConfig (type value : Int) (opened : Bool)

/-- One call, with what it returns and writes. -/
def step (s : State) : Op → Option ((Int × List Write) × State)
  | .setBootPhase phase needSave opened =>
    let r := setBootPhase p s phase needSave opened
    some ((0, r.2), r.1)
  | .logStoreToEmmc lines opened =>
    let r := logStoreToEmmc p s lines opened
    some ((0, r.2), r.1)
  | .setEmmcConfig type value opened =>
    let r := setEmmcConfig p s type value opened
    some ((r.1, r.2.2), r.2.1)

end

end LogStore
