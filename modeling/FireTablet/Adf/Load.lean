import FireTablet.Adf.Ringbuf
import FireTablet.Lib.Buf
import Mathlib.Logic.Function.Basic

/-!
# Loading a firmware image (`load.c`, `fwheader.h`)

`adfLoad_init` copies the header of an image with its section array to a buffer it keeps, copies
the `BIN` sections to the DSP through `binCpy`, and allocates and clears a buffer for the `STA`,
`CLI` and `LOG` sections. It is modelled with the list of its accesses (`LoadEv`). An access that
runs out of its object is recorded and the run goes on.

Memory from `src` on is a function; the image is its first `size` bytes. Pointers that come from
`kmalloc` are told apart from numbers (`Ptr`), so that a pointer taken from the bytes of an image
stays one. `uint32_t` sums are taken modulo `2 ^ 32`.
-/

namespace Adf

/-- `DSP_CORE_NUM`. -/
def dspCoreNum : Nat := 1

/-- `ADF_FW_HDRLEN`. -/
def adfFwHdrlen : Nat := 128

/-- `sizeof(adfFwHdr_secInfo_t)`. -/
def sizeofSecInfo : Nat := 32

/-- A pointer: a number, or the buffer of `size` bytes that a call of `kmalloc` gave. -/
inductive Ptr
  | raw (v : Nat)
  | buf (id size : Nat)
  deriving DecidableEq

/-- `NULL`. -/
def Ptr.null : Ptr := .raw 0

/-- `ZERO_SIZE_PTR`. -/
def Ptr.zeroSize : Ptr := .raw 16

/-- `ZERO_OR_NULL_PTR`, the pointers that `kfree` ignores. -/
def Ptr.zeroOrNull : Ptr → Bool
  | .raw v => v ≤ 16
  | .buf .. => false

/-- The number of bytes behind a pointer. -/
def Ptr.cap : Ptr → Nat
  | .raw _ => 0
  | .buf _ size => size

/-- The kinds of section that have a buffer. -/
inductive SecKind
  | sta
  | cli
  | log
  deriving DecidableEq

/-- What a section is by its name. -/
inductive SecName
  | bin
  | data (k : SecKind)
  | other
  deriving DecidableEq

/-- `adfFwHdr_secInfo_t`. -/
structure SecInfo where
  name : List UInt8
  addr : Nat
  size : Nat
  offset : Nat
  data : Ptr
  reserved : Nat × Nat
  deriving DecidableEq

/-- The comparisons of `info->name`, four bytes, with `"BIN"`, `"STA"`, `"CLI"` and `"LOG"`. -/
def SecInfo.kind (info : SecInfo) : SecName :=
  if info.name = [66, 73, 78, 0] then .bin
  else if info.name = [83, 84, 65, 0] then .data .sta
  else if info.name = [67, 76, 73, 0] then .data .cli
  else if info.name = [76, 79, 71, 0] then .data .log
  else .other

/-- `adfDspPriv_t`: `secarray` is what the header at `dspHeader` holds, `data` are `staData`,
`cliData` and `logData`; `next` is the number of the next buffer. -/
structure DspPriv where
  dspHeader : Ptr
  secarray : List SecInfo
  data : SecKind → Ptr
  next : Nat

/-- The arguments of a load and what its surroundings answer: `binCpy i` for section `i`,
`kmallocHdr` and `kmalloc i` whether there is memory for the header and at section `i`. `stale` is
what is in the header's buffer, and behind it, before the copy. -/
structure LoadEnv where
  src : Nat → UInt8
  dst : Nat
  size : Nat
  binCpy : Option (Nat → Bool)
  dspId : Nat
  kmallocHdr : Bool
  kmalloc : Nat → Bool
  stale : Nat → UInt8

/-- An access: to bytes of the image; to `seccnt` or entry `i` of the header's copy, of which
`copied` bytes come from the image; the copy to the header; a `binCpy`, which reads the image; a
new buffer; a `memset`; a `kfree` that frees. -/
inductive LoadEv
  | readImage (off len : Nat)
  | readCnt (copied : Nat)
  | readSec (i copied : Nat)
  | writeHeader (p : Ptr) (len : Nat)
  | binCpy (dstAddr off len : Nat)
  | kmalloc (p : Ptr)
  | memset (p : Ptr) (len : Nat)
  | kfree (p : Ptr)
  deriving DecidableEq

/-! ## The header -/

/-- The number in `n` bytes of memory. -/
def num (m : Nat → UInt8) (off n : Nat) : Nat := Bytes.le ((List.range n).map fun i => m (off + i))

/-- The entry of a section array at an offset. -/
def secInfoAt (m : Nat → UInt8) (off : Nat) : SecInfo where
  name := (List.range 4).map fun i => m (off + i)
  addr := num m (off + 4) 4
  size := num m (off + 8) 4
  offset := num m (off + 12) 4
  data := .raw (num m (off + 16) 8)
  reserved := (num m (off + 24) 4, num m (off + 28) 4)

/-- `header->seccnt`. -/
def LoadEnv.seccnt (e : LoadEnv) : Nat := num e.src 4 4

/-- `headerSize`, a `uint32_t`. -/
def LoadEnv.headerSize (e : LoadEnv) : Nat := (adfFwHdrlen + e.seccnt * sizeofSecInfo) % 2 ^ 32

/-- The bytes of the header's copy. -/
def LoadEnv.copy (e : LoadEnv) (a : Nat) : UInt8 := if a < e.headerSize then e.src a else e.stale a

/-- The section array of the header's copy. -/
def LoadEnv.secarray (e : LoadEnv) : List SecInfo :=
  (List.range (num e.copy 4 4)).map fun i => secInfoAt e.copy (adfFwHdrlen + i * sizeofSecInfo)

/-! ## `adfLoad_init` -/

/-- `kmalloc`: the pointer and the number of the next buffer. -/
def kmalloc (ok : Bool) (size next : Nat) : Ptr × Nat :=
  if size = 0 then (.zeroSize, next)
  else if ok then (.buf next size, next + 1)
  else (.null, next)

/-- The event of a `kmalloc`, if it gave a buffer. -/
def kmallocEv : Ptr → List LoadEv
  | .raw _ => []
  | .buf id size => [.kmalloc (.buf id size)]

/-- `kfree`. -/
def kfree (p : Ptr) : List LoadEv := if p.zeroOrNull then [] else [.kfree p]

/-- The variables of the loop. -/
structure LoadSt where
  data : SecKind → Ptr
  next : Nat
  binSize : Nat
  baseAddr : Nat
  hostDst : Nat
  evs : List LoadEv

/-- The loop's body for section `i`: whether the loop goes on, and the section and the variables
after it. -/
def loadSec (e : LoadEnv) (i : Nat) (info : SecInfo) (st : LoadSt) : Bool × SecInfo × LoadSt :=
  let st := { st with evs := st.evs ++ [.readSec i e.headerSize] }
  match info.kind with
  | .bin =>
    let binSize := (st.binSize + info.size) % 2 ^ 32
    let baseAddr := if st.baseAddr = 0 then info.addr else st.baseAddr
    let hostDst := if st.hostDst = 0 then info.addr else st.hostDst
    let dstAddr := (hostDst + (info.addr + 2 ^ 64 - baseAddr)) % 2 ^ 64
    let st := { st with binSize, baseAddr, hostDst }
    match e.binCpy with
    | none => (false, info, st)
    | some binCpy =>
      (binCpy i, info, { st with evs := st.evs ++ [.binCpy dstAddr info.offset info.size] })
  | .data k =>
    -- the buffer is allocated the first time only
    let (p, next) :=
      if st.data k = .null then kmalloc (e.kmalloc i) info.size st.next else (st.data k, st.next)
    let evs := st.evs ++ if st.data k = .null then kmallocEv p else []
    let st := { st with data := Function.update st.data k p, next, evs }
    let info := { info with data := p }
    if p = .null then (false, info, st)
    else (true, info, { st with evs := st.evs ++ [.memset p info.size] })
  | .other => (true, info, st)

/-- The loop from section `i` on. -/
def loadSecs (e : LoadEnv) : Nat → List SecInfo → LoadSt → Bool × List SecInfo × LoadSt
  | _, [], st => (true, [], st)
  | i, info :: rest, st =>
    let (ok, info, st) := loadSec e i info st
    if ok then
      let (ok, rest, st) := loadSecs e (i + 1) rest st
      (ok, info :: rest, st)
    else (false, info :: rest, st)

/-- The frees under `ERROR`, when there is a header. -/
def loadError (hdr : Ptr) (secarray : List SecInfo) : List LoadEv :=
  (secarray.flatMap fun info => if info.data ≠ .null then kfree info.data else []) ++ kfree hdr

/-- The variables before the loop, once the header is copied to `hdr`. -/
def loadStart (e : LoadEnv) (data : SecKind → Ptr) (hdr : Ptr) (next : Nat) (evs : List LoadEv) :
    LoadSt where
  data := data
  next := next
  binSize := 0
  baseAddr := 0
  hostDst := e.dst
  evs := evs ++ [.readImage 0 e.headerSize, .writeHeader hdr e.headerSize, .readCnt e.headerSize]

/-- `adfLoad_init` once it has the buffer `hdr` for the header: the accesses are those in `evs` and
its own. -/
def loadFrom (e : LoadEnv) (data : SecKind → Ptr) (hdr : Ptr) (next : Nat) (evs : List LoadEv) :
    AdfStatus × List LoadEv × DspPriv :=
  let (ok, secarray, st) := loadSecs e 0 e.secarray (loadStart e data hdr next evs)
  if ok ∧ e.size = (e.headerSize + st.binSize) % 2 ^ 32 then
    (.ok, st.evs, ⟨hdr, secarray, st.data, st.next⟩)
  else
    (.generalError, st.evs ++ loadError hdr secarray, ⟨.null, [], fun _ => .null, st.next⟩)

/-- The reads of the platform, the version and `seccnt` in the image. -/
def descReads : List LoadEv := [.readImage 16 15, .readImage 8 8, .readImage 4 4]

/-- `adfLoad_init`. -/
def adfLoadInit (e : LoadEnv) (priv : DspPriv) : AdfStatus × List LoadEv × DspPriv :=
  if e.dspId ≥ dspCoreNum then (.generalError, descReads, priv)
  else
    let (hdr, next) :=
      if priv.dspHeader = .null then
        kmalloc e.kmallocHdr ((e.headerSize + 7) / 8 * 8 % 2 ^ 32) priv.next
      else (priv.dspHeader, priv.next)
    if hdr = .null then (.generalError, descReads, priv)
    else
      loadFrom e priv.data hdr next
        (descReads ++ if priv.dspHeader = .null then kmallocEv hdr else [])

/-! ## `adfLoad_initCheck` -/

/-- The sections of an image, as the check reads them. -/
def imageSecs (src : Nat → UInt8) : List SecInfo :=
  (List.range (num src 4 4)).map fun i => secInfoAt src (adfFwHdrlen + i * sizeofSecInfo)

/-- The surroundings of a check: `vmalloc i` and `binRead i` are the answers for section `i`, and a
read that does not fail copies `mem`. -/
structure CheckEnv where
  vmalloc : Nat → Bool
  binRead : Nat → Bool
  mem : Nat → UInt8

/-- The size of the buffer that a section is read to, a `uint32_t`; `vmalloc` gives none for 0. -/
def SecInfo.bufSize (info : SecInfo) : Nat := (info.size + 7) / 8 * 8 % 2 ^ 32

/-- The bytes of a section are those in memory at `addr`: `memcmp` gives 0. -/
def sameBytes (src mem : Nat → UInt8) (info : SecInfo) (addr : Nat) : Bool :=
  (List.range info.size).all fun j => mem (addr + j) = src (info.offset + j)

/-- The loop from section `i` on. -/
def checkSecs (src : Nat → UInt8) (c : CheckEnv) : Nat → List SecInfo → Nat → Nat → Bool
  | _, [], _, _ => true
  | i, info :: rest, baseAddr, hostDst =>
    if info.kind = .bin then
      let baseAddr := if baseAddr = 0 then info.addr else baseAddr
      let hostDst := if hostDst = 0 then info.addr else hostDst
      let binAddr := (hostDst + (info.addr + 2 ^ 64 - baseAddr)) % 2 ^ 64
      if info.bufSize ≠ 0 ∧ c.vmalloc i then
        -- a read that fails is passed over
        if c.binRead i ∧ sameBytes src c.mem info binAddr = false then false
        else checkSecs src c (i + 1) rest baseAddr hostDst
      else false
    else checkSecs src c (i + 1) rest baseAddr hostDst

/-- `adfLoad_initCheck`. -/
def adfLoadInitCheck (src : Nat → UInt8) (dst : Nat) (c : CheckEnv) : Bool :=
  checkSecs src c 0 (imageSecs src) 0 dst

end Adf
