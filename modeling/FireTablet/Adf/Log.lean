import FireTablet.Adf.Ringbuf
import FireTablet.Lib.Buf

/-!
# The DSP log (`log.c`)

The log section of a DSP's memory is a ring buffer struct and, right behind it, the buffer. The
functions here work on the copy that the host holds of it. A flag is a `uint32_t`: the low half is
a read pointer, the high half two bytes of the log (the magic). The exits on `NULL` addresses are
left out, as is the lock; `vmalloc` is whether the allocation succeeds.

`adfDebug_printLog` in the mode `ADF_LOG_DUMP_RECENT` reads the DSP's memory twice: the ring buffer
struct, and, when there is something to print, the whole log section. The DSP goes on between the
two, so a call is two steps here (`adfDebugPrintLogHead`, `adfDebugPrintLogData`); `adfDspLock`
keeps other calls out in between. `adf_dbg_mem_read` comes from the driver's vendor code; whether a
read succeeds is an input.
-/

namespace Adf

open CInt

/-- `-ENOMEM`. -/
def enomem : Int := -12

/-- The ring with another read pointer. -/
def Ring.setRp (s : Ring) (rp : Int) : Ring := { s with rBuf := { s.rBuf with rp } }

/-- `ADF_RINGBUF_MOVE_PTR` by `limit - base - sizeof(uint16_t)`: two bytes back. That offset is a
`size_t`, so the comparison is unsigned. -/
def adfLogMagicPtr (ptr base limit : Int) : Int :=
  let offset := u64 (i32 (limit - base) - 2)
  if u64 (i32 (limit - ptr)) > offset then i32 (ptr + offset)
  else i32 (ptr + offset - (limit - base))

/-! ## `adfLog_reCalcHeader` -/

/-- The read pointer for all of the log: the byte behind the write pointer, or `base` while that
byte is zero (`check`, which stays zero when nothing is read). -/
def adfLogHistoryRp (s : Ring) : Option Int :=
  if s.rBuf.wp < s.rBuf.limit then
    let rp := i32 (s.rBuf.wp + 1)
    (adfRingbufRead (s.setRp rp) (some 1) 1).map fun check =>
      if check.headD 0 = 0 then s.rBuf.base else rp
  else some s.rBuf.base

/-- The two bytes before the pointer `rptr`, read with the write pointer set to it. -/
def adfLogMagic (s : Ring) (rptr : Int) : Option Nat :=
  (adfRingbufRead { s with rBuf := { s.rBuf with
    rp := adfLogMagicPtr rptr s.rBuf.base s.rBuf.limit, wp := rptr } } (some 2) 2).map Bytes.le

/-- `adfLog_reCalcHeader`: the size of the log that is left and the ring with its read pointer. -/
def adfLogReCalcHeader (s : Ring) (flag : Nat) (chkOverlap : Bool) : Option (Int × Ring) :=
  (adfLogHistoryRp s).bind fun rp =>
    let rptr : Int := (flag % 65536 : Nat)
    let rp :=
      if adfRingbufInRange rptr s.rBuf.base s.rBuf.limit then
        if chkOverlap then
          (adfLogMagic s rptr).map fun magic => if magic = flag / 65536 % 65536 then rptr else rp
        else some rptr
      else some rp
    rp.map fun rp => (adfRingbufGetUsedSize (s.setRp rp).rBuf, s.setRp rp)

/-! ## Its callers -/

/-- `adfLog_allocAndReadRbuf`: the buffer without its final zero byte. -/
def adfLogAllocAndReadRbuf (s : Ring) (size : Int) (vmalloc : Bool) :
    Option (Option (List UInt8)) :=
  if size ≤ 0 ∨ vmalloc = false then some none
  else (adfRingbufRead s (some size.toNat) size).map fun bs =>
    some (bs ++ List.replicate (size.toNat - bs.length) 0)

/-- `adfLog_clearHistory`: the flag, which is the write pointer with the two bytes before it put
over its high half, and the ring. -/
def adfLogClearHistory (s : Ring) : Option (Nat × Ring) :=
  let wp := Bytes.ofNat 4 (u32 s.rBuf.wp).toNat
  let s := s.setRp (adfLogMagicPtr s.rBuf.wp s.rBuf.base s.rBuf.limit)
  (adfRingbufRead s (some 2) 2).map fun bs =>
    (Bytes.le (wp.take 2 ++ bs ++ wp.drop (2 + bs.length)), s)

/-- The characters that `%s` prints of a buffer. -/
def cString (bs : List UInt8) : List UInt8 := bs.takeWhile (· ≠ 0)

/-- `adfLog_dump`: the return value, what goes to the file and the ring. -/
def adfLogDump (s : Ring) (flag : Nat) (vmalloc : Bool) : Option (Int × List UInt8 × Ring) :=
  (adfLogReCalcHeader s flag true).bind fun (remain, s) =>
    if remain > 0 then
      (adfLogAllocAndReadRbuf s remain vmalloc).map fun
        | some logBuf => (0, cString logBuf, s)
        | none => (enomem, [], s)
    else some (0, [], s)

/-- The lines `strsep` cuts a string into at `"\r\n"`, the empty ones left out. -/
def logLines (bs : List UInt8) : List (List UInt8) :=
  ((cString bs).splitOnP fun c => c = 13 ∨ c = 10).filter (· ≠ [])

/-- `adfLog_print`: the return value, the lines printed and the ring. -/
def adfLogPrint (s : Ring) (logFlag : Option Nat) (vmalloc : Bool) :
    Option (Int × List (List UInt8) × Ring) :=
  (adfLogReCalcHeader s (logFlag.getD 0) false).bind fun (remain, s) =>
    if remain > 0 then
      (adfLogAllocAndReadRbuf s remain vmalloc).map fun
        | some logBuf => (0, logLines logBuf, s)
        | none => (enomem, [], s)
    else some (0, [], s)

/-! ## The DSP's side

The firmware is not part of the sources. It adds its log to the same struct as to a circular buffer,
byte by byte; with `stay` a write pointer that reaches the end stays there until the next byte. -/

/-- One byte added by the DSP. -/
def dspPut (s : Ring) (b : UInt8) (stay : Bool) : Ring :=
  let p := if s.rBuf.wp < s.rBuf.limit then s.rBuf.wp else s.rBuf.base
  { rBuf := { s.rBuf with wp := if p + 1 < s.rBuf.limit ∨ stay then p + 1 else s.rBuf.base }
    mem := s.mem.store p [b] }

/-- A stream of bytes added by the DSP, each with its choice of `stay`. -/
def dspAppend (s : Ring) (bs : List (UInt8 × Bool)) : Ring :=
  bs.foldl (fun s b => dspPut s b.1 b.2) s

/-! ## Printing the recent log (`adf_debug.c`) -/

/-- The parts of the log section's `adfFwHdr_secInfo_t` that are used here. -/
structure LogInfo where
  size : Int
  /-- The copy of the DSP's log section. -/
  data : Ring
  /-- `reserved[1]`, the flag of `adfDebug_printLog`. -/
  flag : Nat

/-- The copy after `adf_dbg_mem_read` of the first `size` bytes of the DSP's section (the struct and
what is behind it), if it succeeds. -/
def adfDbgMemRead (ok : Bool) (dsp data : Ring) (size : Int) : Ring :=
  if ok then ⟨dsp.rBuf, fun a => if a < size then dsp.mem a else data.mem a⟩ else data

/-- `_adfDebug_logBufCheck`; `charLen` is `ADF_DEBUG_CHAR_LEN`. -/
def adfDebugLogBufCheck (charLen : Nat) (logInfo : LogInfo) : Bool :=
  let totalLen := i32 (u64 (logInfo.size - 8) / charLen - 32)
  totalLen > 0 && adfRingbufCheckValid logInfo.data.rBuf sizeofAdfRingbuf totalLen

/-- `adfDebug_printLog` up to the first read: the write pointer of the copy, unless the call
returns. -/
def adfDebugPrintLogHead (dsp : Ring) (logInfo : LogInfo) (ok : Bool) : Option Int × LogInfo :=
  let wptr := logInfo.data.rBuf.wp
  let data := adfDbgMemRead ok dsp logInfo.data sizeofAdfRingbuf
  (if ok && u32 wptr == logInfo.flag then none else some wptr, { logInfo with data })

/-- `adfDebug_printLog` from the second read on: the lines printed. -/
def adfDebugPrintLogData (charLen : Nat) (dsp : Ring) (logInfo : LogInfo) (wptr : Int)
    (ok vmalloc : Bool) : Option (List (List UInt8) × LogInfo) :=
  let data := adfDbgMemRead ok dsp logInfo.data logInfo.size
  let printed :=
    if ok && adfDebugLogBufCheck charLen { logInfo with data } then
      (adfLogPrint data (some logInfo.flag) vmalloc).map (·.2)
    else some ([], data)
  printed.map fun (lines, data) => (lines, { logInfo with data, flag := (u32 wptr).toNat })

/-! ## The driver and the DSP -/

/-- The DSP's memory, the driver's and a call between its two reads, with the history: all bytes
the DSP added, the lines printed, and the number of bytes added since the last call. -/
structure LogSys where
  dsp : Ring
  logInfo : LogInfo
  call : Option Int
  stream : List UInt8
  printed : List (List UInt8)
  since : Nat

/-- The steps: the DSP adds a byte, a call starts and reads the struct, a call goes on. -/
inductive LogIn
  | append (b : UInt8)
  | head (ok : Bool)
  | data (ok vmalloc : Bool)

/-- One step and the lines it prints; a step whose turn it is not does nothing. -/
def logStep (charLen : Nat) (s : LogSys) : LogIn → Option (List (List UInt8) × LogSys)
  | .append b => some ([], { s with
      dsp := dspPut s.dsp b false, stream := s.stream ++ [b], since := s.since + 1 })
  | .head ok =>
    match s.call with
    | some _ => some ([], s)
    | none =>
      let (call, logInfo) := adfDebugPrintLogHead s.dsp s.logInfo ok
      some ([], { s with logInfo, call, since := if call = none then 0 else s.since })
  | .data ok vmalloc =>
    match s.call with
    | none => some ([], s)
    | some wptr =>
      (adfDebugPrintLogData charLen s.dsp s.logInfo wptr ok vmalloc).map fun (lines, logInfo) =>
        (lines, { s with logInfo, call := none, printed := s.printed ++ lines, since := 0 })

end Adf
