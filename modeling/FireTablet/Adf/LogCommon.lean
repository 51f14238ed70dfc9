import FireTablet.Adf.Log

/-!
# The DSP log of the common driver (`driver/dspframework/src/log.c`)

The common driver's ring buffer, `adfLog_reCalcHeader` and `adfLog_clearHistory` are those of the
kernel tree's driver. The buffer is read by a function that removes from the ring what it read, and
`adfLog_print` prints in chunks of `ADF_LOG_CYCLE_DUMP_LEN` bytes; the sleep between two chunks is
left out. `vmalloc` says for each chunk whether the allocation succeeds.
-/

namespace Adf.Common

open CInt

/-- `ADF_LOG_CYCLE_DUMP_LEN`. -/
def adfLogCycleDumpLen : Nat := 2048

/-- The search for the end of the last whole line: the length the buffer is cut to, with `len`
before the loop. -/
def adfLogLineEnd (buf : List UInt8) : Nat → Nat
  | 0 => 0
  | len + 1 => if len > 0 ∧ buf[len - 1]? ≠ some 10 then adfLogLineEnd buf len else len

/-- `adfLog_allocAndReadRbuf`: the buffer up to its final zero byte, `*size` and the ring. -/
def adfLogAllocAndReadRbuf (s : Ring) (size : Int) (vmalloc : Bool) :
    Option (Option (List UInt8) × Int × Ring) :=
  if size ≤ 0 ∨ vmalloc = false then some (none, size, s)
  else (adfRingbufRead s (some size.toNat) size).map fun bs =>
    let buf := bs ++ List.replicate (size.toNat - bs.length) 0
    if size = adfLogCycleDumpLen ∧ buf[size.toNat - 1]? ≠ some 10 then
      let len := adfLogLineEnd buf size.toNat
      -- no line ends in the buffer: it is emptied and all of it is flushed
      let size := if len > 0 then (len : Int) else size
      (some (buf.take len), size, (adfRingbufFlush s size).2)
    else (some buf, size, (adfRingbufFlush s size).2)

/-- `adfLog_dump`: the return value, what goes to the file and the ring. -/
def adfLogDump (s : Ring) (flag : Nat) (vmalloc : Bool) : Option (Int × List UInt8 × Ring) :=
  (adfLogReCalcHeader s flag true).bind fun (remain, s) =>
    if remain > 0 then
      (adfLogAllocAndReadRbuf s remain vmalloc).map fun
        | (some logBuf, _, s) => (0, cString logBuf, s)
        | (none, _, s) => (enomem, [], s)
    else some (0, [], s)

/-- The loop of `adfLog_print` from chunk `i` on; without fuel it is still running (`none`). -/
def adfLogPrintLoop (vmalloc : Nat → Bool) :
    Nat → Nat → Ring → Int → Option (Int × List (List UInt8) × Ring)
  | 0, _, s, totalRemain => if totalRemain > 0 then none else some (0, [], s)
  | fuel + 1, i, s, totalRemain =>
    if totalRemain > 0 then
      let remain := if totalRemain > adfLogCycleDumpLen then (adfLogCycleDumpLen : Int)
        else totalRemain
      (adfLogAllocAndReadRbuf s remain (vmalloc i)).bind fun
        | (some logBuf, remain, s) =>
          (adfLogPrintLoop vmalloc fuel (i + 1) s (i32 (totalRemain - remain))).map
            fun (ret, lines, s) => (ret, logLines logBuf ++ lines, s)
        | (none, _, s) => some (enomem, [], s)
    else some (0, [], s)

/-- `adfLog_print`: the return value, the lines printed and the ring. -/
def adfLogPrint (s : Ring) (logFlag : Option Nat) (vmalloc : Nat → Bool) (fuel : Nat) :
    Option (Int × List (List UInt8) × Ring) :=
  (adfLogReCalcHeader s (logFlag.getD 0) false).bind fun (totalRemain, s) =>
    adfLogPrintLoop vmalloc fuel 0 s totalRemain

end Adf.Common
