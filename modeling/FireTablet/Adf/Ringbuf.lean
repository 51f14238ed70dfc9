import FireTablet.Lib.CInt
import FireTablet.Lib.Mem

/-!
# The DSP framework's ring buffer (`ringbuf.c`, `ringbuf.h`)

`CFG_RINGBUF_USE_PTR` is 0: `base`, `limit`, `wp` and `rp` are `int32_t` byte offsets from the
struct, so memory is addressed by offsets from the struct here. The `rBuf == NULL` exits, which
touch nothing, are left out. `none` is a `memcpy` outside its objects (`Mem.memcpyTo`,
`Mem.memcpyFrom`).
-/

namespace Adf

open CInt

/-- `adf_status_t`. -/
inductive AdfStatus
  | ok
  | generalError
  | notSupported
  deriving DecidableEq, Repr

/-- `adfRingbuf_t`; `rsvd` are the two words of the union `u`. -/
structure AdfRingbuf where
  base : Int
  limit : Int
  wp : Int
  rp : Int
  drop : Int
  dropunit : Int
  rsvd : Int × Int
  deriving DecidableEq, Repr

/-- `sizeof(adfRingbuf_t)`. -/
def sizeofAdfRingbuf : Nat := 32

/-- A ring buffer struct and the memory around it. -/
structure Ring where
  rBuf : AdfRingbuf
  mem : Mem

/-! ## The macros -/

/-- `ADF_RINGBUF_MOVE_PTR`, with an `int32_t` offset. -/
def adfRingbufMovePtr (ptr offset base limit : Int) : Int :=
  if i32 (limit - ptr) > offset then i32 (ptr + offset)
  else i32 (ptr + offset - (limit - base))

/-- `ADF_RINGBUF_IN_RANGE`. -/
def adfRingbufInRange (ptr base limit : Int) : Bool := ptr ≥ base && ptr < limit

/-- `ADF_RINGBUF_CALC_RW_SIZE`. -/
def adfRingbufCalcRwSize (ptrS ptrE base limit : Int) : Int :=
  if ptrS ≤ ptrE then i32 (ptrE - ptrS) else i32 (limit - ptrS + (ptrE - base))

/-- `ADF_RINGBUF_CALC_WR_SIZE`. -/
def adfRingbufCalcWrSize (ptrS ptrE base limit : Int) : Int :=
  if ptrS < ptrE then i32 (ptrE - ptrS) else i32 (limit - ptrS + (ptrE - base))

/-! ## The functions -/

/-- `_adfRingbuf_checkDrop`: the length to write and the struct after dropping. -/
def adfRingbufCheckDrop (rBuf : AdfRingbuf) (len : Int) : Int × AdfRingbuf :=
  let available := adfRingbufCalcWrSize rBuf.wp rBuf.rp rBuf.base rBuf.limit
  if len ≥ available then
    if rBuf.dropunit > 0 then
      let dropLen := i32 (len - available + rBuf.dropunit - 1)
      let dropLen := dropLen - dropLen.tmod rBuf.dropunit
      (len, { rBuf with
        drop := i32 (rBuf.drop + dropLen)
        rp := adfRingbufMovePtr rBuf.rp dropLen rBuf.base rBuf.limit })
    else
      -- `sizeof(int32_t)` bytes are kept free; the difference goes through `size_t` to `int32_t`
      (i32 (available - 4), rBuf)
  else (len, rBuf)

/-- `adfRingbuf_checkValid`; `buf` is the buffer's offset from the struct. -/
def adfRingbufCheckValid (rBuf : AdfRingbuf) (buf size : Int) : Bool :=
  if rBuf.base ≠ buf ∨ i32 (rBuf.limit - rBuf.base) ≠ size then false
  else adfRingbufInRange rBuf.rp rBuf.base rBuf.limit &&
    adfRingbufInRange rBuf.wp rBuf.base rBuf.limit

/-- `adfRingbuf_getUsedSize`. -/
def adfRingbufGetUsedSize (rBuf : AdfRingbuf) : Int :=
  adfRingbufCalcRwSize rBuf.rp rBuf.wp rBuf.base rBuf.limit

/-- `adfRingbuf_getFreeSize`. -/
def adfRingbufGetFreeSize (rBuf : AdfRingbuf) : Int :=
  adfRingbufCalcWrSize rBuf.wp rBuf.rp rBuf.base rBuf.limit

/-- `adfRingbuf_read` into a buffer of `data` bytes (`none` for `NULL`): the bytes copied, whose
number is the return value. -/
def adfRingbufRead (s : Ring) (data : Option Nat) (len : Int) : Option (List UInt8) :=
  match data with
  | none => some []
  | some cap =>
    if len = 0 then some []
    else
      let rBuf := s.rBuf
      let remain := adfRingbufCalcRwSize rBuf.rp rBuf.wp rBuf.base rBuf.limit
      let len := if len > remain then remain else len
      let lenToEnd := i32 (rBuf.limit - rBuf.rp)
      if lenToEnd ≥ len then s.mem.memcpyFrom rBuf.rp cap len
      else
        (s.mem.memcpyFrom rBuf.rp cap lenToEnd).bind fun bs1 =>
          (s.mem.memcpyFrom rBuf.base (cap - lenToEnd.toNat) (len - lenToEnd)).map fun bs2 =>
            bs1 ++ bs2

/-- `adfRingbuf_flush`. -/
def adfRingbufFlush (s : Ring) (len : Int) : Int × Ring :=
  if len = 0 then (0, s)
  else
    let rBuf := s.rBuf
    let remain := adfRingbufCalcRwSize rBuf.rp rBuf.wp rBuf.base rBuf.limit
    let len := if len > remain then remain else len
    (len, { s with rBuf := { rBuf with
      rp := adfRingbufMovePtr rBuf.rp len rBuf.base rBuf.limit } })

/-- `adfRingbuf_reserve`; `none` is a division by zero. -/
def adfRingbufReserve (s : Ring) (len : Int) : Option (Int × Ring) :=
  if len = 0 then some (0, s)
  else
    let rBuf := s.rBuf
    let available := adfRingbufCalcWrSize rBuf.wp rBuf.rp rBuf.base rBuf.limit
    let reserve (len : Int) : Int × Ring :=
      (len, { s with rBuf := { rBuf with
        rp := adfRingbufMovePtr rBuf.rp (i32 (rBuf.limit - rBuf.base - len)) rBuf.base
          rBuf.limit } })
    if len ≥ available then
      if rBuf.dropunit = 0 then none
      else some (reserve (available - available.tmod rBuf.dropunit))
    else some (reserve len)

/-- The copy of `adfRingbuf_write`: `len` bytes to `wp`, in two parts when the end is nearer. -/
def adfRingbufWriteCopy (s : Ring) (data : List UInt8) (len : Int) : Option Mem :=
  let lenToEnd := i32 (s.rBuf.limit - s.rBuf.wp)
  if lenToEnd ≥ len then s.mem.memcpyTo s.rBuf.wp data len
  else
    (s.mem.memcpyTo s.rBuf.wp data lenToEnd).bind fun m =>
      m.memcpyTo s.rBuf.base (data.drop lenToEnd.toNat) (len - lenToEnd)

/-- `adfRingbuf_write`. -/
def adfRingbufWrite (s : Ring) (data : Option (List UInt8)) (len : Int) : Option (Int × Ring) :=
  match data with
  | none => some (0, s)
  | some data =>
    if len = 0 then some (0, s)
    else
      let (len, rBuf) := adfRingbufCheckDrop s.rBuf len
      (adfRingbufWriteCopy { s with rBuf } data len).map fun mem =>
        (len, ⟨{ rBuf with wp := adfRingbufMovePtr rBuf.wp len rBuf.base rBuf.limit }, mem⟩)

/-- `adfRingbuf_add`. -/
def adfRingbufAdd (s : Ring) (len : Int) : Int × Ring :=
  if len = 0 then (0, s)
  else
    let (len, rBuf) := adfRingbufCheckDrop s.rBuf len
    (len, { s with rBuf := { rBuf with
      wp := adfRingbufMovePtr rBuf.wp len rBuf.base rBuf.limit } })

/-- `adfRingbuf_apply`; `new` is the new pointer's offset from the struct. -/
def adfRingbufApply (s : Ring) (new : Int) : Int × Ring :=
  if new = s.rBuf.wp ∨ adfRingbufInRange new s.rBuf.base s.rBuf.limit = false then (0, s)
  else
    let len := adfRingbufCalcRwSize s.rBuf.wp new s.rBuf.base s.rBuf.limit
    let (len, rBuf) := adfRingbufCheckDrop s.rBuf len
    (len, { s with rBuf := { rBuf with
      wp := adfRingbufMovePtr rBuf.wp len rBuf.base rBuf.limit } })

/-- `adfRingbuf_reset`. -/
def adfRingbufReset (s : Ring) : AdfStatus × Ring :=
  if s.rBuf.base = 0 ∨ s.rBuf.limit = 0 then (.notSupported, s)
  else (.ok, { s with rBuf := { s.rBuf with rp := s.rBuf.base, wp := s.rBuf.base, drop := 0 } })

/-- `adfRingbuf_init`; `buf` is the buffer's offset from the struct (`none` for `NULL`). -/
def adfRingbufInit (s : Ring) (buf : Option Int) (size dropunit : Int) : AdfStatus × Ring :=
  match buf with
  | none => (.notSupported, s)
  | some buf =>
    if size = 0 ∨ size % 4 ≠ 0 then (.notSupported, s)
    else
      adfRingbufReset { s with rBuf := { s.rBuf with
        base := i32 buf, limit := i32 (i32 buf + size), dropunit, rsvd := (0, 0) } }

end Adf
