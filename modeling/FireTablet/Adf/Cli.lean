import FireTablet.Adf.Ringbuf

/-!
# The DSP framework's command line (`cli.c`)

`adfCli_send` cuts a command at its separators and writes each parameter and a NUL to the ring of
the command line, whose union holds `argc` and `rc`. The lock and the `cliAddr == NULL` exit, which
touches nothing, are left out. `inBuf` is the memory at that pointer; `none` is a read behind its
end, or a `memcpy` outside its objects.
-/

namespace Adf

open CInt

/-- `u.cli.argc`. -/
def AdfRingbuf.argc (b : AdfRingbuf) : Int := b.rsvd.1

/-- `u.cli.rc`. -/
def AdfRingbuf.rc (b : AdfRingbuf) : Int := b.rsvd.2

/-- A blank, `\t`, `\r` or `\n`. -/
def isSeparator (c : UInt8) : Bool := c = 32 ∨ c = 9 ∨ c = 13 ∨ c = 10

/-- What the loop of `adfCli_send` does with a parameter of `len` bytes at `paramP`. The literal
`"\0"` has its own terminator. -/
def adfCliPut (s : Ring) (paramP : List UInt8) (len : Int) : Option Ring :=
  (adfRingbufWrite s (some paramP) len).bind fun r1 =>
    (adfRingbufWrite r1.2 (some [0, 0]) 1).map fun r2 =>
      { r2.2 with rBuf := { r2.2.rBuf with rsvd := (i32 (r2.2.rBuf.argc + 1), r2.2.rBuf.rc) } }

/-- The loop of `adfCli_send` with `n` bytes left; `paramP` is an offset in `inBuf`. -/
def adfCliLoop (inBuf : List UInt8) : Nat → Nat → Nat → Ring → Option Ring
  | 0, _, _, s => some s
  | n + 1, i, paramP, s =>
    inBuf[i]?.bind fun c =>
      if isSeparator c then
        let paramLen := (i : Int) - paramP
        if paramLen > 0 then
          (adfCliPut s (inBuf.drop paramP) (i32 paramLen)).bind (adfCliLoop inBuf n (i + 1) (i + 1))
        else adfCliLoop inBuf n (i + 1) paramP s
      else adfCliLoop inBuf n (i + 1) paramP s

/-- `adfCli_send`: the return value and the ring. -/
def adfCliSend (s : Ring) (inBuf : List UInt8) (inBufLen : Int) : Option (Int × Ring) :=
  let s := (adfRingbufReset s).2
  let s : Ring := { s with rBuf := { s.rBuf with rsvd := (0, 0) } }
  (adfCliLoop inBuf inBufLen.toNat 0 0 s).map fun s =>
    (inBufLen,
      if s.rBuf.argc > 0 then { s with rBuf := { s.rBuf with rsvd := (s.rBuf.argc, 1) } } else s)

end Adf
