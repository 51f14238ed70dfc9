import Mathlib.Data.List.Basic
import Mathlib.Logic.Function.Basic
import Mathlib.Algebra.GroupWithZero.Nat

/-!
# Programming the charger's memory (`idtp922x_wireless_power.c`)

The firmware is sent in packets of at most 128 bytes to the SRAM of the chip, whose boot loader
checks each packet, programs it and answers in the status. Any write and any read of the status may
fail, and the boot loader looks at the status at any time: each access takes the next turn of the
environment. A failed write may have reached the chip or not.
-/

namespace Wpc.Otp

/-! ## The chip -/

/-- The registers with the SRAM, and the OTP memory. -/
structure Chip where
  mem : Nat → UInt8
  otp : Nat → UInt8

/-- A 16-bit field of `struct idtp922xpgmtype` at its address. -/
def Chip.word (c : Chip) (a : Nat) : Nat := (c.mem a).toNat + 256 * (c.mem (a + 1)).toNat

/-- The sum of the first bytes of `dataBuf`. -/
def Chip.dataSum (c : Chip) (n : Nat) : Nat :=
  ((List.range n).map fun k => (c.mem (0x408 + k)).toNat).sum

/-- The boot loader: a packet whose `dataChksum` is that of address, length and data is
programmed. -/
def Chip.bootLoader (c : Chip) : Chip :=
  if c.mem 0x400 = 1 then
    let start := c.word 0x402
    let len := c.word 0x404
    if c.word 0x406 = (start + len + c.dataSum len) % 65536 then
      { mem := Function.update c.mem 0x400 2
        otp := fun a => if start ≤ a ∧ a < start + len then c.mem (0x408 + (a - start))
          else c.otp a }
    else { c with mem := Function.update c.mem 0x400 8 }
  else c

/-- What happens around an access: the boot loader may look first, and the access may fail, a write
with or without effect. -/
structure Turn where
  look : Bool
  ok : Bool
  effect : Bool

/-- The chip, and the number of accesses so far. -/
structure State where
  chip : Chip
  time : Nat

/-! ## The driver -/

section
variable (env : Nat → Turn)

def look (s : State) : Chip := if (env s.time).look then s.chip.bootLoader else s.chip

/-- `p922x_write`, with whether it succeeds. -/
def p922xWrite (s : State) (reg : Nat) (val : UInt8) : Bool × State :=
  let c := look env s
  let t := env s.time
  (t.ok, ⟨if t.ok || t.effect then { c with mem := Function.update c.mem reg val } else c,
    s.time + 1⟩)

/-- `p922x_read`: a failed read leaves the value. -/
def p922xRead (s : State) (reg : Nat) (val : UInt8) : UInt8 × State :=
  let c := look env s
  (if (env s.time).ok then c.mem reg else val, ⟨c, s.time + 1⟩)

/-- Writes one after the other, up to one that fails. -/
def writes (s : State) : List (Nat × UInt8) → Bool × State
  | [] => (true, s)
  | w :: ws =>
    let r := p922xWrite env s w.1 w.2
    if r.1 then writes r.2 ws else r

/-- The bytes from an address on, each with its own. -/
def bytesAt (reg : Nat) : List UInt8 → List (Nat × UInt8)
  | [] => []
  | b :: bs => (reg, b) :: bytesAt (reg + 1) bs

/-- The two bytes of a `u16`. -/
def le16 (x : Nat) : List UInt8 := [UInt8.ofNat (x % 256), UInt8.ofNat (x / 256 % 256)]

/-- `CodeLength`: the zeros at the end are not sent. -/
def codeLength (data : List UInt8) : Nat := (data.reverse.dropWhile (· = 0)).length

/-- `CheckSum`, a `u16`. -/
def checkSum (start : Nat) (data : List UInt8) : Nat :=
  (start + (data.map UInt8.toNat).sum + data.length) % 65536

/-- The packet in `sBuf`, for the data that are sent; its bytes are unsigned, as `char` is here. -/
def packet (start : Nat) (data : List UInt8) : List UInt8 :=
  [0, 0] ++ le16 start ++ le16 data.length ++ le16 (checkSum start data) ++ data

/-- The loop that waits for the boot loader, with the number of reads left. -/
def poll : Nat → State → UInt8 → UInt8 × State
  | 0, s, status => (status, s)
  | n + 1, s, status =>
    let r := p922xRead env s 0x400 status
    if r.1 = 1 then poll n r.2 r.1 else r

/-- A packet, its validation and the wait for its status. -/
def sendPacket (s : State) (start : Nat) (data : List UInt8) : Bool × State :=
  let r := writes env s (bytesAt 0x400 (packet start data))
  if r.1 then
    let r := p922xWrite env r.2 0x400 1
    if r.1 then
      let r := poll env 7 r.2 0
      (r.1 = 2, r.2)
    else r
  else r

/-- What the loop over the pages ends with: its result, the chip, the indices at which the image was
read, and the packets with whether they were confirmed. -/
structure Pages where
  ret : Bool
  state : State
  reads : List Nat
  sent : List (Nat × Bool)

/-- The loop over the pages from an offset on. Every page is copied from the image in full. -/
def programPages (src : Nat → UInt8) (dest : Nat) : Nat → Nat → State → Pages
  | 0, _, s => ⟨true, s, [], []⟩
  | n + 1, off, s =>
    let page := (List.range 128).map fun j => src (off + j)
    let reads := (List.range 128).map fun j => off + j
    let data := page.take (codeLength page)
    let start := (dest + off) % 65536
    if codeLength page = 0 then
      let p := programPages src dest n (off + 128) s
      { p with reads := reads ++ p.reads }
    else
      let r := sendPacket env s start data
      if r.1 then
        let p := programPages src dest n (off + 128) r.2
        { p with reads := reads ++ p.reads, sent := (start, true) :: p.sent }
      else ⟨false, r.2, reads, [(start, false)]⟩

/-- The number of turns of the loop with its `unsigned int` bound; `i` itself could wrap only after
a page beyond the image. -/
def pageCount (dest size : Nat) : Nat :=
  if dest + size < 4294967296 then (size + 127) / 128 else 0

/-- The set-up: the M0 is halted and the boot loader loaded and mapped. -/
def setup (bootloader : List UInt8) : List (Nat × UInt8) :=
  [(0x3000, 0x5a), (0x3040, 0x10)] ++ bytesAt 0x1c00 bootloader ++ [(0x3048, 0x80)]

/-- `program_fw`; the write that resets the chip is not checked. -/
def programFw (bootloader : List UInt8) (s : State) (dest : Nat) (src : Nat → UInt8) (size : Nat) :
    Pages :=
  let r := writes env s (setup bootloader)
  if r.1 then
    let r := p922xWrite env r.2 0x3040 0x80
    let p := programPages env src dest (pageCount dest size) 0 r.2
    if p.ret then
      let r := writes env p.state [(0x3000, 0x5a), (0x3048, 0x00)]
      { p with ret := r.1, state := r.2 }
    else p
  else ⟨false, r.2, [], []⟩

end

end Wpc.Otp
