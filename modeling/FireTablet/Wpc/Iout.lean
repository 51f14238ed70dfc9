import FireTablet.Kernel.Kstrtox
import FireTablet.Lib.Heap
import Mathlib.Data.Fin.VecNotation

/-!
# The calibration of the output current (`idtp922x_wireless_power.c`)

Gains, offsets and thresholds come as hexadecimal digits from the device tree or from the file
`force_iout_cal_data`, and are written to the chip one register after the other. Any write may fail;
the chip does not apply a calibration whose threshold is 0.
-/

namespace Wpc.Iout

/-! ## Registers -/

/-- `struct p922x_iout_cal_data`: the values; the addresses do not change. -/
structure IoutCalData where
  threshold : Fin 4 → UInt16
  gain : Fin 5 → UInt16
  offset : Fin 5 → UInt16

/-- `struct p922x_cal_reg` -/
structure CalReg where
  addr : Nat
  val : UInt16
  deriving DecidableEq

def thresholdAddr : Fin 4 → Nat := ![0x0c, 0x0e, 0x2c, 0x2e]

def gainAddr : Fin 5 → Nat := ![0x12, 0x16, 0x1a, 0x28, 0x64]

def offsetAddr : Fin 5 → Nat := ![0x14, 0x18, 0x0a, 0x42, 0x66]

/-- `cal_data` -/
def calData : IoutCalData := ⟨![0x00c8, 0x0190, 0x0258, 0x0320], fun _ => 0, fun _ => 0⟩

/-- The registers of the areas, in the order in which they are written. -/
def IoutCalData.areas (d : IoutCalData) : List CalReg :=
  (List.finRange 5).flatMap fun i => [⟨gainAddr i, d.gain i⟩, ⟨offsetAddr i, d.offset i⟩]

def IoutCalData.thresholds (d : IoutCalData) : List CalReg :=
  (List.finRange 4).map fun i => ⟨thresholdAddr i, d.threshold i⟩

/-- The registers of the thresholds with the mask value. -/
def masks : List CalReg := (List.finRange 4).map fun i => ⟨thresholdAddr i, 0⟩

/-- What a transfer to the chip ends with: its error, which is not positive, and what it leaves in
the bytes that it was to write if it failed, from what was there. -/
structure Turn where
  ret : Int
  left : Nat → UInt8 → UInt8
  ret_le : ret ≤ 0

/-- The registers of the chip, and the number of transfers so far. -/
structure Chip where
  mem : Nat → UInt8
  time : Nat

/-- The 16 bits at an address. -/
def Chip.word (c : Chip) (a : Nat) : Nat := (c.mem a).toNat + 256 * (c.mem (a + 1)).toNat

section
variable (env : Nat → Turn)

/-- `p922x_write_buffer` of the two bytes of a register, which are one transfer. -/
def p922xWriteBuffer (c : Chip) (r : CalReg) : Int × Chip :=
  let t := env c.time
  if t.ret = 0 then
    (0, ⟨fun a => if a = r.addr then UInt8.ofNat (r.val.toNat % 256)
      else if a = r.addr + 1 then UInt8.ofNat (r.val.toNat / 256) else c.mem a, c.time + 1⟩)
  else
    (t.ret, ⟨fun a => if a = r.addr ∨ a = r.addr + 1 then t.left a (c.mem a) else c.mem a,
      c.time + 1⟩)

/-- What a sequence of writes ends with: its error, the chip and the writes that succeeded. -/
structure Writes where
  ret : Int
  chip : Chip
  done : List CalReg

/-- The loops of writes, up to one that fails. -/
def writeRegs (c : Chip) : List CalReg → Writes
  | [] => ⟨0, c, []⟩
  | r :: rs =>
    let w := p922xWriteBuffer env c r
    if w.1 = 0 then
      let p := writeRegs w.2 rs
      { p with done := r :: p.done }
    else ⟨w.1, w.2, []⟩

/-- `p922x_mask_iout_cal_data` -/
def maskIoutCalData (c : Chip) : Writes := writeRegs env c masks

/-- What `struct p922x_dev` holds of the calibration, and the chip. -/
structure Dev where
  ioutCalData : IoutCalData
  isCalDataReady : Bool
  isSramUpdated : Bool
  chip : Chip

/-- `p922x_update_iout_cal_data`; what was written before a write failed is masked. -/
def updateIoutCalData (s : Dev) : Writes :=
  if !s.isCalDataReady || !s.isSramUpdated then ⟨-22, s.chip, []⟩
  else
    let p := writeRegs env s.chip s.ioutCalData.areas
    if p.ret = 0 then
      let q := writeRegs env p.chip s.ioutCalData.thresholds
      if q.ret = 0 then { q with done := p.done ++ q.done }
      else
        let m := maskIoutCalData env q.chip
        { m with done := p.done ++ q.done ++ m.done }
    else
      let m := maskIoutCalData env p.chip
      { m with done := p.done ++ m.done }

end

/-! ## Digits -/

/-- `castChar` -/
def castChar (c : UInt8) : UInt8 :=
  if 48 ≤ c ∧ c ≤ 57 then c - 48
  else if 97 ≤ c ∧ c ≤ 102 then c - 97 + 10
  else if 65 ≤ c ∧ c ≤ 70 then c - 65 + 10
  else 255

/-- `hexToBytes`: the bytes that it stores. -/
def hexToBytes : List UInt8 → List UInt8
  | h :: l :: rest => (castChar h <<< 4 ||| castChar l) :: hexToBytes rest
  | _ => []

/-- The number at two bytes of `retdata`, which was allocated with zeros. -/
def word (bytes : List UInt8) (i : Nat) : UInt16 :=
  (bytes.getD (2 * i) 0).toUInt16 ||| (bytes.getD (2 * i + 1) 0).toUInt16 <<< 8

/-- The 14 numbers of a calibration as they are stored. -/
def IoutCalData.ofWords (w : Nat → UInt16) : IoutCalData :=
  ⟨fun i => w (10 + i), fun i => w (2 * i), fun i => w (2 * i + 1)⟩

/-- A text up to its terminator. -/
structure CStr where
  chars : List UInt8
  nonzero : 0 ∉ chars

/-- The temporary blocks. -/
inductive Block where
  | retdata
  | tmpData
  deriving DecidableEq

/-- The accesses of `hexToBytes`, from a text of some length in an object of some size: its length
is taken, then two characters are read for every byte that is stored. -/
def hexToBytesOps (size len : Nat) : List (Heap.Op Block) :=
  .fixed size 0 (len + 1) :: (List.range (len / 2)).flatMap fun i =>
    [.fixed size (2 * i) 2, .access .retdata i 1]

/-! ## The device tree -/

/-- What `idme_get_wpc_iout_cal` finds: whether its block is allocated, the node and its value. -/
structure Idme where
  alloc : Bool
  node : Bool
  value : Option CStr

/-- `idme_get_wpc_iout_cal` for the 14 numbers, with its accesses. -/
def idmeGetWpcIoutCal (idme : Idme) : Except Int (Nat → UInt16) × List (Heap.Op Block) :=
  if !idme.alloc then (.error (-12), [])
  else if !idme.node then (.error (-22), [.alloc .retdata 28, .free .retdata 0])
  else
    match idme.value with
    | none => (.error (-22), [.alloc .retdata 28, .free .retdata 0])
    | some text =>
      (.ok fun i => word (hexToBytes text.chars) i,
        .alloc .retdata 28 :: (hexToBytesOps (text.chars.length + 1) text.chars.length ++
          (List.range 14).flatMap (fun i => [.access .retdata (2 * i) 2, .fixed 28 (2 * i) 2]) ++
          [.free .retdata 0]))

/-- `p922x_get_iout_cal_data`, with its result and its accesses. -/
def getIoutCalData (s : Dev) (idme : Idme) : Int × Dev × List (Heap.Op Block) :=
  let r := idmeGetWpcIoutCal idme
  match r.1 with
  | .error e => (e, s, r.2)
  | .ok w => (0, { s with ioutCalData := .ofWords w, isCalDataReady := true }, r.2)

/-! ## The files -/

/-- What a call ends with: its result, the device, the writes to the chip that succeeded and the
accesses to memory. -/
structure Outcome where
  ret : Int
  dev : Dev
  done : List CalReg
  ops : List (Heap.Op Block)

section
variable (env : Nat → Turn)

/-- `p922x_iout_cal_data_store` -/
def ioutCalDataStore (s : Dev) (buf : CStr) (count : Nat) (idme : Idme) : Outcome :=
  match Kstrtox.kstrtoint buf.chars 10 with
  | .error e => ⟨e, s, [], []⟩
  | .ok val =>
    if val = 0 then
      let m := maskIoutCalData env s.chip
      ⟨if m.ret = 0 then count else m.ret, { s with chip := m.chip }, m.done, []⟩
    else if val = 1 then
      let g := getIoutCalData s idme
      if g.1 = 0 then
        let u := updateIoutCalData env g.2.1
        ⟨if u.ret = 0 then count else u.ret, { g.2.1 with chip := u.chip }, u.done, g.2.2⟩
      else ⟨g.1, g.2.1, [], g.2.2⟩
    else ⟨-22, s, [], []⟩

/-- `p922x_force_iout_cal_data_store`. The copy of the digits has no room for a terminator: its text
goes on with what is behind it on the stack, up to the next zero. -/
def forceIoutCalDataStore (s : Dev) (buf : CStr) (count : Nat) (alloc : Bool) (behind : CStr) :
    Outcome :=
  let size : Int := buf.chars.length - 1
  let strlen : Heap.Op Block := .fixed (buf.chars.length + 1) 0 (buf.chars.length + 1)
  if size ≠ 56 then ⟨-22, s, [], [strlen]⟩
  else if !alloc then ⟨-12, s, [], [strlen]⟩
  else
    let copy := buf.chars.take 56 ++ behind.chars
    let w := word (hexToBytes copy)
    let s := { s with ioutCalData := .ofWords w }
    let ops := strlen :: .alloc .retdata 28 ::
      ([.fixed (buf.chars.length + 1) 0 56, .fixed 56 0 56] ++ hexToBytesOps 56 copy.length ++
        (List.range 14).map (fun i => .access .retdata (2 * i) 2) ++ [.free .retdata 0])
    let u := updateIoutCalData env s
    ⟨if u.ret = 0 then count else u.ret, { s with chip := u.chip }, u.done, ops⟩

end

end Wpc.Iout
