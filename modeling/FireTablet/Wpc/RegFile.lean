import FireTablet.Lib.Run
import FireTablet.Wpc.Iout
import Mathlib.Data.Nat.Digits.Defs

/-!
# The files that take texts (`idtp922x_wireless_power.c`)

The file `addr` selects registers, the file `reg` reads and writes them; the calibration comes from
the device tree or from `force_iout_cal_data`. Each function gives the accesses that it makes to its
texts, its local arrays and its temporary blocks.
-/

namespace Wpc.RegFile

open Iout

/-- `struct p922x_reg` -/
structure Reg where
  addr : UInt16
  size : UInt8

/-- What the device holds of the calibration, and the registers that are selected. -/
structure State where
  dev : Dev
  reg : Reg

/-- How a transfer from the chip ends: a failed one may have stored some of the bytes. -/
structure BulkRead where
  ret : Int
  filled : Nat

/-- The bytes that a transfer of some size stores. -/
def BulkRead.stored (r : BulkRead) (size : Nat) : Nat :=
  if r.ret = 0 then size else min r.filled size

/-- The length of a line `addr:0x%04x = 0x%02x`. -/
def lineLength (addr : Nat) : Nat := 15 + max 4 (Nat.digits 16 addr).length

/-- The loop of `p922x_reg_show` over the bytes from some index on, with the length of the text so
far; `scnprintf` cuts a line at the end of the page. -/
def showLoop (addr : Nat) : Nat → Nat → Nat → Nat × List (Heap.Op Block)
  | 0, _, len => (len, [])
  | n + 1, i, len =>
    let written := min (lineLength (addr + i)) (4096 - len - 1)
    let r := showLoop addr n (i + 1) (len + written)
    (r.1, .fixed 123 i 1 :: .fixed 4096 len (written + 1) :: r.2)

/-- `p922x_reg_show`, with its accesses. -/
def regShow (reg : Reg) (pg : Bool) (read : BulkRead) : Int × List (Heap.Op Block) :=
  let size := reg.size.toNat
  if !pg then (-19, [])
  else
    let stored : Heap.Op Block := .fixed 123 0 (read.stored size)
    if read.ret ≠ 0 then (read.ret, [stored])
    else
      let r := showLoop reg.addr.toNat size 0 0
      (r.1, stored :: r.2)

/-- What the loop over the tokens ends with: the numbers, whether it was left at one that is none,
the pointer `tmp_data` and the accesses. -/
structure Tokens where
  vals : List UInt8
  failed : Bool
  tmpData : Option Nat
  ops : List (Heap.Op Block)

/-- The loop of `p922x_reg_store` over the tokens from an offset of the copy on. `strsep` ends each
token and moves the pointer behind it, at the last token to `NULL`. -/
def tokenLoop (size : Nat) : Nat → List (List UInt8) → List UInt8 → Tokens
  | _, [], vals => ⟨vals, false, none, []⟩
  | off, tok :: toks, vals =>
    if vals.length < size then
      let behind := off + tok.length + 1
      let strsep : Heap.Op Block := .access .tmpData off (tok.length + 1)
      if tok = [] then
        let r := tokenLoop size behind toks vals
        { r with ops := strsep :: r.ops }
      else
        match Kstrtox.kstrtou8 tok 0 with
        | .error _ => ⟨vals, true, if toks = [] then none else some behind, [strsep]⟩
        | .ok val =>
          let r := tokenLoop size behind toks (vals ++ [val])
          { r with ops := strsep :: .fixed 123 vals.length 1 :: r.ops }
    else ⟨vals, false, some off, []⟩

/-- `kfree`, which takes no notice of `NULL`. -/
def kfree (p : Option Nat) : List (Heap.Op Block) :=
  match p with
  | none => []
  | some off => [.free .tmpData off]

/-- `p922x_reg_store`, with the error of its transfer and its accesses. -/
def regStore (reg : Reg) (buf : CStr) (count : Nat) (pg alloc : Bool) (write : Int) :
    Int × List (Heap.Op Block) :=
  let size := reg.size.toNat
  let len := buf.chars.length
  if size + reg.addr.toNat > 123 ∨ size = 0 then (-22, [])
  else if !pg then (-19, [])
  else
    let strlen : Heap.Op Block := .fixed (len + 1) 0 (len + 1)
    if !alloc then (-12, [strlen])
    else
      let t := tokenLoop size 0 (buf.chars.splitOn 32) []
      let copied := [strlen, .alloc .tmpData (len + 1), .fixed (len + 1) 0 len,
        .access .tmpData 0 len] ++ t.ops
      if t.vals.length ≠ size ∨ t.failed then (-22, copied ++ kfree t.tmpData)
      else
        let ret := if write = 0 then (count : Int) else write
        (ret, copied ++ [.fixed 123 0 size] ++ kfree t.tmpData)

/-! ## The files together -/

/-- What arrives. -/
inductive Input where
  | getIoutCalData (idme : Idme)
  | ioutCalDataStore (buf : CStr) (count : Nat) (idme : Idme)
  | forceIoutCalDataStore (buf : CStr) (count : Nat) (alloc : Bool) (behind : CStr)
  | addrStore (buf : CStr) (count : Nat)
  | regShow (pg : Bool) (read : BulkRead)
  | regStore (buf : CStr) (count : Nat) (pg alloc : Bool) (write : Int)

/-- The result of a call and its accesses. -/
structure Output where
  ret : Int
  ops : List (Heap.Op Block)

section

variable (env : Nat → Turn) (sscanf : CStr → Option (UInt32 × UInt32))

/-- `p922x_addr_store`: the numbers are narrowed to the fields. -/
def addrStore (s : State) (buf : CStr) (count : Nat) : Output × State :=
  match sscanf buf with
  | none => (⟨-22, [.fixed (buf.chars.length + 1) 0 (buf.chars.length + 1)]⟩, s)
  | some data => (⟨count, [.fixed (buf.chars.length + 1) 0 (buf.chars.length + 1)]⟩,
      { s with reg := ⟨data.1.toUInt16, data.2.toUInt8⟩ })

/-- One call. -/
def handle (s : State) : Input → Output × State
  | .getIoutCalData idme =>
    let r := Iout.getIoutCalData s.dev idme
    (⟨r.1, r.2.2⟩, { s with dev := r.2.1 })
  | .ioutCalDataStore buf count idme =>
    let o := Iout.ioutCalDataStore env s.dev buf count idme
    (⟨o.ret, o.ops⟩, { s with dev := o.dev })
  | .forceIoutCalDataStore buf count alloc behind =>
    let o := Iout.forceIoutCalDataStore env s.dev buf count alloc behind
    (⟨o.ret, o.ops⟩, { s with dev := o.dev })
  | .addrStore buf count => addrStore sscanf s buf count
  | .regShow pg read =>
    let r := RegFile.regShow s.reg pg read
    (⟨r.1, r.2⟩, s)
  | .regStore buf count pg alloc write =>
    let r := RegFile.regStore s.reg buf count pg alloc write
    (⟨r.1, r.2⟩, s)

def step (s : State) (i : Input) : Option (Output × State) := some (handle env sscanf s i)

end

end Wpc.RegFile
