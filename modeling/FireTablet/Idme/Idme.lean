import Mathlib.Data.BitVec
import Mathlib.Logic.Function.Basic

/-!
# Calibration values from the device tree (`idme.c`)

The calibration of the sensors is kept in device tree properties as hexadecimal text.
`hexToBytes` decodes a text into `gbuffer`, one buffer for all properties, and ends it with a zero.
An `s8` is a `BitVec 8`; the operations are those of `int`, to which it is promoted.

A property's text is the bytes before its terminator. `hexToBytes` is modelled by the stores it
makes, and memory from `gbuffer` on is a function, so a store behind the buffer's end is one too.
-/

namespace Idme

/-- `SENSOR_CAL_SIZE`. -/
def sensorCalSize : Nat := 96

/-- `castChar`. -/
def castChar (c : BitVec 8) : BitVec 8 :=
  if BitVec.sle 48 c ∧ BitVec.sle c 57 then c - 48
  else if BitVec.sle 97 c ∧ BitVec.sle c 102 then c - 97 + 10
  else if BitVec.sle 65 c ∧ BitVec.sle c 70 then c - 65 + 10
  else 255

/-- The byte that is stored for the characters at `p` and `p + 1`. -/
def hexByte (c0 c1 : BitVec 8) : BitVec 8 :=
  (((castChar c0).signExtend 32 <<< 4) ||| (castChar c1).signExtend 32).setWidth 8

/-- The stores of the loop of `hexToBytes` from `i` on, with the text from `p` on. -/
def hexStores : Nat → List (BitVec 8) → List (Nat × BitVec 8)
  | i, c0 :: c1 :: p => (i, hexByte c0 c1) :: hexStores (i + 1) p
  | _, _ => []

/-- `hexToBytes`: the stores it makes, by their offsets in `gbuffer`. -/
def hexToBytes (inhex : List (BitVec 8)) : List (Nat × BitVec 8) :=
  hexStores 0 inhex ++ [(inhex.length / 2, 0)]

/-- Memory after stores. -/
def store (gbuffer : Nat → BitVec 8) (stores : List (Nat × BitVec 8)) : Nat → BitVec 8 :=
  stores.foldl (fun g s => Function.update g s.1 s.2) gbuffer

/-- `data[i]` of `idme_get_sensorcal`. -/
def sensorWord (b0 b1 : BitVec 8) : BitVec 16 :=
  ((b0.signExtend 32 &&& 0x00FF#32) ||| (b1.signExtend 32 <<< 8)).setWidth 16

/-- `idme_get_sensorcal`, given the property's text (`none` where there is no such property) and
memory from `gbuffer` on: the return value, what is stored in `data`, and memory after it. -/
def idmeGetSensorcal (sensorcal : Option (List (BitVec 8))) (size : Nat)
    (gbuffer : Nat → BitVec 8) : BitVec 32 × List (BitVec 16) × (Nat → BitVec 8) :=
  match sensorcal with
  | none => (-1, [], gbuffer)
  | some sensorcal =>
    let retdata := store gbuffer (hexToBytes sensorcal)
    let size := if size > 6 then 6 else size
    (0, (List.range size).map fun i => sensorWord (retdata (i * 2)) (retdata (i * 2 + 1)), retdata)

/-- `idme_get_alscal_value`; without the property it reads a text at `NULL`, which is `none`. -/
def idmeGetAlscalValue (alscal : Option (List (BitVec 8))) (gbuffer : Nat → BitVec 8) :
    Option (BitVec 32 × (Nat → BitVec 8)) :=
  alscal.map fun alscal =>
    let retdata := store gbuffer (hexToBytes alscal)
    ((retdata 0).signExtend 32 &&& 0x000000FF#32 |||
        ((retdata 1).signExtend 32 &&& 0x000000FF#32) <<< 8 |||
        ((retdata 2).signExtend 32 &&& 0x000000FF#32) <<< 16 |||
        ((retdata 3).signExtend 32 &&& 0x000000FF#32) <<< 24, retdata)

/-! ## Calls one after another -/

/-- The two calibration properties. -/
structure Tree where
  sensorcal : Option (List (BitVec 8))
  alscal : Option (List (BitVec 8))

/-- A call. -/
inductive Call
  | sensorcal (size : Nat)
  | alscal
  deriving DecidableEq

/-- What a call gives. -/
inductive Result
  | sensorcal (rs : BitVec 32) (data : List (BitVec 16))
  | alscal (value : BitVec 32)
  deriving DecidableEq

/-- A call with the properties of `t`. -/
def call (t : Tree) (gbuffer : Nat → BitVec 8) : Call → Option (Result × (Nat → BitVec 8))
  | .sensorcal size =>
    let r := idmeGetSensorcal t.sensorcal size gbuffer
    some (.sensorcal r.1 r.2.1, r.2.2)
  | .alscal => (idmeGetAlscalValue t.alscal gbuffer).map fun r => (.alscal r.1, r.2)

/-- Memory before the first call: a static buffer is zero. -/
def gbuffer0 : Nat → BitVec 8 := fun _ => 0

end Idme
