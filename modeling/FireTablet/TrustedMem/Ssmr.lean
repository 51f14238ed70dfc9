import FireTablet.Kernel.Strings
import FireTablet.Lib.LocalText
import Mathlib.Data.List.FinRange
import Mathlib.Logic.Function.Basic

/-!
# The reserved memory of the features (`memory_ssmr_module.c`)

A feature that is taken offline gets its memory, either the region that was reserved at boot or an
allocation, and gives it back when it is taken online. A word written to `ssmr_state` asks for one
of the two.
-/

namespace TrustedMem.Ssmr

open LocalText

/-! ## The features -/

inductive FeatState where
  | disabled | oningWait | oning | on | offing | off
  deriving DecidableEq

/-- `struct SSMR_Feature`; a page is given by its physical address. -/
structure Feature where
  state : FeatState
  reqSize : Nat
  useCacheMemory : Bool
  cachePage : Option Nat
  count : Nat
  phyAddr : Nat
  allocSize : Nat
  allocPages : Nat
  virtAddr : Nat

/-- A piece of memory, as it is given back. -/
structure Block where
  size : Nat
  virtAddr : Nat
  phyAddr : Nat
  deriving DecidableEq

/-- What the feature records of its memory. -/
def Feature.block (f : Feature) : Block := ⟨f.allocSize, f.virtAddr, f.phyAddr⟩

/-- The commands of a feature. -/
structure Commands where
  online : List UInt8
  offline : List UInt8

def commands (name : String) : Commands where
  online := Strings.ascii name ++ Strings.ascii "=on"
  offline := Strings.ascii name ++ Strings.ascii "=off"

/-- The commands of `_ssmr_feats`, in the order of their numbers. -/
def ssmrFeats : Fin 9 → Commands
  | 0 => commands "svp"
  | 1 => commands "prot_sharedmem"
  | 2 => commands "wfd"
  | 3 => commands "ta_elf"
  | 4 => commands "ta_stack_heap"
  | 5 => commands "sdsp_firmware"
  | 6 => commands "sdsp_tee_sharedmem"
  | 7 => commands "2d_fr"
  | 8 => commands "tui"

/-- The features, and the memory that is handed out, with the feature it is for. -/
structure State where
  feats : Fin 9 → Feature
  live : List (Fin 9 × Block)

def State.setFeat (s : State) (i : Fin 9) (f : Feature) : State :=
  { s with feats := Function.update s.feats i f }

def State.setState (s : State) (i : Fin 9) (state : FeatState) : State :=
  s.setFeat i { s.feats i with state := state }

/-- The state after `ssmr_probe`; the reserved region of the first feature has a page and a
count. -/
def ssmrProbe (reqSize : Fin 9 → Nat) (svpMemory : Option (Nat × Nat)) : State where
  feats i := {
    state := if reqSize i = 0 then .disabled else .on
    reqSize := reqSize i
    useCacheMemory := i = 0 ∧ svpMemory.isSome
    cachePage := if i = 0 then svpMemory.map Prod.fst else none
    count := if i = 0 then (svpMemory.map Prod.snd).getD 0 else 0
    phyAddr := 0
    allocSize := 0
    allocPages := 0
    virtAddr := 0 }
  live := []

/-! ## Offline and online -/

/-- What is found outside: whether there is a memory region, and the address, physical and virtual,
of an allocation that succeeds. -/
structure Env where
  region : Bool
  alloc : Option (Nat × Nat)

/-- `memory_region_offline` -/
def memoryRegionOffline (env : Env) (i : Fin 9) (s : State) : Int × State :=
  let f := s.feats i
  match f.cachePage with
  | some page =>
    let f := { f with phyAddr := page, allocSize := f.count * 4096 % 18446744073709551616 }
    (0, { s.setFeat i f with live := (i, f.block) :: s.live })
  | none =>
    if !env.region then (-22, s)
    else
      let f := { f with allocSize := f.reqSize }
      match env.alloc with
      | none =>
        let f := { f with virtAddr := 0 }
        (if f.phyAddr ≠ 0 then 0 else -1, s.setFeat i f)
      | some (phyAddr, virtAddr) =>
        let f := { f with virtAddr := virtAddr, phyAddr := phyAddr }
        (if f.phyAddr ≠ 0 then 0 else -1,
          { s.setFeat i f with live := (i, f.block) :: s.live })

/-- `_ssmr_offline_internal` -/
def ssmrOfflineInternal (env : Env) (i : Fin 9) (s : State) : Int × State :=
  if (s.feats i).state ≠ .on then (-16, s)
  else
    let (retval, s) := memoryRegionOffline env i (s.setState i .offing)
    if retval < 0 then (-11, s.setState i .on) else (retval, s.setState i .off)

/-- Give a block back. It is `none` if it is not out. -/
def State.giveBack (s : State) (i : Fin 9) (b : Block) : Option State :=
  if (i, b) ∈ s.live then some { s with live := s.live.erase (i, b) } else none

/-- `memory_region_online` -/
def memoryRegionOnline (i : Fin 9) (s : State) : Option State :=
  let f := s.feats i
  if f.useCacheMemory then
    (s.giveBack i f.block).map fun s =>
      s.setFeat i { f with allocPages := 0, allocSize := 0, phyAddr := 0 }
  else if f.phyAddr ≠ 0 then
    (s.giveBack i f.block).map fun s => s.setFeat i { f with allocSize := 0, phyAddr := 0 }
  else some s

/-- `_ssmr_online_internal` -/
def ssmrOnlineInternal (i : Fin 9) (s : State) : Option (Int × State) :=
  if (s.feats i).state ≠ .off then some (-16, s)
  else do
    let s ← memoryRegionOnline i (s.setState i .oningWait)
    return (0, s.setState i .on)

/-- `ssmr_offline` -/
def ssmrOffline (env : Env) (feat : Nat) (s : State) : Int × State :=
  if h : feat < 9 then ssmrOfflineInternal env ⟨feat, h⟩ s else (-22, s)

/-- `ssmr_online` -/
def ssmrOnline (feat : Nat) (s : State) : Option (Int × State) :=
  if h : feat < 9 then ssmrOnlineInternal ⟨feat, h⟩ s else some (-22, s)

/-! ## The file -/

/-- `isspace` -/
def isSpace (c : UInt8) : Bool := 9 ≤ c ∧ c ≤ 13 ∨ c = 32 ∨ c = 160

/-- The word that `%s` takes from a text. -/
def sscanfWord (text : List UInt8) : List UInt8 :=
  ((text.dropWhile isSpace).takeWhile fun c => !isSpace c).take 32767

inductive Call where
  | offline (i : Fin 9)
  | online (i : Fin 9)
  deriving DecidableEq

/-- The loop over the features: a command is compared over the length of the word. -/
def findCall (word : List UInt8) : Option Call :=
  (List.finRange 9).findSome? fun i =>
    if word <+: (ssmrFeats i).offline then some (.offline i)
    else if word <+: (ssmrFeats i).online then some (.online i)
    else none

/-- The call that `ssmr_store` makes for a text, which its caller terminates. It is `none` if a byte
outside of the buffer is touched, or one without a value is read. -/
def ssmrStore (cmd : List UInt8) : Option (Option Call) :=
  let text := chars cmd
  if text = [] then some none
  else do
    let buf ← puts (blank 64) 0 (sscanfWord text ++ [0])
    let buf ← put buf (min (cmd.length - 1) 63) 0
    let word ← LocalText.text buf
    return findCall word

/-- A write to `ssmr_state`, or a call from another driver. -/
inductive Input where
  | store (cmd : List UInt8) (env : Env)
  | offline (feat : Nat) (env : Env)
  | online (feat : Nat)

/-- The call that is made, and the state after it. -/
def step (s : State) : Input → Option (Option Call × State)
  | .store cmd env => do
    let call ← ssmrStore cmd
    match call with
    | none => return (none, s)
    | some (.offline i) => return (call, (ssmrOffline env i s).2)
    | some (.online i) => (ssmrOnline i s).map fun r => (call, r.2)
  | .offline feat env => some (none, (ssmrOffline env feat s).2)
  | .online feat => (ssmrOnline feat s).map fun r => (none, r.2)

end TrustedMem.Ssmr
