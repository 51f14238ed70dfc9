import FireTablet.Lib.CInt
import Mathlib.Algebra.Group.Nat.Defs

/-!
# A trusted memory region (`region_mgr.c`, `peer_mgr.c`, `ssmr_mgr.c`)

A region is powered on by three calls that may each fail: its memory is taken from Linux (SSMR
offline), a session with the TEE is opened, and the memory is granted to the TEE. Powering off is
the same chain backwards. The state holds what the driver keeps of one device and what the two
outside parties hold: the SSMR feature and the TEE. Each call to them is answered from outside.
-/

namespace TrustedMem

/-! ## Return codes (`enum TMEM_ERROR_STATUS`) -/

def tmemOk : Int := 0
def tmemGeneralError : Int := -1
def tmemSsmrOfflineFailed : Int := -6
def tmemSsmrOnlineFailed : Int := -7
def tmemInvalidAddrOrSize : Int := -9
def tmemMgrSessionIsNotReady : Int := -11
def tmemMgrSessionIsAlreadyOpen : Int := -12
def tmemMgrSessionIsAlreadyClose : Int := -13
def tmemMgrOpenSessionFailed : Int := -14
def tmemMgrCloseSessionFailed : Int := -15
def tmemMgrAllocMemFailed : Int := -16
def tmemMgrFreeMemFailed : Int := -17
def tmemMgrMemAddFailed : Int := -18
def tmemMgrMemRemoveFailed : Int := -19
def tmemRegionPowerOnFailed : Int := -21
def tmemRegionPowerOffFailed : Int := -22
def tmemInvalidPhyicalMinChunkSize : Int := -24
def tmemInvalidDeviceMinChunkSize : Int := -25
def tmemRegionIsNotReadyBeforeMemFreeOperation : Int := -27
def enomem : Int := 12

/-! ## The device -/

/-- `enum REGMGR_REGION_STATE`. -/
inductive RegmgrRegionState
  | off
  | on
  deriving DecidableEq, Repr

/-- `enum TRUSTED_MEM_TYPE`. -/
inductive TrustedMemType
  | svp
  | prot
  | wfd
  | happ
  | happExtra
  | sdsp
  | sdspShared
  | fr2d
  deriving DecidableEq, Repr

/-- `struct trusted_mem_configs`, with the type of the device and whether the build shares the SDSP
memory with MTEE. -/
structure TrustedMemConfigs where
  memType : TrustedMemType
  sdspSharedMtee : Bool
  minimalChunkSize : Nat
  physLimitMinAllocSize : Nat
  sessionKeepAliveEnable : Bool
  minSizeCheckEnable : Bool
  alignmentCheckEnable : Bool

/-- `struct trusted_peer_session`. -/
structure TrustedPeerSession where
  memPaStart : Nat
  memSize : Nat
  memSizeRuntime : Nat
  refChunks : Nat
  opened : Bool
  deriving DecidableEq, Repr

/-- `struct region_mgr_desc`; `deferOffWork` says that the delayed work is queued. -/
structure RegionMgrDesc where
  deferOffWork : Bool
  onlineAccCount : Nat
  validRefCount : Nat
  state : RegmgrRegionState
  activeMemType : Option TrustedMemType
  deriving DecidableEq, Repr

/-- A device with its two managers, and what the outside holds: `ssmrOff` that the memory is taken
from Linux, `granted` that the TEE has it, `reclaims` how often the TEE has given it back. -/
structure TrustedMemDevice where
  peerMgrData : TrustedPeerSession
  regMgr : RegionMgrDesc
  isDeviceBusy : Bool
  ssmrOff : Bool
  granted : Bool
  reclaims : Nat
  deriving DecidableEq, Repr

/-- A device that is registered. -/
def TrustedMemDevice.init : TrustedMemDevice :=
  ⟨⟨0, 0, 0, 0, false⟩, ⟨false, 0, 0, .off, none⟩, false, false, false, 0⟩

/-- The answer of SSMR or of the TEE to one call: its return value and, where the call gives
something, the memory or the handle. -/
structure Ans where
  ret : Int := 0
  pa : Nat := 0
  size : Nat := 0
  handle : Nat := 0
  deriving DecidableEq, Repr

/-! ## SSMR (`ssmr_mgr.c`) -/

/-- `tmem_ssmr_get`: `ssmr_offline` refuses memory that is offline already. The memory stays offline
when its address or size turns out to be invalid. -/
def tmemSsmrGet (d : TrustedMemDevice) (a : Ans) : Int × TrustedMemDevice :=
  if d.ssmrOff ∨ a.ret ≠ 0 then (tmemSsmrOfflineFailed, d)
  else if a.pa = 0 ∨ a.size % 2 ^ 32 = 0 then (tmemInvalidAddrOrSize, { d with ssmrOff := true })
  else (tmemOk, { d with ssmrOff := true })

/-- `tmem_ssmr_put`. -/
def tmemSsmrPut (d : TrustedMemDevice) (a : Ans) : Int × TrustedMemDevice :=
  if ¬ d.ssmrOff ∨ a.ret ≠ 0 then (tmemSsmrOnlineFailed, d)
  else (tmemOk, { d with ssmrOff := false })

/-! ## The session with the TEE (`peer_mgr.c`)

Each function looks at `opened` under the session lock, releases it, and takes it again for the
call. The part under the second lock is a definition of its own. -/

/-- The section of `peer_mgr_session_open_locked` under the lock. -/
def sessionOpenSection (d : TrustedMemDevice) (a : Ans) : Int × TrustedMemDevice :=
  if a.ret ≠ 0 then (tmemMgrOpenSessionFailed, d)
  else (tmemOk, { d with peerMgrData := { d.peerMgrData with opened := true } })

/-- `peer_mgr_session_open_locked`. -/
def peerMgrSessionOpenLocked (d : TrustedMemDevice) (a : Ans) : Int × TrustedMemDevice :=
  if d.peerMgrData.opened then (tmemMgrSessionIsAlreadyOpen, d) else sessionOpenSection d a

/-- The section of `peer_mgr_session_close_locked` under the lock. -/
def sessionCloseSection (d : TrustedMemDevice) (a : Ans) : Int × TrustedMemDevice :=
  if a.ret ≠ 0 then (tmemMgrCloseSessionFailed, d)
  else (tmemOk, { d with peerMgrData := { d.peerMgrData with opened := false } })

/-- `peer_mgr_session_close_locked`. -/
def peerMgrSessionCloseLocked (keepAlive : Bool) (d : TrustedMemDevice) (a : Ans) :
    Int × TrustedMemDevice :=
  if ¬ d.peerMgrData.opened then (tmemMgrSessionIsAlreadyClose, d)
  else if keepAlive then (tmemOk, d)
  else sessionCloseSection d a

/-- The section of `peer_mgr_mem_add_locked` under the lock. -/
def memAddSection (pa size : Nat) (d : TrustedMemDevice) (a : Ans) : Int × TrustedMemDevice :=
  if a.ret ≠ 0 then (tmemMgrMemAddFailed, d)
  else (tmemOk, { d with
    granted := true
    peerMgrData := { d.peerMgrData with memPaStart := pa, memSize := size, memSizeRuntime := size } })

/-- `peer_mgr_mem_add_locked`. -/
def peerMgrMemAddLocked (pa size : Nat) (d : TrustedMemDevice) (a : Ans) :
    Int × TrustedMemDevice :=
  if ¬ d.peerMgrData.opened then (tmemMgrSessionIsNotReady, d) else memAddSection pa size d a

/-- The section of `peer_mgr_mem_remove_locked` under the lock. -/
def memRemoveSection (d : TrustedMemDevice) (a : Ans) : Int × TrustedMemDevice :=
  if a.ret ≠ 0 then (tmemMgrMemRemoveFailed, d)
  else (tmemOk, { d with
    granted := false
    reclaims := d.reclaims + 1
    peerMgrData := { d.peerMgrData with memPaStart := 0, memSize := 0 } })

/-- `peer_mgr_mem_remove_locked`. -/
def peerMgrMemRemoveLocked (d : TrustedMemDevice) (a : Ans) : Int × TrustedMemDevice :=
  if ¬ d.peerMgrData.opened then (tmemMgrSessionIsNotReady, d) else memRemoveSection d a

/-- The section of `peer_mgr_chunk_alloc_locked` under the lock. -/
def chunkAllocSection (d : TrustedMemDevice) (a : Ans) : Int × TrustedMemDevice :=
  if a.ret ≠ 0 then (if a.ret = -enomem then a.ret else tmemMgrAllocMemFailed, d)
  else (tmemOk, { d with peerMgrData :=
    { d.peerMgrData with refChunks := (d.peerMgrData.refChunks + 1) % 2 ^ 64 } })

/-- `peer_mgr_chunk_alloc_locked`. -/
def peerMgrChunkAllocLocked (d : TrustedMemDevice) (a : Ans) : Int × TrustedMemDevice :=
  if ¬ d.peerMgrData.opened then (tmemMgrSessionIsNotReady, d) else chunkAllocSection d a

/-- The section of `peer_mgr_chunk_free_locked` under the lock. -/
def chunkFreeSection (d : TrustedMemDevice) (a : Ans) : Int × TrustedMemDevice :=
  if a.ret ≠ 0 then (tmemMgrFreeMemFailed, d)
  else (tmemOk, { d with peerMgrData :=
    { d.peerMgrData with refChunks := d.peerMgrData.refChunks - 1 } })

/-- `peer_mgr_chunk_free_locked`. -/
def peerMgrChunkFreeLocked (d : TrustedMemDevice) (a : Ans) : Int × TrustedMemDevice :=
  if ¬ d.peerMgrData.opened then (tmemMgrSessionIsNotReady, d) else chunkFreeSection d a

/-! ## Power (`region_mgr.c`) -/

/-- The answers that one power-on or power-off gets, by the call. -/
structure PowerAns where
  offline : Ans := {}
  sessionOpen : Ans := {}
  memAdd : Ans := {}
  memRemove : Ans := {}
  sessionClose : Ans := {}
  online : Ans := {}
  deriving DecidableEq, Repr

/-- `trusted_mem_region_poweron`. -/
def trustedMemRegionPoweron (keepAlive : Bool) (d : TrustedMemDevice) (a : PowerAns) :
    Int × TrustedMemDevice :=
  let r := tmemSsmrGet d a.offline
  if r.1 ≠ 0 then r
  else
    let r := peerMgrSessionOpenLocked r.2 a.sessionOpen
    if r.1 ≠ 0 ∧ r.1 ≠ tmemMgrSessionIsAlreadyOpen then (r.1, (tmemSsmrPut r.2 a.online).2)
    else
      let r := peerMgrMemAddLocked a.offline.pa (a.offline.size % 2 ^ 32) r.2 a.memAdd
      if r.1 ≠ 0 then
        let r' := peerMgrSessionCloseLocked keepAlive r.2 a.sessionClose
        (r.1, (tmemSsmrPut r'.2 a.online).2)
      else (tmemOk, r.2)

/-- `trusted_mem_region_poweroff`. -/
def trustedMemRegionPoweroff (keepAlive : Bool) (d : TrustedMemDevice) (a : PowerAns) :
    Int × TrustedMemDevice :=
  let r := peerMgrMemRemoveLocked d a.memRemove
  if r.1 ≠ 0 then r
  else
    let r := peerMgrSessionCloseLocked keepAlive r.2 a.sessionClose
    if r.1 ≠ 0 ∧ r.1 ≠ tmemMgrSessionIsAlreadyClose then r
    else
      let r := tmemSsmrPut r.2 a.online
      if r.1 ≠ 0 then r else (tmemOk, r.2)

/-- What `regmgr_try_on` does after a power-on that succeeded, with `set_region_state`. -/
def TrustedMemDevice.setOn (cfg : TrustedMemConfigs) (d : TrustedMemDevice) : TrustedMemDevice :=
  { d with
    isDeviceBusy := true
    regMgr := { d.regMgr with
      activeMemType := some cfg.memType
      state := .on
      onlineAccCount := (d.regMgr.onlineAccCount + 1) % 2 ^ 64 } }

/-- What `regmgr_try_off` does after a power-off that succeeded, with `set_region_state`. -/
def TrustedMemDevice.setOff (d : TrustedMemDevice) : TrustedMemDevice :=
  { d with isDeviceBusy := false, regMgr := { d.regMgr with activeMemType := none, state := .off } }

/-- `regmgr_try_on`. -/
def regmgrTryOn (cfg : TrustedMemConfigs) (d : TrustedMemDevice) (a : PowerAns) :
    Int × TrustedMemDevice :=
  if d.regMgr.state = .on then (tmemOk, d)
  else
    let r := trustedMemRegionPoweron cfg.sessionKeepAliveEnable d a
    if r.1 ≠ 0 then (tmemRegionPowerOnFailed, r.2) else (tmemOk, r.2.setOn cfg)

/-- `regmgr_try_off`. -/
def regmgrTryOff (cfg : TrustedMemConfigs) (d : TrustedMemDevice) (a : PowerAns) :
    Int × TrustedMemDevice :=
  if ¬ d.regMgr.state = .on then (tmemOk, d)
  else
    let r := trustedMemRegionPoweroff cfg.sessionKeepAliveEnable d a
    if r.1 ≠ 0 then (tmemRegionPowerOffFailed, r.2) else (tmemOk, r.2.setOff)

/-- The delayed work is queued or not. -/
def TrustedMemDevice.setDeferOffWork (d : TrustedMemDevice) (b : Bool) : TrustedMemDevice :=
  { d with regMgr := { d.regMgr with deferOffWork := b } }

/-- The reference count is set. -/
def TrustedMemDevice.setValidRefCount (d : TrustedMemDevice) (n : Nat) : TrustedMemDevice :=
  { d with regMgr := { d.regMgr with validRefCount := n } }

/-- `regmgr_defer_off_handler`, when the work is queued. -/
def regmgrDeferOffHandler (cfg : TrustedMemConfigs) (d : TrustedMemDevice) (a : PowerAns) :
    TrustedMemDevice :=
  if d.regMgr.deferOffWork then
    let d := d.setDeferOffWork false
    if d.regMgr.validRefCount = 0 then (regmgrTryOff cfg d a).2 else d
  else d

/-- `regmgr_region_ref_inc`. -/
def regmgrRegionRefInc (cfg : TrustedMemConfigs) (d : TrustedMemDevice) (a : PowerAns) :
    TrustedMemDevice :=
  (regmgrTryOn cfg (d.setValidRefCount ((d.regMgr.validRefCount + 1) % 2 ^ 32)) a).2

/-- `regmgr_region_ref_dec`. -/
def regmgrRegionRefDec (d : TrustedMemDevice) : TrustedMemDevice :=
  if d.regMgr.validRefCount = 0 then d else d.setValidRefCount (d.regMgr.validRefCount - 1)

/-- `regmgr_online`. -/
def regmgrOnline (cfg : TrustedMemConfigs) (d : TrustedMemDevice) (a : PowerAns) :
    Int × TrustedMemDevice :=
  regmgrTryOn cfg (d.setDeferOffWork false) a

/-- `regmgr_offline`. -/
def regmgrOffline (d : TrustedMemDevice) : TrustedMemDevice := d.setDeferOffWork true

/-! ## Chunks (`entry.c`) -/

/-- `is_mtee_mchunks`. -/
def isMteeMchunks (cfg : TrustedMemConfigs) : Bool :=
  match cfg.memType with
  | .prot | .happ | .happExtra | .sdsp => true
  | .sdspShared => cfg.sdspSharedMtee
  | _ => false

/-- `min_chunk_size_check`, with the size that it leaves in `*size`. -/
def minChunkSizeCheck (cfg : TrustedMemConfigs) (size : Nat) : Int × Nat :=
  if cfg.minimalChunkSize < cfg.physLimitMinAllocSize then (tmemInvalidPhyicalMinChunkSize, size)
  else if isMteeMchunks cfg then
    -- in 32 bits, so a size of 0 would wrap
    (tmemOk,
      ((size + 2 ^ 32 - 1) % 2 ^ 32 / cfg.minimalChunkSize + 1) * cfg.minimalChunkSize % 2 ^ 32)
  else if size < cfg.minimalChunkSize then (tmemInvalidDeviceMinChunkSize, size)
  else (tmemOk, size)

/-- `get_ordered_size`: the first of the shifted block sizes that is large enough. `none` when the
loop passes the width of an `int`. -/
def getOrderedSize (cfg : TrustedMemConfigs) (size : Nat) : Option Nat :=
  if size < cfg.minimalChunkSize then some cfg.minimalChunkSize
  else if isMteeMchunks cfg then some cfg.minimalChunkSize
  else ((List.range 32).map fun order => cfg.minimalChunkSize * 2 ^ order % 2 ^ 32).find?
    fun orderSize => size ≤ orderSize

/-- `alignment_adjust`: an alignment that is zero, above the size or below it becomes the ordered
size. -/
def alignmentAdjust (cfg : TrustedMemConfigs) (alignment size : Nat) : Option Nat :=
  let alignmentUpdate := getOrderedSize cfg size
  (if alignment = 0 ∨ size < alignment then alignmentUpdate else some alignment).bind
    fun alignment => if alignment < size then alignmentUpdate else some alignment

/-- `parameter_checks_with_alignment_adjust`: the return code, the alignment and the size. -/
def parameterChecks (cfg : TrustedMemConfigs) (alignment size : Nat) : Option (Int × Nat × Nat) :=
  let r := if cfg.minSizeCheckEnable then minChunkSizeCheck cfg size else (tmemOk, size)
  if r.1 ≠ 0 then some (r.1, alignment, r.2)
  else if cfg.alignmentCheckEnable then
    (alignmentAdjust cfg alignment r.2).map fun alignment => (tmemOk, alignment, r.2)
  else some (tmemOk, alignment, r.2)

/-- What `tmem_core_alloc_chunk_internal` checks before it touches the device. -/
def allocChecks (cfg : TrustedMemConfigs) (alignment size : Nat) (doAlignmentCheck : Bool) :
    Option Int :=
  if size = 0 then some tmemGeneralError
  else if doAlignmentCheck then (parameterChecks cfg alignment size).map (·.1)
  else some tmemOk

/-- `tmem_core_alloc_chunk_internal`, with the answers to its two power-ons and to the allocation.
-/
def tmemCoreAllocChunkInternal (cfg : TrustedMemConfigs) (d : TrustedMemDevice)
    (alignment size : Nat) (doAlignmentCheck : Bool) (on : PowerAns) (alloc : Ans)
    (refInc : PowerAns) : Option (Int × TrustedMemDevice) :=
  (allocChecks cfg alignment size doAlignmentCheck).map fun ret =>
    if ret ≠ 0 then (ret, d)
    else
      let r := regmgrOnline cfg d on
      if r.1 ≠ 0 then r
      else
        let r := peerMgrChunkAllocLocked r.2 alloc
        if r.1 ≠ 0 then (r.1, regmgrOffline r.2)
        else (tmemOk, regmgrRegionRefInc cfg r.2 refInc)

/-- `tmem_core_unref_chunk`. -/
def tmemCoreUnrefChunk (d : TrustedMemDevice) (a : Ans) : Int × TrustedMemDevice :=
  if ¬ d.regMgr.state = .on then (tmemRegionIsNotReadyBeforeMemFreeOperation, d)
  else
    let r := peerMgrChunkFreeLocked d a
    if r.1 ≠ 0 then r else (tmemOk, regmgrOffline (regmgrRegionRefDec r.2))

end TrustedMem
