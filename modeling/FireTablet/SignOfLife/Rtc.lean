import FireTablet.Lib.BitField
import Mathlib.Logic.Function.Basic

/-!
# The life cycle reasons in the RTC (`amzn_sign_of_life_rtc_impl.c`)

Four reasons are kept as codes in bit fields of two RTC registers, with one parity bit over them;
the bit next to it says that the device is quiescent. `mtk_rtc_read` and `mtk_rtc_write` are the
value and the update of a register, and each function is run to its end.

At boot the driver reads the four reasons and looks one of them up in a table of its own,
`lcr_data`, which `/proc/life_cycle_reason` shows a row of. `get_android_bootreason` leaves a boot
reason in `lcr_boot` that stands in for one that the RTC does not have.
-/

namespace SignOfLife

/-- `life_cycle_reason_t`, which takes any value. -/
abbrev LifeCycleReason := Int

namespace LifeCycleReason

def notAvailable : LifeCycleReason := -1
def warmbootByKernelPanic : LifeCycleReason := 0x100
def warmbootByKernelWatchdog : LifeCycleReason := 0x101
def warmbootByHwWatchdog : LifeCycleReason := 0x102
def warmbootBySw : LifeCycleReason := 0x103
def coldbootByUsb : LifeCycleReason := 0x104
def shutdownByLongPwrKeyPress : LifeCycleReason := 0x201
def shutdownBySw : LifeCycleReason := 0x202
def shutdownByPwrKey : LifeCycleReason := 0x203
def shutdownBySuddenPowerLoss : LifeCycleReason := 0x204
def shutdownByUnknownReasons : LifeCycleReason := 0x205
def thermalShutdownReasonBattery : LifeCycleReason := 0x301
def thermalShutdownReasonPmic : LifeCycleReason := 0x302
def thermalShutdownReasonSoc : LifeCycleReason := 0x303
def thermalShutdownReasonModem : LifeCycleReason := 0x304
def thermalShutdownReasonWifi : LifeCycleReason := 0x305
def thermalShutdownReasonPcb : LifeCycleReason := 0x306
def thermalShutdownReasonBts : LifeCycleReason := 0x307
def smodeLowBattery : LifeCycleReason := 0x401
def smodeWarmBootUsbConnected : LifeCycleReason := 0x402
def smodeOta : LifeCycleReason := 0x403
def smodeFactoryReset : LifeCycleReason := 0x404
def smodeRtcCheckFail : LifeCycleReason := 0x405

end LifeCycleReason

open LifeCycleReason

/-- The kinds of reason: `BOOT`, `SHUTDOWN`, `THERMAL_SHUTDOWN`, `SPECIAL`. -/
inductive Category
  | boot
  | shutdown
  | thermalShutdown
  | special
  deriving DecidableEq

/-- `struct rtc_lcr_map`. -/
structure RtcLcrMap where
  rtc : Nat
  lcr : LifeCycleReason
  deriving DecidableEq

/-! ## The tables -/

/-- `rtc_to_boot_reason`. -/
def rtcToBootReason : List RtcLcrMap :=
  [⟨0, notAvailable⟩, ⟨1, warmbootByKernelPanic⟩, ⟨2, warmbootByKernelWatchdog⟩,
    ⟨3, warmbootByHwWatchdog⟩, ⟨4, warmbootBySw⟩]

/-- `rtc_to_shutdown_reason`. -/
def rtcToShutdownReason : List RtcLcrMap :=
  [⟨0, notAvailable⟩, ⟨1, shutdownByLongPwrKeyPress⟩, ⟨2, shutdownBySw⟩, ⟨3, shutdownByPwrKey⟩,
    ⟨4, shutdownBySuddenPowerLoss⟩, ⟨5, shutdownByUnknownReasons⟩]

/-- `rtc_to_thermal_shutdown_reason`. -/
def rtcToThermalShutdownReason : List RtcLcrMap :=
  [⟨0, notAvailable⟩, ⟨1, thermalShutdownReasonBattery⟩, ⟨2, thermalShutdownReasonPmic⟩,
    ⟨3, thermalShutdownReasonSoc⟩, ⟨4, thermalShutdownReasonModem⟩,
    ⟨5, thermalShutdownReasonWifi⟩, ⟨6, thermalShutdownReasonPcb⟩, ⟨7, thermalShutdownReasonBts⟩]

/-- `rtc_to_special_mode_reason`. -/
def rtcToSpecialModeReason : List RtcLcrMap :=
  [⟨0, notAvailable⟩, ⟨1, smodeLowBattery⟩, ⟨2, smodeWarmBootUsbConnected⟩, ⟨3, smodeOta⟩,
    ⟨4, smodeFactoryReset⟩]

/-- `RTC_SPAR0`. -/
def rtcSpar0 : Nat := 0x30

/-- `RTC_AL_DOW`. -/
def rtcAlDow : Nat := 0x20

/-- `PARITY_REG`. -/
def parityReg : Nat := rtcAlDow

/-- `QUIE_REG`. -/
def quieReg : Nat := rtcAlDow

/-- `struct sign_of_life_private_data`. -/
structure SignOfLifePrivateData extends BitField 16 where
  reg : Nat
  rtcToLcr : List RtcLcrMap

/-- The array `life_cycle_reason`. -/
def lifeCycleReason : Category → SignOfLifePrivateData
  | .boot => ⟨⟨0x1C00, 10⟩, rtcSpar0, rtcToBootReason⟩
  | .shutdown => ⟨⟨0xE000, 13⟩, rtcSpar0, rtcToShutdownReason⟩
  | .thermalShutdown => ⟨⟨0x0700, 8⟩, rtcAlDow, rtcToThermalShutdownReason⟩
  | .special => ⟨⟨0x3800, 11⟩, rtcAlDow, rtcToSpecialModeReason⟩

/-- The order of the array. -/
def categories : List Category := [.boot, .shutdown, .thermalShutdown, .special]

/-- `RTC_LIFE_CYCLE_REASON_PARITY_MASK` and `RTC_LIFE_CYCLE_REASON_PARITY_SHIFT`. -/
def parityField : BitField 16 := ⟨0x4000, 14⟩

/-- `PMIC_RTC_QUIESCENT`. -/
def pmicRtcQuiescent : BitVec 16 := 0x8000

/-- The RTC registers by their address. -/
abbrev Regs := Nat → BitVec 16

/-- `search_rtc_by_lcr`. -/
def searchRtcByLcr (table : List RtcLcrMap) (reason : LifeCycleReason) : Nat :=
  match table.find? (·.lcr = reason) with
  | some m => m.rtc
  | none => (table.head?.map (·.rtc)).getD 0

/-- `search_lcr_by_rtc`. -/
def searchLcrByRtc (table : List RtcLcrMap) (reason : BitVec 16) : LifeCycleReason :=
  match table.find? (·.rtc = reason.toNat) with
  | some m => m.lcr
  | none => (table.head?.map (·.lcr)).getD 0

/-! ## Parity -/

/-- The `do … while` loop that counts the bits of a 32-bit mask. -/
def countBits : Nat → Nat → Nat
  | 0, _ => 0
  | n + 1, mask => if mask / 2 = 0 then 1 else countBits n (mask / 2) + 1

/-- The loop `x ^= parity & 1; parity >>= 1`. -/
def xorBits : Nat → BitVec 32 → BitVec 32 → BitVec 32
  | 0, _, x => x
  | n + 1, parity, x => xorBits n (parity >>> 1) (x ^^^ (parity &&& 1))

/-- The code of a category's reason, `rtc_breason`. -/
def rtcBreason (regs : Regs) (c : Category) : BitVec 16 :=
  (lifeCycleReason c).get (regs (lifeCycleReason c).reg)

/-- The codes of the categories one beside the other: the loop's `parity` and `bit_count`. -/
def packReasons (code : Category → BitVec 16) : BitVec 32 × Nat :=
  categories.foldl (fun p c =>
    (p.1 ||| (code c).setWidth 32 <<< p.2,
      p.2 + countBits 32 ((lifeCycleReason c).mask >>> (lifeCycleReason c).shift).toNat)) (0, 0)

/-- `get_sign_of_life_parity`. -/
def getSignOfLifeParity (regs : Regs) : BitVec 32 :=
  let (parity, bitCount) := packReasons (rtcBreason regs)
  xorBits bitCount parity 0

/-- `check_sign_of_life_parity`. -/
def checkSignOfLifeParity (regs : Regs) : Bool :=
  (parityField.get (regs parityReg)).setWidth 32 == getSignOfLifeParity regs

/-! ## The operations -/

/-- `rtc_mark_quiescent`. -/
def rtcMarkQuiescent (value : Int) (regs : Regs) : Regs :=
  Function.update regs quieReg
    (if value = 0 then regs quieReg &&& ~~~pmicRtcQuiescent else regs quieReg ||| pmicRtcQuiescent)

/-- `rtc_clear_life_cycle_reason`. -/
def rtcClearLifeCycleReason (regs : Regs) : Regs :=
  let regs := categories.foldl (fun regs c =>
    Function.update regs (lifeCycleReason c).reg
      (regs (lifeCycleReason c).reg &&& ~~~(lifeCycleReason c).mask)) regs
  Function.update regs parityReg (regs parityReg &&& ~~~parityField.mask)

/-- `rtc_read_life_cycle_reason`. -/
def rtcReadLifeCycleReason (regs : Regs) (c : Category) : LifeCycleReason :=
  if checkSignOfLifeParity regs then
    searchLcrByRtc (lifeCycleReason c).rtcToLcr (rtcBreason regs c)
  else smodeRtcCheckFail

/-- `rtc_read_boot_reason`: the boot reason of the command line stands in for one that is not
available. -/
def rtcReadBootReason (lcrBoot : LifeCycleReason) (regs : Regs) : LifeCycleReason :=
  if rtcReadLifeCycleReason regs .boot = notAvailable then lcrBoot
  else rtcReadLifeCycleReason regs .boot

/-- `rtc_write_life_cycle_reason`. -/
def rtcWriteLifeCycleReason (reason : LifeCycleReason) (c : Category) (regs : Regs) : Regs :=
  let breason := BitVec.ofNat 16 (searchRtcByLcr (lifeCycleReason c).rtcToLcr reason)
  let regs := Function.update regs (lifeCycleReason c).reg
    ((lifeCycleReason c).set (regs (lifeCycleReason c).reg) breason)
  Function.update regs parityReg
    (parityField.set (regs parityReg) ((getSignOfLifeParity regs).setWidth 16))

/-- An operation on the store. -/
inductive LcrOp
  | write (c : Category) (reason : LifeCycleReason)
  | clear
  | mark (value : Int)

/-! ## The life cycle reason that is shown (`amzn_sign_of_life_v3.c`) -/

namespace LifeCycleReason

def coldbootByPowerKey : LifeCycleReason := 0x105
def coldbootByPowerSupply : LifeCycleReason := 0x106

end LifeCycleReason

open LifeCycleReason

/-- `struct sign_of_life_reason_data`. -/
structure SignOfLifeReasonData where
  reasonValue : LifeCycleReason
  lifeCycleReasons : String
  lifeCycleType : String
  deriving DecidableEq

/-- `lcr_data`. -/
def lcrData : List SignOfLifeReasonData :=
  [⟨notAvailable, "Life Cycle Reason Not Available", "LCR_abnormal"⟩,
    ⟨shutdownBySw, "Software Shutdown", "LCR_normal"⟩,
    ⟨shutdownByLongPwrKeyPress, "Long Pressed Power Key Shutdown", "LCR_abnormal"⟩,
    ⟨thermalShutdownReasonPmic, "PMIC Overheated Thermal Shutdown", "LCR_abnormal"⟩,
    ⟨thermalShutdownReasonBattery, "Battery Overheated Thermal Shutdown", "LCR_abnormal"⟩,
    ⟨thermalShutdownReasonSoc, "SOC Overheated Thermal Shutdown", "LCR_abnormal"⟩,
    ⟨thermalShutdownReasonPcb, "PCB Overheated Thermal Shutdown", "LCR_abnormal"⟩,
    ⟨thermalShutdownReasonWifi, "WIFI Overheated Thermal Shutdown", "LCR_abnormal"⟩,
    ⟨thermalShutdownReasonBts, "BTS Overheated Thermal Shutdown", "LCR_abnormal"⟩,
    ⟨thermalShutdownReasonModem, "Modem Overheated Thermal Shutdown", "LCR_abnormal"⟩,
    ⟨smodeLowBattery, "Low Battery Shutdown", "LCR_normal"⟩,
    ⟨shutdownBySuddenPowerLoss, "Sudden Power Loss Shutdown", "LCR_abnormal"⟩,
    ⟨shutdownByUnknownReasons, "Unknown Shutdown", "LCR_abnormal"⟩,
    ⟨coldbootByPowerKey, "Cold Boot By Power Key", "LCR_normal"⟩,
    ⟨coldbootByUsb, "Cold Boot By USB", "LCR_normal"⟩,
    ⟨coldbootByPowerSupply, "Cold Boot By Power Supply", "LCR_normal"⟩,
    ⟨warmbootBySw, "Warm Boot By Software", "LCR_normal"⟩,
    ⟨warmbootByKernelPanic, "Warm Boot By Kernel Panic", "LCR_abnormal"⟩,
    ⟨warmbootByKernelWatchdog, "Warm Boot By Kernel Watchdog", "LCR_abnormal"⟩,
    ⟨warmbootByHwWatchdog, "Warm Boot By HW Watchdog", "LCR_abnormal"⟩,
    ⟨smodeWarmBootUsbConnected, "Power Off Charging Mode", "LCR_normal"⟩,
    ⟨smodeFactoryReset, "Factory Reset Reboot", "LCR_normal"⟩,
    ⟨smodeOta, "OTA Reboot", "LCR_normal"⟩,
    ⟨smodeRtcCheckFail, "RTC Check Fail", "LCR_normal"⟩]

/-- `search_lcr_table`: row 0 is the default and is not searched. -/
def searchLcrTable (table : List SignOfLifeReasonData) (reason : LifeCycleReason) : Nat :=
  match table.tail.findIdx? (·.reasonValue = reason) with
  | some i => i + 1
  | none => 0

/-- `get_android_bootreason`: the value of `lcr_boot` for what follows `androidboot.bootreason` on
the command line up to a blank, if that is there. -/
def getAndroidBootreason : Option String → LifeCycleReason
  | none => notAvailable
  | some bootreasonStr =>
    if bootreasonStr = "=PowerKey" then coldbootByPowerKey
    else if bootreasonStr = "=usb" then coldbootByUsb
    else if bootreasonStr = "=Watchdog" then warmbootByKernelWatchdog
    else if bootreasonStr = "=wdt_hw" then warmbootByHwWatchdog
    else if bootreasonStr = "=kernel_panic" then warmbootByKernelPanic
    else notAvailable

/-- The steps of `life_cycle_reason_lookup`, which are alike: a reason that is valid is looked up,
and the first that has a row is taken. -/
def firstIndex : List LifeCycleReason → Nat
  | [] => 0
  | reason :: reasons =>
    let index := if reason > 0 then searchLcrTable lcrData reason else 0
    if index ≠ 0 then index else firstIndex reasons

/-- The reasons that `life_cycle_reason_lookup` reads, in the order in which it looks them up. -/
def lookupReasons (lcrBoot : LifeCycleReason) (regs : Regs) : List LifeCycleReason :=
  [rtcReadLifeCycleReason regs .thermalShutdown, rtcReadLifeCycleReason regs .shutdown,
    rtcReadBootReason lcrBoot regs, rtcReadLifeCycleReason regs .special]

/-- `life_cycle_reason_lookup`. -/
def lifeCycleReasonLookup (lcrBoot : LifeCycleReason) (regs : Regs) : Nat :=
  firstIndex (lookupReasons lcrBoot regs)

end SignOfLife
