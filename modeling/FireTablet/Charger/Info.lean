import FireTablet.Charger.Jeita
import FireTablet.Lib.CInt

/-!
# The charger's data (`mtk_charger.h`)

What of `struct mtk_charger` the charging thread, the charging algorithm and the notifications work
with, in groups: the configuration from the device tree (`Conf`), what other parts of the kernel
and the user set (`Settings`), the limits of the two chargers (`Limits`), the two protections
(`Eoc`) and the rest (`Info`). Currents are in microamperes, voltages in microvolts; `-1` is a limit
that is not set.
-/

namespace Charger

/-- The charger types that the driver tells apart. -/
inductive ChrType
  | unknown
  | usb
  | usbCdp
  | usbDcp
  | usbFloat
  | wireless5w
  | wireless10w
  | wireless
  | other
  deriving DecidableEq

/-- `enum adapter_power_category`. -/
inductive AdapterClass
  | adapter5w
  | adapter7p5w
  | adapter9w
  | adapter12w
  | adapter15w
  deriving DecidableEq

/-- The constants of `struct power_detection_data`. -/
structure PowerDetection where
  en : Bool
  adapter9wAiclMin : Int
  adapter12wAiclMin : Int
  adapter5wIusbLim : Int
  adapter7p5wIusbLim : Int
  adapter9wIusbLim : Int
  adapter12wIusbLim : Int
  adapter15wIusbLim : Int

/-- The currents of `struct charger_custom_data`. -/
structure Currents where
  usbChargerCurrent : Int
  acChargerCurrent : Int
  acChargerInputCurrent : Int
  nonStdAcChargerCurrent : Int
  chargingHostChargerCurrent : Int
  wireless5wChargerInputCurrent : Int
  wireless5wChargerCurrent : Int
  wireless10wChargerInputCurrent : Int
  wireless10wChargerCurrent : Int
  wirelessDefaultChargerInputCurrent : Int
  wirelessDefaultChargerCurrent : Int
  tempT0ToT1ChargerCurrent : Int
  tempT3ToT4ChargerCurrent : Int
  maxDmivrChargerCurrent : Int

/-- The constants of `struct battery_thermal_protection_data`. -/
structure ThermalConf where
  enableMinChargeTemp : Bool
  minChargeTemp : Int
  minChargeTempPlusXDegree : Int
  maxChargeTemp : Int
  maxChargeTempMinusXDegree : Int

/-- The constants of the two end-of-charge protections. `indpm` says whether the charger can report
that it regulates its input. -/
structure EocConf where
  enableBatEocProtect : Bool
  socExitEoc : Int
  batEocProtectResetTime : Int
  indpm : Bool
  dpmCvBatVdiffUv : Int
  dpmIbatThresholdMa : Int
  dpmStateCountMax : Int
  dpmRechgLowSocDiff : Int
  dpmInputCurLimitUa : Int
  dpmChargeCurLimitUa : Int

/-- The configuration. `agingZcv` is `CONFIG_MTK_USE_AGING_ZCV`, `usbifCompliance`
`CONFIG_USBIF_COMPLIANCE`; `topOffCv` has the top-off voltages of the new battery and of the two
ageing stages. -/
structure Conf where
  thres : JeitaThres
  cv : CvData
  currents : Currents
  det : PowerDetection
  thermal : ThermalConf
  eoc : EocConf
  maxChargerVoltage : Int
  vbusUvloVoltage : Int
  invchgCheckMivrUv : Int
  topOffModeCv : Int
  topOffModeCvAging1 : Int
  topOffModeCvAging2 : Int
  agingZcv : Bool
  usbifCompliance : Bool
  dualInSeries : Bool
  enableDynamicMivr : Bool
  disableCharger : Bool
  bootmode : Int

/-- `struct charger_data`. -/
structure ChargerData where
  inputCurrentLimit : Int
  chargingCurrentLimit : Int
  forceChargingCurrent : Int
  forceInputCurrentLimit : Int
  thermalInputCurrentLimit : Int
  thermalInputPowerLimit : Int
  thermalChargingCurrentLimit : Int
  inputCurrentLimitByAicl : Int
  deriving DecidableEq

/-- `struct chg_limit_setting`, which is handed to the fast-charge algorithms. -/
structure ChgLimitSetting where
  cv : Int
  inputCurrentLimit1 : Int
  inputCurrentLimit2 : Int
  chargingCurrentLimit1 : Int
  chargingCurrentLimit2 : Int
  deriving DecidableEq

/-- What `select_charging_current_limit` works on: the data of the two chargers, the copies for the
algorithms, what adapter detection has found (`iusb_ua` is 0 before), whether the input voltage has
just recovered, and the verdict on the charger. -/
structure Limits where
  pdata : ChargerData
  pdata2 : ChargerData
  setting : ChgLimitSetting
  iusbUa : Int
  adapter : AdapterClass
  vbusRecoveryFromUvlo : Bool
  invalidChargerDetDone : Bool
  invalidChargerDetWeak : Bool
  deriving DecidableEq

/-- What is set from outside the thread. -/
structure Settings where
  usbUnlimited : Bool
  waterDetected : Bool
  atmEnabled : Bool
  enableHvCharging : Bool
  enableSwJeita : Bool
  bcmFlag : Bool
  customChargingMode : Bool
  topOffModeEnable : Bool

/-- The end-of-charge protections, with the static variables of their functions. -/
structure Eoc where
  batEocProtect : Bool
  rechargeSoc : Int
  plugged : Bool
  disconnectTime : Int
  disconnectDuration : Int
  dpmDisableCharging : Bool
  socExitDpmEoc : Int
  cvEnterDpmEoc : Int
  dpmStateCount : Int
  deriving DecidableEq

/-- `enum` of the battery temperature without JEITA. -/
inductive BatTemp
  | low
  | normal
  | high
  deriving DecidableEq

/-- The input voltage at the last look. -/
inductive VbusState
  | normal
  | uvlo
  | ovp
  deriving DecidableEq

/-- The driver and whether the charger chip is enabled (`enabled`). -/
structure Info where
  set : Settings
  lim : Limits
  eoc : Eoc
  chrType : ChrType
  cableOutCnt : Int
  swJeita : SwJeita
  thermalSm : BatTemp
  vbusState : VbusState
  customChargingCv : Int
  canCharging : Bool
  cmdDischarging : Bool
  safetyTimeout : Bool
  vbusovStat : Bool
  isChgDone : Bool
  enabled : Bool

/-! ## The defaults of `mtk_charger_parse_dt` -/

/-- The voltages of a stage by default: only that of the battery differs. -/
def CvSet.defaults (batteryCv : Int) : CvSet where
  batteryCv := batteryCv
  jeitaTempAboveT4Cv := 4240000
  jeitaTempT3ToT4Cv := 4240000
  jeitaTempT1ToT2Cv := 4240000
  jeitaTempT0ToT1Cv := 4040000
  jeitaTempBelowT0Cv := 4040000

/-- The configuration of a device tree without properties. -/
def Conf.defaults : Conf where
  thres :=
    { tempT4Thres := 50, tempT4ThresMinusXDegree := 47, tempT3Thres := 45
      tempT3ThresMinusXDegree := 39, tempT2Thres := 10, tempT2ThresPlusXDegree := 16
      tempT1Thres := 0, tempT1ThresPlusXDegree := 6, tempT0Thres := 0
      tempT0ThresPlusXDegree := 0 }
  cv := ⟨.defaults 4400000, .defaults 4300000, .defaults 4000000⟩
  currents :=
    { usbChargerCurrent := 500000, acChargerCurrent := 2050000, acChargerInputCurrent := 3200000
      nonStdAcChargerCurrent := 500000, chargingHostChargerCurrent := 650000
      wireless5wChargerInputCurrent := 1000000, wireless5wChargerCurrent := 1000000
      wireless10wChargerInputCurrent := 1800000, wireless10wChargerCurrent := 1800000
      wirelessDefaultChargerInputCurrent := 500000, wirelessDefaultChargerCurrent := 500000
      tempT0ToT1ChargerCurrent := 350000, tempT3ToT4ChargerCurrent := 2000000
      maxDmivrChargerCurrent := 1800000 }
  det := ⟨false, 0, 0, 0, 0, 0, 0, 0⟩
  thermal :=
    { enableMinChargeTemp := false, minChargeTemp := 0, minChargeTempPlusXDegree := 6
      maxChargeTemp := 50, maxChargeTempMinusXDegree := 47 }
  eoc :=
    { enableBatEocProtect := false, socExitEoc := 96, batEocProtectResetTime := 60, indpm := true
      dpmCvBatVdiffUv := 20000, dpmIbatThresholdMa := 200, dpmStateCountMax := 9
      dpmRechgLowSocDiff := 2, dpmInputCurLimitUa := 300000, dpmChargeCurLimitUa := 300000 }
  maxChargerVoltage := 6500000
  vbusUvloVoltage := 4300000
  invchgCheckMivrUv := 4500000
  topOffModeCv := 4200000
  topOffModeCvAging1 := 4200000
  topOffModeCvAging2 := 0
  agingZcv := true
  usbifCompliance := false
  dualInSeries := false
  enableDynamicMivr := false
  disableCharger := false
  bootmode := 0

/-- The settings after `mtk_charger_probe`, with JEITA or without. -/
def Settings.defaults (enableSwJeita : Bool) : Settings where
  usbUnlimited := false
  waterDetected := false
  atmEnabled := false
  enableHvCharging := true
  enableSwJeita := enableSwJeita
  bcmFlag := false
  customChargingMode := false
  topOffModeEnable := false

/-- The data of a charger after `mtk_charger_probe`. -/
def ChargerData.initial : ChargerData where
  inputCurrentLimit := 500000
  chargingCurrentLimit := 0
  forceChargingCurrent := -1
  forceInputCurrentLimit := -1
  thermalInputCurrentLimit := -1
  thermalInputPowerLimit := -1
  thermalChargingCurrentLimit := -1
  inputCurrentLimitByAicl := -1

/-- The limits after `mtk_charger_probe`. -/
def Limits.initial : Limits where
  pdata := .initial
  pdata2 := .initial
  setting := ⟨0, 0, 0, 0, 0⟩
  iusbUa := 0
  adapter := .adapter5w
  vbusRecoveryFromUvlo := false
  invalidChargerDetDone := false
  invalidChargerDetWeak := false

/-- The protections after `mtk_charger_probe`: the cable has been unplugged for the reset time. -/
def Eoc.initial (c : EocConf) : Eoc where
  batEocProtect := false
  rechargeSoc := 0
  plugged := false
  disconnectTime := -(c.batEocProtectResetTime * 1000000000)
  disconnectDuration := 0
  dpmDisableCharging := false
  socExitDpmEoc := 0
  cvEnterDpmEoc := 0
  dpmStateCount := 0

/-- `mtk_charger_probe`, with a disabled charger. -/
def Info.probe (c : Conf) (s : Settings) : Info where
  set := s
  lim := .initial
  eoc := .initial c.eoc
  chrType := .unknown
  cableOutCnt := 0
  swJeita := ⟨.belowT0, .belowT0, 0, false⟩
  thermalSm := .normal
  vbusState := .normal
  customChargingCv := -1
  canCharging := false
  cmdDischarging := false
  safetyTimeout := false
  vbusovStat := false
  isChgDone := false
  enabled := false

end Charger
