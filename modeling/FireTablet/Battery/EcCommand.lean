import FireTablet.Kernel.Kstrtox
import FireTablet.Lib.CInt
import FireTablet.Lib.LocalText
import Mathlib.Logic.Function.Basic

/-!
# The test commands of the fuel gauge (`mtk_battery_daemon.c`)

A text written to `BAT_EC` holds a command of three characters and, behind a separator, a parameter.
Both are stored and then carried out: most commands set one of the settings.
-/

namespace Battery.Ec

open CInt LocalText Kstrtox

/-! ## The settings -/

/-- The fields of a profile that commands set. -/
inductive ProfileField where
  | pseudo100 | pmicMinVol | ponIboot | qmaxSysVol
  deriving DecidableEq

/-- The other settings. -/
inductive Scalar where
  | pseudo1En | pseudo100En | qmaxSel | ibootSel | shutdownSystemIboot | comFgMeterResistance
  | rFgValue | qMaxSysVoltage | loading1En | loading2En | agingTempDiff | aging1LoadSoc
  | aging1UpdateSoc | aging100En | d0Sel | zcvCarGapPercentage | multiTempGauge0 | keep100Percent
  | uiFullLimitEn | uiFullLimitSoc0 | uiFullLimitIth0 | uiFullLimitSoc1 | uiFullLimitIth1
  | uiFullLimitSoc2 | uiFullLimitIth2 | uiFullLimitSoc3 | uiFullLimitIth3 | uiFullLimitSoc4
  | uiFullLimitIth4 | uiFullLimitTime | nafgRatio | nafgRatioEn | nafgRatioTmpThr
  | differenceFgcFgvTh1 | differenceFgcFgvTh2 | differenceFgcFgvTh3 | differenceFullocvIth
  | differenceFgcFgvThSoc1 | differenceFgcFgvThSoc2 | embeddedSel | carTuneValue | shutdown1Time
  | tnewToldPonDiff | tnewToldPonDiff2 | swocvOldocvDiff | hwocvOldocvDiff | hwocvSwocvDiff
  | debugKillDaemontest | swocvOldocvDiffEmb | virOldocvDiffEmbLt | virOldocvDiffEmbTmp
  | virOldocvDiffEmb | chargePseudoFullLevel | fullTrackingBatInt2Multiply | batCycleThr
  | batCycleNcar | recordLog | enableTmpIntrSuspend | fixedTempEn | fixedTempValue | debugD0CEn
  | debugD0CValue | debugD0VEn | debugD0VValue | debugUisocEn | debugUisocValue | dodInitSel
  | algoReqOcv
  deriving DecidableEq

inductive Setting where
  | scalar (f : Scalar)
  | profile (f : ProfileField) (i : Fin 10)
  deriving DecidableEq

/-- The command and the parameter that are stored, and the settings. -/
structure State where
  batEcCmd : Int
  batEcParam : Int
  activeTableNumber : Int
  settings : Setting → Int

/-- What a command asks of the daemon and of the gauge. -/
inductive Effect where
  | wakeupFgAlgo (intr : Nat)
  | wakeupFgAlgoCmd (subcmd : Nat) (para : Int)
  | zcvIntrEn (val : Int)
  | zcvIntrThreshold (val : Int)
  | carTuneValue (val : Int)
  deriving DecidableEq

def State.set (s : State) (f : Setting) (v : Int) : State :=
  { s with settings := Function.update s.settings f v }

/-! ## The commands -/

/-- The commands that set one setting to a multiple of the parameter. -/
def setCommands : List (Int × Setting × Int) := [
  (701, .scalar .pseudo1En, 1), (702, .scalar .pseudo100En, 1), (703, .scalar .qmaxSel, 1),
  (704, .scalar .ibootSel, 1), (707, .scalar .shutdownSystemIboot, 1),
  (708, .scalar .comFgMeterResistance, 1), (709, .scalar .rFgValue, 1),
  (710, .scalar .qMaxSysVoltage, 1), (711, .scalar .loading1En, 1), (712, .scalar .loading2En, 1),
  (713, .scalar .agingTempDiff, 1), (714, .scalar .aging1LoadSoc, 1),
  (715, .scalar .aging1UpdateSoc, 1), (716, .scalar .aging100En, 1), (718, .scalar .d0Sel, 1),
  (719, .scalar .zcvCarGapPercentage, 1), (720, .scalar .multiTempGauge0, 1),
  (724, .profile .pseudo100 0, 100), (725, .profile .pseudo100 1, 100),
  (726, .profile .pseudo100 2, 100), (727, .profile .pseudo100 3, 100),
  (728, .profile .pseudo100 4, 100), (729, .scalar .keep100Percent, 100),
  (730, .scalar .uiFullLimitEn, 1), (731, .scalar .uiFullLimitSoc0, 1),
  (732, .scalar .uiFullLimitIth0, 1), (733, .scalar .uiFullLimitSoc1, 1),
  (734, .scalar .uiFullLimitIth1, 1), (735, .scalar .uiFullLimitSoc2, 1),
  (736, .scalar .uiFullLimitIth2, 1), (737, .scalar .uiFullLimitSoc3, 1),
  (738, .scalar .uiFullLimitIth3, 1), (739, .scalar .uiFullLimitSoc4, 1),
  (740, .scalar .uiFullLimitIth4, 1), (741, .scalar .uiFullLimitTime, 1),
  (743, .profile .pmicMinVol 0, 1), (744, .profile .pmicMinVol 1, 1),
  (745, .profile .pmicMinVol 2, 1), (746, .profile .pmicMinVol 3, 1),
  (747, .profile .pmicMinVol 4, 1), (748, .profile .ponIboot 0, 1),
  (749, .profile .ponIboot 1, 1), (750, .profile .ponIboot 2, 1), (751, .profile .ponIboot 3, 1),
  (752, .profile .ponIboot 4, 1), (753, .profile .qmaxSysVol 0, 1),
  (754, .profile .qmaxSysVol 1, 1), (755, .profile .qmaxSysVol 2, 1),
  (756, .profile .qmaxSysVol 3, 1), (757, .profile .qmaxSysVol 4, 1),
  (758, .scalar .nafgRatio, 1), (759, .scalar .nafgRatioEn, 1),
  (760, .scalar .nafgRatioTmpThr, 1), (762, .scalar .differenceFgcFgvTh1, 1),
  (763, .scalar .differenceFgcFgvTh2, 1), (764, .scalar .differenceFgcFgvTh3, 1),
  (765, .scalar .differenceFullocvIth, 1), (766, .scalar .differenceFgcFgvThSoc1, 1),
  (767, .scalar .differenceFgcFgvThSoc2, 1), (768, .scalar .embeddedSel, 1),
  (769, .scalar .carTuneValue, 10), (770, .scalar .shutdown1Time, 1),
  (771, .scalar .tnewToldPonDiff, 1), (772, .scalar .tnewToldPonDiff2, 1),
  (773, .scalar .swocvOldocvDiff, 1), (774, .scalar .hwocvOldocvDiff, 1),
  (775, .scalar .hwocvSwocvDiff, 1), (776, .scalar .debugKillDaemontest, 1),
  (777, .scalar .swocvOldocvDiffEmb, 1), (778, .scalar .virOldocvDiffEmbLt, 1),
  (779, .scalar .virOldocvDiffEmbTmp, 1), (780, .scalar .virOldocvDiffEmb, 1),
  (782, .scalar .chargePseudoFullLevel, 1), (783, .scalar .fullTrackingBatInt2Multiply, 1),
  (785, .scalar .batCycleThr, 1), (786, .scalar .batCycleNcar, 1), (788, .scalar .recordLog, 1),
  (791, .scalar .enableTmpIntrSuspend, 1)]

/-- The loop over the active tables; `none` is a store behind the last profile. -/
def setProfiles (f : ProfileField) (v : Int) : Nat → State → Option State
  | 0, s => some s
  | n + 1, s => (setProfiles f v n s).bind fun s =>
    if h : n < 10 then some (s.set (.profile f ⟨n, h⟩) v) else none

/-- An override that the parameter 255 turns off. -/
def setOverride (en value : Scalar) (off on param : Int) (s : State) : State :=
  if param = 0xff then (s.set (.scalar en) 0).set (.scalar value) off
  else (s.set (.scalar en) 1).set (.scalar value) on

/-- The interrupts that command 105 forces. -/
def forcedIntr (param : Int) : List Effect :=
  if param = 1 ∨ param = 4096 ∨ param = 8192 ∨ param = 32768 ∨ param = 65536 then
    [.wakeupFgAlgo param.toNat]
  else []

/-- `fg_ocv_query_soc` -/
def fgOcvQuerySoc (ocv : Int) (s : State) : List Effect × State :=
  if ocv > 50000 ∨ ocv ≤ 0 then ([], s)
  else ([.wakeupFgAlgoCmd 6 ocv], s.set (.scalar .algoReqOcv) ocv)

/-- `exec_BAT_EC` -/
def execBatEc (cmd param : Int) (s : State) : Option (List Effect × State) :=
  match setCommands.lookup cmd with
  | some (f, unit) => some ([], s.set f (i32 (param * unit)))
  | none =>
    match cmd with
    | 101 =>
      let value := if param ≥ 100 then i32 (0 - i32 (param - 100)) else param
      some ([], setOverride .fixedTempEn .fixedTempValue 25 value param s)
    | 105 => some (forcedIntr param, s)
    | 108 => some ([], setOverride .debugD0CEn .debugD0CValue 0 param param s)
    | 109 => some ([], setOverride .debugD0VEn .debugD0VValue 0 param param s)
    | 110 => some ([], setOverride .debugUisocEn .debugUisocValue 0 param param s)
    | 705 => (setProfiles .pmicMinVol (i32 (param * 10)) s.activeTableNumber.toNat s).map ([], ·)
    | 706 => (setProfiles .ponIboot (i32 (param * 10)) s.activeTableNumber.toNat s).map ([], ·)
    | 717 => some ([], { s with activeTableNumber := param })
    | 761 => some ([.wakeupFgAlgo 2], s)
    | 781 => some ([], (s.set (.scalar .debugKillDaemontest) 1).set (.scalar .dodInitSel) 12)
    | 787 => some (fgOcvQuerySoc param s)
    | 789 => some ([.zcvIntrEn 0, .zcvIntrThreshold param, .zcvIntrEn 1], s)
    | 790 => some ([.wakeupFgAlgo 0x200000], s)
    | 792 => some ([.wakeupFgAlgoCmd 8 param], s)
    | 793 => some ([.wakeupFgAlgoCmd 9 param], s)
    | 794 => some ([.wakeupFgAlgoCmd 10 param], s)
    | 797 => some ([.carTuneValue param], s)
    | _ => some ([], s)

/-! ## The file -/

/-- Take a parsed number, or leave what is stored. -/
def State.takeCmd (s : State) : Except Int Nat → State
  | .ok v => { s with batEcCmd := i32 v }
  | .error _ => s

def State.takeParam (s : State) : Except Int Nat → State
  | .ok v => { s with batEcParam := i32 v }
  | .error _ => s

theorem State.takeCmd_ok (s : State) (v : Nat) : s.takeCmd (.ok v) = { s with batEcCmd := i32 v } :=
  rfl

theorem State.takeParam_ok (s : State) (v : Nat) :
    s.takeParam (.ok v) = { s with batEcParam := i32 v } :=
  rfl

/-- The parameter, where there is one: `param_buf` is filled, cut by one and parsed. -/
def storeParam (buf : List UInt8) (size : Nat) (paramBuf : Cells) (s : State) :
    Option (Bool × State) :=
  if size - 4 > 0 then do
    let bytes ← strncpyBytes (buf.drop 4) (size - 4)
    let paramBuf ← puts paramBuf 0 bytes
    let paramBuf ← put paramBuf (size - 4 - 1) 0
    let r := kstrtouint (← text paramBuf) 10
    return (r.isOk, s.takeParam r)
  else some (true, s)

/-- `BAT_EC_store` of a text, which the caller terminates. It is `none` if a byte outside of a block
is touched, or one without a value is read. -/
def batEcStore (s : State) (t : List UInt8) : Option ((Int × List Effect) × State) := do
  let size := t.length
  let buf := t ++ [0]
  let cmdBuf ← put (blank 4) 3 0
  let paramBuf ← put (blank 16) 15 0
  if size < 4 ∨ size > 20 then return ((-1, []), s)
  let cmdBuf ← puts cmdBuf 0 [← buf[0]?, ← buf[1]?, ← buf[2]?]
  let cmdBuf ← put cmdBuf 3 0
  let (paramOk, s) ← storeParam buf size paramBuf s
  let r := kstrtouint (← text cmdBuf) 10
  let s := s.takeCmd r
  if r.isOk = false ∨ paramOk = false then return ((-1, []), s)
  let (effects, s) ← execBatEc s.batEcCmd s.batEcParam s
  return ((size, effects), s)

end Battery.Ec
