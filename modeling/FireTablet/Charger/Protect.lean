import FireTablet.Charger.Info

/-!
# The end-of-charge protections (`mtk_charger.c`)

A full battery is not charged again until its charge has fallen (`bat_eoc_protect`); a charger that
regulates its input for several passes at the end of charging is taken as full too
(`dpm_disable_charging`). Times are in nanoseconds, charges in percent; a charge that could not be
read is negative.
-/

namespace Charger

/-- What a pass reads for the two protections. -/
structure EocReading where
  stage : Option Int
  uiSoc : Int
  soc : Int
  chgDone : Bool
  /-- for `check_dpm_eoc_state` -/
  dpmSoc : Int
  vdpm : Bool
  idpm : Bool
  curCv : Int
  vbatUv : Int
  ibat : Int
  enChg : Bool
  dpmChgDone : Bool
  inputCurrentLimit : Int
  chgCurrentLimit : Int

/-- `RECHARGE_SOC_DIFF_FOR_LOW_SOC`. -/
def rechargeSocDiffForLowSoc : Int := 2

/-- The charge below which charging goes on, by the charge at the end; the comparison with the
configured level is unsigned. -/
def exitSoc (c : EocConf) (soc diff : Int) : Int :=
  if c.socExitEoc ≤ CInt.u32 soc then CInt.i32 c.socExitEoc else CInt.i32 (soc - diff)

/-- `reset_bat_eoc_protect_state`. -/
def resetBatEocProtectState (e : Eoc) : Eoc :=
  { e with batEocProtect := false, disconnectDuration := 0 }

/-- `reset_dpm_eoc_state`. -/
def resetDpmEocState (e : Eoc) : Eoc :=
  { e with dpmDisableCharging := false, socExitDpmEoc := 0, cvEnterDpmEoc := 0, dpmStateCount := 0 }

/-- The voltage that JEITA asks for, else that of the battery. -/
def swJeitaCv (batteryCv : Int) (enableSwJeita : Bool) (cv : Int) : Int :=
  if enableSwJeita ∧ cv ≠ 0 then cv else batteryCv

/-- `battery_protect_algo`, with the JEITA voltage `jeitaCv` and the top-off voltage `customCv`. -/
def batteryProtectAlgo (c : Conf) (r : EocReading) (s : Settings) (chrType : ChrType)
    (jeitaCv customCv : Int) (e : Eoc) : Eoc :=
  if ¬ c.eoc.enableBatEocProtect ∨ chrType = .unknown then e
  else
    let batteryCv := mtkGetBatteryCv c.cv r.stage
    let jeita := swJeitaCv batteryCv s.enableSwJeita jeitaCv
    if ¬ e.batEocProtect then
      if r.chgDone ∧ r.uiSoc = 100 ∧ customCv = -1 ∧ ¬ s.customChargingMode ∧ jeita = batteryCv then
        { e with
          rechargeSoc := exitSoc c.eoc r.soc rechargeSocDiffForLowSoc
          batEocProtect := true }
      else e
    else
      let e := if r.soc < e.rechargeSoc ∨ r.uiSoc < 100 then resetBatEocProtectState e else e
      if 0 < customCv ∨ jeita < batteryCv ∨ s.customChargingMode then resetBatEocProtectState e else e

/-- The listed conditions of a valid DPM state. -/
def dpmState (c : Conf) (r : EocReading) : Prop :=
  0 < r.ibat ∧ r.ibat ≤ c.eoc.dpmIbatThresholdMa ∧ r.curCv = c.cv.fresh.batteryCv ∧
    c.eoc.dpmInputCurLimitUa ≤ r.inputCurrentLimit ∧ c.eoc.dpmChargeCurLimitUa ≤ r.chgCurrentLimit ∧
    r.enChg = true ∧ r.dpmChgDone = false ∧
    c.cv.fresh.batteryCv - c.eoc.dpmCvBatVdiffUv < r.vbatUv ∧ (r.vdpm = true ∨ r.idpm = true)

instance (c : Conf) (r : EocReading) : Decidable (dpmState c r) :=
  inferInstanceAs (Decidable (_ ∧ _))

/-- `check_dpm_eoc_state`. -/
def checkDpmEocState (c : Conf) (r : EocReading) (e : Eoc) : Eoc :=
  if ¬ c.eoc.enableBatEocProtect ∨ ¬ c.eoc.indpm then e
  else if e.dpmDisableCharging then
    let socExit := e.socExitDpmEoc
    let e' := if r.curCv ≠ e.cvEnterDpmEoc then resetDpmEocState e else e
    -- the level is 0 after a reset
    if r.dpmSoc < (if r.curCv ≠ e.cvEnterDpmEoc then 0 else socExit) then resetDpmEocState e' else e'
  else if ¬ dpmState c r then resetDpmEocState e
  else
    let e := { e with dpmStateCount := e.dpmStateCount + 1 }
    if c.eoc.dpmStateCountMax ≤ e.dpmStateCount then
      { e with
        dpmDisableCharging := true
        socExitDpmEoc := exitSoc c.eoc r.dpmSoc c.eoc.dpmRechgLowSocDiff
        cvEnterDpmEoc := r.curCv
        dpmStateCount := 0 }
    else e

/-- `bat_eoc_protect_handle_plug_state` at a time, and whether it resets the verdict on the
charger. -/
def handlePlugState (c : EocConf) (plugged : Bool) (now : Int) (e : Eoc) : Eoc × Bool :=
  if ¬ c.enableBatEocProtect ∨ e.plugged = plugged then (e, false)
  else
    let e := { e with plugged := plugged }
    if plugged then
      let duration := ((now - e.disconnectTime).tdiv 1000000).tdiv 1000
      let e := { e with disconnectDuration := duration }
      if (e.batEocProtect ∨ e.dpmDisableCharging) ∧ c.batEocProtectResetTime ≤ duration then
        (resetDpmEocState (resetBatEocProtectState e), true)
      else (e, true)
    else ({ e with disconnectTime := now, disconnectDuration := 0 }, true)

end Charger
