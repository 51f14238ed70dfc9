import FireTablet.Lib.BitField

/-!
# What the gauge keeps over a shutdown (`mt6357-gauge.c`)

Flags, the charge of the last boot and the charge that flowed after the shutdown share two 16-bit
registers of the PMIC. The displayed charge is in a byte of the RTC, beside a bit that says whether
the byte is valid. What is read goes to a variable of the caller, which some branches leave as it
was.
-/

namespace Gauge

/-- The properties of `fgauge_set_info` and `fgauge_get_info`. -/
inductive GaugeInfo
  | twoSecReboot
  | plChargingStatus
  | moniterPlchgStatus
  | batPlugStatus
  | isNvramFailMode
  | monitorSoffValidtime
  | con0Soc
  | shutdownCar
  deriving DecidableEq

/-- `PMIC_RG_SYSTEM_INFO_CON0`, `PMIC_RG_SYSTEM_INFO_CON1` and the RTC cell `state-of-charge`. -/
structure GaugeRegs where
  con0 : BitVec 16
  con1 : BitVec 16
  socCell : BitVec 8
  deriving DecidableEq

/-- A flag of `PMIC_RG_SYSTEM_INFO_CON0`. -/
def flagField (shift : Nat) : BitField 16 := ⟨0x0001 <<< shift, shift⟩

/-- The charge in percent. -/
def con0SocField : BitField 16 := ⟨0x007f <<< 9, 9⟩

/-- The magnitude of the charge after the shutdown. -/
def carField : BitField 16 := ⟨0x00ff <<< 7, 7⟩

/-- Its sign. -/
def carSignField : BitField 16 := ⟨0x0001 <<< 0xf, 0xf⟩

/-- Both. -/
def carAllField : BitField 16 := ⟨0x01ff <<< 7, 7⟩

/-- The value that says that there is no charge after the shutdown. -/
def carInvalid : Int := -99999

/-- `regmap_update_bits` on `PMIC_RG_SYSTEM_INFO_CON0`. -/
def GaugeRegs.setCon0 (r : GaugeRegs) (f : BitField 16) (value : Int) : GaugeRegs :=
  { r with con0 := f.set r.con0 (BitVec.ofInt 16 value) }

/-- `regmap_update_bits` on `PMIC_RG_SYSTEM_INFO_CON1`. -/
def GaugeRegs.setCon1 (r : GaugeRegs) (f : BitField 16) (value : Int) : GaugeRegs :=
  { r with con1 := f.set r.con1 (BitVec.ofInt 16 value) }

/-- `fgauge_set_info`. -/
def fgaugeSetInfo (ginfo : GaugeInfo) (value : Int) (r : GaugeRegs) : GaugeRegs :=
  match ginfo with
  | .twoSecReboot => r.setCon0 (flagField 0) value
  | .plChargingStatus => r.setCon0 (flagField 1) value
  | .moniterPlchgStatus => r.setCon0 (flagField 2) value
  | .batPlugStatus => r.setCon0 (flagField 3) value
  | .isNvramFailMode => r.setCon0 (flagField 4) value
  | .monitorSoffValidtime => r.setCon0 (flagField 5) value
  | .con0Soc => r.setCon0 con0SocField (value.tdiv 100)
  | .shutdownCar =>
    if value = carInvalid then r.setCon1 carAllField 0x1ff
    else
      let signBit := if value < 0 then 1 else 0
      let valueMask := value.natAbs % 0x100
      (r.setCon1 carField valueMask).setCon1 carSignField signBit

/-- The value of a field. -/
def readField (f : BitField 16) (reg : BitVec 16) : Int := (f.get reg).toNat

/-- `fgauge_get_info`: `value` is what the caller's variable holds before. -/
def fgaugeGetInfo (ginfo : GaugeInfo) (r : GaugeRegs) (value : Int) : Int :=
  match ginfo with
  | .twoSecReboot => readField (flagField 0) r.con0
  | .plChargingStatus => readField (flagField 1) r.con0
  | .moniterPlchgStatus => readField (flagField 2) r.con0
  | .batPlugStatus => readField (flagField 3) r.con0
  | .isNvramFailMode => readField (flagField 4) r.con0
  | .monitorSoffValidtime => readField (flagField 5) r.con0
  | .con0Soc => readField con0SocField r.con0
  | .shutdownCar =>
    let signBit := readField carSignField r.con1
    let tmpVal := readField carField r.con1
    if signBit = 1 ∧ tmpVal = 0xff then 0
    else if signBit = 1 then 0 - tmpVal
    -- no branch for a positive charge
    else value

/-- `rtc_ui_soc_get`. -/
def rtcUiSocGet (r : GaugeRegs) : Int := (r.socCell &&& 0x7f).toNat

/-- `rtc_ui_soc_set`: the sum is cut to the cell's byte. -/
def rtcUiSocSet (val : Int) (r : GaugeRegs) : GaugeRegs :=
  let spare3RegValid := r.socCell &&& 0x80
  { r with socCell := spare3RegValid + BitVec.ofInt 8 val }

/-- Whether the RTC says that its charge is valid. -/
def rtcValid (r : GaugeRegs) : Bool := r.socCell &&& 0x80 ≠ 0

/-! ## Writes -/

/-- A call that writes. -/
inductive Write
  | info (ginfo : GaugeInfo) (value : Int)
  | uiSoc (val : Int)
  deriving DecidableEq

def Write.apply (r : GaugeRegs) : Write → GaugeRegs
  | .info ginfo value => fgaugeSetInfo ginfo value r
  | .uiSoc val => rtcUiSocSet val r

/-- The values that are written: flags, a charge in hundredths of a percent, a charge after the
shutdown that the register can hold or the marker, and percents. -/
def Write.InRange : Write → Prop
  | .info .con0Soc value => 0 ≤ value ∧ value ≤ 10000
  | .info .shutdownCar value => value.natAbs ≤ 254 ∨ value = carInvalid
  | .info _ value => value = 0 ∨ value = 1
  | .uiSoc val => 0 ≤ val ∧ val ≤ 100

/-- What is written to a property last. -/
def lastInfo (ginfo : GaugeInfo) : List Write → Option Int
  | [] => none
  | .info i value :: ws => (lastInfo ginfo ws).or (if i = ginfo then some value else none)
  | .uiSoc _ :: ws => lastInfo ginfo ws

/-- What is written to the RTC last. -/
def lastUiSoc : List Write → Option Int
  | [] => none
  | .info _ _ :: ws => lastUiSoc ws
  | .uiSoc val :: ws => (lastUiSoc ws).or (some val)

/-- What should be read of a value: percents, and 0 for the marker. -/
def shown (ginfo : GaugeInfo) (value : Int) : Int :=
  match ginfo with
  | .con0Soc => value / 100
  | .shutdownCar => if value = carInvalid then 0 else value
  | _ => value

/-- Everything is read as it was written last, or as it was. -/
structure RoundTrip (r : GaugeRegs) (ws : List Write) (value : Int) : Prop where
  info : ∀ ginfo, fgaugeGetInfo ginfo (ws.foldl Write.apply r) value =
    match lastInfo ginfo ws with
    | some v => shown ginfo v
    | none => fgaugeGetInfo ginfo r value
  uiSoc : rtcUiSocGet (ws.foldl Write.apply r) = (lastUiSoc ws).getD (rtcUiSocGet r)
  valid : rtcValid (ws.foldl Write.apply r) = rtcValid r

end Gauge
