import FireTablet.Gauge.Info

/-!
# What is read is what was written

The fields of the two registers have no bit in common, so a write changes what is read of one
property only (`get_set_other`), and what is read of that one is what was written, but for a charge
after the shutdown that is not negative: there the reader leaves its caller's variable alone
(`readBack`). `roundTrip_iff` says the same of every sequence of writes.
-/

namespace Gauge

/-- The field of a property in `PMIC_RG_SYSTEM_INFO_CON0`. -/
def con0Field : GaugeInfo → BitField 16
  | .twoSecReboot => flagField 0
  | .plChargingStatus => flagField 1
  | .moniterPlchgStatus => flagField 2
  | .batPlugStatus => flagField 3
  | .isNvramFailMode => flagField 4
  | .monitorSoffValidtime => flagField 5
  | .con0Soc => con0SocField
  | .shutdownCar => ⟨0, 0⟩

theorem con0Field_disjoint {i j : GaugeInfo} (h : i ≠ j) :
    (con0Field i).Disjoint (con0Field j) := by
  cases i <;> cases j <;> first | exact absurd rfl h | decide

/-- The value that goes to the field. -/
def stored : GaugeInfo → Int → Int
  | .con0Soc, value => value.tdiv 100
  | _, value => value

theorem set_con0 {i : GaugeInfo} (h : i ≠ .shutdownCar) (value : Int) (r : GaugeRegs) :
    fgaugeSetInfo i value r = r.setCon0 (con0Field i) (stored i value) := by
  cases i <;> first | rfl | exact absurd rfl h

theorem get_con0 {i : GaugeInfo} (h : i ≠ .shutdownCar) (r : GaugeRegs) (value : Int) :
    fgaugeGetInfo i r value = readField (con0Field i) r.con0 := by
  cases i <;> first | rfl | exact absurd rfl h

theorem set_car (value : Int) (r : GaugeRegs) :
    (fgaugeSetInfo .shutdownCar value r).con0 = r.con0 := by
  simp only [fgaugeSetInfo]
  split <;> rfl

/-- A write changes no other property. -/
theorem get_set_other {i j : GaugeInfo} (h : i ≠ j) (value : Int) (r : GaugeRegs) (c : Int) :
    fgaugeGetInfo j (fgaugeSetInfo i value r) c = fgaugeGetInfo j r c := by
  by_cases hi : i = .shutdownCar
  · subst hi
    rw [get_con0 h.symm, get_con0 h.symm, set_car]
  · rw [set_con0 hi]
    by_cases hj : j = .shutdownCar
    · subst hj
      rfl
    · rw [get_con0 hj, get_con0 hj, readField, readField, GaugeRegs.setCon0,
        BitField.get_set_of_disjoint _ (con0Field_disjoint h)]

theorem readField_set {f : BitField 16} {n : Nat} (v : BitVec 16)
    (hf : f.Fits (BitVec.ofNat 16 n)) (hn : n < 2 ^ 16) :
    readField f (f.set v (BitVec.ofInt 16 n)) = n := by
  rw [readField, BitVec.ofInt_natCast, BitField.get_set _ hf, BitVec.toNat_ofNat,
    Nat.mod_eq_of_lt hn]

/-! ## The charge after the shutdown -/

theorem carField_fits : ∀ n < 256, carField.Fits (BitVec.ofNat 16 n) := by decide +kernel

/-- The two parts of the charge. -/
theorem get_set_car {value : Int} (h : value.natAbs ≤ 254) (r : GaugeRegs) (c : Int) :
    fgaugeGetInfo .shutdownCar (fgaugeSetInfo .shutdownCar value r) c =
      if value < 0 then value else c := by
  have hne : value ≠ carInvalid := by
    intro he
    rw [he] at h
    exact absurd h (by decide)
  have hmask : value.natAbs % 0x100 = value.natAbs := Nat.mod_eq_of_lt (by omega)
  have hd : carSignField.Disjoint carField := by decide
  have hmag : ∀ v x, readField carField (carSignField.set (carField.set v
      (BitVec.ofInt 16 value.natAbs)) x) = value.natAbs := by
    intro v x
    rw [readField, BitField.get_set_of_disjoint _ hd]
    exact readField_set v (carField_fits _ (by omega)) (by omega)
  have hsign1 : ∀ v, readField carSignField (carSignField.set v (BitVec.ofInt 16 1)) = 1 :=
    fun v => readField_set (n := 1) v (by decide) (by decide)
  have hsign0 : ∀ v, readField carSignField (carSignField.set v (BitVec.ofInt 16 0)) = 0 :=
    fun v => readField_set (n := 0) v (by decide) (by decide)
  simp only [fgaugeSetInfo, if_neg hne, GaugeRegs.setCon1, fgaugeGetInfo]
  rw [hmask, hmag]
  by_cases hneg : value < 0
  · rw [if_pos hneg, hsign1, if_neg (by omega), if_pos rfl, if_pos hneg]
    omega
  · rw [if_neg hneg, hsign0, if_neg (by simp), if_neg (by decide), if_neg hneg]

/-- The marker is read as no charge. -/
theorem get_set_carInvalid (r : GaugeRegs) (c : Int) :
    fgaugeGetInfo .shutdownCar (fgaugeSetInfo .shutdownCar carInvalid r) c = 0 := by
  have hsign : ∀ v, readField carSignField (carAllField.set v (BitVec.ofInt 16 0x1ff)) = 1 := by
    intro v
    rw [readField, BitField.get_set_of_subset v (by decide)]
    decide
  have hmag : ∀ v, readField carField (carAllField.set v (BitVec.ofInt 16 0x1ff)) = 0xff := by
    intro v
    rw [readField, BitField.get_set_of_subset v (by decide)]
    decide
  simp only [fgaugeSetInfo, if_true, GaugeRegs.setCon1, fgaugeGetInfo]
  rw [hsign, hmag]
  rfl

/-! ## One property -/

/-- What is read of a value: a charge after the shutdown that is not negative leaves the caller's
variable as it was. -/
def readBack (ginfo : GaugeInfo) (value c : Int) : Int :=
  if ginfo = .shutdownCar ∧ value ≠ carInvalid ∧ 0 ≤ value then c else shown ginfo value

theorem con0Soc_fits : ∀ n ≤ 100, con0SocField.Fits (BitVec.ofNat 16 n) := by decide

theorem get_set_info {i : GaugeInfo} {value : Int} (h : (Write.info i value).InRange)
    (r : GaugeRegs) (c : Int) :
    fgaugeGetInfo i (fgaugeSetInfo i value r) c = readBack i value c := by
  by_cases hi : i = .shutdownCar
  · subst hi
    rcases h with h | h
    · have hne : value ≠ carInvalid := by
        intro he
        rw [he] at h
        exact absurd h (by decide)
      rw [get_set_car h, readBack]
      by_cases hneg : value < 0
      · rw [if_pos hneg, if_neg (by omega), shown, if_neg hne]
      · rw [if_neg hneg, if_pos ⟨rfl, hne, by omega⟩]
    · subst h
      rw [get_set_carInvalid, readBack, if_neg (by simp), shown, if_pos rfl]
  · have hflag : ∀ k < 6, value = 0 ∨ value = 1 →
        readField (flagField k) ((flagField k).set r.con0 (BitVec.ofInt 16 value)) = value := by
      have hfits : ∀ k < 6, ∀ n < 2, (flagField k).Fits (BitVec.ofNat 16 n) := by decide
      intro k hk hv
      rcases hv with rfl | rfl
      · exact readField_set (n := 0) _ (hfits k hk 0 (by decide)) (by decide)
      · exact readField_set (n := 1) _ (hfits k hk 1 (by decide)) (by decide)
    rw [readBack, if_neg fun hc => hi hc.1, set_con0 hi, get_con0 hi]
    cases i with
    | shutdownCar => exact absurd rfl hi
    | con0Soc =>
      obtain ⟨h0, h1⟩ := h
      obtain ⟨n, rfl⟩ := Int.eq_ofNat_of_zero_le h0
      have hdiv : (n : Int).tdiv 100 = ((n / 100 : Nat) : Int) := rfl
      simp only [con0Field, stored, GaugeRegs.setCon0, hdiv, shown]
      rw [readField_set _ (con0Soc_fits _ (by omega)) (by omega)]
      rfl
    | twoSecReboot => exact hflag 0 (by decide) h
    | plChargingStatus => exact hflag 1 (by decide) h
    | moniterPlchgStatus => exact hflag 2 (by decide) h
    | batPlugStatus => exact hflag 3 (by decide) h
    | isNvramFailMode => exact hflag 4 (by decide) h
    | monitorSoffValidtime => exact hflag 5 (by decide) h

/-! ## The displayed charge -/

theorem valid_cases (cell : BitVec 8) : cell &&& 0x80 = 0 ∨ cell &&& 0x80 = 0x80 := by
  revert cell
  decide

theorem uiSoc_set {val : Int} (h : (Write.uiSoc val).InRange) (r : GaugeRegs) :
    rtcUiSocGet (rtcUiSocSet val r) = val ∧ rtcValid (rtcUiSocSet val r) = rtcValid r := by
  obtain ⟨h0, h1⟩ := h
  obtain ⟨n, rfl⟩ := Int.eq_ofNat_of_zero_le h0
  have hbyte : ∀ n ≤ 100, ∀ valid : BitVec 8, valid = 0 ∨ valid = 0x80 →
      ((valid + BitVec.ofNat 8 n) &&& 0x7f).toNat = n ∧
        (valid + BitVec.ofNat 8 n) &&& 0x80 = valid := by
    intro n hn valid hv
    rcases hv with rfl | rfl <;> revert n <;> decide
  have hcell := valid_cases r.socCell
  obtain ⟨hget, hvalid⟩ := hbyte n (by omega) (r.socCell &&& 0x80) hcell
  refine ⟨?_, ?_⟩
  · simp only [rtcUiSocGet, rtcUiSocSet, BitVec.ofInt_natCast]
    rw [hget]
  · have hcellEq : (rtcUiSocSet n r).socCell &&& 0x80 = r.socCell &&& 0x80 := by
      rw [rtcUiSocSet, BitVec.ofInt_natCast]
      exact hvalid
    exact decide_eq_decide.2 (by rw [hcellEq])

/-! ## All writes -/

/-- What is read of a property after any writes. -/
theorem get_writes (ginfo : GaugeInfo) (ws : List Write) (r : GaugeRegs)
    (h : ∀ w ∈ ws, w.InRange) (c : Int) :
    fgaugeGetInfo ginfo (ws.foldl Write.apply r) c =
      match lastInfo ginfo ws with
      | some v => readBack ginfo v c
      | none => fgaugeGetInfo ginfo r c := by
  induction ws generalizing r with
  | nil => rfl
  | cons w ws ih =>
    have hw := h w (by simp)
    rw [List.foldl_cons, ih _ fun w hm => h w (List.mem_cons_of_mem _ hm)]
    cases w with
    | uiSoc val =>
      rw [lastInfo]
      rfl
    | info i value =>
      rw [lastInfo]
      cases hlast : lastInfo ginfo ws with
      | some v => rfl
      | none =>
        rw [Option.none_or]
        by_cases hi : i = ginfo
        · subst hi
          rw [if_pos rfl]
          exact get_set_info hw r c
        · rw [if_neg hi]
          exact get_set_other hi value r c

theorem fgaugeSetInfo_cell (i : GaugeInfo) (value : Int) (r : GaugeRegs) :
    (fgaugeSetInfo i value r).socCell = r.socCell := by
  cases i <;> simp only [fgaugeSetInfo] <;> first | rfl | (split <;> rfl)

theorem uiSoc_writes (ws : List Write) (r : GaugeRegs) (h : ∀ w ∈ ws, w.InRange) :
    rtcUiSocGet (ws.foldl Write.apply r) = (lastUiSoc ws).getD (rtcUiSocGet r) ∧
      rtcValid (ws.foldl Write.apply r) = rtcValid r := by
  induction ws generalizing r with
  | nil => exact ⟨rfl, rfl⟩
  | cons w ws ih =>
    have hw := h w (by simp)
    obtain ⟨hget, hvalid⟩ := ih (w.apply r) fun w hm => h w (List.mem_cons_of_mem _ hm)
    rw [List.foldl_cons, hget, hvalid]
    cases w with
    | info i value =>
      have hcell := fgaugeSetInfo_cell i value r
      simp only [lastUiSoc, Write.apply, rtcUiSocGet, rtcValid, hcell, and_self]
    | uiSoc val =>
      obtain ⟨hval, hv⟩ := uiSoc_set hw r
      simp only [lastUiSoc, Write.apply, hval, hv, and_true]
      cases lastUiSoc ws <;> rfl

/-- **Every property is read as it was written last**, exactly if the charge after the shutdown was
written as negative or as the marker, or the caller's variable holds it already. -/
theorem roundTrip_iff (r : GaugeRegs) (ws : List Write) (h : ∀ w ∈ ws, w.InRange) (value : Int) :
    RoundTrip r ws value ↔ ∀ v, lastInfo .shutdownCar ws = some v →
      v = carInvalid ∨ v < 0 ∨ v = value := by
  obtain ⟨hget, hvalid⟩ := uiSoc_writes ws r h
  constructor
  · intro hr v hv
    have hcar := hr.info .shutdownCar
    rw [get_writes _ ws r h, hv] at hcar
    simp only [readBack, shown, true_and] at hcar
    by_cases hm : v = carInvalid
    · exact .inl hm
    · by_cases hneg : v < 0
      · exact .inr (.inl hneg)
      · rw [if_pos ⟨hm, by omega⟩, if_neg hm] at hcar
        exact .inr (.inr hcar.symm)
  · intro hcar
    refine ⟨fun ginfo => ?_, hget, hvalid⟩
    rw [get_writes ginfo ws r h]
    cases hlast : lastInfo ginfo ws with
    | none => rfl
    | some v =>
      simp only [readBack]
      by_cases hc : ginfo = .shutdownCar ∧ v ≠ carInvalid ∧ 0 ≤ v
      · obtain ⟨rfl, hm, hpos⟩ := hc
        rw [if_pos ⟨rfl, hm, hpos⟩, shown, if_neg hm]
        rcases hcar v hlast with hv | hv | hv
        · exact absurd hv hm
        · omega
        · exact hv.symm
      · rw [if_neg hc]

/-- A negative charge and the marker come back, in whatever order. -/
theorem roundTrip_negative :
    RoundTrip ⟨0xffff, 0xffff, 0x80⟩ [.info .shutdownCar carInvalid, .uiSoc 42,
      .info .shutdownCar (-254), .info .con0Soc 9950] 7 :=
  (roundTrip_iff _ _ (by
    intro w hw
    simp only [List.mem_cons, List.not_mem_nil, or_false] at hw
    rcases hw with rfl | rfl | rfl | rfl <;> simp [Write.InRange, carInvalid]) 7).2 (by
    intro v hv
    simp [lastInfo] at hv
    omega)

/-- A charge of 5 is read as whatever the caller's variable holds. -/
theorem roundTrip_fails :
    (∀ w ∈ [Write.info .shutdownCar 5], w.InRange) ∧
      fgaugeGetInfo .shutdownCar ([Write.info .shutdownCar 5].foldl Write.apply ⟨0, 0, 0⟩) 7 = 7 ∧
      ¬RoundTrip ⟨0, 0, 0⟩ [.info .shutdownCar 5] 7 := by
  have hread : fgaugeGetInfo .shutdownCar
      ([Write.info .shutdownCar 5].foldl Write.apply ⟨0, 0, 0⟩) 7 = 7 := by decide
  refine ⟨by simp [Write.InRange], hread, fun hr => ?_⟩
  have hcar := hr.info .shutdownCar
  rw [hread] at hcar
  exact absurd hcar (by decide)

end Gauge
