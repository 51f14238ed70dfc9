import FireTablet.Battery.Proof.ThermistorAgree

/-!
# The thermistor's conversions do not agree where they wrap

From one resistance of a segment to the next the product of `adc_battemp` moves by at most 1000, so
that a wrap makes the temperature jump up (`TempAgrees.fits_up`, `TempAgrees.fits_down`). At the
resistances of the rows between the first and the last it does not wrap, as the temperature is exact
there (`TempAgrees.anchor`).

`TempToBattVolt` subtracts the product of a negative current and the resistance, so that it adds in
both directions (`Therm.irAdded_eq`). `force_get_tbat_internal` takes away while the battery charges
and adds otherwise (`Therm.irTaken_eq`).
-/

namespace Battery

open CInt

/-- The resistances that segment `j` is searched for. -/
structure InSegment (p : Nat → FgTemp) (j : Nat) (res : Int) : Prop where
  low : (p (j + 1)).temperatureR ≤ res
  high : res < (p j).temperatureR
  last : (p 20).temperatureR < res

/-- Where a quotient is exact, its dividend did not wrap. -/
theorem isI32_of_tdiv {d k : Int} (hd : 0 < d) (hd' : d < 2147483648)
    (h : (i32 (d * k)).tdiv d = k) : IsI32 (d * k) := by
  have hx := Int.mul_tdiv_add_tmod (i32 (d * k)) d
  have hlt := Int.tmod_lt_of_pos (i32 (d * k)) hd
  have hgt : -d < (i32 (d * k)).tmod d := Int.lt_tmod_of_pos _ hd
  rw [h] at hx
  have hfit := isI32_i32 (d * k)
  have heq : i32 (d * k) = d * k := by
    generalize d * k = s at *
    unfold i32 at *
    omega
  rwa [heq] at hfit

theorem scaled_next (p : Nat → FgTemp) (j : Nat) (res : Int) :
    scaled p j res = scaled p j (res + 1) +
      ((p (j + 1)).batteryTemp - (p j).batteryTemp) * 10 := by
  rw [scaled_low, scaled_low]
  ring

section
variable {p : Nat → FgTemp} (ht : TempTable p) (ha : TempAgrees p) {j : Nat} (hj : j < 20)
include ht ha hj

/-- A segment is too short for a quotient by its resistances to hide a wrap. -/
theorem TempAgrees.short :
    (p j).temperatureR - (p (j + 1)).temperatureR ≤
      2147483648 - ((p (j + 1)).batteryTemp - (p j).batteryTemp) * 10 := by
  have hR := ht.res_bounds (show j ≤ 20 by omega)
  have hR' := ht.res_bounds (show j + 1 ≤ 20 by omega)
  have hT := ht.temp_bounds (show j ≤ 20 by omega)
  have hT' := ht.temp_bounds (show j + 1 ≤ 20 by omega)
  have hT20 := ht.temp_le (show j + 1 ≤ 20 by omega) (Nat.le_refl _)
  by_contra hlong
  by_cases hnarrow : (p (j + 1)).batteryTemp - (p j).batteryTemp ≤ 2
  · push_cast at hR'
    omega
  · -- the resistances for the first two temperatures inside the segment do not fall
    have h1 := tempConver_at ht hj (show (p j).batteryTemp < (p j).batteryTemp + 1 by omega)
      (by omega) (by omega)
    have h2 := tempConver_at ht hj (show (p j).batteryTemp < (p j).batteryTemp + 2 by omega)
      (by omega) (by omega)
    have hle := ha.converFalls _ _ _ _ (by omega) h1 h2
    generalize hD : (p (j + 1)).temperatureR - (p j).temperatureR = d at *
    generalize hW : (p (j + 1)).batteryTemp - (p j).batteryTemp = w at *
    rw [show (p j).batteryTemp + 1 - (p j).batteryTemp = 1 by omega,
      show (p j).batteryTemp + 2 - (p j).batteryTemp = 2 by omega, Int.mul_one,
      i32_eq (show IsI32 d by unfold IsI32; omega)] at hle
    have hwrap : i32 (d * 2) = d * 2 + 4294967296 := by
      unfold i32
      omega
    have hq1 : d.tdiv w ≤ -1 := by
      have := Int.tdiv_le_tdiv (show 0 < w by omega) (show d ≤ -w by omega)
      rwa [Int.neg_tdiv, Int.tdiv_self (by omega)] at this
    have hq1' : d ≤ d.tdiv w := by
      have := Int.tdiv_le_self w (show 0 ≤ -d by omega)
      rw [Int.neg_tdiv] at this
      omega
    have hq2 := Int.tdiv_nonneg (show 0 ≤ d * 2 + 4294967296 by omega) (show 0 ≤ w by omega)
    have hq2' := Int.tdiv_le_self w (show 0 ≤ d * 2 + 4294967296 by omega)
    rw [hwrap] at hle
    generalize d.tdiv w = q1 at *
    generalize (d * 2 + 4294967296).tdiv w = q2 at *
    unfold u32 i32 at hle
    omega

theorem TempAgrees.falls {res : Int} (h : InSegment p j res) (h' : InSegment p j (res + 1)) :
    (i32 (scaled p j (res + 1))).tdiv ((p j).temperatureR - (p (j + 1)).temperatureR) ≤
      (i32 (scaled p j res)).tdiv ((p j).temperatureR - (p (j + 1)).temperatureR) :=
  ha.adcFalls res (res + 1) _ _ (by omega) (adcBattemp_at ht hj h.low h.high h.last)
    (adcBattemp_at ht hj h'.low h'.high h'.last)

/-- No wrap below the least value. -/
theorem TempAgrees.fits_up {res : Int} (h : InSegment p j res) (h' : InSegment p j (res + 1))
    (hfit : IsI32 (scaled p j res)) : IsI32 (scaled p j (res + 1)) := by
  have hfalls := ha.falls ht hj h h'
  have hshort := ha.short ht hj
  have hnext := scaled_next p j res
  have hT := ht.temp j hj
  have hR := ht.res j hj
  have hb := ht.temp_bounds (show j ≤ 20 by omega)
  have hb' := ht.temp_bounds (show j + 1 ≤ 20 by omega)
  unfold IsI32 at hfit ⊢
  by_contra hwrap
  rw [i32_eq hfit] at hfalls
  have hlow : (scaled p j res).tdiv ((p j).temperatureR - (p (j + 1)).temperatureR) ≤ 0 := by
    have := Int.tdiv_le_tdiv (Int.sub_pos.2 hR) (show scaled p j res ≤ 0 by omega)
    rwa [Int.zero_tdiv] at this
  have hhigh : 1 ≤ (i32 (scaled p j (res + 1))).tdiv
      ((p j).temperatureR - (p (j + 1)).temperatureR) := by
    have := Int.tdiv_le_tdiv (Int.sub_pos.2 hR) (show (p j).temperatureR -
      (p (j + 1)).temperatureR ≤ i32 (scaled p j (res + 1)) by unfold i32; omega)
    rwa [Int.tdiv_self (by omega)] at this
  omega

/-- No wrap above the greatest value. -/
theorem TempAgrees.fits_down {res : Int} (h : InSegment p j res) (h' : InSegment p j (res + 1))
    (hfit : IsI32 (scaled p j (res + 1))) : IsI32 (scaled p j res) := by
  have hfalls := ha.falls ht hj h h'
  have hshort := ha.short ht hj
  have hnext := scaled_next p j res
  have hT := ht.temp j hj
  have hR := ht.res j hj
  have hb := ht.temp_bounds (show j ≤ 20 by omega)
  have hb' := ht.temp_bounds (show j + 1 ≤ 20 by omega)
  unfold IsI32 at hfit ⊢
  by_contra hwrap
  rw [i32_eq hfit] at hfalls
  have hhigh : 0 ≤ (scaled p j (res + 1)).tdiv ((p j).temperatureR - (p (j + 1)).temperatureR) :=
    Int.tdiv_nonneg (by omega) (by omega)
  have hlow : (i32 (scaled p j res)).tdiv
      ((p j).temperatureR - (p (j + 1)).temperatureR) ≤ -1 := by
    have := Int.tdiv_le_tdiv (Int.sub_pos.2 hR) (show i32 (scaled p j res) ≤
      -((p j).temperatureR - (p (j + 1)).temperatureR) by unfold i32; omega)
    rwa [Int.neg_tdiv, Int.tdiv_self (by omega)] at this
  omega

/-- No wrap in a segment if there is none for one of its resistances. -/
theorem TempAgrees.fits_of {c res : Int} (hc : InSegment p j c) (hfit : IsI32 (scaled p j c))
    (h : InSegment p j res) : IsI32 (scaled p j res) := by
  have hbetween : ∀ {x y z : Int}, InSegment p j x → InSegment p j z → x ≤ y → y ≤ z →
      InSegment p j y := fun hx hz hxy hyz =>
    ⟨hx.low.trans hxy, Int.lt_of_le_of_lt hyz hz.high, Int.lt_of_lt_of_le hx.last hxy⟩
  rcases Int.le_total c res with hle | hle
  · obtain ⟨n, hn⟩ := Int.le.dest hle
    induction n generalizing res with
    | zero => rwa [← hn, Int.natCast_zero, Int.add_zero]
    | succ n ih =>
      have hprev : InSegment p j (res - 1) := hbetween hc h (by omega) (by omega)
      have hres : res = res - 1 + 1 := by omega
      rw [hres] at h ⊢
      exact ha.fits_up ht hj hprev h (ih hprev (by omega) (by omega))
  · obtain ⟨n, hn⟩ := Int.le.dest hle
    induction n generalizing res with
    | zero =>
      obtain rfl : res = c := by omega
      exact hfit
    | succ n ih =>
      have hnext : InSegment p j (res + 1) := hbetween h hc (by omega) (by omega)
      exact ha.fits_down ht hj h hnext (ih hnext (by omega) (by omega))

/-- At a row before the last one the product does not wrap. -/
theorem TempAgrees.fits_row (hlast : j + 1 < 20) :
    IsI32 (scaled p j (p (j + 1)).temperatureR) := by
  have hR := ht.res j hj
  have hb := ht.res_bounds (show j ≤ 20 by omega)
  have hb' := ht.res_bounds (show j + 1 ≤ 20 by omega)
  have hexact := ha.adcExact (j + 1) (by omega)
  rw [adcBattemp_at ht hj (Int.le_refl _) hR (ht.res_lt hlast (Nat.le_refl _)),
    Option.some.injEq] at hexact
  have heq : scaled p j (p (j + 1)).temperatureR =
      ((p j).temperatureR - (p (j + 1)).temperatureR) * ((p (j + 1)).batteryTemp * 10) := by
    rw [scaled_high, Int.sub_self, Int.zero_mul, Int.zero_mul, Int.sub_zero]
  rw [heq] at hexact ⊢
  push_cast at hb'
  exact isI32_of_tdiv (by omega) (by omega) hexact

end

section
variable {p : Nat → FgTemp} (ht : TempTable p) (ha : TempAgrees p)
include ht ha

/-- A product below the type is below it for every lower resistance of the segment. -/
theorem TempAgrees.low_down {j : Nat} (hj : j < 20) {e res : Int} (he : InSegment p j e)
    (hlow : scaled p j e < -2147483648) (h : InSegment p j res) (hle : res ≤ e) :
    scaled p j res < -2147483648 := by
  have hb := ht.temp_bounds (show j ≤ 20 by omega)
  have hb' := ht.temp_bounds (show j + 1 ≤ 20 by omega)
  obtain ⟨n, hn⟩ := Int.le.dest hle
  induction n generalizing res with
  | zero =>
    obtain rfl : res = e := by omega
    exact hlow
  | succ n ih =>
    have hnext : InSegment p j (res + 1) :=
      ⟨by have := h.low; omega, by have := he.high; omega, by have := h.last; omega⟩
    have hbelow := ih hnext (by omega) (by omega)
    have hstep := scaled_next p j res
    by_contra hfit
    have hfits := ha.fits_up ht hj h hnext (by unfold IsI32; omega)
    unfold IsI32 at hfits
    omega

/-- In the last segment some product does not wrap. -/
theorem TempAgrees.anchor {res : Int} (h : InSegment p 19 res) :
    ∃ c, InSegment p 19 c ∧ IsI32 (scaled p 19 c) := by
  have hR : (p 20).temperatureR < (p 19).temperatureR := ht.res 19 (by decide)
  have hT : (p 19).batteryTemp < (p 20).batteryTemp := ht.temp 19 (by decide)
  have hb := ht.temp_bounds (show 19 ≤ 20 by decide)
  have hlow := h.last
  have hhigh := h.high
  have he : InSegment p 19 ((p 19).temperatureR - 1) :=
    ⟨show (p 20).temperatureR ≤ _ by omega, by omega, by omega⟩
  have hc : InSegment p 19 ((p 20).temperatureR + 1) :=
    ⟨show (p 20).temperatureR ≤ _ by omega, by omega, by omega⟩
  rw [ht.last] at hT
  have hscaled : scaled p 19 ((p 19).temperatureR - 1) =
      ((p 19).temperatureR - (p 20).temperatureR) * ((p 19).batteryTemp * 10) +
        (60 - (p 19).batteryTemp) * 10 := by
    rw [scaled_low, ← ht.last]
    ring
  refine ⟨_, he, ?_⟩
  by_contra hwrap
  unfold IsI32 at hwrap
  rcases Int.lt_or_le (scaled p 19 ((p 19).temperatureR - 1)) (-2147483648) with hbelow | habove
  · -- below the type at one end of the segment, and not at the other
    have hend := ha.low_down ht (by decide) he hbelow hc (by omega)
    have hother : scaled p 19 ((p 20).temperatureR + 1) =
        ((p 19).temperatureR - (p 20).temperatureR) * 600 - (60 - (p 19).batteryTemp) * 10 := by
      rw [scaled_high, ← ht.last]
      show _ = ((p 19).temperatureR - (p 20).temperatureR) * 600 - _
      have h600 : (600 : Int) = (p 20).batteryTemp * 10 := by rw [ht.last]; rfl
      rw [h600]
      ring
    omega
  · -- above the type next to the row, where the temperature is exact
    have hpos : 0 < (p 19).batteryTemp := by
      by_contra hneg
      have := Int.mul_nonpos_of_nonneg_of_nonpos
        (show 0 ≤ (p 19).temperatureR - (p 20).temperatureR by omega)
        (show (p 19).batteryTemp * 10 ≤ 0 by omega)
      omega
    have hfalls : (p 19).batteryTemp * 10 ≤ (i32 (scaled p 19 ((p 19).temperatureR - 1))).tdiv
        ((p 19).temperatureR - (p 20).temperatureR) :=
      ha.adcFalls _ _ _ _ (show (p 19).temperatureR - 1 ≤ (p 19).temperatureR by omega)
        (adcBattemp_at ht (by decide) he.low he.high he.last) (ha.adcExact 19 (by decide))
    have hwrapped : i32 (scaled p 19 ((p 19).temperatureR - 1)) <
        ((p 19).temperatureR - (p 20).temperatureR) * ((p 19).batteryTemp * 10) := by
      unfold i32
      omega
    have hmul := Int.mul_le_mul_of_nonneg_left hfalls
      (show 0 ≤ (p 19).temperatureR - (p 20).temperatureR by omega)
    have hx := Int.mul_tdiv_add_tmod (i32 (scaled p 19 ((p 19).temperatureR - 1)))
      ((p 19).temperatureR - (p 20).temperatureR)
    rcases Int.le_total 0 (i32 (scaled p 19 ((p 19).temperatureR - 1))) with h0 | h0
    · have hmod := Int.tmod_nonneg ((p 19).temperatureR - (p 20).temperatureR) h0
      omega
    · have hquot :=
        Int.tdiv_le_tdiv (show 0 < (p 19).temperatureR - (p 20).temperatureR by omega) h0
      rw [Int.zero_tdiv] at hquot
      omega

/-- **The conversions do not agree** where an interpolation wraps. -/
theorem TempAgrees.fits : TempFits p := by
  intro j hj res hlow hhigh hlast
  have h : InSegment p j res := ⟨hlow, hhigh, hlast⟩
  by_cases hrow : j + 1 < 20
  · have hc : InSegment p j (p (j + 1)).temperatureR :=
      ⟨Int.le_refl _, ht.res j hj, ht.res_lt hrow (Nat.le_refl _)⟩
    exact ha.fits_of ht hj hc (ha.fits_row ht hj hrow) h
  · obtain rfl : j = 19 := by omega
    obtain ⟨c, hc, hfit⟩ := ha.anchor ht h
    exact ha.fits_of ht hj hc hfit h

end

/-! ## What the battery current adds to the thermistor's voltage -/

/-- The resistance that the current flows through. -/
def Therm.resistance (gm : Therm) : Int := gm.fgMeterResValue + gm.comRFgValue

/-- How far the two terms are apart, in 0.1 mV, by rounding the current to mA and the voltage to
mV. -/
def Therm.rounding (gm : Therm) : Int := 10 + 9 * gm.resistance / 10000

/-- What is added to a predicted voltage is what is taken away from a measured one, up to
rounding. -/
def Therm.IrAgrees (gm : Therm) (current : Int) : Prop :=
  |gm.irAdded current - 10 * gm.irTaken current| ≤ gm.rounding

/-- The same of what the functions return: `v` is predicted where the divider has `vin`, and `c` is
left of the measured voltage `volt`. -/
def Therm.ReturnsAgree (gm : Therm) (vin v volt c : Int) : Prop :=
  |i32 (v - vin) - 10 * i32 (volt - c)| ≤ gm.rounding

/-- The products of the current and the resistance do not wrap. -/
def Therm.IrFits (gm : Therm) (current : Int) : Prop :=
  gm.resistance < 2147483648 ∧ current.natAbs * gm.resistance < 2147483648

/-- The battery charges, or its current is so small that rounding hides its sign. -/
def Therm.IrNear (gm : Therm) (current : Int) : Prop :=
  0 < current ∨ current.natAbs * gm.resistance / 10000 +
    10 * (current.natAbs / 10 * gm.resistance / 10000) ≤ gm.rounding

section
variable {gm : Therm} {current : Int} (hr : 0 ≤ gm.resistance) (hfits : gm.IrFits current)
include hr hfits

/-- What is added has no sign. -/
theorem Therm.irAdded_eq : gm.irAdded current = current.natAbs * gm.resistance / 10000 := by
  have hpos := Int.mul_nonneg (Int.natCast_nonneg current.natAbs) hr
  have hlt := hfits.2
  unfold Therm.irAdded
  rw [show gm.fgMeterResValue + gm.comRFgValue = gm.resistance from rfl]
  dsimp only
  by_cases h0 : current ≤ 0
  · have hneg : current * gm.resistance = -(current.natAbs * gm.resistance) := by
      rw [← Int.neg_mul]
      congr 1
      omega
    rw [if_pos h0, hneg, i32_eq (by unfold IsI32; omega), Int.neg_tdiv, Int.neg_neg,
      Int.tdiv_eq_ediv_of_nonneg hpos]
  · have hsame : current * gm.resistance = current.natAbs * gm.resistance := by
      congr 1
      omega
    rw [if_neg h0, hsame, i32_eq (by unfold IsI32; omega), Int.tdiv_eq_ediv_of_nonneg hpos]

/-- What is taken away has the sign of the current. -/
theorem Therm.irTaken_eq : gm.irTaken current =
    if 0 < current then current.natAbs / 10 * gm.resistance / 10000
    else -(current.natAbs / 10 * gm.resistance / 10000) := by
  have hlt := hfits.2
  have hpart : (0 : Int) ≤ current.natAbs / 10 * gm.resistance ∧
      current.natAbs / 10 * gm.resistance ≤ current.natAbs * gm.resistance :=
    ⟨Int.mul_nonneg (by omega) hr, Int.mul_le_mul_of_nonneg_right (by omega) hr⟩
  have hproduct : (i32 ((i32 current.natAbs).tdiv 10 * gm.resistance)).tdiv 10000 =
      current.natAbs / 10 * gm.resistance / 10000 := by
    rcases Int.lt_or_eq_of_le hr with hpos | h0
    · have habs := Int.mul_le_mul_of_nonneg_left (show 1 ≤ gm.resistance by omega)
        (Int.natCast_nonneg current.natAbs)
      rw [Int.mul_one] at habs
      have hquot : (current.natAbs : Int).tdiv 10 = current.natAbs / 10 :=
        Int.tdiv_eq_ediv_of_nonneg (Int.natCast_nonneg _)
      rw [i32_eq (show IsI32 (current.natAbs : Int) by unfold IsI32; omega), hquot,
        i32_eq (by unfold IsI32; omega), Int.tdiv_eq_ediv_of_nonneg hpart.1]
    · rw [← h0, Int.mul_zero, Int.mul_zero]
      rfl
  unfold Therm.irTaken
  rw [show gm.fgMeterResValue + gm.comRFgValue = gm.resistance from rfl, hproduct]

/-- **The two terms** agree if and only if the battery charges or its current is small. -/
theorem Therm.irAgrees_iff : gm.IrAgrees current ↔ gm.IrNear current := by
  have hsplit : (current.natAbs : Int) * gm.resistance =
      10 * (current.natAbs / 10 * gm.resistance) + current.natAbs % 10 * gm.resistance := by
    rw [← Int.mul_assoc, ← Int.add_mul, Int.mul_ediv_add_emod]
  have hrest : (0 : Int) ≤ current.natAbs % 10 * gm.resistance ∧
      current.natAbs % 10 * gm.resistance ≤ 9 * gm.resistance :=
    ⟨Int.mul_nonneg (by omega) hr, Int.mul_le_mul_of_nonneg_right (by omega) hr⟩
  have hwhole : (0 : Int) ≤ current.natAbs / 10 * gm.resistance := Int.mul_nonneg (by omega) hr
  unfold Therm.IrAgrees Therm.IrNear Therm.rounding
  rw [Therm.irAdded_eq hr hfits, Therm.irTaken_eq hr hfits, hsplit, abs_le]
  split_ifs with h0 <;> omega

end

/-- A quotient of an int by ten thousand. -/
theorem tdiv_small (x : Int) : (i32 x).tdiv 10000 ≤ 214748 ∧ -214748 ≤ (i32 x).tdiv 10000 := by
  have h := isI32_i32 x
  unfold IsI32 at h
  have hle : ∀ y : Int, y ≤ 2147483648 → y.tdiv 10000 ≤ 214748 := fun y hy =>
    (Int.tdiv_le_tdiv (by decide) hy).trans (by decide)
  refine ⟨hle _ (by omega), ?_⟩
  have hneg := hle (-i32 x) (by omega)
  rw [Int.neg_tdiv] at hneg
  omega

/-- `TempToBattVolt` adds its term. -/
theorem Therm.tempToBattVolt_added {gm : Therm} {temp current vin v : Int}
    (h : gm.tempToBattVolt temp current = some (vin, v)) :
    i32 (v - vin) = gm.irAdded current := by
  obtain ⟨rNtc, -, h⟩ := Option.bind_eq_some_iff.1 h
  simp only at h
  split_ifs at h
  cases h
  have hsmall := tdiv_small (current * (gm.fgMeterResValue + gm.comRFgValue))
  have hadded : -214748 ≤ gm.irAdded current ∧ gm.irAdded current ≤ 214748 := by
    unfold Therm.irAdded
    simp only
    split_ifs <;> omega
  unfold u32 i32
  omega

/-- `force_get_tbat_internal` takes its term away from a voltage that is measured. -/
theorem Therm.forceGetTbatInternal_taken {gm : Therm} {vbif28Raw : Option Int}
    {volt current c t : Int} (hv : volt ≠ 0)
    (h : gm.forceGetTbatInternal vbif28Raw volt current = some (c, t)) :
    i32 (volt - c) = gm.irTaken current := by
  rw [Therm.forceGetTbatInternal, if_pos hv] at h
  obtain ⟨val, -, h⟩ := Option.bind_eq_some_iff.1 h
  cases h
  have hsmall := tdiv_small ((i32 current.natAbs).tdiv 10 * (gm.fgMeterResValue + gm.comRFgValue))
  have htaken : -214748 ≤ gm.irTaken current ∧ gm.irTaken current ≤ 214748 := by
    unfold Therm.irTaken
    simp only
    split_ifs <;> omega
  unfold i32
  omega

theorem Therm.returnsAgree_iff {gm : Therm} {temp current vin v volt c t : Int}
    {vbif28Raw : Option Int} (h : gm.tempToBattVolt temp current = some (vin, v)) (hv : volt ≠ 0)
    (hc : gm.forceGetTbatInternal vbif28Raw volt current = some (c, t)) :
    gm.ReturnsAgree vin v volt c ↔ gm.IrAgrees current := by
  unfold Therm.ReturnsAgree Therm.IrAgrees
  rw [Therm.tempToBattVolt_added h, Therm.forceGetTbatInternal_taken hv hc]

/-- **The thermistor**: the conversions of a table agree if and only if no interpolation of a
temperature wraps, and the terms for the battery current, as terms and in what the functions return
with them, if and only if the battery charges or its current is small, where their products do not
wrap. -/
theorem thermistor_agrees (p : Nat → FgTemp) (gm : Therm) (current : Int) :
    (TempTable p → (TempAgrees p ↔ TempFits p)) ∧
    (0 ≤ gm.resistance → gm.IrFits current →
      (gm.IrAgrees current ↔ gm.IrNear current) ∧
        ∀ temp vin v vbif28Raw volt c t, gm.tempToBattVolt temp current = some (vin, v) →
          volt ≠ 0 → gm.forceGetTbatInternal vbif28Raw volt current = some (c, t) →
          (gm.ReturnsAgree vin v volt c ↔ gm.IrNear current)) :=
  ⟨fun ht => ⟨fun ha => ha.fits ht, fun hfits => hfits.agrees ht⟩,
    fun hr hfits => ⟨Therm.irAgrees_iff hr hfits, fun _ _ _ _ _ _ _ h hv hc =>
      (Therm.returnsAgree_iff h hv hc).trans (Therm.irAgrees_iff hr hfits)⟩⟩

/-- `fg_temp_table`. -/
def fgTempTable : List FgTemp :=
  [⟨-40, 1747920⟩, ⟨-35, 1245428⟩, ⟨-30, 898485⟩, ⟨-25, 655802⟩, ⟨-20, 483954⟩, ⟨-15, 360850⟩,
   ⟨-10, 271697⟩, ⟨-5, 206463⟩, ⟨0, 158214⟩, ⟨5, 122259⟩, ⟨10, 95227⟩, ⟨15, 74730⟩, ⟨20, 59065⟩,
   ⟨25, 47000⟩, ⟨30, 37643⟩, ⟨35, 30334⟩, ⟨40, 24591⟩, ⟨45, 20048⟩, ⟨50, 16433⟩, ⟨55, 13539⟩,
   ⟨60, 11210⟩]

/-- The battery with that table and resistances of 7.5 and 5 milliohms. -/
def therm : Therm where
  tmpTable j := (fgTempTable[j]?).getD ⟨0, 0⟩
  rbatPullUpR := 24000
  rbatPullUpVolt := 2800
  comRFgValue := 50
  comFgMeterResistance := 75
  noBatTempCompensate := 0

/-- At 25 degrees, with 1 A into the battery: 1866 mV are predicted where the divider has 1853.5 mV,
and 1854 mV are left of a measured 1866. -/
theorem thermistor_agrees_therm :
    (TempAgrees therm.tmpTable ↔ TempFits therm.tmpTable) ∧
      (therm.IrAgrees 10000 ↔ therm.IrNear 10000) ∧
      therm.tempToBattVolt 25 10000 = some (18535, 18660) ∧
      therm.forceGetTbatInternal none 1866 10000 = some (1854, 24) ∧
      (therm.ReturnsAgree 18535 18660 1866 1854 ↔ therm.IrNear 10000) :=
  have h := thermistor_agrees therm.tmpTable therm 10000
  have hr := h.2 (by decide) ⟨by decide, by decide⟩
  ⟨h.1 ⟨by decide, by decide, by decide, by decide, by decide, by decide⟩, hr.1, by decide,
    by decide, hr.2 25 18535 18660 none 1866 1854 24 (by decide) (by decide) (by decide)⟩

/-- A current of 1 A out of the battery: 12.5 mV are added, and 12 mV are added to the measured
voltage as well. -/
theorem thermistor_discharge : ¬ therm.IrAgrees (-10000) ∧
    therm.tempToBattVolt 25 (-10000) = some (18535, 18660) ∧
    therm.forceGetTbatInternal none 1854 (-10000) = some (1866, 24) ∧
    ¬ therm.ReturnsAgree 18535 18660 1854 1866 := by
  have hadded : therm.irAdded (-10000) = 125 := by decide
  have htaken : therm.irTaken (-10000) = -12 := by decide
  refine ⟨?_, by decide, by decide, ?_⟩
  · unfold Therm.IrAgrees
    rw [hadded, htaken]
    decide
  · unfold Therm.ReturnsAgree
    decide

end Battery
