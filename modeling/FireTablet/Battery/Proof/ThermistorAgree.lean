import FireTablet.Battery.Thermistor
import Mathlib.Algebra.Order.Group.Unbundled.Int
import Mathlib.Tactic.Ring
import Mathlib.Tactic.Linarith

/-!
# The conversions of the thermistor's table

Both searches stop in the segment of the table that their argument is in (`adcBattemp_at`,
`tempConver_at`). Without a wrap in the interpolations both conversions fall, are exact at the rows
and stay in the segment (`TempFits.agrees`). The interpolation of a temperature falls with the
resistance in steps of at most 1000, so where it wraps it jumps up, which shows that it does not if
the conversions agree (`TempAgrees.fits`).

Without wraps a conversion is a linear function in each segment, which has the values of the rows at
both ends (`adcBattemp_segment`, `tempConver_segment`).
-/

namespace Battery

open CInt

/-- A table of 21 rows from -40 to 60 degrees, whose temperatures rise and whose positive
resistances fall. -/
structure TempTable (p : Nat → FgTemp) : Prop where
  first : (p 0).batteryTemp = -40
  last : (p 20).batteryTemp = 60
  temp : ∀ j < 20, (p j).batteryTemp < (p (j + 1)).batteryTemp
  res : ∀ j < 20, (p (j + 1)).temperatureR < (p j).temperatureR
  pos : 0 < (p 20).temperatureR
  max : (p 0).temperatureR < 2147483648

/-- The product that `adc_battemp` divides for a resistance in segment `j`. -/
def scaled (p : Nat → FgTemp) (j : Nat) (res : Int) : Int :=
  ((res - (p (j + 1)).temperatureR) * (p j).batteryTemp +
    ((p j).temperatureR - res) * (p (j + 1)).batteryTemp) * 10

/-- The interpolation of a temperature wraps for no resistance that it is made for. -/
def TempFits (p : Nat → FgTemp) : Prop :=
  ∀ j < 20, ∀ res, (p (j + 1)).temperatureR ≤ res → res < (p j).temperatureR →
    (p 20).temperatureR < res → IsI32 (scaled p j res)

/-- The two conversions agree: both are defined and in the range of the table, fall, are exact at
the rows, and there and back again a temperature stays in its segment. -/
structure TempAgrees (p : Nat → FgTemp) : Prop where
  adc : ∀ res, ∃ v, adcBattemp p res = some v ∧ -400 ≤ v ∧ v ≤ 600
  adcFalls : ∀ res res' v v', res ≤ res' → adcBattemp p res = some v →
    adcBattemp p res' = some v' → v' ≤ v
  adcExact : ∀ j ≤ 20, adcBattemp p (p j).temperatureR = some ((p j).batteryTemp * 10)
  conver : ∀ temp, ∃ r, tempConverBattThermistor p temp = some r ∧
    (p 20).temperatureR ≤ r ∧ r ≤ (p 0).temperatureR
  converFalls : ∀ temp temp' r r', temp ≤ temp' → tempConverBattThermistor p temp = some r →
    tempConverBattThermistor p temp' = some r' → r' ≤ r
  converExact : ∀ j ≤ 20, tempConverBattThermistor p (p j).batteryTemp = some (p j).temperatureR
  segment : ∀ j < 20, ∀ temp, (p j).batteryTemp ≤ temp → temp ≤ (p (j + 1)).batteryTemp →
    ∃ r v, tempConverBattThermistor p temp = some r ∧ adcBattemp p r = some v ∧
      (p j).batteryTemp * 10 ≤ v ∧ v ≤ (p (j + 1)).batteryTemp * 10

/-! ## Searching -/

theorem findRow_eq {hit : FgTemp → Bool} {p : Nat → FgTemp} {n i k : Nat} {prev : FgTemp}
    (hi : i ≤ k) (hk : k < i + n) (hmiss : ∀ j, i ≤ j → j < k → hit (p j) = false)
    (hhit : hit (p k) = true) :
    findRow hit p n i prev = (if k = i then prev else p (k - 1), p k) := by
  induction n generalizing i prev with
  | zero => omega
  | succ n ih =>
    rw [findRow]
    rcases Nat.eq_or_lt_of_le hi with rfl | hlt
    · rw [if_pos hhit, if_pos rfl]
    · rw [hmiss i (Nat.le_refl _) hlt, if_neg Bool.false_ne_true,
        ih (by omega) (by omega) fun j hj => hmiss j (by omega), if_neg (Nat.ne_of_gt hlt)]
      split_ifs with hnext
      · rw [hnext, Nat.add_sub_cancel]
      · rfl

/-- The search from the first row on stops with segment `j`. -/
theorem findRow_segment (hit : FgTemp → Bool) {p : Nat → FgTemp} {j : Nat} (hj : j < 20)
    (hmiss : ∀ i ≤ j, hit (p i) = false) (hhit : hit (p (j + 1)) = true) :
    findRow hit p 21 0 (p 0) = (p j, p (j + 1)) := by
  rw [findRow_eq (Nat.zero_le _) (by omega) (fun i _ hi => hmiss i (by omega)) hhit,
    if_neg (Nat.succ_ne_zero j), Nat.add_sub_cancel]

/-- A resistance inside the table is in a segment. -/
theorem res_segment {p : Nat → FgTemp} {res : Int} (h0 : res < (p 0).temperatureR)
    (h20 : (p 20).temperatureR ≤ res) :
    ∃ j < 20, (p (j + 1)).temperatureR ≤ res ∧ res < (p j).temperatureR := by
  by_contra hno
  have hall : ∀ j ≤ 20, res < (p j).temperatureR := by
    intro j hj
    induction j with
    | zero => exact h0
    | succ j ih =>
      by_contra hle
      exact hno ⟨j, by omega, by omega, ih (by omega)⟩
  have := hall 20 (Nat.le_refl _)
  omega

/-- A temperature inside the table is in a segment. -/
theorem temp_segment {p : Nat → FgTemp} {temp : Int} (h0 : (p 0).batteryTemp < temp)
    (h20 : temp ≤ (p 20).batteryTemp) :
    ∃ j < 20, (p j).batteryTemp < temp ∧ temp ≤ (p (j + 1)).batteryTemp := by
  by_contra hno
  have hall : ∀ j ≤ 20, (p j).batteryTemp < temp := by
    intro j hj
    induction j with
    | zero => exact h0
    | succ j ih =>
      by_contra hle
      exact hno ⟨j, by omega, ih (by omega), by omega⟩
  have := hall 20 (Nat.le_refl _)
  omega

/-- A quotient by a positive number has the type of the dividend. -/
theorem isI32_tdiv {a d : Int} (ha : IsI32 a) (hd : 0 < d) : IsI32 (a.tdiv d) := by
  unfold IsI32 at *
  have hpos : ∀ b : Int, 0 ≤ b → 0 ≤ b.tdiv d ∧ b.tdiv d ≤ b := fun b hb =>
    ⟨Int.tdiv_nonneg hb (Int.le_of_lt hd), Int.tdiv_le_self d hb⟩
  rcases Int.le_total 0 a with h0 | h0
  · have := hpos a h0
    omega
  · have := hpos (-a) (by omega)
    rw [Int.neg_tdiv] at this
    omega

section
variable {p : Nat → FgTemp} (ht : TempTable p)
include ht

theorem TempTable.temp_lt {i j : Nat} (hij : i < j) (hj : j ≤ 20) :
    (p i).batteryTemp < (p j).batteryTemp := by
  induction j with
  | zero => omega
  | succ j ih =>
    have hstep := ht.temp j (by omega)
    rcases Nat.eq_or_lt_of_le (Nat.le_of_lt_succ hij) with rfl | hlt
    · exact hstep
    · have := ih hlt (by omega)
      omega

theorem TempTable.res_lt {i j : Nat} (hij : i < j) (hj : j ≤ 20) :
    (p j).temperatureR < (p i).temperatureR := by
  induction j with
  | zero => omega
  | succ j ih =>
    have hstep := ht.res j (by omega)
    rcases Nat.eq_or_lt_of_le (Nat.le_of_lt_succ hij) with rfl | hlt
    · exact hstep
    · have := ih hlt (by omega)
      omega

theorem TempTable.temp_le {i j : Nat} (hij : i ≤ j) (hj : j ≤ 20) :
    (p i).batteryTemp ≤ (p j).batteryTemp := by
  rcases Nat.eq_or_lt_of_le hij with rfl | hlt
  · exact Int.le_refl _
  · exact Int.le_of_lt (ht.temp_lt hlt hj)

theorem TempTable.res_le {i j : Nat} (hij : i ≤ j) (hj : j ≤ 20) :
    (p j).temperatureR ≤ (p i).temperatureR := by
  rcases Nat.eq_or_lt_of_le hij with rfl | hlt
  · exact Int.le_refl _
  · exact Int.le_of_lt (ht.res_lt hlt hj)

theorem TempTable.temp_bounds {j : Nat} (hj : j ≤ 20) :
    -40 ≤ (p j).batteryTemp ∧ (p j).batteryTemp ≤ 60 := by
  have h0 := ht.temp_le (Nat.zero_le j) hj
  have h20 := ht.temp_le hj (Nat.le_refl 20)
  rw [ht.first] at h0
  rw [ht.last] at h20
  exact ⟨h0, h20⟩

theorem TempTable.res_bounds {j : Nat} (hj : j ≤ 20) :
    20 - (j : Int) < (p j).temperatureR ∧ (p j).temperatureR < 2147483648 - j := by
  constructor
  · induction hd : 20 - j generalizing j with
    | zero =>
      obtain rfl : j = 20 := by omega
      exact ht.pos
    | succ d ih =>
      have hnext := ih (j := j + 1) (by omega) (by omega)
      have hstep := ht.res j (by omega)
      omega
  · induction j with
    | zero => exact ht.max
    | succ j ih =>
      have hstep := ht.res j (by omega)
      have := ih (by omega)
      omega

/-! ## The conversions in a segment -/

/-- `adc_battemp` in segment `j`. -/
theorem adcBattemp_at {j : Nat} (hj : j < 20) {res : Int} (hlow : (p (j + 1)).temperatureR ≤ res)
    (hhigh : res < (p j).temperatureR) (h20 : (p 20).temperatureR < res) :
    adcBattemp p res = some ((i32 (scaled p j res)).tdiv
      ((p j).temperatureR - (p (j + 1)).temperatureR)) := by
  have h0 := ht.res_le (Nat.zero_le j) (by omega)
  have hj0 := (ht.res_bounds (j := j) (by omega)).2
  have hj1 := (ht.res_bounds (j := j + 1) (by omega)).1
  have hrows := findRow_segment (fun row => decide (res ≥ row.temperatureR)) (p := p) hj
    (fun i hi => by
      have := ht.res_le hi (by omega)
      simp only [decide_eq_false_iff_not]
      omega) (by simpa using hlow)
  have hD : IsI32 ((p j).temperatureR - (p (j + 1)).temperatureR) := by
    unfold IsI32
    omega
  have hquot := isI32_tdiv (isI32_i32 (scaled p j res))
    (show 0 < (p j).temperatureR - (p (j + 1)).temperatureR by omega)
  unfold adcBattemp
  rw [if_neg (by omega), if_neg (by omega), hrows]
  show div (i32 (scaled p j res)) _ = _
  rw [i32_eq hD, div, if_neg (by omega), i32_eq hquot]

/-- `TempConverBattThermistor` in segment `j`. -/
theorem tempConver_at {j : Nat} (hj : j < 20) {temp : Int} (hlow : (p j).batteryTemp < temp)
    (hhigh : temp ≤ (p (j + 1)).batteryTemp) (h20 : temp < (p 20).batteryTemp) :
    tempConverBattThermistor p temp = some (u32 (i32
      ((i32 (((p (j + 1)).temperatureR - (p j).temperatureR) * (temp - (p j).batteryTemp))).tdiv
        ((p (j + 1)).batteryTemp - (p j).batteryTemp) + (p j).temperatureR))) := by
  have h0 := ht.temp_le (Nat.zero_le j) (by omega)
  have hj0 := (ht.res_bounds (j := j) (by omega)).2
  have hj1 := (ht.res_bounds (j := j + 1) (by omega)).1
  have hstep := ht.res j hj
  have htj := ht.temp_bounds (j := j) (by omega)
  have htj1 := ht.temp_bounds (j := j + 1) (by omega)
  have hrows := findRow_segment (fun row => decide (temp ≤ row.batteryTemp)) (p := p) hj
    (fun i hi => by
      have := ht.temp_le hi (by omega)
      simp only [decide_eq_false_iff_not]
      omega) (by simpa using hhigh)
  have hD : IsI32 ((p (j + 1)).batteryTemp - (p j).batteryTemp) := by
    unfold IsI32
    omega
  have hb : IsI32 ((p (j + 1)).temperatureR - (p j).temperatureR) := by
    unfold IsI32
    omega
  have hi : IsI32 (temp - (p j).batteryTemp) := by
    unfold IsI32
    omega
  have hquot := isI32_tdiv (isI32_i32
    (((p (j + 1)).temperatureR - (p j).temperatureR) * (temp - (p j).batteryTemp)))
    (show 0 < (p (j + 1)).batteryTemp - (p j).batteryTemp by omega)
  unfold tempConverBattThermistor
  rw [if_neg (by omega), if_neg (by omega), hrows]
  show (tryInterpolation _ _ _ _ _).map u32 = _
  rw [tryInterpolation, i32_eq hD, i32_eq hb, i32_eq hi, div, if_neg (by omega), i32_eq hquot]
  rfl

end

/-! ## The thermistor's conversions agree where they do not wrap -/

/-- The temperature for a resistance in segment `j`, if nothing wraps. -/
def adcValue (p : Nat → FgTemp) (j : Nat) (res : Int) : Int :=
  (scaled p j res).tdiv ((p j).temperatureR - (p (j + 1)).temperatureR)

/-- The resistance for a temperature in segment `j`, if nothing wraps. -/
def converValue (p : Nat → FgTemp) (j : Nat) (temp : Int) : Int :=
  (((p (j + 1)).temperatureR - (p j).temperatureR) * (temp - (p j).batteryTemp)).tdiv
    ((p (j + 1)).batteryTemp - (p j).batteryTemp) + (p j).temperatureR

/-! ## Linear functions -/

section
variable (p : Nat → FgTemp) (j : Nat) (res temp : Int)

theorem scaled_low :
    scaled p j res = ((p j).temperatureR - (p (j + 1)).temperatureR) * ((p j).batteryTemp * 10) +
      ((p j).temperatureR - res) * ((p (j + 1)).batteryTemp - (p j).batteryTemp) * 10 := by
  unfold scaled
  ring

theorem scaled_high :
    scaled p j res =
      ((p j).temperatureR - (p (j + 1)).temperatureR) * ((p (j + 1)).batteryTemp * 10) -
      (res - (p (j + 1)).temperatureR) * ((p (j + 1)).batteryTemp - (p j).batteryTemp) * 10 := by
  unfold scaled
  ring

end

section
variable {p : Nat → FgTemp} (ht : TempTable p) {j : Nat} (hj : j < 20)
include ht hj

theorem scaled_falls {res res' : Int} (h : res ≤ res') : scaled p j res' ≤ scaled p j res := by
  have hT := ht.temp j hj
  have hmul := Int.mul_le_mul_of_nonneg_right (show (p j).temperatureR - res' ≤
    (p j).temperatureR - res by omega)
    (show 0 ≤ (p (j + 1)).batteryTemp - (p j).batteryTemp by omega)
  rw [scaled_low, scaled_low]
  omega

theorem adcValue_falls {res res' : Int} (h : res ≤ res') : adcValue p j res' ≤ adcValue p j res :=
  Int.tdiv_le_tdiv (Int.sub_pos.2 (ht.res j hj)) (scaled_falls ht hj h)

theorem adcValue_high : adcValue p j (p (j + 1)).temperatureR = (p (j + 1)).batteryTemp * 10 := by
  have hR := ht.res j hj
  rw [adcValue, scaled_high, Int.sub_self, Int.zero_mul, Int.zero_mul, Int.sub_zero,
    Int.mul_tdiv_cancel_left _ (by omega)]

theorem adcValue_low : adcValue p j (p j).temperatureR = (p j).batteryTemp * 10 := by
  have hR := ht.res j hj
  rw [adcValue, scaled_low, Int.sub_self, Int.zero_mul, Int.zero_mul, Int.add_zero,
    Int.mul_tdiv_cancel_left _ (by omega)]

theorem adcValue_bounds {res : Int} (hlow : (p (j + 1)).temperatureR ≤ res)
    (hhigh : res ≤ (p j).temperatureR) :
    (p j).batteryTemp * 10 ≤ adcValue p j res ∧
      adcValue p j res ≤ (p (j + 1)).batteryTemp * 10 := by
  have h1 := adcValue_falls ht hj hhigh
  have h2 := adcValue_falls ht hj hlow
  rw [adcValue_low ht hj] at h1
  rw [adcValue_high ht hj] at h2
  exact ⟨h1, h2⟩

theorem converValue_falls {temp temp' : Int} (h : temp ≤ temp') :
    converValue p j temp' ≤ converValue p j temp := by
  have hR := ht.res j hj
  have hT := ht.temp j hj
  have hmul := Int.mul_le_mul_of_nonpos_left
    (show (p (j + 1)).temperatureR - (p j).temperatureR ≤ 0 by omega)
    (show temp - (p j).batteryTemp ≤ temp' - (p j).batteryTemp by omega)
  have hdiv := Int.tdiv_le_tdiv (Int.sub_pos.2 hT) hmul
  unfold converValue
  omega

omit ht hj in
theorem converValue_low : converValue p j (p j).batteryTemp = (p j).temperatureR := by
  rw [converValue, Int.sub_self, Int.mul_zero, Int.zero_tdiv, Int.zero_add]

theorem converValue_high : converValue p j (p (j + 1)).batteryTemp = (p (j + 1)).temperatureR := by
  have hT := ht.temp j hj
  rw [converValue, Int.mul_tdiv_cancel _ (by omega)]
  omega

theorem converValue_bounds {temp : Int} (hlow : (p j).batteryTemp ≤ temp)
    (hhigh : temp ≤ (p (j + 1)).batteryTemp) :
    (p (j + 1)).temperatureR ≤ converValue p j temp ∧
      converValue p j temp ≤ (p j).temperatureR := by
  have h1 := converValue_falls ht hj hhigh
  have h2 := converValue_falls ht hj hlow
  rw [converValue_low] at h2
  rw [converValue_high ht hj] at h1
  exact ⟨h1, h2⟩

/-! ## Nothing wraps -/

/-- Where the interpolation of a temperature does not wrap, that of a resistance does not. -/
theorem TempFits.conver (hfits : TempFits p) {temp : Int} (hlow : (p j).batteryTemp ≤ temp)
    (hhigh : temp ≤ (p (j + 1)).batteryTemp) :
    IsI32 (((p (j + 1)).temperatureR - (p j).temperatureR) * (temp - (p j).batteryTemp)) := by
  have hR := ht.res j hj
  have hT0 := ht.temp_bounds (j := j) (by omega)
  have hT1 := ht.temp_bounds (j := j + 1) (by omega)
  have h20 := ht.res_le (show j + 1 ≤ 20 by omega) (Nat.le_refl _)
  have hneg := Int.mul_nonpos_of_nonpos_of_nonneg
    (show (p (j + 1)).temperatureR - (p j).temperatureR ≤ 0 by omega)
    (show 0 ≤ temp - (p j).batteryTemp by omega)
  have hmul := Int.mul_le_mul_of_nonpos_left
    (show (p (j + 1)).temperatureR - (p j).temperatureR ≤ 0 by omega)
    (show temp - (p j).batteryTemp ≤ (p (j + 1)).batteryTemp - (p j).batteryTemp by omega)
  suffices hprod : ((p j).temperatureR - (p (j + 1)).temperatureR) *
      ((p (j + 1)).batteryTemp - (p j).batteryTemp) ≤ 2147483648 by
    unfold IsI32
    rw [← neg_sub (p j).temperatureR, Int.neg_mul, Int.neg_mul] at hmul
    rw [← neg_sub (p j).temperatureR, Int.neg_mul] at hneg ⊢
    omega
  by_cases h1 : (p j).temperatureR - (p (j + 1)).temperatureR = 1
  · rw [h1]
    omega
  · -- two points of the segment are `D - 2` apart
    have hleft := hfits j hj ((p (j + 1)).temperatureR + 1) (by omega) (by omega) (by omega)
    have hright := hfits j hj ((p j).temperatureR - 1) (by omega) (by omega) (by omega)
    have hdiff : scaled p j ((p (j + 1)).temperatureR + 1) - scaled p j ((p j).temperatureR - 1) =
        (((p j).temperatureR - (p (j + 1)).temperatureR) *
          ((p (j + 1)).batteryTemp - (p j).batteryTemp)) * 10 -
        ((p (j + 1)).batteryTemp - (p j).batteryTemp) * 20 := by
      unfold scaled
      ring
    unfold IsI32 at hleft hright
    omega

end

/-! ## Everywhere -/

section
variable {p : Nat → FgTemp} (ht : TempTable p) (hfits : TempFits p)
include ht hfits

/-- **`adc_battemp`** is linear in each segment, up to both ends. -/
theorem adcBattemp_segment {j : Nat} (hj : j < 20) {res : Int}
    (hlow : (p (j + 1)).temperatureR ≤ res) (hhigh : res ≤ (p j).temperatureR) :
    adcBattemp p res = some (adcValue p j res) := by
  have h0 := ht.res_le (Nat.zero_le j) (by omega)
  have h20 := ht.res_le (show j + 1 ≤ 20 by omega) (Nat.le_refl _)
  by_cases hfirst : res ≥ (p 0).temperatureR
  · have hj0 : j = 0 := by
      by_contra hne
      have := ht.res_lt (Nat.pos_of_ne_zero hne) (show j ≤ 20 by omega)
      omega
    subst hj0
    obtain rfl : res = (p 0).temperatureR := by omega
    rw [adcBattemp, if_pos hfirst, adcValue_low ht hj, ht.first]
    rfl
  by_cases hlast : res ≤ (p 20).temperatureR
  · have hj19 : j + 1 = 20 := by
      by_contra hne
      have := ht.res_lt (show j + 1 < 20 by omega) (Nat.le_refl _)
      omega
    have hres : res = (p (j + 1)).temperatureR := by
      rw [hj19] at hlow ⊢
      omega
    rw [adcBattemp, if_neg hfirst, if_pos hlast, hres, adcValue_high ht hj, hj19, ht.last]
    rfl
  rcases Int.lt_or_eq_of_le hhigh with hlt | rfl
  · rw [adcBattemp_at ht hj hlow hlt (by omega),
      i32_eq (hfits j hj res hlow hlt (by omega))]
    rfl
  · -- the upper end is found in the segment before
    cases j with
    | zero => omega
    | succ i =>
      have hprev := ht.res i (by omega)
      rw [adcBattemp_at ht (show i < 20 by omega) (Int.le_refl _) hprev (by omega),
        i32_eq (hfits i (by omega) _ (Int.le_refl _) hprev (by omega)), adcValue_low ht hj]
      exact congrArg some (adcValue_high ht (show i < 20 by omega))

/-- **`TempConverBattThermistor`** is linear in each segment, up to both ends. -/
theorem tempConver_segment {j : Nat} (hj : j < 20) {temp : Int} (hlow : (p j).batteryTemp ≤ temp)
    (hhigh : temp ≤ (p (j + 1)).batteryTemp) :
    tempConverBattThermistor p temp = some (converValue p j temp) := by
  have h0 := ht.temp_le (Nat.zero_le j) (by omega)
  have h20 := ht.temp_le (show j + 1 ≤ 20 by omega) (Nat.le_refl _)
  have hu : ∀ i ≤ 20, u32 (p i).temperatureR = (p i).temperatureR := fun i hi => by
    have := ht.res_bounds hi
    exact u32_eq (by omega) (by omega)
  by_cases hlast : temp ≥ (p 20).batteryTemp
  · have hj19 : j + 1 = 20 := by
      by_contra hne
      have := ht.temp_lt (show j + 1 < 20 by omega) (Nat.le_refl _)
      omega
    have htemp : temp = (p (j + 1)).batteryTemp := by
      rw [hj19] at hhigh ⊢
      omega
    rw [tempConverBattThermistor, if_pos hlast, htemp, converValue_high ht hj, hj19,
      hu 20 (Nat.le_refl _)]
  by_cases hfirst : temp ≤ (p 0).batteryTemp
  · have hj0 : j = 0 := by
      by_contra hne
      have := ht.temp_lt (Nat.pos_of_ne_zero hne) (show j ≤ 20 by omega)
      omega
    subst hj0
    obtain rfl : temp = (p 0).batteryTemp := by omega
    rw [tempConverBattThermistor, if_neg hlast, if_pos hfirst, converValue_low,
      hu 0 (Nat.zero_le _)]
  have hat : ∀ i < 20, (p i).batteryTemp < temp → temp ≤ (p (i + 1)).batteryTemp →
      tempConverBattThermistor p temp = some (converValue p i temp) := fun i hi hl hh => by
    have hbounds := converValue_bounds ht hi (Int.le_of_lt hl) hh
    have hR := ht.res_bounds (show i ≤ 20 by omega)
    have hR' := ht.res_bounds (show i + 1 ≤ 20 by omega)
    unfold converValue at hbounds
    rw [tempConver_at ht hi hl hh (by omega), i32_eq (hfits.conver ht hi (Int.le_of_lt hl) hh),
      i32_eq (by unfold IsI32; omega), u32_eq (by omega) (by omega)]
    rfl
  rcases Int.lt_or_eq_of_le hlow with hlt | heq
  · exact hat j hj hlt hhigh
  · -- the lower end is found in the segment before
    cases j with
    | zero => omega
    | succ i =>
      have hprev := ht.temp i (by omega)
      rw [hat i (by omega) (by omega) (by omega), ← heq, converValue_low]
      exact congrArg some (converValue_high ht (show i < 20 by omega))

theorem TempFits.adc (res : Int) : ∃ v, adcBattemp p res = some v ∧ -400 ≤ v ∧ v ≤ 600 := by
  by_cases hfirst : res ≥ (p 0).temperatureR
  · exact ⟨-400, if_pos hfirst, by decide, by decide⟩
  by_cases hlast : res ≤ (p 20).temperatureR
  · exact ⟨600, by rw [adcBattemp, if_neg hfirst, if_pos hlast], by decide, by decide⟩
  obtain ⟨j, hj, hlow, hhigh⟩ := res_segment (show res < (p 0).temperatureR by omega) (by omega)
  have hbounds := adcValue_bounds ht hj hlow (Int.le_of_lt hhigh)
  have hT := ht.temp_bounds (show j ≤ 20 by omega)
  have hT' := ht.temp_bounds (show j + 1 ≤ 20 by omega)
  exact ⟨_, adcBattemp_segment ht hfits hj hlow (Int.le_of_lt hhigh), by omega, by omega⟩

theorem TempFits.adcFalls {res res' v v' : Int} (h : res ≤ res') (hv : adcBattemp p res = some v)
    (hv' : adcBattemp p res' = some v') : v' ≤ v := by
  obtain ⟨w, hw, hge, -⟩ := hfits.adc ht res
  obtain ⟨w', hw', -, hle⟩ := hfits.adc ht res'
  rw [hv, Option.some.injEq] at hw
  rw [hv', Option.some.injEq] at hw'
  by_cases hfirst : res' ≥ (p 0).temperatureR
  · rw [adcBattemp, if_pos hfirst, Option.some.injEq] at hv'
    omega
  by_cases hlast : res ≤ (p 20).temperatureR
  · rw [adcBattemp, if_neg (by omega), if_pos hlast, Option.some.injEq] at hv
    omega
  obtain ⟨j, hj, hlow, hhigh⟩ := res_segment (show res < (p 0).temperatureR by omega) (by omega)
  obtain ⟨j', hj', hlow', hhigh'⟩ :=
    res_segment (show res' < (p 0).temperatureR by omega) (by omega)
  rw [adcBattemp_segment ht hfits hj hlow (Int.le_of_lt hhigh), Option.some.injEq] at hv
  rw [adcBattemp_segment ht hfits hj' hlow' (Int.le_of_lt hhigh'), Option.some.injEq] at hv'
  rcases Nat.lt_trichotomy j' j with hlt | rfl | hlt
  · have hb := adcValue_bounds ht hj hlow (Int.le_of_lt hhigh)
    have hb' := adcValue_bounds ht hj' hlow' (Int.le_of_lt hhigh')
    have hT := ht.temp_le (show j' + 1 ≤ j by omega) (by omega)
    omega
  · have := adcValue_falls ht hj h
    omega
  · have := ht.res_le (show j + 1 ≤ j' by omega) (by omega)
    omega

theorem TempFits.converRange (temp : Int) :
    ∃ r, tempConverBattThermistor p temp = some r ∧ (p 20).temperatureR ≤ r ∧
      r ≤ (p 0).temperatureR := by
  have h020 := ht.res_le (Nat.zero_le 20) (Nat.le_refl _)
  have hR := ht.res_bounds (Nat.le_refl 20)
  have hR0 := ht.res_bounds (Nat.zero_le 20)
  by_cases hlast : temp ≥ (p 20).batteryTemp
  · exact ⟨_, if_pos hlast, by rw [u32_eq (by omega) (by omega)],
      by rw [u32_eq (by omega) (by omega)]; exact h020⟩
  by_cases hfirst : temp ≤ (p 0).batteryTemp
  · refine ⟨u32 (p 0).temperatureR, by rw [tempConverBattThermistor, if_neg hlast, if_pos hfirst],
      ?_, ?_⟩
    · rw [u32_eq (by omega) (by omega)]
      exact h020
    · rw [u32_eq (by omega) (by omega)]
  obtain ⟨j, hj, hlow, hhigh⟩ := temp_segment (show (p 0).batteryTemp < temp by omega) (by omega)
  have hb := converValue_bounds ht hj (Int.le_of_lt hlow) hhigh
  have h1 := ht.res_le (Nat.zero_le j) (by omega)
  have h2 := ht.res_le (show j + 1 ≤ 20 by omega) (Nat.le_refl _)
  exact ⟨_, tempConver_segment ht hfits hj (Int.le_of_lt hlow) hhigh, by omega, by omega⟩

theorem TempFits.converFalls {temp temp' r r' : Int} (h : temp ≤ temp')
    (hr : tempConverBattThermistor p temp = some r)
    (hr' : tempConverBattThermistor p temp' = some r') : r' ≤ r := by
  have hR := ht.res_bounds (Nat.le_refl 20)
  have hR0 := ht.res_bounds (Nat.zero_le 20)
  obtain ⟨w, hw, hge, -⟩ := hfits.converRange ht temp
  obtain ⟨w', hw', -, hle⟩ := hfits.converRange ht temp'
  rw [hr, Option.some.injEq] at hw
  rw [hr', Option.some.injEq] at hw'
  have h020 := ht.temp_lt (show 0 < 20 by decide) (Nat.le_refl _)
  by_cases hlast : temp' ≥ (p 20).batteryTemp
  · rw [tempConverBattThermistor, if_pos hlast, Option.some.injEq,
      u32_eq (by omega) (by omega)] at hr'
    omega
  by_cases hfirst : temp ≤ (p 0).batteryTemp
  · rw [tempConverBattThermistor, if_neg (by omega), if_pos hfirst, Option.some.injEq,
      u32_eq (by omega) (by omega)] at hr
    omega
  obtain ⟨j, hj, hlow, hhigh⟩ := temp_segment (show (p 0).batteryTemp < temp by omega) (by omega)
  obtain ⟨j', hj', hlow', hhigh'⟩ :=
    temp_segment (show (p 0).batteryTemp < temp' by omega) (by omega)
  rw [tempConver_segment ht hfits hj (Int.le_of_lt hlow) hhigh, Option.some.injEq] at hr
  rw [tempConver_segment ht hfits hj' (Int.le_of_lt hlow') hhigh', Option.some.injEq] at hr'
  rcases Nat.lt_trichotomy j j' with hlt | rfl | hlt
  · have hb := converValue_bounds ht hj (Int.le_of_lt hlow) hhigh
    have hb' := converValue_bounds ht hj' (Int.le_of_lt hlow') hhigh'
    have hT := ht.res_le (show j + 1 ≤ j' by omega) (by omega)
    omega
  · have := converValue_falls ht hj h
    omega
  · have := ht.temp_le (show j' + 1 ≤ j by omega) (by omega)
    omega

/-- **The conversions agree** if nothing wraps. -/
theorem TempFits.agrees : TempAgrees p where
  adc := hfits.adc ht
  adcFalls _ _ _ _ := hfits.adcFalls ht
  adcExact j hj := by
    cases j with
    | zero =>
      have hres := Int.le_of_lt (ht.res 0 (by decide))
      rw [adcBattemp_segment ht hfits (show 0 < 20 by decide) hres (Int.le_refl _),
        adcValue_low ht (by decide)]
    | succ j =>
      have hres := Int.le_of_lt (ht.res j (by omega))
      rw [adcBattemp_segment ht hfits (show j < 20 by omega) (Int.le_refl _) hres,
        adcValue_high ht (by omega)]
  conver := hfits.converRange ht
  converFalls _ _ _ _ := hfits.converFalls ht
  converExact j hj := by
    cases j with
    | zero =>
      have htemp := Int.le_of_lt (ht.temp 0 (by decide))
      rw [tempConver_segment ht hfits (show 0 < 20 by decide) (Int.le_refl _) htemp,
        converValue_low]
    | succ j =>
      have htemp := Int.le_of_lt (ht.temp j (by omega))
      rw [tempConver_segment ht hfits (show j < 20 by omega) htemp (Int.le_refl _),
        converValue_high ht (by omega)]
  segment j hj temp hlow hhigh := by
    have hb := converValue_bounds ht hj hlow hhigh
    exact ⟨_, _, tempConver_segment ht hfits hj hlow hhigh,
      adcBattemp_segment ht hfits hj hb.1 hb.2, adcValue_bounds ht hj hb.1 hb.2⟩

end

end Battery
