import FireTablet.Thermal.PowerSplit

/-!
# What a power budget pays for

The levels chosen for two clusters never cost more than the budget. A larger budget chooses no
lower level as long as what it leaves above the two smallest powers is an `int`; from there on the
clusters get their smallest powers only. With one cluster a positive budget is kept unless the
share of a CPU rounds to 0, which stands for no limit (`thermal_power_kept_iff`).
-/

namespace Thermal.PowerSplit

open CInt

namespace VsCpufreqCdev

variable (c : VsCpufreqCdev)

/-- The powers ascend with the levels. -/
def Ascending : Prop := c.table.Pairwise (fun a b => a.power ≤ b.power)

instance : Decidable c.Ascending := inferInstanceAs (Decidable (List.Pairwise _ _))

/-- With its limit at frequency `f`, `cpus` CPUs draw the power `w`. -/
def Draws (cpus f w : Nat) : Prop := ∃ l ≤ c.maxLevel, f = c.frequency l ∧ w = c.power l * cpus

/-- The smallest and the largest power of all of the CPUs. -/
def minPower : Nat := c.power 0 * c.relatedCpus

def maxPower : Nat := c.power c.maxLevel * c.relatedCpus

/-- The power `w` pays for a level that costs more than the lowest. -/
def Raises (w : Nat) : Prop :=
  ∃ l ≤ c.maxLevel, c.power 0 < c.power l ∧ c.power l * c.relatedCpus ≤ w

/-! ## The table -/

variable {c}

theorem entry {i : Nat} (hi : i ≤ c.maxLevel) :
    ∃ e ∈ c.table, c.table[i]? = some e ∧ c.frequency i = e.frequency ∧ c.power i = e.power := by
  have hlt : i < c.table.length := Nat.lt_of_le_of_lt hi c.maxLevel_lt
  refine ⟨c.table[i], List.getElem_mem hlt, List.getElem?_eq_getElem hlt, ?_, ?_⟩
  · simp [frequency, List.getElem?_eq_getElem hlt]
  · simp [power, List.getElem?_eq_getElem hlt]

theorem frequency_lt_of_lt {i j : Nat} (hij : i < j) (hj : j ≤ c.maxLevel) :
    c.frequency i < c.frequency j := by
  have hj' : j < c.table.length := Nat.lt_of_le_of_lt hj c.maxLevel_lt
  have hi' : i < c.table.length := Nat.lt_trans hij hj'
  have h := List.pairwise_iff_getElem.1 c.frequency_asc i j hi' hj' hij
  simpa [frequency, List.getElem?_eq_getElem hi', List.getElem?_eq_getElem hj'] using h

theorem frequency_mono {i j : Nat} (hij : i ≤ j) (hj : j ≤ c.maxLevel) :
    c.frequency i ≤ c.frequency j := by
  rcases Nat.lt_or_eq_of_le hij with h | h
  · exact Nat.le_of_lt (frequency_lt_of_lt h hj)
  · exact Nat.le_of_eq (congrArg c.frequency h)

/-- A frequency is that of one level only. -/
theorem frequency_inj {i j : Nat} (hi : i ≤ c.maxLevel) (hj : j ≤ c.maxLevel)
    (h : c.frequency i = c.frequency j) : i = j := by
  rcases Nat.lt_trichotomy i j with hlt | heq | hgt
  · exact absurd h (Nat.ne_of_lt (frequency_lt_of_lt hlt hj))
  · exact heq
  · exact absurd h.symm (Nat.ne_of_lt (frequency_lt_of_lt hgt hi))

theorem frequency_mod {i : Nat} (hi : i ≤ c.maxLevel) :
    c.frequency i % 4294967296 = c.frequency i := by
  obtain ⟨e, he, -, hf, -⟩ := entry hi
  rw [hf]
  exact Nat.mod_eq_of_lt (c.frequency_lt e he)

theorem power_bounds {i : Nat} (hi : i ≤ c.maxLevel) : 0 < c.power i ∧ c.power i ≤ 65535 := by
  obtain ⟨e, he, -, -, hp⟩ := entry hi
  rw [hp]
  exact c.power_fits e he

theorem power_mono (hasc : c.Ascending) {i j : Nat} (hij : i ≤ j) (hj : j ≤ c.maxLevel) :
    c.power i ≤ c.power j := by
  rcases Nat.lt_or_eq_of_le hij with hlt | heq
  · have hj' : j < c.table.length := Nat.lt_of_le_of_lt hj c.maxLevel_lt
    have hi' : i < c.table.length := Nat.lt_trans hlt hj'
    have h := List.pairwise_iff_getElem.1 hasc i j hi' hj' hlt
    simpa [power, List.getElem?_eq_getElem hi', List.getElem?_eq_getElem hj'] using h
  · exact Nat.le_of_eq (congrArg c.power heq)

theorem total_lt {i : Nat} (hi : i ≤ c.maxLevel) : c.power i * c.relatedCpus < 536870912 := by
  have h1 := Nat.mul_le_mul (power_bounds hi).2 c.cpus_fit.2
  omega

theorem minPower_pos : 0 < c.minPower :=
  Nat.mul_pos (power_bounds (Nat.zero_le _)).1 c.cpus_fit.1

theorem minPower_le_maxPower (hasc : c.Ascending) : c.minPower ≤ c.maxPower :=
  Nat.mul_le_mul_right _ (power_mono hasc (Nat.zero_le _) (Nat.le_refl _))

theorem maxPower_lt : c.maxPower < 536870912 := total_lt (Nat.le_refl _)

theorem minPower_lt : c.minPower < 536870912 := total_lt (Nat.zero_le _)

theorem getCpuClusterMaxPower_eq : c.getCpuClusterMaxPower = c.maxPower := by
  have h := maxPower_lt (c := c)
  unfold maxPower at h
  unfold getCpuClusterMaxPower maxPower
  rw [i32_eq (by unfold IsI32; omega)]
  simp

theorem getCpuClusterMinPower_eq : c.getCpuClusterMinPower = c.minPower := by
  have h := minPower_lt (c := c)
  unfold minPower at h
  unfold getCpuClusterMinPower minPower
  rw [i32_eq (by unfold IsI32; omega)]
  simp

/-! ## The search -/

theorem levelFrom_le (p n : Nat) : c.levelFrom p n ≤ n := by
  induction n with
  | zero => exact Nat.le_refl _
  | succ i ih =>
    unfold levelFrom
    split
    · exact Nat.le_refl _
    · exact Nat.le_succ_of_le ih

/-- The level found is paid for, unless it is the lowest. -/
theorem levelFrom_paid (p n : Nat) :
    c.levelFrom p n = 0 ∨ c.power (c.levelFrom p n) ≤ p := by
  induction n with
  | zero => exact .inl rfl
  | succ i ih =>
    unfold levelFrom
    split
    · rename_i hle
      exact .inr hle
    · exact ih

/-- No level above the one found is paid for. -/
theorem le_levelFrom {p n j : Nat} (hj : j ≤ n) (hp : c.power j ≤ p) : j ≤ c.levelFrom p n := by
  induction n with
  | zero => exact hj
  | succ i ih =>
    unfold levelFrom
    split
    · exact hj
    · rename_i hnot
      rcases Nat.lt_or_eq_of_le hj with hlt | heq
      · exact ih (Nat.le_of_lt_succ hlt)
      · exact absurd (heq ▸ hp) hnot

theorem levelFrom_mono {p q : Nat} (hpq : p ≤ q) (n : Nat) :
    c.levelFrom p n ≤ c.levelFrom q n := by
  rcases levelFrom_paid (c := c) p n with h | h
  · rw [h]
    exact Nat.zero_le _
  · exact le_levelFrom (levelFrom_le p n) (Nat.le_trans h hpq)

/-! ## The level of a share -/

/-- The level chosen when all of the CPUs share the power `w`. -/
def levelOf (c : VsCpufreqCdev) (w : Nat) : Nat := c.levelFrom (w / c.relatedCpus) c.maxLevel

theorem levelOf_le (w : Nat) : c.levelOf w ≤ c.maxLevel := levelFrom_le _ _

theorem vsCpuPowerToFreq_eq (w : Nat) :
    c.vsCpuPowerToFreq (w / c.relatedCpus) = c.frequency (c.levelOf w) :=
  frequency_mod (levelOf_le w)

theorem levelOf_paid (w : Nat) :
    c.levelOf w = 0 ∨ c.power (c.levelOf w) * c.relatedCpus ≤ w := by
  rcases levelFrom_paid (c := c) (w / c.relatedCpus) c.maxLevel with h | h
  · exact .inl h
  · exact .inr (Nat.le_trans (Nat.mul_le_mul_right _ h) (Nat.div_mul_le_self _ _))

/-- A share of at least the smallest power pays for its level. -/
theorem levelOf_cost_le {w : Nat} (hw : c.minPower ≤ w) :
    c.power (c.levelOf w) * c.relatedCpus ≤ w := by
  rcases levelOf_paid (c := c) w with h | h
  · rw [h]
    exact hw
  · exact h

theorem le_levelOf {w l : Nat} (hl : l ≤ c.maxLevel) (hw : c.power l * c.relatedCpus ≤ w) :
    l ≤ c.levelOf w :=
  le_levelFrom hl ((Nat.le_div_iff_mul_le c.cpus_fit.1).2 hw)

theorem levelOf_mono {v w : Nat} (h : v ≤ w) : c.levelOf v ≤ c.levelOf w :=
  levelFrom_mono (Nat.div_le_div_right h) _

theorem frequency_levelOf_mono {v w : Nat} (h : v ≤ w) :
    c.frequency (c.levelOf v) ≤ c.frequency (c.levelOf w) :=
  frequency_mono (levelOf_mono h) (levelOf_le w)

theorem draws_levelOf (cpus w : Nat) :
    c.Draws cpus (c.frequency (c.levelOf w)) (c.power (c.levelOf w) * cpus) :=
  ⟨c.levelOf w, levelOf_le w, rfl, rfl⟩

/-- The smallest power chooses no lower a frequency than a share does if and only if the share pays
for no level that costs more. -/
theorem frequency_le_min_iff (hasc : c.Ascending) (w : Nat) :
    c.frequency (c.levelOf w) ≤ c.frequency (c.levelOf c.minPower) ↔ ¬ c.Raises w := by
  constructor
  · rintro hle ⟨l, hl, hlt, hw⟩
    have h1 : l ≤ c.levelOf w := le_levelOf hl hw
    have h2 : c.frequency l ≤ c.frequency (c.levelOf c.minPower) :=
      Nat.le_trans (frequency_mono h1 (levelOf_le w)) hle
    have h3 : l ≤ c.levelOf c.minPower := by
      apply Nat.le_of_not_lt
      intro h
      exact absurd (frequency_lt_of_lt h hl) (Nat.not_lt.2 h2)
    have h4 : c.power (c.levelOf c.minPower) ≤ c.power 0 :=
      Nat.le_of_mul_le_mul_right (levelOf_cost_le (Nat.le_refl _)) c.cpus_fit.1
    have h5 := power_mono hasc h3 (levelOf_le _)
    omega
  · intro hnot
    rcases levelOf_paid (c := c) w with h | h
    · rw [h]
      exact frequency_mono (Nat.zero_le _) (levelOf_le _)
    · refine frequency_mono (le_levelOf (levelOf_le w) ?_) (levelOf_le _)
      apply Nat.mul_le_mul_right
      apply Nat.le_of_not_lt
      intro hlt
      exact hnot ⟨c.levelOf w, levelOf_le w, hlt, h⟩

end VsCpufreqCdev

/-! ## The split -/

section
variable (little large : VsCpufreqCdev)

/-- The budget from which on the rest of it is no `int`. -/
def splitLimit : Nat := little.minPower + large.minPower + 2147483648

/-- What the budget `b` leaves to the first cluster, and what to the second. -/
def shares (b : Nat) : Nat × Nat :=
  if b < splitLimit little large then
    (min (b - large.minPower) little.maxPower, max large.minPower (b - little.maxPower))
  else (little.minPower, large.minPower)

variable {little large} {b : Nat}

theorem cpuBudget_eq (hasc : little.Ascending) (hb : little.minPower + large.minPower ≤ b)
    (hlt : b < 4294967296) :
    cpuBudget little large b =
      (((shares little large b).1 : Int), ((shares little large b).2 : Int)) := by
  have h1 := VsCpufreqCdev.minPower_lt (c := large)
  have h2 := VsCpufreqCdev.maxPower_lt (c := little)
  have h3 := VsCpufreqCdev.minPower_le_maxPower hasc
  unfold cpuBudget shares splitLimit
  simp only [VsCpufreqCdev.getCpuClusterMaxPower_eq, VsCpufreqCdev.getCpuClusterMinPower_eq]
  generalize little.minPower = p0, large.minPower = p1, little.maxPower = m0 at *
  unfold u32 i32
  by_cases hlow : b < p0 + p1 + 2147483648
  · rw [if_pos hlow]
    split
    · split
      · simp only [Prod.mk.injEq]
        omega
      · simp only [Prod.mk.injEq]
        omega
    · simp only [Prod.mk.injEq]
      omega
  · rw [if_neg hlow, if_neg (by omega)]
    simp only [Prod.mk.injEq]
    omega

theorem shares_bounds (hb : little.minPower + large.minPower ≤ b) (hasc : little.Ascending) :
    little.minPower ≤ (shares little large b).1 ∧ large.minPower ≤ (shares little large b).2 ∧
      (shares little large b).1 + (shares little large b).2 ≤ b := by
  have h := VsCpufreqCdev.minPower_le_maxPower hasc
  unfold shares
  split <;> simp only <;> omega

theorem shares_mono {b' : Nat} (h : b ≤ b') (hlt : b' < splitLimit little large) :
    (shares little large b).1 ≤ (shares little large b').1 ∧
      (shares little large b).2 ≤ (shares little large b').2 := by
  unfold shares
  rw [if_pos (Nat.lt_of_le_of_lt h hlt), if_pos hlt]
  simp only
  omega

theorem shares_of_le (h : splitLimit little large ≤ b) :
    shares little large b = (little.minPower, large.minPower) :=
  if_neg (Nat.not_lt.2 h)

/-! ## Two clusters -/

variable {s fresh : Cdevs} (hs : s.init fresh = ⟨some little, some large⟩)
include hs

theorem setCpufreqThermalPower_of_shares (h0 : ¬ (b : Int) = 0) {v w : Nat}
    (hshares : cpuBudget little large b = ((v : Int), (w : Int))) :
    setCpufreqThermalPower s fresh b = some (⟨some little, some large⟩, 0,
      little.frequency (little.levelOf v), large.frequency (large.levelOf w)) := by
  unfold setCpufreqThermalPower
  rw [hs]
  dsimp only
  rw [if_neg h0, hshares]
  dsimp only [Int.toNat_natCast]
  rw [VsCpufreqCdev.vsCpuPowerToFreq_eq, VsCpufreqCdev.vsCpuPowerToFreq_eq]

theorem setCpufreqThermalPower_eq (hasc : little.Ascending)
    (hb : little.minPower + large.minPower ≤ b) (hlt : b < 4294967296) :
    setCpufreqThermalPower s fresh b = some (⟨some little, some large⟩, 0,
      little.frequency (little.levelOf (shares little large b).1),
      large.frequency (large.levelOf (shares little large b).2)) := by
  have hpos := VsCpufreqCdev.minPower_pos (c := little)
  have hpos' : 0 < b := Nat.lt_of_lt_of_le hpos (Nat.le_trans (Nat.le_add_right _ _) hb)
  exact setCpufreqThermalPower_of_shares hs (Int.natCast_ne_zero.2 (Nat.ne_of_gt hpos'))
    (cpuBudget_eq hasc hb hlt)

/-- The levels chosen cost no more than the budget. -/
theorem setCpufreqThermalPower_cost_le (hasc : little.Ascending)
    (hb : little.minPower + large.minPower ≤ b) (hlt : b < 4294967296) :
    ∃ f g v w, setCpufreqThermalPower s fresh b = some (⟨some little, some large⟩, 0, f, g) ∧
      little.Draws little.relatedCpus f v ∧ large.Draws large.relatedCpus g w ∧ v + w ≤ b := by
  obtain ⟨h1, h2, hsum⟩ := shares_bounds hb hasc
  have hv := VsCpufreqCdev.levelOf_cost_le h1
  have hw := VsCpufreqCdev.levelOf_cost_le h2
  exact ⟨_, _, _, _, setCpufreqThermalPower_eq hs hasc hb hlt,
    VsCpufreqCdev.draws_levelOf _ _, VsCpufreqCdev.draws_levelOf _ _, by omega⟩

end

/-- A larger budget requests no lower a frequency from either cluster. -/
def NoLower (s fresh : Cdevs) (b b' : Nat) : Prop :=
  ∃ d d' f f' g g', setCpufreqThermalPower s fresh b = some (d, 0, f, g) ∧
    setCpufreqThermalPower s fresh b' = some (d', 0, f', g') ∧ f ≤ f' ∧ g ≤ g'

section
variable {little large : VsCpufreqCdev} {s fresh : Cdevs} {b b' : Nat}

theorem noLower_iff_shares (hs : s.init fresh = ⟨some little, some large⟩)
    (hasc : little.Ascending) (hb : little.minPower + large.minPower ≤ b) (hle : b ≤ b')
    (hlt : b' < 4294967296) :
    NoLower s fresh b b' ↔
      little.frequency (little.levelOf (shares little large b).1) ≤
        little.frequency (little.levelOf (shares little large b').1) ∧
      large.frequency (large.levelOf (shares little large b).2) ≤
        large.frequency (large.levelOf (shares little large b').2) := by
  have h := setCpufreqThermalPower_eq hs hasc hb (by omega)
  have h' := setCpufreqThermalPower_eq hs hasc (Nat.le_trans hb hle) hlt
  constructor
  · rintro ⟨d, d', f, f', g, g', hd, hd', hf, hg⟩
    rw [h] at hd
    rw [h'] at hd'
    cases hd
    cases hd'
    exact ⟨hf, hg⟩
  · intro hfg
    exact ⟨_, _, _, _, _, _, h, h', hfg⟩

/-- What the budget `b` leaves to a cluster pays for a level that costs more than the lowest. -/
theorem raises_shares (hlt : b < splitLimit little large) (hasc : little.Ascending) :
    (little.Raises (shares little large b).1 ↔ little.Raises (b - large.minPower)) ∧
      (large.Raises (shares little large b).2 ↔ large.Raises (b - little.maxPower)) := by
  have hmin := VsCpufreqCdev.minPower_le_maxPower hasc
  unfold shares
  rw [if_pos hlt]
  constructor
  · refine exists_congr fun l => and_congr_right fun hl => and_congr_right fun _ => ?_
    have hmax : little.power l * little.relatedCpus ≤ little.maxPower :=
      Nat.mul_le_mul_right _ (VsCpufreqCdev.power_mono hasc hl (Nat.le_refl _))
    simp only
    omega
  · refine exists_congr fun l => and_congr_right fun hl => and_congr_right fun hpow => ?_
    have hgt : large.minPower < large.power l * large.relatedCpus :=
      Nat.mul_lt_mul_of_pos_right hpow large.cpus_fit.1
    simp only
    omega

theorem noLower_iff (hs : s.init fresh = ⟨some little, some large⟩) (hasc : little.Ascending)
    (hasc' : large.Ascending) (hb : little.minPower + large.minPower ≤ b) (hle : b ≤ b')
    (hlt : b' < 4294967296) :
    NoLower s fresh b b' ↔ b' < splitLimit little large ∨ splitLimit little large ≤ b ∨
      ¬ little.Raises (b - large.minPower) ∧ ¬ large.Raises (b - little.maxPower) := by
  rw [noLower_iff_shares hs hasc hb hle hlt]
  by_cases hlow : b' < splitLimit little large
  · obtain ⟨h1, h2⟩ := shares_mono hle hlow
    simp only [hlow, true_or, iff_true]
    exact ⟨VsCpufreqCdev.frequency_levelOf_mono h1, VsCpufreqCdev.frequency_levelOf_mono h2⟩
  · have hhigh : shares little large b' = (little.minPower, large.minPower) :=
      shares_of_le (Nat.not_lt.1 hlow)
    by_cases hhigh' : splitLimit little large ≤ b
    · rw [hhigh, shares_of_le hhigh']
      simp [hhigh']
    · obtain ⟨r1, r2⟩ := raises_shares (Nat.not_le.1 hhigh') hasc
      rw [hhigh, VsCpufreqCdev.frequency_le_min_iff hasc, VsCpufreqCdev.frequency_le_min_iff hasc',
        r1, r2]
      simp [hlow, hhigh']

end

/-! ## One cluster -/

namespace Single

/-- The frequency requested lets the `online` CPUs draw no more than the budget, or it is the lowest
and no level does. -/
def Kept (cdev : Option VsCpufreqCdev) (fresh : Int × Option VsCpufreqCdev) (online b : Nat) :
    Prop :=
  ∃ c ret f, setCpufreqThermalPower cdev fresh b = (some c, ret, some f) ∧
    ((∃ w, c.Draws online f w ∧ w ≤ b) ∨
      f = c.frequency 0 ∧ ∀ l ≤ c.maxLevel, b < c.power l * online)

variable {c : VsCpufreqCdev} {cdev : Option VsCpufreqCdev} {fresh : Int × Option VsCpufreqCdev}

/-- A share of a CPU that rounds to 0 requests the highest frequency. -/
theorem vsCpuPowerToFreq_eq (b : Nat) :
    vsCpuPowerToFreq c (b / c.relatedCpus) =
      c.frequency (if b < c.relatedCpus then c.maxLevel else c.levelOf b) := by
  unfold vsCpuPowerToFreq
  by_cases hlt : b < c.relatedCpus
  · rw [if_pos (Nat.div_eq_of_lt hlt), if_pos hlt]
    exact VsCpufreqCdev.frequency_mod (Nat.le_refl _)
  · have hne : b / c.relatedCpus ≠ 0 :=
      Nat.ne_of_gt (Nat.div_pos (Nat.not_lt.1 hlt) c.cpus_fit.1)
    rw [if_neg hne, if_neg hlt]
    exact VsCpufreqCdev.frequency_mod (VsCpufreqCdev.levelOf_le b)

/-- A frequency is within the budget if and only if its level is. -/
theorem draws_le_iff {l online b : Nat} (hl : l ≤ c.maxLevel) :
    (∃ w, c.Draws online (c.frequency l) w ∧ w ≤ b) ↔ c.power l * online ≤ b := by
  constructor
  · rintro ⟨w, ⟨k, hk, hf, rfl⟩, hw⟩
    rw [VsCpufreqCdev.frequency_inj hl hk hf]
    exact hw
  · intro hw
    exact ⟨_, ⟨l, hl, rfl, rfl⟩, hw⟩

theorem kept_iff_level (hinit : (init cdev fresh).2 = some c) (online b : Nat) :
    Kept cdev fresh online b ↔
      c.power (if b < c.relatedCpus then c.maxLevel else c.levelOf b) * online ≤ b ∨
        (if b < c.relatedCpus then c.maxLevel else c.levelOf b) = 0 ∧
          ∀ l ≤ c.maxLevel, b < c.power l * online := by
  have hle : (if b < c.relatedCpus then c.maxLevel else c.levelOf b) ≤ c.maxLevel := by
    split
    · exact Nat.le_refl _
    · exact VsCpufreqCdev.levelOf_le b
  have hset : setCpufreqThermalPower cdev fresh b = (some c, (init cdev fresh).1,
      some (c.frequency (if b < c.relatedCpus then c.maxLevel else c.levelOf b))) := by
    unfold setCpufreqThermalPower
    rw [show init cdev fresh = ((init cdev fresh).1, some c) from Prod.ext rfl hinit]
    dsimp only
    rw [vsCpuPowerToFreq_eq]
  generalize (if b < c.relatedCpus then c.maxLevel else c.levelOf b) = level at hle hset ⊢
  constructor
  · rintro ⟨d, ret, f, hd, hf⟩
    rw [hset] at hd
    cases hd
    rcases hf with hw | ⟨hf, hnone⟩
    · exact .inl ((draws_le_iff hle).1 hw)
    · exact .inr ⟨VsCpufreqCdev.frequency_inj hle (Nat.zero_le _) hf, hnone⟩
  · intro h
    refine ⟨c, _, _, hset, ?_⟩
    rcases h with hw | ⟨h0, hnone⟩
    · exact .inl ((draws_le_iff hle).2 hw)
    · exact .inr ⟨by rw [h0], hnone⟩

/-- With a power for each CPU the level chosen is paid for, or no level is. -/
theorem levelOf_kept (hasc : c.Ascending) {online : Nat} (honline : online ≤ c.relatedCpus)
    (b : Nat) : c.power (c.levelOf b) * online ≤ b ∨
      c.levelOf b = 0 ∧ ∀ l ≤ c.maxLevel, b < c.power l * online := by
  by_cases hle : c.power (c.levelOf b) * online ≤ b
  · exact .inl hle
  · refine .inr ?_
    rcases VsCpufreqCdev.levelOf_paid (c := c) b with h0 | hpaid
    · refine ⟨h0, fun l hl => ?_⟩
      rw [h0] at hle
      exact Nat.lt_of_lt_of_le (Nat.not_le.1 hle)
        (Nat.mul_le_mul_right _ (VsCpufreqCdev.power_mono hasc (Nat.zero_le _) hl))
    · exact absurd (Nat.le_trans (Nat.mul_le_mul_left _ honline) hpaid) hle

theorem kept_iff (hasc : c.Ascending) (hinit : (init cdev fresh).2 = some c) {online b : Nat}
    (honline : online ≤ c.relatedCpus) :
    Kept cdev fresh online b ↔
      c.relatedCpus ≤ b ∨ c.maxLevel = 0 ∨ c.power c.maxLevel * online ≤ b := by
  rw [kept_iff_level hinit]
  by_cases hlt : b < c.relatedCpus
  · rw [if_pos hlt]
    constructor
    · rintro (hw | ⟨h0, -⟩)
      · exact .inr (.inr hw)
      · exact .inr (.inl h0)
    · rintro (hge | h0 | hw)
      · exact absurd hlt (Nat.not_lt.2 hge)
      · have h := levelOf_kept hasc honline b
        have hlevel : c.levelOf b = 0 := Nat.le_zero.1 (h0 ▸ VsCpufreqCdev.levelOf_le b)
        rw [hlevel] at h
        rw [h0] at h ⊢
        exact h
      · exact .inl hw
  · rw [if_neg hlt]
    simp only [Nat.not_lt.1 hlt, true_or, iff_true]
    exact levelOf_kept hasc honline b

end Single

/-! ## The limit on the power -/

/-- Two clusters never cost more than the budget, and a larger budget lowers a frequency exactly
where the rest of it is no `int` while the smaller one paid for more than the lowest level. With one
cluster the budget is kept exactly if it has a unit of power for each CPU, or the highest level is
the only one or within the budget. -/
theorem thermal_power_kept_iff {little large c : VsCpufreqCdev} (hlittle : little.Ascending)
    (hlarge : large.Ascending) (hc : c.Ascending) :
    (∀ s fresh, s.init fresh = ⟨some little, some large⟩ →
      (∀ b : Nat, little.minPower + large.minPower ≤ b → b < 4294967296 →
        ∃ f g v w, setCpufreqThermalPower s fresh b = some (⟨some little, some large⟩, 0, f, g) ∧
          little.Draws little.relatedCpus f v ∧ large.Draws large.relatedCpus g w ∧ v + w ≤ b) ∧
      (∀ b b' : Nat, little.minPower + large.minPower ≤ b → b ≤ b' → b' < 4294967296 →
        (NoLower s fresh b b' ↔ b' < splitLimit little large ∨ splitLimit little large ≤ b ∨
          ¬ little.Raises (b - large.minPower) ∧ ¬ large.Raises (b - little.maxPower)))) ∧
    (∀ cdev fresh online b, (Single.init cdev fresh).2 = some c → 0 < online →
      online ≤ c.relatedCpus → 0 < b → b < 4294967296 →
        (Single.Kept cdev fresh online b ↔
          c.relatedCpus ≤ b ∨ c.maxLevel = 0 ∨ c.power c.maxLevel * online ≤ b)) := by
  refine ⟨fun s fresh hs => ⟨fun b hb hlt => ?_, fun b b' hb hle hlt => ?_⟩,
    fun cdev fresh online b hinit _ honline _ _ => ?_⟩
  · exact setCpufreqThermalPower_cost_le hs hlittle hb hlt
  · exact noLower_iff hs hlittle hlarge hb hle hlt
  · exact Single.kept_iff hc hinit honline

/-- Six small CPUs and two large ones. -/
def sixLittle : VsCpufreqCdev where
  maxLevel := 1
  table := [⟨500000, 50⟩, ⟨2000000, 200⟩]
  relatedCpus := 6
  maxLevel_lt := by decide
  frequency_asc := by decide
  frequency_lt := by decide
  power_fits := by decide
  cpus_fit := by decide

def twoLarge : VsCpufreqCdev where
  maxLevel := 1
  table := [⟨725000, 100⟩, ⟨2200000, 900⟩]
  relatedCpus := 2
  maxLevel_lt := by decide
  frequency_asc := by decide
  frequency_lt := by decide
  power_fits := by decide
  cpus_fit := by decide

theorem thermal_power_kept_six_two :
    NoLower ⟨some sixLittle, some twoLarge⟩ ⟨none, none⟩ 600 3000 ∧
      Single.Kept (some sixLittle) (0, none) 6 900 := by
  have h := thermal_power_kept_iff (show sixLittle.Ascending by decide)
    (show twoLarge.Ascending by decide) (show sixLittle.Ascending by decide)
  refine ⟨?_, ?_⟩
  · refine ((h.1 ⟨some sixLittle, some twoLarge⟩ ⟨none, none⟩ rfl).2 600 3000 ?_ ?_ ?_).2 (.inl ?_)
    all_goals decide
  · refine (h.2 (some sixLittle) (0, none) 6 900 rfl ?_ ?_ ?_ ?_).2 (.inl ?_)
    all_goals decide

/-- A budget of 5 for six CPUs requests the highest frequency. -/
theorem small_budget_unlimited :
    0 < 5 ∧ ¬ Single.Kept (some sixLittle) (0, none) 6 5 := by
  refine ⟨by decide, ?_⟩
  rintro ⟨c, ret, f, hset, hkept⟩
  cases (show Single.setCpufreqThermalPower (some sixLittle) (0, none) 5 =
    (some sixLittle, 0, some 2000000) from rfl).symm.trans hset
  rcases hkept with ⟨w, ⟨l, hl, hf, rfl⟩, hw⟩ | ⟨hf, -⟩
  · have hl' : l = 0 ∨ l = 1 := by
      have : sixLittle.maxLevel = 1 := rfl
      omega
    rcases hl' with rfl | rfl
    · exact absurd hf (by decide)
    · exact absurd hw (by decide)
  · exact absurd hf (by decide)

end Thermal.PowerSplit
