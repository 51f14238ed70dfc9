import FireTablet.Lbat.Service
import Mathlib.Tactic.Ring

/-!
# The two conversions of a threshold

The hardware compares a reading with `VOLT_TO_RAW` of a threshold, the debounce compares
`lbat_read_volt` of the reading with the threshold. Both round down, and the divisor of the first is
itself rounded down. They agree on all readings just when the threshold is a whole number of
hardware steps (`conversions_agree`): at a reading that is only the threshold's number of steps
rounded down, the hardware sees an event and the debounce ignores it.
-/

namespace Lbat

/-- Both conversions are made without overflow or a division by zero, and the debounce ignores
neither a high nor a low event that the hardware sees. -/
structure Agrees (r : Ratio) (volt adc : Nat) : Prop where
  volt_fits : volt * 2 ^ 12 < 2 ^ 32
  scale_fits : voltFull * r.1 < 2 ^ 32
  adc_fits : adc * voltFull * r.1 < 2 ^ 32
  ratio_ne : r.2 ≠ 0
  scale_ne : fullScale r ≠ 0
  high : voltToRawWhole r volt ≤ adc → volt ≤ lbatReadVolt r adc
  low : adc ≤ voltToRawWhole r volt → lbatReadVolt r adc ≤ volt

/-- The ratio scales every reading within 32 bits, and the threshold is above full scale or a whole
number of steps, as exact as the rounded scale is. -/
structure WholeSteps (r : Ratio) (volt : Nat) : Prop where
  ratio_pos : 0 < r.2
  ratio_le : r.2 ≤ voltFull * r.1
  ratio_lt : r.1 ≤ 582
  steps : voltFull * r.1 / r.2 ≤ volt ∨
    ∃ n, volt * 2 ^ 12 * r.2 ≤ n * (voltFull * r.1) ∧ n * (voltFull * r.1 / r.2) ≤ volt * 2 ^ 12

variable {r : Ratio} {volt adc : Nat}

theorem fullScale_eq (h : voltFull * r.1 < 2 ^ 32) : fullScale r = voltFull * r.1 / r.2 := by
  rw [fullScale, Nat.mod_eq_of_lt h]

theorem voltToRawWhole_eq (hv : volt * 2 ^ 12 < 2 ^ 32) (h : voltFull * r.1 < 2 ^ 32) :
    voltToRawWhole r volt = volt * 2 ^ 12 / (voltFull * r.1 / r.2) := by
  rw [voltToRawWhole, fullScale_eq h, Nat.mod_eq_of_lt hv]

theorem lbatReadVolt_eq (hadc : adc < 2 ^ 12) (h : adc * voltFull * r.1 < 2 ^ 32) :
    lbatReadVolt r adc = adc * (voltFull * r.1) / r.2 / 2 ^ 12 := by
  rw [lbatReadVolt, Nat.mod_eq_of_lt hadc, Nat.mod_eq_of_lt h, Nat.mul_assoc]

/-- The voltage of a reading is at least a threshold. -/
theorem le_readVolt_iff (hr : 0 < r.2) (hadc : adc < 2 ^ 12) (h : adc * voltFull * r.1 < 2 ^ 32) :
    volt ≤ lbatReadVolt r adc ↔ volt * 2 ^ 12 * r.2 ≤ adc * (voltFull * r.1) := by
  rw [lbatReadVolt_eq hadc h, Nat.le_div_iff_mul_le (Nat.two_pow_pos 12), Nat.le_div_iff_mul_le hr]

/-- The voltage of a reading is at most a threshold. -/
theorem readVolt_le_iff (hr : 0 < r.2) (hadc : adc < 2 ^ 12) (h : adc * voltFull * r.1 < 2 ^ 32) :
    lbatReadVolt r adc ≤ volt ↔ adc * (voltFull * r.1) < (volt + 1) * 2 ^ 12 * r.2 := by
  rw [← Nat.lt_succ_iff, lbatReadVolt_eq hadc h, Nat.div_lt_iff_lt_mul (Nat.two_pow_pos 12),
    Nat.div_lt_iff_lt_mul hr]

/-- A reading at or below the steps of a threshold has no larger voltage: what the rounded scale
loses is less than one millivolt over all readings. -/
theorem readVolt_le_of_le {scale : Nat} (hr : 0 < r.2) (hadc : adc < 2 ^ 12)
    (hscale : scale = voltFull * r.1 / r.2) (hle : adc * scale ≤ volt * 2 ^ 12) :
    adc * (voltFull * r.1) < (volt + 1) * 2 ^ 12 * r.2 := by
  have hlt : voltFull * r.1 < (scale + 1) * r.2 := by
    rw [hscale]
    exact (Nat.div_lt_iff_lt_mul hr).1 (Nat.lt_add_one _)
  calc adc * (voltFull * r.1) ≤ adc * ((scale + 1) * r.2) := Nat.mul_le_mul_left _ (Nat.le_of_lt hlt)
    _ = (adc * scale + adc) * r.2 := by ring
    _ < (volt * 2 ^ 12 + 2 ^ 12) * r.2 := Nat.mul_lt_mul_of_pos_right (by omega) hr
    _ = (volt + 1) * 2 ^ 12 * r.2 := by ring

theorem agrees_of_wholeSteps (thd : Thd) (h : WholeSteps r thd.volt) (hadc : adc < 2 ^ 12) :
    Agrees r thd.volt adc := by
  have hvolt : thd.volt * 2 ^ 12 < 2 ^ 32 := by
    have := thd.lt
    simp only [thdVoltMax] at this
    omega
  have hscale : voltFull * r.1 < 2 ^ 32 := by
    have := h.ratio_lt
    simp only [voltFull]
    omega
  have hfits : adc * voltFull * r.1 < 2 ^ 32 := by
    have h1 : adc * voltFull ≤ 4095 * 1800 := Nat.mul_le_mul_right 1800 (by omega)
    have := Nat.mul_le_mul h1 h.ratio_lt
    omega
  have hpos : 0 < voltFull * r.1 / r.2 := Nat.div_pos h.ratio_le h.ratio_pos
  refine ⟨hvolt, hscale, hfits, Nat.ne_of_gt h.ratio_pos, ?_, fun hge => ?_, fun hle => ?_⟩
  · rw [fullScale_eq hscale]
    exact Nat.ne_of_gt hpos
  · rw [voltToRawWhole_eq hvolt hscale] at hge
    rw [le_readVolt_iff h.ratio_pos hadc hfits]
    obtain hfull | ⟨n, hn, hn'⟩ := h.steps
    · -- no reading reaches a threshold above full scale
      have : 2 ^ 12 ≤ thd.volt * 2 ^ 12 / (voltFull * r.1 / r.2) := by
        rw [Nat.le_div_iff_mul_le hpos, Nat.mul_comm]
        exact Nat.mul_le_mul_right _ hfull
      omega
    · have hle : n ≤ adc := Nat.le_trans ((Nat.le_div_iff_mul_le hpos).2 hn') hge
      exact Nat.le_trans hn (Nat.mul_le_mul_right _ hle)
  · rw [voltToRawWhole_eq hvolt hscale, Nat.le_div_iff_mul_le hpos] at hle
    rw [readVolt_le_iff h.ratio_pos hadc hfits]
    exact readVolt_le_of_le h.ratio_pos hadc rfl hle

theorem wholeSteps_of_agrees (h : ∀ adc < 2 ^ 12, Agrees r volt adc) : WholeSteps r volt := by
  obtain ⟨hvolt, hscale, -, hratio, hne, -, -⟩ := h 0 (by decide)
  have hr : 0 < r.2 := Nat.pos_of_ne_zero hratio
  rw [fullScale_eq hscale] at hne
  have hpos : 0 < voltFull * r.1 / r.2 := Nat.pos_of_ne_zero hne
  refine ⟨hr, ?_, ?_, ?_⟩
  · exact Nat.le_of_not_lt fun hlt => hne (Nat.div_eq_of_lt hlt)
  · have := (h 4095 (by decide)).adc_fits
    simp only [voltFull] at this
    omega
  · by_cases hfull : voltFull * r.1 / r.2 ≤ volt
    · exact .inl hfull
    · -- the number of steps rounded down is a reading
      have hlt : voltToRawWhole r volt < 2 ^ 12 := by
        rw [voltToRawWhole_eq hvolt hscale, Nat.div_lt_iff_lt_mul hpos, Nat.mul_comm]
        exact Nat.mul_lt_mul_of_pos_left (Nat.lt_of_not_le hfull) (Nat.two_pow_pos 12)
      have ha := h _ hlt
      have hhigh := (le_readVolt_iff hr hlt ha.adc_fits).1 (ha.high (Nat.le_refl _))
      refine .inr ⟨_, hhigh, ?_⟩
      rw [voltToRawWhole_eq hvolt hscale]
      exact Nat.div_mul_le_self ..

/-- **Agreement.** The hardware and the debounce agree on all readings for a threshold exactly when
it is a whole number of steps. -/
theorem conversions_agree (r : Ratio) (thd : Thd) :
    (∀ adc < 2 ^ 12, Agrees r thd.volt adc) ↔ WholeSteps r thd.volt :=
  ⟨wholeSteps_of_agrees, fun h _ => agrees_of_wholeSteps thd h⟩

/-- With the default ratio, the hardware sees 3000 mV from the reading 1950 on, which the debounce
takes for 2999 mV. -/
theorem conversions_disagree :
    voltToRawWhole (7, 2) 3000 = 1950 ∧ lbatReadVolt (7, 2) 1950 = 2999 ∧
      ¬ Agrees (7, 2) 3000 1950 :=
  ⟨by decide +kernel, by decide +kernel, fun h => absurd (h.high (by decide +kernel))
    (by decide +kernel)⟩

end Lbat
