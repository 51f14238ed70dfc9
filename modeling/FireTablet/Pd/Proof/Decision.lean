import FireTablet.Pd.Charging
import Mathlib.Tactic.SplitIfs
import Mathlib.Data.List.Induction

/-!
# The choice of a capability

The indices for more and for less power are those of the next capabilities in the order of the
powers (`nextIdx_next`), and the choice between them compares powers that are stored in `unsigned
int`s. It is the choice over the integers where none of them is negative, which it is for a
capability whose current is below the margin, or whose power is below that of the system.
-/

namespace Pd

open CInt

/-! ## The next capability -/

section
variable (dt : Dt) (cap : PowerCap) (lt : Int → Int → Bool) (selected : Int)

/-- The power of a capability. -/
def PowerCap.watt (i : Int) : Int := (cap.entry i).maxwatt

/-- Of some indices, the one within the bounds whose power is the next beyond the selected one's,
or the selected index if none is beyond. -/
def NextOf (is : List Int) (idx : Int) : Prop :=
  (idx = selected ∧
    ∀ j ∈ is, InBounds dt (cap.entry j) → lt (cap.watt selected) (cap.watt j) = false) ∨
  idx ∈ is ∧ InBounds dt (cap.entry idx) ∧ lt (cap.watt selected) (cap.watt idx) = true ∧
    ∀ j ∈ is, InBounds dt (cap.entry j) → lt (cap.watt selected) (cap.watt j) = true →
      lt (cap.watt j) (cap.watt idx) = false

end

section
variable {dt : Dt} {cap : PowerCap} {lt : Int → Int → Bool} {selected : Int}
  (hirrefl : ∀ x, lt x x = false) (htrans : ∀ x y z, lt x y = true → lt y z = true → lt x z = true)
include hirrefl htrans

/-- One index more. -/
theorem NextOf.step {is : List Int} {idx : Int} (h : NextOf dt cap lt selected is idx) (i : Int) :
    NextOf dt cap lt selected (is ++ [i])
      (if ¬ InBounds dt (cap.entry i) then idx
      else if idx = selected then if lt (cap.watt idx) (cap.watt i) then i else idx
      else if lt (cap.watt i) (cap.watt idx) ∧ lt (cap.watt selected) (cap.watt i) then i
      else idx) := by
  -- an index that is no candidate leaves the choice as it is
  have hkeep (hno : InBounds dt (cap.entry i) → lt (cap.watt selected) (cap.watt i) = true →
      idx ≠ selected ∧ lt (cap.watt i) (cap.watt idx) = false) :
      NextOf dt cap lt selected (is ++ [i]) idx := by
    rcases h with ⟨rfl, hnone⟩ | ⟨hmem, hin, hlt, hmin⟩
    · refine .inl ⟨rfl, ?_⟩
      intro j hj hjin
      rcases List.mem_append.1 hj with hj | hj
      · exact hnone j hj hjin
      · rw [List.mem_singleton.1 hj] at hjin ⊢
        by_contra hlt
        exact (hno hjin (by simpa using hlt)).1 rfl
    · refine .inr ⟨List.mem_append_left _ hmem, hin, hlt, ?_⟩
      intro j hj hjin hjlt
      rcases List.mem_append.1 hj with hj | hj
      · exact hmin j hj hjin hjlt
      · rw [List.mem_singleton.1 hj] at hjin hjlt ⊢
        exact (hno hjin hjlt).2
  -- a candidate nearer than all before becomes the choice
  have htake (hin : InBounds dt (cap.entry i)) (hlt : lt (cap.watt selected) (cap.watt i) = true)
      (hmin : ∀ j ∈ is, InBounds dt (cap.entry j) → lt (cap.watt selected) (cap.watt j) = true →
        lt (cap.watt j) (cap.watt i) = false) : NextOf dt cap lt selected (is ++ [i]) i := by
    refine .inr ⟨List.mem_append_right _ (List.mem_singleton.2 rfl), hin, hlt, ?_⟩
    intro j hj hjin hjlt
    rcases List.mem_append.1 hj with hj | hj
    · exact hmin j hj hjin hjlt
    · rw [List.mem_singleton.1 hj]
      exact hirrefl _
  by_cases hin : InBounds dt (cap.entry i)
  · rw [if_neg (not_not.2 hin)]
    by_cases hsel : idx = selected
    · subst hsel
      rw [if_pos rfl]
      by_cases hlt : lt (cap.watt idx) (cap.watt i) = true
      · rw [if_pos hlt]
        rcases h with ⟨-, hnone⟩ | ⟨-, -, hbeyond, -⟩
        · refine htake hin hlt ?_
          intro j hj hjin hjlt
          cases (hnone j hj hjin).symm.trans hjlt
        · cases (hirrefl _).symm.trans hbeyond
      · rw [if_neg hlt]
        exact hkeep fun _ hlt' => absurd hlt' hlt
    · rw [if_neg hsel]
      by_cases hcmp : lt (cap.watt i) (cap.watt idx) = true ∧
          lt (cap.watt selected) (cap.watt i) = true
      · rw [if_pos hcmp]
        rcases h with ⟨h, -⟩ | ⟨-, -, -, hmin⟩
        · exact absurd h hsel
        · refine htake hin hcmp.2 ?_
          intro j hj hjin hjlt
          by_contra hji
          cases (hmin j hj hjin hjlt).symm.trans (htrans _ _ _ (by simpa using hji) hcmp.1)
      · rw [if_neg hcmp]
        refine hkeep fun _ hlt' => ⟨hsel, ?_⟩
        by_contra hlt
        exact hcmp ⟨by simpa using hlt, hlt'⟩
  · rw [if_pos hin]
    exact hkeep fun h _ => absurd h hin

/-- The whole loop. -/
theorem nextIdx_next : NextOf dt cap lt selected cap.indices (nextIdx dt cap lt selected) := by
  unfold nextIdx
  induction cap.indices using List.reverseRecOn with
  | nil => exact .inl ⟨rfl, by simp⟩
  | append_singleton is i ih =>
    rw [List.foldl_append]
    exact ih.step hirrefl htrans i

end

/-- A capability within the bounds of the voltage. -/
def PowerCap.Offers (cap : PowerCap) (dt : Dt) (i : Int) : Prop :=
  i ∈ cap.indices ∧ InBounds dt (cap.entry i)

/-- The index for more power is that of a capability with the smallest power above the selected
one's, the index for less power that of one with the largest power below it; each is the selected
index if there is no such capability. -/
theorem getIdx_nearest (dt : Dt) (d : Dev) (selected : Int) (h0 : 0 ≤ selected) :
    ((mtkPdcGetIdx dt d selected).pdBoostIdx = selected ∧
        (∀ j, d.cap.Offers dt j → d.cap.watt j ≤ d.cap.watt selected) ∨
      d.cap.Offers dt (mtkPdcGetIdx dt d selected).pdBoostIdx ∧
        d.cap.watt selected < d.cap.watt (mtkPdcGetIdx dt d selected).pdBoostIdx ∧
        ∀ j, d.cap.Offers dt j → d.cap.watt selected < d.cap.watt j →
          d.cap.watt (mtkPdcGetIdx dt d selected).pdBoostIdx ≤ d.cap.watt j) ∧
    ((mtkPdcGetIdx dt d selected).pdBuckIdx = selected ∧
        (∀ j, d.cap.Offers dt j → d.cap.watt selected ≤ d.cap.watt j) ∨
      d.cap.Offers dt (mtkPdcGetIdx dt d selected).pdBuckIdx ∧
        d.cap.watt (mtkPdcGetIdx dt d selected).pdBuckIdx < d.cap.watt selected ∧
        ∀ j, d.cap.Offers dt j → d.cap.watt j < d.cap.watt selected →
          d.cap.watt j ≤ d.cap.watt (mtkPdcGetIdx dt d selected).pdBuckIdx) := by
  rw [mtkPdcGetIdx, if_neg (by omega)]
  constructor
  · have h : NextOf dt d.cap (fun x y => x < y) selected d.cap.indices
        (nextIdx dt d.cap (fun x y => x < y) selected) := nextIdx_next (by simp) (by simp; omega)
    rcases h with ⟨h, hnone⟩ | ⟨hmem, hin, hlt, hmin⟩
    · refine .inl ⟨h, ?_⟩
      rintro j ⟨hj, hjin⟩
      have := hnone j hj hjin
      simpa using this
    · refine .inr ⟨⟨hmem, hin⟩, by simpa using hlt, ?_⟩
      rintro j ⟨hj, hjin⟩ hjlt
      have := hmin j hj hjin (by simpa using hjlt)
      simpa using this
  · have h : NextOf dt d.cap (fun x y => y < x) selected d.cap.indices
        (nextIdx dt d.cap (fun x y => y < x) selected) := nextIdx_next (by simp) (by simp; omega)
    rcases h with ⟨h, hnone⟩ | ⟨hmem, hin, hlt, hmin⟩
    · refine .inl ⟨h, ?_⟩
      rintro j ⟨hj, hjin⟩
      have := hnone j hj hjin
      simpa using this
    · refine .inr ⟨⟨hmem, hin⟩, by simpa using hlt, ?_⟩
      rintro j ⟨hj, hjin⟩ hjlt
      have := hmin j hj hjin (by simpa using hjlt)
      simpa using this

def plainDt : Dt := ⟨5000, 12000, 5000000, 14, 100000, 4600000, 80, 3000000, 3000000, 3200000,
  1500000, 1500000, false⟩

def plainCharger : Charger := ⟨0, 0, 0, true, true⟩

/-- The algorithm runs with the second capability of an adapter. -/
def plainDev (a : Adapter) (boost buck : Int) : Dev :=
  ⟨.run, 0, -1, 0, -1, 0, 0, 0, 0, a.powerCap 1, 18000000, 1, 0, boost, buck, plainCharger,
    plainCharger, some a⟩

/-- 5 V at 1 A, 9 V at 2 A, and two of 12 V. -/
def plainAdapter : Adapter :=
  ⟨[⟨5000, 5000, 1000, 5000000⟩, ⟨9000, 9000, 2000, 18000000⟩, ⟨12000, 12000, 3000, 36000000⟩,
    ⟨12000, 12000, 2000, 24000000⟩], none, by decide⟩

theorem getIdx_nearest_four :
    (mtkPdcGetIdx plainDt (plainDev plainAdapter 0 0) 1).pdBoostIdx = 3 ∧
      ∀ j, (plainAdapter.powerCap 1).Offers plainDt j →
        (plainAdapter.powerCap 1).watt 1 < (plainAdapter.powerCap 1).watt j →
        (plainAdapter.powerCap 1).watt 3 ≤ (plainAdapter.powerCap 1).watt j := by
  have h := (getIdx_nearest plainDt (plainDev plainAdapter 0 0) 1 (by decide)).1
  have hidx : (mtkPdcGetIdx plainDt (plainDev plainAdapter 0 0) 1).pdBoostIdx = 3 := by decide
  rw [hidx] at h
  rcases h with ⟨h, -⟩ | ⟨-, -, h⟩
  · cases h
  · exact ⟨hidx, h⟩

/-! ## The choice between them -/

/-- The share of a current that is taken to arrive. -/
def derated (dt : Dt) (ma : Int) : Int := ma.tdiv 100 * (100 - dt.ibusErr)

section
variable (dt : Dt) (d : Dev) (env : Env) (ibus : Int)

/-- The index of the selected capability. -/
def selectedIdx : Int := if pdCapMaxNr ≤ d.cap.selectedCapIdx then 0 else d.cap.selectedCapIdx

/-- The power in use, over the integers. -/
def nowWatt : Int := (d.cap.entry (selectedIdx d)).maxMv * ibus

/-- The power at which more is asked for. -/
def maxWatt : Int :=
  (d.cap.entry (selectedIdx d)).maxMv * (derated dt (d.cap.entry (selectedIdx d)).ma - 100)

/-- The product of the voltage and the current of the capability for less power. -/
def buckProduct : Int := (d.cap.entry d.pdBuckIdx).maxMv * (d.cap.entry d.pdBuckIdx).ma

/-- The power of that capability that is left beside the system. -/
def minWatt : Int := derated dt (buckProduct d) - dt.vsysWatt

/-- A charger holds the bus voltage. -/
def inMivr : Prop :=
  env.mivrState1 = true ∨ (dt.dualChargersInSeries && env.chip2 && env.mivrState2) = true

instance : Decidable (inMivr dt env) := inferInstanceAs (Decidable (_ ∨ _))

/-- The choice over the integers. -/
def exactIdx : Int :=
  if nowWatt d ibus ≥ maxWatt dt d ∨ inMivr dt env then d.pdBoostIdx
  else if nowWatt d ibus ≤ max 5000000 (minWatt dt d) then d.pdBuckIdx
  else selectedIdx d

/-- No power wraps: the three that are stored are in the range of an `unsigned int`, and the
product that is divided is in that of an `int`. -/
structure NoWrap : Prop where
  now : u32 (nowWatt d ibus) = nowWatt d ibus
  max : u32 (maxWatt dt d) = maxWatt dt d
  product : i32 (buckProduct d) = buckProduct d
  min : u32 (minWatt dt d) = minWatt dt d

/-- The capabilities are large enough for the margin and the system, and small enough for 32
bits. -/
structure PowersFit : Prop where
  now : 0 ≤ nowWatt d ibus ∧ nowWatt d ibus < 4294967296
  margin : 0 ≤ maxWatt dt d ∧ maxWatt dt d < 4294967296
  product : IsI32 (buckProduct d)
  system : dt.vsysWatt ≤ derated dt (buckProduct d) ∧
    derated dt (buckProduct d) - dt.vsysWatt < 4294967296

end

theorem u32_eq_iff (x : Int) : u32 x = x ↔ 0 ≤ x ∧ x < 4294967296 := by
  constructor
  · intro h
    unfold u32 at h
    omega
  · rintro ⟨h0, h⟩
    exact u32_eq h0 h

theorem noWrap_iff (dt : Dt) (d : Dev) (ibus : Int) : NoWrap dt d ibus ↔ PowersFit dt d ibus := by
  constructor
  · rintro ⟨h1, h2, h3, h4⟩
    have h4 := (u32_eq_iff _).1 h4
    unfold minWatt at h4
    exact ⟨(u32_eq_iff _).1 h1, (u32_eq_iff _).1 h2, h3 ▸ isI32_i32 _, by omega, by omega⟩
  · rintro ⟨h1, h2, h3, h4, h5⟩
    exact ⟨(u32_eq_iff _).2 h1, (u32_eq_iff _).2 h2, i32_eq h3, (u32_eq_iff _).2 (by
      unfold minWatt; omega)⟩

/-- The power that is left beside the system, as it is compared. -/
def clamped (watt : Int) : Int := if watt ≤ 5000000 then 5000000 else watt

/-- The index that is chosen with the powers as they are stored. -/
def storedIdx (dt : Dt) (d : Dev) (env : Env) (ibus : Int) : Int :=
  if u32 (nowWatt d ibus) ≥ u32 (maxWatt dt d) ∨ inMivr dt env then d.pdBoostIdx
  else if u32 (nowWatt d ibus) ≤ clamped (u32 (derated dt (i32 (buckProduct d)) - dt.vsysWatt)) then
    d.pdBuckIdx
  else selectedIdx d

theorem chooseIdx_eq (dt : Dt) (d : Dev) (env : Env) (ibus : Int) :
    chooseIdx dt d env ibus =
      (⟨(d.cap.entry (storedIdx dt d env ibus)).ma, storedIdx dt d env ibus⟩,
        [selectedIdx d, d.pdBuckIdx, storedIdx dt d env ibus]) := rfl

/-- The choice of the index is one over the integers. -/
theorem storedIdx_exact {dt : Dt} {d : Dev} {ibus : Int} (h : NoWrap dt d ibus) (env : Env) :
    storedIdx dt d env ibus = exactIdx dt d env ibus := by
  have hclamp : clamped (minWatt dt d) = max 5000000 (minWatt dt d) := by
    unfold clamped
    split_ifs <;> omega
  have hmin : u32 (derated dt (buckProduct d) - dt.vsysWatt) = minWatt dt d := h.min
  rw [storedIdx, exactIdx, h.now, h.max, h.product, hmin, hclamp]

/-! ## The whole step -/

/-- A charger holds the bus voltage, and it has dropped further, over the integers. -/
def exactDropped (mivrState : Bool) (vbus mivr : Int) : Prop :=
  mivrState = true ∧ vbus < mivr / 1000 - 500

instance (mivrState : Bool) (vbus mivr : Int) : Decidable (exactDropped mivrState vbus mivr) :=
  inferInstanceAs (Decidable (_ ∧ _))

/-- The comparison for a charger that holds the voltage does not wrap. -/
def HoldsFit (mivrState : Bool) (vbus mivr : Int) : Prop :=
  mivrState = true → (0 ≤ vbus ∧ vbus < 4294967296) ∧
    500 ≤ mivr / 1000 ∧ mivr / 1000 < 4294967796

theorem dropped_iff {mivrState : Bool} {vbus mivr : Int} (h : HoldsFit mivrState vbus mivr) :
    dropped mivrState vbus mivr ↔ exactDropped mivrState vbus mivr := by
  unfold dropped exactDropped
  constructor
  · rintro ⟨hs, hlt⟩
    obtain ⟨⟨h1, h2⟩, h3, h4⟩ := h hs
    rw [u32_eq h1 h2, u32_eq (by omega) (by omega)] at hlt
    exact ⟨hs, hlt⟩
  · rintro ⟨hs, hlt⟩
    obtain ⟨⟨h1, h2⟩, h3, h4⟩ := h hs
    refine ⟨hs, ?_⟩
    rw [u32_eq h1 h2, u32_eq (by omega) (by omega)]
    exact hlt

section
variable (dt : Dt) (d : Dev) (env : Env)

/-- The table and what is remembered of it, when the decision is made. -/
def prepared : Dev := mtkPdcGetCapMaxWatt dt (mtkPdcGetResetIdx dt (mtkPdcInitTable d env))

/-- The current in mA. -/
def ibusMa (ibus : Int) : Int := if ibus.tdiv 1000 = 0 then 1000 else ibus.tdiv 1000

/-- The chargers that are looked at have dropped, over the integers. -/
def exactReset : Prop :=
  exactDropped env.mivrState1 env.vbus env.mivr1 ∨ (dt.dualChargersInSeries = true ∧
    env.chip2 = true ∧ exactDropped env.mivrState2 env.vbus env.mivr2)

instance : Decidable (exactReset dt env) := inferInstanceAs (Decidable (_ ∨ _))

/-- `__mtk_pdc_get_setting` as it would be over the integers. -/
def exactGetSetting : (Option Setting × Dev) × List Int :=
  let p := prepared dt d env
  if p.cap.nr = 0 then ((none, p), [])
  else
    match env.ibus with
    | none => ((none, p), [])
    | some ibus =>
      if exactReset dt env then
        let r := mtkPdcReset dt p env
        ((some ⟨(r.1.cap.entry r.1.pdResetIdx).ma, r.1.pdResetIdx⟩, r.1), r.2 ++ [r.1.pdResetIdx])
      else
        let idx := exactIdx dt p env (ibusMa ibus)
        ((some ⟨(p.cap.entry idx).ma, idx⟩, p), [selectedIdx p, p.pdBuckIdx, idx])

/-- No value that the step computes on the way to its decision wraps. -/
def NoneWraps : Prop :=
  (prepared dt d env).cap.nr = 0 ∨ env.ibus = none ∨ ∃ ibus, env.ibus = some ibus ∧
    (env.mivrState1 = true → u32 env.vbus = env.vbus ∧
      u32 (env.mivr1 / 1000 - 500) = env.mivr1 / 1000 - 500) ∧
    (dropped env.mivrState1 env.vbus env.mivr1 ∨
      (dt.dualChargersInSeries = true → env.chip2 = true → env.mivrState2 = true →
        u32 env.vbus = env.vbus ∧ u32 (env.mivr2 / 1000 - 500) = env.mivr2 / 1000 - 500) ∧
      ((dt.dualChargersInSeries = true ∧ env.chip2 = true ∧
          dropped env.mivrState2 env.vbus env.mivr2) ∨
        NoWrap dt (prepared dt d env) (ibusMa ibus)))

/-- What the adapter, the chargers and the bus must be like. -/
def Fits : Prop :=
  (prepared dt d env).cap.nr = 0 ∨ env.ibus = none ∨ ∃ ibus, env.ibus = some ibus ∧
    HoldsFit env.mivrState1 env.vbus env.mivr1 ∧
    (exactDropped env.mivrState1 env.vbus env.mivr1 ∨
      (dt.dualChargersInSeries = true → env.chip2 = true →
        HoldsFit env.mivrState2 env.vbus env.mivr2) ∧
      ((dt.dualChargersInSeries = true ∧ env.chip2 = true ∧
          exactDropped env.mivrState2 env.vbus env.mivr2) ∨
        PowersFit dt (prepared dt d env) (ibusMa ibus)))

end

theorem holdsFit_iff (mivrState : Bool) (vbus mivr : Int) :
    HoldsFit mivrState vbus mivr ↔ (mivrState = true → u32 vbus = vbus ∧
      u32 (mivr / 1000 - 500) = mivr / 1000 - 500) := by
  unfold HoldsFit
  constructor
  · intro h hs
    obtain ⟨h1, h2, h3⟩ := h hs
    exact ⟨(u32_eq_iff _).2 h1, (u32_eq_iff _).2 (by omega)⟩
  · intro h hs
    obtain ⟨h1, h2⟩ := h hs
    have := (u32_eq_iff _).1 h2
    exact ⟨(u32_eq_iff _).1 h1, by omega, by omega⟩

section
variable (dt : Dt) (d : Dev) (env : Env)

/-- In short, `prepared` and `ibusMa` are what the step begins with. -/
theorem mtkPdcGetSetting_eq : mtkPdcGetSetting dt d env =
    if (prepared dt d env).cap.nr = 0 then ((none, prepared dt d env), [])
    else
      match env.ibus with
      | none => ((none, prepared dt d env), [])
      | some ibus =>
        if dropped env.mivrState1 env.vbus env.mivr1 ∨ (dt.dualChargersInSeries = true ∧
            env.chip2 = true ∧ dropped env.mivrState2 env.vbus env.mivr2) then
          let r := mtkPdcReset dt (prepared dt d env) env
          ((some ⟨(r.1.cap.entry r.1.pdResetIdx).ma, r.1.pdResetIdx⟩, r.1),
            r.2 ++ [r.1.pdResetIdx])
        else
          let r := chooseIdx dt (prepared dt d env) env (ibusMa ibus)
          ((some r.1, prepared dt d env), r.2) := rfl

theorem noneWraps_iff : NoneWraps dt d env ↔ Fits dt d env := by
  unfold NoneWraps Fits
  refine or_congr_right (or_congr_right (exists_congr fun ibus => and_congr_right fun _ => ?_))
  rw [← holdsFit_iff]
  refine and_congr_right fun h1 => or_congr (dropped_iff h1) ?_
  have hall : (dt.dualChargersInSeries = true → env.chip2 = true → env.mivrState2 = true →
        u32 env.vbus = env.vbus ∧ u32 (env.mivr2 / 1000 - 500) = env.mivr2 / 1000 - 500) ↔
      (dt.dualChargersInSeries = true → env.chip2 = true →
        HoldsFit env.mivrState2 env.vbus env.mivr2) := by
    rw [holdsFit_iff]
  rw [hall]
  refine and_congr_right fun h2 => or_congr ?_ (noWrap_iff _ _ _)
  exact and_congr_right fun hd => and_congr_right fun hc => dropped_iff (h2 hd hc)

theorem getSetting_exact (h : NoneWraps dt d env) :
    mtkPdcGetSetting dt d env = exactGetSetting dt d env := by
  rw [mtkPdcGetSetting_eq]
  unfold exactGetSetting
  by_cases hnr : (prepared dt d env).cap.nr = 0
  · rw [if_pos hnr, if_pos hnr]
  rw [if_neg hnr, if_neg hnr]
  rcases h with h | h | ⟨ibus, hibus, hfit1, h⟩
  · exact absurd h hnr
  · rw [h]
  rw [hibus]
  have hfit1 := (holdsFit_iff _ _ _).2 hfit1
  simp only
  rcases h with h | ⟨hfit2, h⟩
  · rw [if_pos (.inl h), if_pos (.inl ((dropped_iff hfit1).1 h))]
  have hiff : (dropped env.mivrState1 env.vbus env.mivr1 ∨ (dt.dualChargersInSeries = true ∧
      env.chip2 = true ∧ dropped env.mivrState2 env.vbus env.mivr2)) ↔ exactReset dt env :=
    or_congr (dropped_iff hfit1) (and_congr_right fun hd => and_congr_right fun hc =>
      dropped_iff ((holdsFit_iff _ _ _).2 (hfit2 hd hc)))
  by_cases hreset : exactReset dt env
  · rw [if_pos (hiff.2 hreset), if_pos hreset]
  · rw [if_neg (mt hiff.1 hreset), if_neg hreset]
    rcases h with h | h
    · exact absurd (hiff.1 (.inr h)) hreset
    · rw [chooseIdx_eq, storedIdx_exact h]

/-- The step decides as over the integers, without a wrap, when what it reads fits. -/
theorem getSetting_exact_iff :
    (mtkPdcGetSetting dt d env = exactGetSetting dt d env ∧ NoneWraps dt d env) ↔
      Fits dt d env := by
  rw [← noneWraps_iff]
  constructor
  · intro h
    exact h.2
  · intro h
    exact ⟨getSetting_exact dt d env h, h⟩

end

/-- 1 A is drawn from the second capability, and no charger holds the voltage. -/
def plainEnv : Env where
  pdReady := some true
  selected := 1
  uisoc := 50
  ibus := some 1000000
  vbus := 9000
  mivrState1 := false
  mivrState2 := false
  mivr1 := 4600000
  mivr2 := 4600000
  chip2 := false
  enabled2 := false
  ichg2 := 0
  minChargingCurrent1 := -1
  minChargingCurrent2 := -1
  minInputCurrent1 := -1
  resetProbe := ⟨0, 0, false, 0, 0, 0⟩
  probe := ⟨0, 0, false, 0, 0, 0⟩

/-- The first capability has less than what the system takes: the choice falls back to its 5 W with
9 W in use. -/
theorem small_buck :
    (mtkPdcGetSetting plainDt (plainDev plainAdapter 3 0) plainEnv).1.1 = some ⟨1000, 0⟩ ∧
    (exactGetSetting plainDt (plainDev plainAdapter 3 0) plainEnv).1.1 = some ⟨2000, 1⟩ ∧
    ¬ (mtkPdcGetSetting plainDt (plainDev plainAdapter 3 0) plainEnv =
        exactGetSetting plainDt (plainDev plainAdapter 3 0) plainEnv ∧
      NoneWraps plainDt (plainDev plainAdapter 3 0) plainEnv) := by
  have hcode : (mtkPdcGetSetting plainDt (plainDev plainAdapter 3 0) plainEnv).1.1 =
      some ⟨1000, 0⟩ := by decide
  have hexact : (exactGetSetting plainDt (plainDev plainAdapter 3 0) plainEnv).1.1 =
      some ⟨2000, 1⟩ := by decide
  refine ⟨hcode, hexact, ?_⟩
  rintro ⟨heq, -⟩
  rw [heq, hexact] at hcode
  cases hcode

end Pd
