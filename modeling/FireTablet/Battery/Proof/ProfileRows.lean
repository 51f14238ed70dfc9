import FireTablet.Battery.Profile
import Mathlib.Algebra.Order.Group.Unbundled.Int

/-!
# The rows between two profiles

The values that are filled in lie between those of the two neighbours while the product in
`interpolation` does not wrap. At the upper neighbour it is largest, so values that are right up to
there are interpolated without a wrap (`fillRows_spec`).
-/

namespace Battery

open CInt

/-! ## The offset from the lower neighbour -/

/-- What `interpolation` adds for a difference `e` of the values, at `t` of `D` degrees. -/
def offset (D e t : Int) : Int := (i32 (i32 e * i32 t)).tdiv (i32 D)

/-- Values `lo` and `hi` at a difference of `D` degrees are interpolated without a product that
wraps. -/
def Exact (D lo hi : Int) : Prop :=
  D = 1 ∨ lo = hi ∨
    IsI32 D ∧ (IsI32 ((hi - lo) * D) ∨ hi - lo = 4294967295 ∨ lo - hi = 4294967295)

/-- An offset that is `x` in 32 bits, between none and all of the difference. -/
structure Offset (D e t x : Int) : Prop where
  eq : u32 (offset D e t) = u32 x
  lower : min 0 e ≤ x
  upper : x ≤ max 0 e
  first : t = 0 → x = 0
  last : t = D → x = e

theorem u32_i32 (x : Int) : u32 (i32 x) = u32 x := by
  unfold u32 i32; omega

theorem i32_ne_zero {x : Int} (h0 : 0 < x) (h : x < 4294967296) : i32 x ≠ 0 := by
  unfold i32; omega

/-- Part of a difference is between none and all of it. -/
theorem tdiv_part {D e t : Int} (hD : 0 < D) (ht : 0 ≤ t) (htD : t ≤ D) :
    min 0 e ≤ (e * t).tdiv D ∧ (e * t).tdiv D ≤ max 0 e := by
  have hpos : ∀ e' : Int, 0 ≤ e' → 0 ≤ (e' * t).tdiv D ∧ (e' * t).tdiv D ≤ e' := fun e' he => by
    have h0 := Int.mul_nonneg he ht
    have hle : e' * t ≤ e' * D := Int.mul_le_mul_of_nonneg_left htD he
    rw [Int.tdiv_eq_ediv_of_nonneg h0]
    exact ⟨Int.ediv_nonneg h0 (Int.le_of_lt hD),
      (Int.ediv_le_ediv hD hle).trans (Int.le_of_eq (Int.mul_ediv_cancel _ (by omega)))⟩
  rcases Int.le_total 0 e with he | he
  · have := hpos e he
    omega
  · have := hpos (-e) (by omega)
    rw [Int.neg_mul, Int.neg_tdiv] at this
    omega

theorem offset_spec {D lo hi t : Int} (hD : 0 < D) (hD' : D < 4294967296) (ht : 0 ≤ t)
    (htD : t ≤ D) (h : Exact D lo hi) : ∃ x, Offset D (hi - lo) t x := by
  obtain rfl | rfl | ⟨hi32, hfit | he | he⟩ := h
  · obtain rfl | rfl : t = 0 ∨ t = 1 := by omega
    · exact ⟨0, by simp [offset, i32], by omega, by omega, fun _ => rfl, by omega⟩
    · refine ⟨hi - lo, ?_, by omega, by omega, by omega, fun _ => rfl⟩
      rw [offset, i32_eq (show IsI32 1 by decide), Int.mul_one, i32_i32, Int.tdiv_one, u32_i32]
  · exact ⟨0, by simp [offset, i32], by omega, by omega, fun _ => rfl, by omega⟩
  · -- nothing wraps
    have hfits : ∀ {s : Int}, 0 ≤ s → s ≤ D → IsI32 ((hi - lo) * s) := fun {s} hs hsD => by
      unfold IsI32 at hfit ⊢
      rcases Int.le_total 0 (hi - lo) with he | he
      · have := Int.mul_le_mul_of_nonneg_left hsD he
        have := Int.mul_nonneg he hs
        omega
      · have := Int.mul_le_mul_of_nonpos_left he hsD
        have := Int.mul_nonpos_of_nonpos_of_nonneg he hs
        omega
    have he : IsI32 (hi - lo) := by simpa using hfits (s := 1) (by omega) (by omega)
    have ht32 : IsI32 t := by unfold IsI32 at hi32 ⊢; omega
    have hpart := tdiv_part (e := hi - lo) hD ht htD
    refine ⟨((hi - lo) * t).tdiv D, ?_, hpart.1, hpart.2, fun h0 => by simp [h0], fun h0 => ?_⟩
    · rw [offset, i32_eq he, i32_eq ht32, i32_eq (hfits ht htD), i32_eq hi32]
    · rw [h0, Int.mul_tdiv_cancel _ (by omega)]
  all_goals
    have ht32 : IsI32 t := by unfold IsI32 at hi32 ⊢; omega
    have ht32' : IsI32 (-t) := by unfold IsI32 at hi32 ⊢; omega
  · -- the difference is -1 as an `int`
    have hoff : offset D (hi - lo) t = -t.tdiv D := by
      rw [offset, he, show i32 4294967295 = -1 from rfl, i32_eq ht32, Int.neg_one_mul,
        i32_eq ht32', i32_eq hi32, Int.neg_tdiv]
    rw [he] at hoff ⊢
    by_cases hlt : t < D
    · refine ⟨0, ?_, by omega, by omega, fun _ => rfl, by omega⟩
      rw [hoff, Int.tdiv_eq_zero_of_lt ht hlt, Int.neg_zero]
    · obtain rfl : t = D := by omega
      refine ⟨4294967295, ?_, by omega, by omega, by omega, fun _ => rfl⟩
      rw [hoff, Int.tdiv_self (by omega)]
      rfl
  · -- the difference is 1 as an `int`
    have he' : hi - lo = -4294967295 := by omega
    have hoff : offset D (hi - lo) t = t.tdiv D := by
      rw [offset, he', show i32 (-4294967295) = 1 from rfl, i32_eq ht32, Int.one_mul,
        i32_eq ht32, i32_eq hi32]
    rw [he'] at hoff ⊢
    by_cases hlt : t < D
    · refine ⟨0, ?_, by omega, by omega, fun _ => rfl, by omega⟩
      rw [hoff, Int.tdiv_eq_zero_of_lt ht hlt]
    · obtain rfl : t = D := by omega
      refine ⟨-4294967295, ?_, by omega, by omega, by omega, fun _ => rfl⟩
      rw [hoff, Int.tdiv_self (by omega)]
      rfl

/-- What `x` leaves over in a division is too small to be a wrap. -/
theorem wrap_of_tdiv {D d x : Int} (hD : 0 < D) (hD32 : IsI32 D)
    (h : (i32 x).tdiv D = d) (hx : x = d * D) : IsI32 x := by
  have hdiv := Int.mul_tdiv_add_tmod (i32 x) D
  have hmod := Int.tmod_lt_of_pos (i32 x) hD
  have hmod' := Int.lt_tmod_of_pos (i32 x) hD
  rw [h, Int.mul_comm, ← hx] at hdiv
  unfold IsI32 i32 at *
  omega

/-- If what is added takes a value to the other one at `D` degrees, nothing wraps there. -/
theorem exact_of_offset {D lo hi : Int} (hD : 1 < D) (hD32 : IsI32 D)
    (hlast : u32 (offset D (hi - lo) D + lo) = hi) : IsI32 (i32 (hi - lo) * D) := by
  have hd := isI32_i32 (hi - lo)
  have hoff : offset D (hi - lo) D = (i32 (i32 (hi - lo) * D)).tdiv D := by
    rw [offset, i32_eq hD32]
  -- the quotient is half of an `int` at most, so it is the difference as an `int`
  have hw := isI32_i32 (i32 (hi - lo) * D)
  have hdiv := Int.mul_tdiv_add_tmod (i32 (i32 (hi - lo) * D)) D
  have hmod := Int.tmod_lt_of_pos (i32 (i32 (hi - lo) * D)) (show 0 < D by omega)
  have hmod' := Int.lt_tmod_of_pos (i32 (i32 (hi - lo) * D)) (show 0 < D by omega)
  refine wrap_of_tdiv (d := i32 (hi - lo)) (by omega) hD32 ?_ rfl
  rw [← hoff] at hdiv ⊢
  have hle : -2147483648 < offset D (hi - lo) D ∧ offset D (hi - lo) D < 2147483648 := by
    unfold IsI32 at hw
    constructor
    · by_contra hlt
      have := Int.mul_le_mul_of_nonneg_left (show offset D (hi - lo) D ≤ -2147483648 by omega)
        (show 0 ≤ D by omega)
      omega
    · by_contra hlt
      have := Int.mul_le_mul_of_nonneg_left (show 2147483648 ≤ offset D (hi - lo) D by omega)
        (show 0 ≤ D by omega)
      omega
  unfold u32 at hlast
  unfold i32
  omega

/-- A part of an `int` difference of at least two degrees is less than all of it and not none. -/
theorem tdiv_last {D d : Int} (hD : 1 < D) (hd : 1 < d) :
    0 < (d * (D - 1)).tdiv D ∧ (d * (D - 1)).tdiv D < d := by
  have hmul : d * (D - 1) = d * D - d := by rw [Int.mul_sub, Int.mul_one]
  have h2 : 2 * D ≤ d * D := Int.mul_le_mul_of_nonneg_right (by omega) (by omega)
  have h3 : d * 2 ≤ d * D := Int.mul_le_mul_of_nonneg_left (by omega) (by omega)
  rw [Int.tdiv_eq_ediv_of_nonneg (by omega)]
  refine ⟨?_, Int.ediv_lt_of_lt_mul (by omega) (by omega)⟩
  have := Int.le_ediv_of_mul_le (a := 1) (b := d * (D - 1)) (c := D) (by omega) ?_
  · omega
  · rw [hmul, Int.one_mul]
    have : (d - 2) * 2 ≤ (d - 2) * D := Int.mul_le_mul_of_nonneg_left (by omega) (by omega)
    rw [Int.sub_mul] at this
    omega

/-- **Values that are interpolated right** up to the other end are interpolated without a wrap. -/
theorem exact_of_between {D lo hi : Int} (hD : 0 < D) (hD32 : IsI32 D) (hlo : 0 ≤ lo)
    (hlo' : lo < 4294967296) (hhi : 0 ≤ hi) (hhi' : hi < 4294967296)
    (hmid : ∀ t, 0 < t → t ≤ D → min lo hi ≤ u32 (offset D (hi - lo) t + lo) ∧
      u32 (offset D (hi - lo) t + lo) ≤ max lo hi)
    (hlast : u32 (offset D (hi - lo) D + lo) = hi) : Exact D lo hi := by
  by_cases hD1 : D = 1
  · exact .inl hD1
  have hfit := exact_of_offset (by omega) hD32 hlast
  by_cases he : IsI32 (hi - lo)
  · exact .inr (.inr ⟨hD32, .inl (by rwa [i32_eq he] at hfit)⟩)
  refine .inr (.inr ⟨hD32, .inr ?_⟩)
  by_contra hne
  have hm := hmid (D - 1) (by omega) (by omega)
  have hD32' : i32 (D - 1) = D - 1 := i32_eq (by unfold IsI32 at hD32 ⊢; omega)
  have hmul : i32 (hi - lo) * (D - 1) = i32 (hi - lo) * D - i32 (hi - lo) := by
    rw [Int.mul_sub, Int.mul_one]
  rw [offset, hD32', i32_eq hD32] at hm
  -- one degree before the end, a difference that wraps leads away from the other value
  rcases Int.le_total 0 (hi - lo) with hpos | hneg
  · have hd : i32 (hi - lo) = hi - lo - 4294967296 := by unfold IsI32 at he; unfold i32; omega
    have hpart := tdiv_last (d := -i32 (hi - lo)) (D := D) (by omega) (by omega)
    have hfit' : IsI32 (i32 (hi - lo) * (D - 1)) := by
      have : i32 (hi - lo) * (D - 1) ≤ 0 :=
        Int.mul_nonpos_of_nonpos_of_nonneg (by omega) (by omega)
      unfold IsI32 at hfit ⊢
      omega
    rw [i32_eq hfit'] at hm
    rw [Int.neg_mul, Int.neg_tdiv] at hpart
    unfold u32 at hm
    omega
  · have hd : i32 (hi - lo) = hi - lo + 4294967296 := by unfold IsI32 at he; unfold i32; omega
    have hpart := tdiv_last (d := i32 (hi - lo)) (D := D) (by omega) (by omega)
    have hfit' : IsI32 (i32 (hi - lo) * (D - 1)) := by
      have := Int.mul_nonneg (show 0 ≤ i32 (hi - lo) by omega) (show 0 ≤ D - 1 by omega)
      unfold IsI32 at hfit ⊢
      omega
    rw [i32_eq hfit'] at hm
    unfold u32 at hm
    omega

/-- Values that differ by less than 65536 fit less than 32768 degrees. -/
theorem exact_of_close {D lo hi : Int} (hD : 0 < D) (hD' : D < 32768) (hlo : 0 ≤ lo)
    (hlo' : lo < 65536) (hhi : 0 ≤ hi) (hhi' : hi < 65536) : Exact D lo hi := by
  have h1 : (hi - lo) * D ≤ 65535 * D := Int.mul_le_mul_of_nonneg_right (by omega) (by omega)
  have h2 : -65535 * D ≤ (hi - lo) * D := Int.mul_le_mul_of_nonneg_right (by omega) (by omega)
  refine .inr (.inr ⟨?_, .inl ?_⟩) <;> unfold IsI32 <;> omega

/-! ## Rows -/

/-- A column that is interpolated, with the number of its values. -/
structure Column where
  get : Row → Int
  modulus : Int

def columns : List Column :=
  [⟨fun r => r.mah, 4294967296⟩, ⟨fun r => r.voltage, 65536⟩, ⟨fun r => r.resistance, 65536⟩,
    ⟨fun r => r.resistance2, 65536⟩]

/-- The values of a row lie between those of two others. -/
def Between (low high row : Row) : Prop := ∀ c ∈ columns,
  min (c.get low) (c.get high) ≤ c.get row ∧ c.get row ≤ max (c.get low) (c.get high)

/-- The values of two rows are the same. -/
def Same (row row' : Row) : Prop := ∀ c ∈ columns, c.get row' = c.get row

/-- The values of two rows at a difference of `D` degrees are interpolated without a wrap. -/
def ExactRow (D : Int) (low high : Row) : Prop := ∀ c ∈ columns, Exact D (c.get low) (c.get high)

theorem Between.comm {l h r : Row} (hb : Between l h r) : Between h l r := fun c hc => by
  have := hb c hc
  omega

theorem Same.between_left {l h r : Row} (hs : Same l r) : Between l h r := fun c hc => by
  have := hs c hc
  omega

theorem Same.between_right {l h r : Row} (hs : Same h r) : Between l h r :=
  (Same.between_left hs).comm

theorem Same.of_both {p r r' : Row} (h : Same p r) (h' : Same p r') : Same r r' := fun c hc =>
  (h' c hc).trans (h c hc).symm

theorem column_facts : ∀ c ∈ columns, (c.modulus = 4294967296 ∨ c.modulus = 65536) ∧
    ∀ r, 0 ≤ c.get r ∧ c.get r < c.modulus := by
  intro c hc
  simp only [columns, List.mem_cons, List.not_mem_nil, or_false] at hc
  rcases hc with rfl | rfl | rfl | rfl <;> refine ⟨by simp, fun r => ?_⟩
  · exact ⟨Int.natCast_nonneg _, Int.ofNat_lt.2 r.mah.isLt⟩
  · exact ⟨Int.natCast_nonneg _, Int.ofNat_lt.2 r.voltage.isLt⟩
  · exact ⟨Int.natCast_nonneg _, Int.ofNat_lt.2 r.resistance.isLt⟩
  · exact ⟨Int.natCast_nonneg _, Int.ofNat_lt.2 r.resistance2.isLt⟩

theorem tryInterpolation_spec {i1 i2 : Int} (h : i1 < i2) (h' : i2 - i1 < 4294967296)
    (i lo hi : Int) : ∃ r, tryInterpolation i1 (i32 lo) i2 (i32 hi) i = some r ∧
      u32 r = u32 (offset (i2 - i1) (hi - lo) (i - i1) + lo) := by
  have hne : i32 (i2 - i1) ≠ 0 := i32_ne_zero (by omega) h'
  have he : i32 (i32 hi - i32 lo) = i32 (hi - lo) := by unfold i32; omega
  rw [tryInterpolation, div, if_neg hne, he]
  refine ⟨_, rfl, ?_⟩
  rw [u32_i32]
  generalize hq : (i32 (i32 (hi - lo) * i32 (i - i1))).tdiv (i32 (i2 - i1)) = q
  rw [show offset (i2 - i1) (hi - lo) (i - i1) = q from hq]
  unfold u32 i32
  omega

theorem coe_toWord (x : Int) : ((toWord x : Nat) : Int) = u32 x := by
  simp only [toWord]
  unfold u32
  omega

theorem coe_toShort (x : Int) : ((toShort x : Nat) : Int) = u16 x := by
  simp only [toShort]
  unfold u16
  omega

theorem short_eq (x : Fin 65536) : ((x : Nat) : Int) = i32 x := by
  have := x.isLt
  exact (i32_eq (by unfold IsI32; omega)).symm

section
variable {lowTemp highTemp : Int} (hlt : lowTemp < highTemp)
  (hlt' : highTemp - lowTemp < 4294967296)
include hlt hlt'

/-- A row that is filled. -/
theorem fillRow_spec (t : Int) (l h r : Row) :
    ∃ r', fillRow lowTemp highTemp t l h r = some r' ∧ ∀ c ∈ columns, c.get r' =
      (offset (highTemp - lowTemp) (c.get h - c.get l) (t - lowTemp) + c.get l) % c.modulus := by
  obtain ⟨m, hm, hm'⟩ := tryInterpolation_spec hlt hlt' t l.mah h.mah
  obtain ⟨v, hv, hv'⟩ := tryInterpolation_spec hlt hlt' t l.voltage h.voltage
  obtain ⟨s, hs, hs'⟩ := tryInterpolation_spec hlt hlt' t l.resistance h.resistance
  obtain ⟨s2, hs2, hs2'⟩ := tryInterpolation_spec hlt hlt' t l.resistance2 h.resistance2
  rw [← short_eq, ← short_eq] at hv hs hs2
  refine ⟨⟨toWord m, toShort v, toShort s, toShort s2, r.percentage⟩, ?_, ?_⟩
  · simp only [fillRow, hm, hv, hs, hs2]
    rfl
  · have hu16 : ∀ {x y : Int}, u32 x = u32 y → u16 x = y % 65536 := fun h => by
      unfold u32 at h
      unfold u16
      omega
    simp only [columns, List.forall_mem_cons, coe_toWord, coe_toShort]
    exact ⟨hm', hu16 hv', hu16 hs', hu16 hs2', nofun⟩

/-- Two rows that are filled between the same rows. -/
theorem fillRow_same {t : Int} {l h r r' f f' : Row}
    (hf : fillRow lowTemp highTemp t l h r = some f)
    (hf' : fillRow lowTemp highTemp t l h r' = some f') : Same f f' := by
  obtain ⟨g, hg, hc⟩ := fillRow_spec hlt hlt' t l h r
  obtain ⟨g', hg', hc'⟩ := fillRow_spec hlt hlt' t l h r'
  obtain rfl : g = f := Option.some.inj (hg.symm.trans hf)
  obtain rfl : g' = f' := Option.some.inj (hg'.symm.trans hf')
  exact fun c hmem => (hc' c hmem).trans (hc c hmem).symm

/-- A row filled without a wrap lies between the two rows, and is one of them at its
temperature. -/
theorem fillRow_between {t : Int} {l h r f : Row} (hex : ExactRow (highTemp - lowTemp) l h)
    (ht : lowTemp ≤ t) (ht' : t ≤ highTemp) (hf : fillRow lowTemp highTemp t l h r = some f) :
    Between l h f ∧ (t = lowTemp → Same l f) ∧ (t = highTemp → Same h f) := by
  obtain ⟨g, hg, hc⟩ := fillRow_spec hlt hlt' t l h r
  obtain rfl : g = f := Option.some.inj (hg.symm.trans hf)
  have hval : ∀ c ∈ columns, ∃ x,
      Offset (highTemp - lowTemp) (c.get h - c.get l) (t - lowTemp) x ∧
        c.get g = c.get l + x := fun c hmem => by
    obtain ⟨x, hx⟩ := offset_spec (t := t - lowTemp) (show 0 < highTemp - lowTemp by omega) hlt'
      (by omega) (by omega) (hex c hmem)
    refine ⟨x, hx, ?_⟩
    obtain ⟨hmod, hrange⟩ := column_facts c hmem
    have hl := hrange l
    have hh := hrange h
    obtain ⟨heq, hlo, hhi, -, -⟩ := hx
    rw [hc c hmem]
    unfold u32 at heq
    rcases hmod with hmod | hmod <;> rw [hmod] at hl hh ⊢ <;> omega
  refine ⟨fun c hmem => ?_, fun h0 c hmem => ?_, fun h0 c hmem => ?_⟩
  all_goals
    obtain ⟨x, hx, hv⟩ := hval c hmem
    have := hx.lower
    have := hx.upper
    have := hx.first
    have := hx.last
    omega

end

/-- The loop over the rows. -/
theorem fillRows_spec {lowTemp highTemp t : Int} {low high rows filled : Nat → Row} {n : Nat}
    (h : ∀ j < n, fillRow lowTemp highTemp t (low j) (high j) (rows j) = some (filled j)) :
    ∃ rows', fillRows lowTemp highTemp t low high rows n = some rows' ∧
      ∀ j < n, rows' j = filled j := by
  induction n with
  | zero => exact ⟨rows, rfl, nofun⟩
  | succ n ih =>
    obtain ⟨rows', hrows, hfilled⟩ := ih fun j hj => h j (by omega)
    refine ⟨Function.update rows' n (filled n), ?_, fun j hj => ?_⟩
    · simp only [fillRows, hrows, h n (Nat.lt_succ_self n)]
      rfl
    · by_cases hjn : j = n
      · rw [hjn, Function.update_self]
      · rw [Function.update_of_ne hjn, hfilled j (by omega)]

end Battery
