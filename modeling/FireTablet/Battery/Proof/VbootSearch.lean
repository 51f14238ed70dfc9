import FireTablet.Battery.Vboot
import FireTablet.Battery.Proof.TableLookup
import FireTablet.Battery.Proof.VbootCapacity
import Mathlib.Tactic.SplitIfs
import Mathlib.Algebra.Order.Group.Unbundled.Int

/-!
# The search for a voltage under load

The search goes down from the empty end of the table to a row that is over the target, and then
looks for the point that is over it on the grid of the segment behind this row. It finds the right
point if there is one in this segment and none behind it (`fgCompensate_iff`). Without a row to stop
at it reads the row before the table, whatever the branch after it has to say about that.
-/

namespace Battery

open CInt

/-! ## The curve -/

section
variable (rows : Nat → Row) (cust : IrCust) (curr oriv : Int)

/-- The voltage between the rows `k - 1` and `k`, as `interpolation` has it. -/
def ocvOn (k : Nat) (i : Int) : Int :=
  interpolation (rows (k - 1)).percentage (rows (k - 1)).voltage (rows k).percentage
    (rows k).voltage i

/-- The resistance there. -/
def resistanceOn (k : Nat) (i : Int) : Int :=
  interpolation (rows (k - 1)).percentage (rows (k - 1)).resistance (rows k).percentage
    (rows k).resistance i

/-- A point of the curve is over the target. -/
def Over (k : Nat) (i : Int) : Prop :=
  oriv < ocvOn rows k i + irCompensation cust curr (resistanceOn rows k i)

/-- A row is over the target. -/
def RowOver (r : Nat) : Prop :=
  oriv < (rows r).voltage + irCompensation cust curr (rows r).resistance

instance (k : Nat) (i : Int) : Decidable (Over rows cust curr oriv k i) :=
  inferInstanceAs (Decidable (_ < _))

instance (r : Nat) : Decidable (RowOver rows cust curr oriv r) :=
  inferInstanceAs (Decidable (_ < _))

/-- The points of the curve that are looked at: from the end of a segment, by 0.1 %. -/
structure OnGrid (size k : Nat) (i : Int) : Prop where
  pos : 1 ≤ k
  lt : k < size
  slope : (rows (k - 1)).percentage ≠ (rows k).percentage
  low : ((rows (k - 1)).percentage : Int) ≤ i
  high : i ≤ (rows k).percentage
  step : (10 : Int) ∣ (rows k).percentage - i

end

/-! ## Arithmetic -/

theorem tdiv_within {x c D : Int} (hD : 0 < D) (h : -(c * D) ≤ x) (h' : x ≤ c * D) :
    -c ≤ x.tdiv D ∧ x.tdiv D ≤ c := by
  have hpos : ∀ y : Int, 0 ≤ y → y ≤ c * D → 0 ≤ y.tdiv D ∧ y.tdiv D ≤ c := by
    intro y hy hle
    rw [Int.tdiv_eq_ediv_of_nonneg hy]
    exact ⟨Int.ediv_nonneg hy (Int.le_of_lt hD), Int.ediv_le_of_le_mul hD hle⟩
  rcases Int.le_total 0 x with hx | hx
  · have := hpos x hx h'
    omega
  · have := hpos (-x) (by omega) (by omega)
    rw [Int.neg_tdiv] at this
    omega

theorem irCompensation_bound (cust : IrCust) (curr r : Int) :
    -214748365 ≤ irCompensation cust curr r ∧ irCompensation cust curr r ≤ 214748365 := by
  have h (x : Int) : -214748365 ≤ (i32 x).tdiv 10 ∧ (i32 x).tdiv 10 ≤ 214748365 := by
    have := isI32_i32 x
    unfold IsI32 at this
    exact tdiv_within (by decide) (by omega) (by omega)
  exact h _

theorem withIrOver_eq (cust : IrCust) (curr oriv : Int) {volt : Int} (h : -65536 ≤ volt)
    (h' : volt ≤ 131072) (r : Int) :
    withIrOver cust curr oriv volt r = decide (oriv < volt + irCompensation cust curr r) := by
  have := irCompensation_bound cust curr r
  rw [withIrOver, i32_eq (by unfold IsI32; omega)]

section
variable {i1 i2 b1 b2 i : Int} (hi1 : i1 ≤ i) (hb1 : 0 ≤ b1) (hb1' : b1 < 65536)
  (hb2 : 0 ≤ b2) (hb2' : b2 < 65536)
include hi1 hb1 hb1' hb2 hb2'

theorem product_bound : -(65535 * (i - i1)) ≤ (b2 - b1) * (i - i1) ∧
    (b2 - b1) * (i - i1) ≤ 65535 * (i - i1) := by
  constructor
  · rw [← Int.neg_mul]
    exact Int.mul_le_mul_of_nonneg_right (by omega) (by omega)
  · exact Int.mul_le_mul_of_nonneg_right (by omega) (by omega)

variable (hi2 : i ≤ i2) (h12 : i1 < i2)
include hi2 h12

/-- Between two rows whose percentages are not too far apart, `interpolation` does not wrap. -/
theorem interpolation_short (hspan : i2 - i1 < 32768) :
    interpolation i1 b1 i2 b2 i = ((b2 - b1) * (i - i1)).tdiv (i2 - i1) + b1 := by
  obtain ⟨h1, h2⟩ := product_bound hi1 hb1 hb1' hb2 hb2'
  obtain ⟨h3, h4⟩ := tdiv_within (D := i2 - i1) (c := 65535) (x := (b2 - b1) * (i - i1)) (by omega)
    (by omega) (by omega)
  apply interpolation_exact
  · unfold IsI32; omega
  · unfold IsI32; omega
  · unfold IsI32; omega
  · unfold IsI32; omega

theorem interpolation_bound :
    -65536 ≤ interpolation i1 b1 i2 b2 i ∧ interpolation i1 b1 i2 b2 i ≤ 131072 := by
  by_cases hspan : i2 - i1 < 32768
  · obtain ⟨h1, h2⟩ := product_bound hi1 hb1 hb1' hb2 hb2'
    obtain ⟨h3, h4⟩ := tdiv_within (D := i2 - i1) (c := 65535) (x := (b2 - b1) * (i - i1))
      (by omega) (by omega) (by omega)
    rw [interpolation_short hi1 hb1 hb1' hb2 hb2' hi2 h12 hspan]
    omega
  · -- the product may wrap, but the divisor is large
    have hx := isI32_i32 (i32 (b2 - b1) * i32 (i - i1))
    unfold IsI32 at hx
    obtain ⟨h3, h4⟩ := tdiv_within (D := i2 - i1) (c := 65536)
      (x := i32 (i32 (b2 - b1) * i32 (i - i1))) (by omega) (by omega) (by omega)
    rw [interpolation, i32_eq (by unfold IsI32; omega)]
    omega

end

/-! ## The grid -/

section
variable (hi lo : Int)

theorem mem_percentGrid {i : Int} :
    i ∈ percentGrid hi lo ↔ lo ≤ i ∧ i ≤ hi ∧ (10 : Int) ∣ hi - i := by
  unfold percentGrid
  constructor
  · intro h
    obtain ⟨t, ht, rfl⟩ := List.mem_map.1 h
    rw [List.mem_range] at ht
    split_ifs at ht with hle <;> omega
  · rintro ⟨h1, h2, t, ht⟩
    refine List.mem_map.2 ⟨t.toNat, List.mem_range.2 ?_, by omega⟩
    rw [if_pos (by omega)]
    omega

/-- The grid is stepped through downwards. -/
theorem percentGrid_pairwise : (percentGrid hi lo).Pairwise (· > ·) := by
  unfold percentGrid
  rw [List.pairwise_map]
  refine List.pairwise_lt_range.imp ?_
  intro a b hab
  omega

/-- What is found first is the greatest. -/
theorem find?_percentGrid {p : Int → Bool} {i : Int} (h : (percentGrid hi lo).find? p = some i) :
    i ∈ percentGrid hi lo ∧ p i = true ∧ ∀ i' ∈ percentGrid hi lo, i < i' → p i' = false := by
  obtain ⟨hp, pre, post, heq, hpre⟩ := List.find?_eq_some_iff_append.1 h
  refine ⟨List.mem_of_find?_eq_some h, hp, ?_⟩
  intro i' hi' hlt
  have hpair := percentGrid_pairwise hi lo
  rw [heq] at hi' hpair
  rcases List.mem_append.1 hi' with hmem | hmem
  · simpa using hpre i' hmem
  · rcases List.mem_cons.1 hmem with rfl | hmem
    · exact absurd hlt (Int.lt_irrefl _)
    · have := List.rel_of_pairwise_cons (List.pairwise_append.1 hpair).2.1 hmem
      omega

end

/-! ## The two loops over the rows -/

section
variable (rows : Nat → Row) (cust : IrCust) (curr oriv : Int)

theorem findHigh_spec (size : Nat) :
    (∀ r ∈ (findHigh rows size).2, r < size) ∧
    ((findHigh rows size).1 = 0 ∧ (∀ r, r + 1 < size → ¬ (rows r).percentage < 10000) ∨
      ∃ r, (findHigh rows size).1 = r + 1 ∧ r + 1 < size ∧ (rows r).percentage < 10000 ∧
        ∀ r', r < r' → r' + 1 < size → ¬ (rows r').percentage < 10000) := by
  induction size with
  | zero => exact ⟨by simp [findHigh], .inl ⟨rfl, by omega⟩⟩
  | succ size ih =>
    obtain ⟨hreads, hres⟩ := ih
    unfold findHigh
    split_ifs with h1 hp
    · refine ⟨?_, .inr ⟨size - 1, (Nat.sub_add_cancel h1).symm, by omega, hp, by omega⟩⟩
      intro r hr
      simp only [List.mem_cons, List.not_mem_nil, or_false] at hr
      omega
    · constructor
      · intro r hr
        rcases List.mem_cons.1 hr with rfl | hr
        · omega
        · have := hreads r hr
          omega
      · rcases hres with ⟨h0, hnone⟩ | ⟨r, hr, hlt, hpr, hmax⟩
        · refine .inl ⟨h0, ?_⟩
          intro r hr
          by_cases hlast : r = size - 1
          · exact hlast ▸ hp
          · exact hnone r (by omega)
        · refine .inr ⟨r, hr, by omega, hpr, ?_⟩
          intro r' hr' hlt'
          by_cases hlast : r' = size - 1
          · exact hlast ▸ hp
          · exact hmax r' hr' (by omega)
    · exact ⟨by simp, .inl ⟨rfl, by omega⟩⟩

theorem rowOver_iff (r : Nat) : withIrOver cust curr oriv (rows r).voltage (rows r).resistance =
    true ↔ RowOver rows cust curr oriv r := by
  rw [withIrOver_eq _ _ _ (by omega) (by omega), decide_eq_true_eq]
  rfl

theorem findOver_spec (high : Nat) :
    (∀ r ∈ (findOver rows cust curr oriv high).2, r ≤ high) ∧
    ((findOver rows cust curr oriv high).1 = 0 ∧
        (∀ r < high, ¬ RowOver rows cust curr oriv r) ∨
      ∃ r, (findOver rows cust curr oriv high).1 = r + 1 ∧ r < high ∧
        RowOver rows cust curr oriv r ∧
        ∀ r', r < r' → r' < high → ¬ RowOver rows cust curr oriv r') := by
  induction high with
  | zero => exact ⟨by simp [findOver], .inl ⟨rfl, by omega⟩⟩
  | succ high ih =>
    obtain ⟨hreads, hres⟩ := ih
    unfold findOver
    split_ifs with h
    · have hov := (rowOver_iff rows cust curr oriv high).1 h
      exact ⟨by simp, .inr ⟨high, rfl, by omega, hov, by omega⟩⟩
    · rw [rowOver_iff] at h
      constructor
      · intro r hr
        rcases List.mem_cons.1 hr with rfl | hr
        · omega
        · have := hreads r hr
          omega
      · rcases hres with ⟨h0, hnone⟩ | ⟨r, hr, hlt, hov, hmax⟩
        · refine .inl ⟨h0, ?_⟩
          intro r hr
          by_cases hlast : r = high
          · exact hlast ▸ h
          · exact hnone r (by omega)
        · refine .inr ⟨r, hr, by omega, hov, ?_⟩
          intro r' hr' hlt'
          by_cases hlast : r' = high
          · exact hlast ▸ h
          · exact hmax r' hr' (by omega)

/-! ## The loop over the grid -/

/-- On a segment that is not upright the comparison is the one meant. -/
theorem over_iff {k : Nat} {i : Int} (hlow : ((rows (k - 1)).percentage : Int) ≤ i)
    (hhigh : i ≤ (rows k).percentage) (hslope : (rows (k - 1)).percentage ≠ (rows k).percentage) :
    withIrOver cust curr oriv (ocvOn rows k i) (resistanceOn rows k i) = true ↔
      Over rows cust curr oriv k i := by
  have hbound : -65536 ≤ ocvOn rows k i ∧ ocvOn rows k i ≤ 131072 :=
    interpolation_bound hlow (by omega) (by omega) (by omega) (by omega) hhigh (by omega)
  rw [withIrOver_eq cust curr oriv hbound.1 hbound.2, decide_eq_true_eq]
  rfl

/-- The last loop ends at the first point over the target, or behind the grid. -/
theorem fineScan_spec (high : Nat) (hslope : (rows (high - 1)).percentage ≠ (rows high).percentage)
    (is : List Int) (last : Int × Int) :
    (∃ i, is.find? (fun i => withIrOver cust curr oriv (ocvOn rows high i)
        (resistanceOn rows high i)) = some i ∧
      fineScan rows cust curr oriv high last is =
        some ((ocvOn rows high i, resistanceOn rows high i), some (high, i))) ∨
    is.find? (fun i => withIrOver cust curr oriv (ocvOn rows high i) (resistanceOn rows high i)) =
        none ∧
      ∃ last', fineScan rows cust curr oriv high last is = some (last', none) := by
  induction is generalizing last with
  | nil => exact .inr ⟨rfl, last, rfl⟩
  | cons i is ih =>
    have hline (b1 b2 : Int) : tryInterpolation (rows (high - 1)).percentage b1
        (rows high).percentage b2 i = some (interpolation (rows (high - 1)).percentage b1
          (rows high).percentage b2 i) :=
      tryInterpolation_eq (by unfold IsI32; omega) (by omega) b1 b2 i
    rw [fineScan, hline, hline, List.find?_cons]
    simp only [Option.bind_eq_bind, Option.bind_some]
    by_cases h : withIrOver cust curr oriv (ocvOn rows high i) (resistanceOn rows high i) = true
    · refine .inl ⟨i, by rw [h], ?_⟩
      exact if_pos h
    · have hstep : fineScan rows cust curr oriv high
          (ocvOn rows high i, resistanceOn rows high i) is = if withIrOver cust curr oriv
            (ocvOn rows high i) (resistanceOn rows high i) = true
          then some ((ocvOn rows high i, resistanceOn rows high i), some (high, i))
          else fineScan rows cust curr oriv high (ocvOn rows high i, resistanceOn rows high i) is :=
        (if_neg h).symm
      rw [Bool.not_eq_true] at h
      rw [h]
      rcases ih (ocvOn rows high i, resistanceOn rows high i) with ⟨i', hf, hs⟩ | ⟨hf, last', hs⟩
      · exact .inl ⟨i', hf, hstep.symm.trans hs⟩
      · exact .inr ⟨hf, last', hstep.symm.trans hs⟩

/-- On an upright segment it divides by zero. -/
theorem fineScan_upright (high : Nat) (h : (rows (high - 1)).percentage = (rows high).percentage)
    (last : Int × Int) :
    fineScan rows cust curr oriv high last
      (percentGrid (rows high).percentage (rows (high - 1)).percentage) = none := by
  have hgrid : percentGrid (rows high).percentage (rows high).percentage =
      [((rows high).percentage : Int)] := by
    unfold percentGrid
    rw [if_pos (Int.le_refl _), Int.sub_self]
    simp
  rw [h, hgrid, fineScan, h, tryInterpolation, Int.sub_self]
  rfl

end

/-! ## The search -/

section
variable (rows : Nat → Row) (cust : IrCust) (curr oriv : Int)

/-- A result that is the voltage at a point of the grid: it is on the curve, it is over the target
with what the current adds, and no point with a higher depth of discharge is. -/
structure Found (size : Nat) (c : Compensated) (k : Nat) (i : Int) : Prop where
  hit : c.hit = some (k, i)
  grid : OnGrid rows size k i
  volt : c.volt = ocvOn rows k i
  line : ((rows k).percentage : Int) - (rows (k - 1)).percentage < 32768 →
    c.volt = ((((rows k).voltage : Int) - (rows (k - 1)).voltage) *
      (i - (rows (k - 1)).percentage)).tdiv
        ((rows k).percentage - (rows (k - 1)).percentage) + (rows (k - 1)).voltage
  above : oriv < c.volt + irCompensation cust curr (resistanceOn rows k i)
  highest : ∀ k' i', OnGrid rows size k' i' → i < i' → ¬ Over rows cust curr oriv k' i'

/-- What is asked of a search in a table of `size` rows. -/
def Compensates (size : Nat) (result : Option Compensated) : Prop :=
  ∃ c, result = some c ∧ (∀ r ∈ c.reads, r < size) ∧
    ((∃ k i, Found rows cust curr oriv size c k i) ∨
      (∀ r < size, ¬ RowOver rows cust curr oriv r) ∧ c.volt = (rows 0).voltage)

/-- The last row over the target, of those below 100 % that have another one behind. -/
structure LastOver (size r : Nat) : Prop where
  lt : r + 1 < size
  notEmpty : (rows r).percentage < 10000
  above : RowOver rows cust curr oriv r
  last : ∀ r', r < r' → r' + 1 < size → (rows r').percentage < 10000 →
    ¬ RowOver rows cust curr oriv r'

/-- The segment behind the last row over the target has a point over it, and no later one has. -/
structure StopsAt (size r : Nat) : Prop extends LastOver rows cust curr oriv size r where
  hit : ∃ i, OnGrid rows size (r + 1) i ∧ Over rows cust curr oriv (r + 1) i
  later : ∀ k i, r + 1 < k → OnGrid rows size k i → Over rows cust curr oriv k i →
    i = (rows (r + 1)).percentage ∧ Over rows cust curr oriv (r + 1) i

end

section
variable {rows : Nat → Row} {cust : IrCust} {curr oriv : Int} {size : Nat}

theorem OnGrid.mem {k : Nat} {i : Int} (h : OnGrid rows size k i) :
    i ∈ percentGrid (rows k).percentage (rows (k - 1)).percentage :=
  (mem_percentGrid _ _).2 ⟨h.low, h.high, h.step⟩

/-- The rows of a segment and a point of its grid. -/
theorem OnGrid.of_mem {r : Nat} {i : Int} (hr : r + 1 < size)
    (hslope : (rows r).percentage ≠ (rows (r + 1)).percentage)
    (h : i ∈ percentGrid (rows (r + 1)).percentage (rows r).percentage) :
    OnGrid rows size (r + 1) i := by
  obtain ⟨h1, h2, h3⟩ := (mem_percentGrid _ _).1 h
  exact ⟨Nat.succ_pos r, hr, hslope, h1, h2, h3⟩

theorem LastOver.unique {r r' : Nat} (h : LastOver rows cust curr oriv size r)
    (h' : LastOver rows cust curr oriv size r') : r = r' := by
  rcases Nat.lt_trichotomy r r' with hlt | rfl | hgt
  · exact absurd h'.above (h.last r' hlt h'.lt h'.notEmpty)
  · rfl
  · exact absurd h.above (h'.last r hgt h.lt h.notEmpty)

/-- The last loop, after the two loops over the rows have come to a segment. -/
def lastLoop (rows : Nat → Row) (cust : IrCust) (curr oriv : Int) (r : Nat) (reads : List Nat) :
    Option Compensated :=
  (fineScan rows cust curr oriv (r + 1) ((rows r).voltage, (rows r).resistance)
    (percentGrid (rows (r + 1)).percentage (rows r).percentage)).map fun x =>
      ⟨x.1.1, x.1.2, x.2, reads⟩

/-- The first point over the target on the way down the segment behind a row. -/
structure FirstHit (rows : Nat → Row) (cust : IrCust) (curr oriv : Int) (size r : Nat) (i : Int) :
    Prop where
  grid : OnGrid rows size (r + 1) i
  above : Over rows cust curr oriv (r + 1) i
  highest : ∀ i', OnGrid rows size (r + 1) i' → i < i' → ¬ Over rows cust curr oriv (r + 1) i'

/-- The last loop divides by zero, hits a point of the grid or leaves the grid. -/
theorem lastLoop_cases (rows : Nat → Row) (cust : IrCust) (curr oriv : Int) {r : Nat}
    (hr : r + 1 < size) (reads : List Nat) :
    (rows r).percentage = (rows (r + 1)).percentage ∧
      lastLoop rows cust curr oriv r reads = none ∨
    (∃ i, FirstHit rows cust curr oriv size r i ∧ lastLoop rows cust curr oriv r reads =
      some ⟨ocvOn rows (r + 1) i, resistanceOn rows (r + 1) i, some (r + 1, i), reads⟩) ∨
    (∀ i, OnGrid rows size (r + 1) i → ¬ Over rows cust curr oriv (r + 1) i) ∧
      ∃ last : Int × Int, lastLoop rows cust curr oriv r reads =
        some ⟨last.1, last.2, none, reads⟩ := by
  by_cases hslope : (rows r).percentage = (rows (r + 1)).percentage
  · refine .inl ⟨hslope, ?_⟩
    have hup := fineScan_upright rows cust curr oriv (r + 1) hslope
      ((rows r).voltage, (rows r).resistance)
    rw [Nat.add_sub_cancel] at hup
    rw [lastLoop, hup]
    rfl
  have hover {i : Int} (hi : OnGrid rows size (r + 1) i) :=
    over_iff rows cust curr oriv hi.low hi.high hi.slope
  rcases fineScan_spec rows cust curr oriv (r + 1) hslope
    (percentGrid (rows (r + 1)).percentage (rows r).percentage)
    ((rows r).voltage, (rows r).resistance) with ⟨i, hfind, hscan⟩ | ⟨hfind, last, hscan⟩
  · obtain ⟨hmem, hov, hmax⟩ := find?_percentGrid _ _ hfind
    have hgrid := OnGrid.of_mem hr hslope hmem
    refine .inr (.inl ⟨i, ⟨hgrid, (hover hgrid).1 hov, ?_⟩, ?_⟩)
    · intro i' hg hlt ho
      have hno := hmax i' hg.mem hlt
      rw [(hover hg).2 ho] at hno
      cases hno
    · rw [lastLoop, hscan]
      rfl
  · refine .inr (.inr ⟨?_, last, ?_⟩)
    · intro i hg ho
      exact List.find?_eq_none.1 hfind i hg.mem ((hover hg).2 ho)
    · rw [lastLoop, hscan]
      rfl

variable (hp : ∀ i j, i ≤ j → j < size → (rows i).percentage ≤ (rows j).percentage)
include hp

/-- The loops over the rows end at the last row over the target, or with a row that is none. -/
theorem compensateFromLow_cases (cust : IrCust) (curr oriv : Int) :
    (compensateFromLow rows cust curr oriv size = none ∧
      ∀ r, ¬ LastOver rows cust curr oriv size r) ∨
    ∃ r reads, LastOver rows cust curr oriv size r ∧ (∀ i ∈ reads, i < size) ∧
      compensateFromLow rows cust curr oriv size = lastLoop rows cust curr oriv r reads := by
  obtain ⟨hreads, hhigh⟩ := findHigh_spec rows size
  obtain ⟨hreads', hover⟩ := findOver_spec rows cust curr oriv (findHigh rows size).1
  unfold compensateFromLow
  rcases hover with ⟨h0, hnone⟩ | ⟨r, hr, hlt, hov, hmax⟩
  · refine .inl ⟨if_pos h0, ?_⟩
    intro r hl
    rcases hhigh with ⟨-, hempty⟩ | ⟨high, hh, hhlt, -, hhmax⟩
    · exact hempty r hl.lt hl.notEmpty
    · rw [hh] at hnone
      by_cases hle : r ≤ high
      · exact hnone r (by omega) hl.above
      · exact hhmax r (by omega) hl.lt hl.notEmpty
  · rcases hhigh with ⟨hh, -⟩ | ⟨high, hh, hhlt, hp0, hhmax⟩
    · omega
    rw [hh] at hlt hmax hreads'
    refine .inr ⟨r, (findHigh rows size).2 ++
      (findOver rows cust curr oriv (findHigh rows size).1).2 ++ [r, r + 1],
      ⟨by omega, ?_, hov, ?_⟩, ?_, ?_⟩
    · have := hp r high (by omega) (by omega)
      omega
    · intro r' hr' hlt' hp'
      by_cases hle : r' ≤ high
      · exact hmax r' hr' (by omega)
      · exact absurd hp' (hhmax r' (by omega) hlt')
    · intro i hi
      rw [List.mem_append, List.mem_append] at hi
      rcases hi with (hi | hi) | hi
      · exact hreads i hi
      · rw [hh] at hi
        have := hreads' i hi
        omega
      · simp only [List.mem_cons, List.not_mem_nil, or_false] at hi
        omega
    · simp only [hr, if_neg (Nat.succ_ne_zero r), Nat.add_sub_cancel]
      unfold lastLoop
      cases fineScan rows cust curr oriv (r + 1) ((rows r).voltage, (rows r).resistance)
        (percentGrid (rows (r + 1)).percentage (rows r).percentage) <;> rfl

/-- A hit of the last loop is what is asked for when no later segment has a point over the
target. -/
theorem FirstHit.found {r : Nat} {i : Int} (h : FirstHit rows cust curr oriv size r i)
    (hs : StopsAt rows cust curr oriv size r) (reads : List Nat) :
    Found rows cust curr oriv size
      ⟨ocvOn rows (r + 1) i, resistanceOn rows (r + 1) i, some (r + 1, i), reads⟩ (r + 1) i := by
  have hlow := h.grid.low
  have hhigh := h.grid.high
  have hslope := h.grid.slope
  rw [Nat.add_sub_cancel] at hlow hslope
  refine ⟨rfl, h.grid, rfl, ?_, h.above, ?_⟩
  · intro hspan
    simp only [Nat.add_sub_cancel] at hspan ⊢
    have hline := interpolation_short hlow (show (0 : Int) ≤ (rows r).voltage by omega) (by omega)
      (show (0 : Int) ≤ (rows (r + 1)).voltage by omega) (by omega) hhigh (by omega) hspan
    exact hline
  · intro k' i' hg hlt ho
    rcases Nat.lt_trichotomy k' (r + 1) with hk | rfl | hk
    · have h1 := hp k' r (by omega) (by have := hs.lt; omega)
      have h2 := hg.high
      omega
    · exact h.highest i' hg hlt ho
    · -- only the row shared with this segment is left, and it is on this grid as well
      obtain ⟨rfl, ho'⟩ := hs.later k' i' hk hg ho
      exact h.highest _ ⟨h.grid.pos, h.grid.lt, h.grid.slope,
        Int.le_trans h.grid.low (Int.le_of_lt hlt), Int.le_refl _, by simp⟩ hlt ho'

/-- The search is right when it stops at the right row. -/
theorem compensates_iff_stopsAt :
    Compensates rows cust curr oriv size (compensateFromLow rows cust curr oriv size) ↔
      ∃ r, StopsAt rows cust curr oriv size r := by
  rcases compensateFromLow_cases hp cust curr oriv with
    ⟨hnone, hno⟩ | ⟨r, reads, hl, hreads, heq⟩
  · constructor
    · rintro ⟨c, hc, -⟩
      cases hnone.symm.trans hc
    · rintro ⟨r, hs⟩
      exact absurd hs.toLastOver (hno r)
  rw [heq]
  have hrow : ¬ ∀ r < size, ¬ RowOver rows cust curr oriv r := fun hno =>
    hno r (by have := hl.lt; omega) hl.above
  rcases lastLoop_cases rows cust curr oriv hl.lt reads with
    ⟨hslope, hres⟩ | ⟨i, hhit, hres⟩ | ⟨hmiss, last, hres⟩ <;> rw [hres]
  · constructor
    · rintro ⟨c, hc, -⟩
      cases hc
    · rintro ⟨r', hs⟩
      obtain rfl := hs.toLastOver.unique hl
      obtain ⟨i, hi, -⟩ := hs.hit
      exact absurd hslope hi.slope
  · constructor
    · rintro ⟨c, hc, -, ⟨k, i', hf⟩ | ⟨hno, -⟩⟩
      · obtain rfl := Option.some.inj hc
        obtain ⟨rfl, rfl⟩ := Prod.mk.inj (Option.some.inj hf.hit)
        refine ⟨r, hl, ⟨i, hhit.grid, hhit.above⟩, ?_⟩
        intro k i' hk hg ho
        have hle : ¬ i < i' := fun hlt => hf.highest k i' hg hlt ho
        have h1 := hp (r + 1) (k - 1) (by omega) (by have := hg.lt; omega)
        have h2 := hg.low
        have h3 := hhit.grid.high
        obtain rfl : i' = i := by omega
        exact ⟨by omega, hhit.above⟩
      · exact absurd hno hrow
    · rintro ⟨r', hs⟩
      obtain rfl := hs.toLastOver.unique hl
      exact ⟨_, rfl, hreads, .inl ⟨r' + 1, i, hhit.found hp hs reads⟩⟩
  · constructor
    · rintro ⟨c, hc, -, ⟨k, i', hf⟩ | ⟨hno, -⟩⟩
      · obtain rfl := Option.some.inj hc
        cases hf.hit
      · exact absurd hno hrow
    · rintro ⟨r', hs⟩
      obtain rfl := hs.toLastOver.unique hl
      obtain ⟨i, hg, ho⟩ := hs.hit
      exact absurd ho (hmiss i hg)

end

/-- The compensation returns the voltage asked for when the loop over the rows stops at a row whose
segment, and no later one, has a point over the target. -/
theorem fgCompensate_iff (d : TableData) (tablei : Int) (loc : Loc) (cust : IrCust)
    (resistanceBat oriv curr : Int) (hloc : d.fgGetProfile tablei = some loc)
    (hp : ∀ i j, i ≤ j → j < d.fgGetSaddles →
      (d.rowsAt loc i).percentage ≤ (d.rowsAt loc j).percentage) :
    Compensates (d.rowsAt loc) cust curr oriv d.fgGetSaddles
        (fgCompensateBatteryVoltageFromLow d cust resistanceBat oriv curr tablei) ↔
      ∃ r, StopsAt (d.rowsAt loc) cust curr oriv d.fgGetSaddles r := by
  rw [fgCompensateBatteryVoltageFromLow, hloc]
  exact compensates_iff_stopsAt hp

/-! ## A warm and a cold battery -/

/-- Three rows, down to 3.0 V, with a resistance in 0.1 mΩ. -/
def loadRow (resistance : Fin 65536) : Nat → Row
  | 0 => ⟨0, 42000, resistance, 0, 0⟩
  | 1 => ⟨15000, 38000, resistance, 0, 5000⟩
  | _ => ⟨30000, 30000, resistance, 0, 10000⟩

theorem warm_int : IsI32 25 := by decide

def loadData (resistance : Fin 65536) : TableData where
  profiles := [{
    temperature := 25
    qMax := 30000
    qMaxHCurrent := 30000
    pseudo1 := 0
    pseudo100 := 0
    shutdownHlZcv := 0
    size := 3
    rows := loadRow resistance
    temperature_int := warm_int }]
  temperatureTb0 := 255
  temperatureTb1 := 254
  rowsTb0 := loadRow resistance
  rowsTb1 := loadRow resistance

theorem loadRow_rising {resistance : Fin 65536} (i j : Nat) (hij : i ≤ j) (hj : j < 3) :
    (loadRow resistance i).percentage ≤ (loadRow resistance j).percentage := by
  have h : ∀ i j : Fin 3, i ≤ j →
      (loadRow 0 i).percentage ≤ (loadRow 0 j).percentage := by decide
  have hpct (i : Nat) : (loadRow resistance i).percentage = (loadRow 0 i).percentage := by
    unfold loadRow
    split <;> rfl
  rw [hpct, hpct]
  exact h ⟨i, by omega⟩ ⟨j, hj⟩ hij

/-- With 0.1 Ω the voltage that comes down to 3.4 V at 2 A is between the last two rows. -/
theorem compensates_warm : Compensates (loadRow 1000) ⟨100, 0, 0⟩ (-20000) 34000 3
    (fgCompensateBatteryVoltageFromLow (loadData 1000) ⟨100, 0, 0⟩ 0 34000 (-20000) 255) := by
  refine (fgCompensate_iff (loadData 1000) 255 .tb0 ⟨100, 0, 0⟩ 0 34000 (-20000) rfl
    loadRow_rising).2 ⟨1, ⟨by decide, by decide, by decide, ?_⟩,
      ⟨6250, ⟨by decide, by decide, by decide, by decide, by decide, by decide⟩, by decide⟩, ?_⟩
  · intro r hr (hlt : r + 1 < 3)
    omega
  · intro k i hk hg
    have : k < 3 := hg.lt
    omega

/-- With 1 Ω no row is over 3.4 V at 2 A, and the row before the first is read. -/
theorem cold_battery :
    (∀ i j, i ≤ j → j < 3 → (loadRow 10000 i).percentage ≤ (loadRow 10000 j).percentage) ∧
    (∀ r < 3, ¬ RowOver (loadRow 10000) ⟨100, 0, 0⟩ (-20000) 34000 r) ∧
    ¬ Compensates (loadRow 10000) ⟨100, 0, 0⟩ (-20000) 34000 3
      (fgCompensateBatteryVoltageFromLow (loadData 10000) ⟨100, 0, 0⟩ 0 34000 (-20000) 255) := by
  have hnone : fgCompensateBatteryVoltageFromLow (loadData 10000) ⟨100, 0, 0⟩ 0 34000 (-20000) 255 =
    none := rfl
  refine ⟨loadRow_rising, by decide, ?_⟩
  rintro ⟨c, hc, -⟩
  cases hnone.symm.trans hc

end Battery
