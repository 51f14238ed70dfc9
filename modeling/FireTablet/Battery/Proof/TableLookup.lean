import FireTablet.Battery.Algo
import FireTablet.Lib.Piecewise

/-!
# Voltage and charge

The four conversions are one piecewise linear function and its inverse: of the depth of discharge,
with the voltage counted downwards, and back. They are that while the `int` products of
`interpolation` do not wrap, which the voltages and percentages of neighbouring rows decide
(`profile_converts`).
-/

namespace Battery

open CInt Piecewise

/-! ## Tables -/

/-- A profile table as it should be: `unsigned short` entries, with the voltage falling and the
percentage not. -/
structure Profile (ps : List Point) : Prop where
  nonempty : ps ≠ []
  voltage_mem : ∀ p ∈ ps, 0 ≤ p.voltage ∧ p.voltage < 65536
  percentage_mem : ∀ p ∈ ps, 0 ≤ p.percentage ∧ p.percentage < 65536
  falling : ps.Pairwise fun p q => q.voltage < p.voltage
  rising : ps.Pairwise fun p q => p.percentage ≤ q.percentage

/-- The steps between neighbouring rows fit the products of `interpolation`. -/
def Fits (ps : List Point) : Prop :=
  ps.IsChain fun p q => (p.voltage - q.voltage) * (q.percentage - p.percentage) ≤ 2147483648

/-- A row as a knot of the function from the depth of discharge. -/
def Point.knot (p : Point) : Knot := ⟨p.percentage, -p.voltage⟩

/-- The divisor of the interpolation that a lookup makes, if it makes one. -/
def divisor (hit : Point → Bool) (key : Point → Int) : List Point → Option Int
  | [] => none
  | p :: ps => if hit p then none else go p ps
where
  go (prev : Point) : List Point → Option Int
    | [] => none
    | p :: ps => if hit p then some (key p - key prev) else go p ps

/-! ## Lookups as functions of knots -/

section
variable {hit : Point → Bool} {key value : Point → Int} {x y : Int} {k : Point → Knot}
  {f : Int → Int} (hhit : ∀ p, hit p = decide (y ≤ (k p).key))
  (hval : ∀ p, value p = f (k p).value)
include hhit hval

theorem lookup_go_eq_behind {prev : Point} {ps : List Point}
    (hline : (prev :: ps).IsChain fun p q => (k p).key < y → y ≤ (k q).key →
      interpolation (key p) (value p) (key q) (value q) x = f (line (k p) (k q) y))
    (hprev : (k prev).key < y) :
    lookup.go hit key value x prev ps = f (behind y (k prev) (ps.map k)) := by
  induction ps generalizing prev with
  | nil => exact hval prev
  | cons p ps ih =>
    rw [List.isChain_cons_cons] at hline
    rw [lookup.go, List.map_cons, behind, hhit]
    by_cases hp : y ≤ (k p).key
    · rw [if_pos (decide_eq_true hp), if_pos hp, hline.1 hprev hp]
    · rw [if_neg (by simpa using hp), if_neg hp, ih hline.2 (by omega)]

theorem lookup_eq_eval {ps : List Point} (hne : ps ≠ [])
    (hline : ps.IsChain fun p q => (k p).key < y → y ≤ (k q).key →
      interpolation (key p) (value p) (key q) (value q) x = f (line (k p) (k q) y)) :
    lookup hit key value x ps = f (eval y (ps.map k)) := by
  cases ps with
  | nil => exact absurd rfl hne
  | cons p ps =>
    rw [lookup, List.map_cons, eval, hhit]
    by_cases hp : y ≤ (k p).key
    · rw [if_pos (decide_eq_true hp), if_pos hp, hval]
    · rw [if_neg (by simpa using hp), if_neg hp, lookup_go_eq_behind hhit hval hline (by omega)]

end

/-! ## Interpolation -/

/-- Without overflow, `interpolation` is what it looks like. -/
theorem interpolation_exact {i1 b1 i2 b2 i : Int} (hb : IsI32 (b2 - b1)) (hi : IsI32 (i - i1))
    (hm : IsI32 ((b2 - b1) * (i - i1)))
    (hr : IsI32 (((b2 - b1) * (i - i1)).tdiv (i2 - i1) + b1)) :
    interpolation i1 b1 i2 b2 i = ((b2 - b1) * (i - i1)).tdiv (i2 - i1) + b1 := by
  rw [interpolation, i32_eq hb, i32_eq hi, i32_eq hm, i32_eq hr]

section
variable {p q : Point} {x : Int} (hp : 0 ≤ p.voltage ∧ p.voltage < 65536)
  (hp' : 0 ≤ p.percentage ∧ p.percentage < 65536) (hq : 0 ≤ q.voltage ∧ q.voltage < 65536)
  (hq' : 0 ≤ q.percentage ∧ q.percentage < 65536) (hv : q.voltage < p.voltage)
  (hpc : p.percentage ≤ q.percentage)
  (hfit : (p.voltage - q.voltage) * (q.percentage - p.percentage) ≤ 2147483648)
include hp hp' hq hq' hv hpc hfit

/-- Between two voltages, both differences of the product are negative or zero. -/
theorem interpolation_voltage (h1 : q.voltage ≤ x) (h2 : x < p.voltage) :
    interpolation p.voltage p.percentage q.voltage q.percentage x =
      line p.knot.swap q.knot.swap (-x) := by
  have hline : ((q.percentage - p.percentage) * (x - p.voltage)).tdiv (q.voltage - p.voltage) +
      p.percentage = line p.knot.swap q.knot.swap (-x) := by
    rw [show x - p.voltage = -(p.voltage - x) by omega,
      show q.voltage - p.voltage = -(p.voltage - q.voltage) by omega, Int.mul_neg, Int.neg_tdiv,
      Int.tdiv_neg, Int.neg_neg, Int.tdiv_eq_ediv_of_nonneg
        (Int.mul_nonneg (by omega) (by omega)), Int.add_comm]
    simp only [line, Knot.swap, Point.knot]
    rw [show -x - -p.voltage = p.voltage - x by omega,
      show -q.voltage - -p.voltage = p.voltage - q.voltage by omega]
  have hle := le_line (p := p.knot.swap) (q := q.knot.swap) (x := -x) hpc
    (show -p.voltage < -x by omega) (show -x ≤ -q.voltage by omega)
  have hge := line_le (p := p.knot.swap) (q := q.knot.swap) (x := -x) hpc
    (show -p.voltage < -x by omega) (show -x ≤ -q.voltage by omega)
  simp only [Knot.swap, Point.knot] at hle hge
  have hmul : (q.percentage - p.percentage) * (p.voltage - x) ≤
      (q.percentage - p.percentage) * (p.voltage - q.voltage) :=
    Int.mul_le_mul_of_nonneg_left (by omega) (by omega)
  have hnonneg : 0 ≤ (q.percentage - p.percentage) * (p.voltage - x) :=
    Int.mul_nonneg (by omega) (by omega)
  rw [Int.mul_comm] at hfit
  rw [interpolation_exact, hline]
  · unfold IsI32; omega
  · unfold IsI32; omega
  · rw [show x - p.voltage = -(p.voltage - x) by omega, Int.mul_neg]
    unfold IsI32; omega
  · rw [hline]
    simp only [Knot.swap, Point.knot]
    unfold IsI32; omega

omit hpc in
/-- Between two percentages, the difference of the voltages is negative. -/
theorem interpolation_percentage (h1 : p.percentage < x) (h2 : x ≤ q.percentage) :
    interpolation p.percentage p.voltage q.percentage q.voltage x = -line p.knot q.knot x := by
  have hline : ((q.voltage - p.voltage) * (x - p.percentage)).tdiv (q.percentage - p.percentage) +
      p.voltage = -line p.knot q.knot x := by
    rw [show q.voltage - p.voltage = -(p.voltage - q.voltage) by omega, Int.neg_mul, Int.neg_tdiv,
      Int.tdiv_eq_ediv_of_nonneg (Int.mul_nonneg (by omega) (by omega))]
    simp only [line, Point.knot]
    rw [show -q.voltage - -p.voltage = p.voltage - q.voltage by omega]
    omega
  have hv' : p.knot.value ≤ q.knot.value := by
    simp only [Point.knot]
    omega
  have hle := le_line (p := p.knot) (q := q.knot) hv' h1 h2
  have hge := line_le (p := p.knot) (q := q.knot) hv' h1 h2
  simp only [Point.knot] at hle hge
  have hmul : (p.voltage - q.voltage) * (x - p.percentage) ≤
      (p.voltage - q.voltage) * (q.percentage - p.percentage) :=
    Int.mul_le_mul_of_nonneg_left (by omega) (by omega)
  have hnonneg : 0 ≤ (p.voltage - q.voltage) * (x - p.percentage) :=
    Int.mul_nonneg (by omega) (by omega)
  rw [interpolation_exact, hline]
  · unfold IsI32; omega
  · unfold IsI32; omega
  · rw [show q.voltage - p.voltage = -(p.voltage - q.voltage) by omega, Int.neg_mul]
    unfold IsI32; omega
  · rw [hline]
    simp only [Point.knot]
    unfold IsI32; omega

end

/-! ## The conversions as functions of knots -/

/-- What holds of neighbours and what holds of any two rows hold of neighbours. -/
theorem isChain_and {α : Type} {R S : α → α → Prop} {l : List α} (hR : l.IsChain R)
    (hS : l.Pairwise S) : l.IsChain fun a b => S a b ∧ R a b := by
  induction l with
  | nil => exact .nil
  | cons a l ih =>
    cases l with
    | nil => exact .singleton a
    | cons b l =>
      rw [List.isChain_cons_cons] at hR ⊢
      obtain ⟨ha, hS⟩ := List.pairwise_cons.1 hS
      exact ⟨⟨ha b (List.mem_cons_self ..), hR.1⟩, ih hR.2 hS⟩

section
variable {ps : List Point} (h : Profile ps)
include h

theorem knots_rising : Rising (ps.map Point.knot) :=
  List.pairwise_map.2 ((h.rising.and h.falling).imp fun hpq =>
    ⟨hpq.1, Int.neg_le_neg (Int.le_of_lt hpq.2)⟩)

theorem knots_strict : (ps.map Point.knot).Pairwise fun p q => p.value < q.value :=
  List.pairwise_map.2 (h.falling.imp Int.neg_lt_neg)

/-- What is known of neighbouring rows. -/
theorem Profile.neighbours (hfit : Fits ps) : ps.IsChain fun p q => (p ∈ ps ∧ q ∈ ps) ∧
    q.voltage < p.voltage ∧ p.percentage ≤ q.percentage ∧
      (p.voltage - q.voltage) * (q.percentage - p.percentage) ≤ 2147483648 := by
  have hmem : ps.Pairwise fun p q => p ∈ ps ∧ q ∈ ps :=
    List.pairwise_of_forall_mem_list fun p hp q hq => ⟨hp, hq⟩
  exact (isChain_and hfit ((hmem.and h.falling).and h.rising)).imp fun p q hpq =>
    ⟨hpq.1.1.1, hpq.1.1.2, hpq.1.2, hpq.2⟩

variable (hfit : Fits ps)
include hfit

theorem ocvToDodC_eq (v : Int) :
    ocvToDodC ps v = eval (-v) ((ps.map Point.knot).map Knot.swap) := by
  rw [List.map_map]
  refine lookup_eq_eval (f := fun v => v) (k := Knot.swap ∘ Point.knot) (fun p => ?_)
    (fun _ => rfl) h.nonempty ?_
  · exact decide_eq_decide.2 (by simp only [Function.comp, Knot.swap, Point.knot]; omega)
  · refine (h.neighbours hfit).imp fun p q ⟨⟨hp, hq⟩, hv, hpc, hf⟩ h1 h2 => ?_
    simp only [Function.comp, Knot.swap, Point.knot] at h1 h2
    exact interpolation_voltage (h.voltage_mem p hp) (h.percentage_mem p hp) (h.voltage_mem q hq)
      (h.percentage_mem q hq) hv hpc hf (by omega) (by omega)

theorem dodToOcvC_eq (dod : Int) : dodToOcvC ps dod = -eval dod (ps.map Point.knot) := by
  refine lookup_eq_eval (f := fun v => -v) (k := Point.knot) (fun p => rfl)
    (fun p => (Int.neg_neg _).symm) h.nonempty ?_
  refine (h.neighbours hfit).imp fun p q ⟨⟨hp, hq⟩, hv, _, hf⟩ h1 h2 => ?_
  exact interpolation_percentage (h.voltage_mem p hp) (h.percentage_mem p hp) (h.voltage_mem q hq)
    (h.percentage_mem q hq) hv hf h1 h2

/-! ## The divisors -/

omit hfit in
theorem divisor_voltage (v : Int) :
    divisor (fun p => p.voltage ≤ v) Point.voltage ps ≠ some 0 := by
  have hgo : ∀ {prev : Point} {qs : List Point}, (prev :: qs).Pairwise (fun p q =>
      q.voltage < p.voltage) → v < prev.voltage →
        divisor.go (fun p => p.voltage ≤ v) Point.voltage prev qs ≠ some 0 := by
    intro prev qs hqs hprev
    induction qs generalizing prev with
    | nil => nofun
    | cons q qs ih =>
      obtain ⟨-, hqs⟩ := List.pairwise_cons.1 hqs
      rw [divisor.go]
      split
      next hq =>
        simp only [decide_eq_true_eq] at hq
        rw [ne_eq, Option.some.injEq]
        omega
      next hq => exact ih hqs (by simpa using hq)
  cases ps with
  | nil => nofun
  | cons p ps =>
    rw [divisor]
    split
    · nofun
    next hp => exact hgo h.falling (by simpa using hp)

omit hfit h in
theorem divisor_percentage (dod : Int) :
    divisor (fun p => dod ≤ p.percentage) Point.percentage ps ≠ some 0 := by
  have hgo : ∀ {prev : Point} {qs : List Point}, prev.percentage < dod →
      divisor.go (fun p => dod ≤ p.percentage) Point.percentage prev qs ≠ some 0 := by
    intro prev qs hprev
    induction qs generalizing prev with
    | nil => nofun
    | cons q qs ih =>
      rw [divisor.go]
      split
      next hq =>
        simp only [decide_eq_true_eq] at hq
        rw [ne_eq, Option.some.injEq]
        omega
      next hq => exact ih (by simpa using hq)
  cases ps with
  | nil => nofun
  | cons p ps =>
    rw [divisor]
    split
    · nofun
    next hp => exact hgo (by simpa using hp)

end

/-! ## The conversions -/

/-- A charge for which the depth of discharge is an `int`. -/
def IsCharge (s : Int) : Prop := IsI32 s ∧ IsI32 (10000 - s)

/-- What is expected of the conversions of a table. -/
structure Converts (ps : List Point) : Prop where
  soc_mono : ∀ v w, v ≤ w → ocvToSocC ps v ≤ ocvToSocC ps w
  ocv_mono : ∀ s t, IsCharge s → IsCharge t → s ≤ t → socToOcvC ps s ≤ socToOcvC ps t
  soc_eq : ∀ v, ocvToSocC ps v = 10000 - ocvToDodC ps v
  ocv_eq : ∀ s, IsCharge s → socToOcvC ps s = dodToOcvC ps (10000 - s)
  soc_mem : ∀ v, (∃ p ∈ ps, 10000 - p.percentage ≤ ocvToSocC ps v) ∧
    ∃ p ∈ ps, ocvToSocC ps v ≤ 10000 - p.percentage
  ocv_mem : ∀ s, IsCharge s → (∃ p ∈ ps, p.voltage ≤ socToOcvC ps s) ∧
    ∃ p ∈ ps, socToOcvC ps s ≤ p.voltage
  soc_row : ∀ p ∈ ps, ocvToSocC ps p.voltage = 10000 - p.percentage
  ocv_row : ∀ pre p post, ps = pre ++ p :: post → (∀ q ∈ pre, q.percentage ≠ p.percentage) →
    socToOcvC ps (10000 - p.percentage) = p.voltage
  divides : ∀ x, divisor (fun p => p.voltage ≤ x) Point.voltage ps ≠ some 0 ∧
    divisor (fun p => x ≤ p.percentage) Point.percentage ps ≠ some 0
  back : ∀ s, IsCharge s → ∀ p ∈ ps, ∀ q ∈ ps, 10000 - q.percentage ≤ s →
    s ≤ 10000 - p.percentage → 10000 - q.percentage ≤ ocvToSocC ps (socToOcvC ps s) ∧
      ocvToSocC ps (socToOcvC ps s) ≤ 10000 - p.percentage

section
variable {ps : List Point} (h : Profile ps) (hfit : Fits ps)
include h hfit

theorem ocvToDodC_mem (v : Int) : (∃ p ∈ ps, p.percentage ≤ ocvToDodC ps v) ∧
    ∃ p ∈ ps, ocvToDodC ps v ≤ p.percentage := by
  have hr := rising_swap (knots_rising h)
  have hne : (ps.map Point.knot).map Knot.swap ≠ [] := by simpa using h.nonempty
  rw [ocvToDodC_eq h hfit]
  obtain ⟨k, hk, hlo⟩ := le_eval hr (x := -v) hne
  obtain ⟨l, hl, hhi⟩ := eval_le hr (x := -v) hne
  simp only [List.mem_map, exists_exists_and_eq_and] at hk hl
  obtain ⟨p, hp, rfl⟩ := hk
  obtain ⟨q, hq, rfl⟩ := hl
  exact ⟨⟨p, hp, hlo⟩, q, hq, hhi⟩

theorem dodToOcvC_mem (dod : Int) : (∃ p ∈ ps, p.voltage ≤ dodToOcvC ps dod) ∧
    ∃ p ∈ ps, dodToOcvC ps dod ≤ p.voltage := by
  have hr := knots_rising h
  have hne : ps.map Point.knot ≠ [] := by simpa using h.nonempty
  rw [dodToOcvC_eq h hfit]
  obtain ⟨k, hk, hlo⟩ := le_eval hr (x := dod) hne
  obtain ⟨l, hl, hhi⟩ := eval_le hr (x := dod) hne
  obtain ⟨p, hp, rfl⟩ := List.mem_map.1 hk
  obtain ⟨q, hq, rfl⟩ := List.mem_map.1 hl
  simp only [Point.knot] at hlo hhi
  exact ⟨⟨q, hq, by omega⟩, p, hp, by omega⟩

theorem ocvToSocC_eq (v : Int) : ocvToSocC ps v = 10000 - ocvToDodC ps v := by
  obtain ⟨⟨p, hp, hlo⟩, q, hq, hhi⟩ := ocvToDodC_mem h hfit v
  have := h.percentage_mem p hp
  have := h.percentage_mem q hq
  exact i32_eq (by unfold IsI32; omega)

omit h hfit in
theorem socToOcvC_eq {s : Int} (hs : IsCharge s) :
    socToOcvC ps s = dodToOcvC ps (10000 - s) := by
  unfold socToOcvC dodToOcvC
  rw [i32_eq hs.2]

/-- **The conversions of a table** whose neighbouring rows fit the products. -/
theorem profile_converts : Converts ps := by
  have hr := knots_rising h
  have hrs := rising_swap hr
  have hst := knots_strict h
  -- rows as knots
  have hdod : ∀ p ∈ ps, ocvToDodC ps p.voltage = p.percentage := fun p hp => by
    rw [ocvToDodC_eq h hfit]
    exact eval_swap_value hr hst (List.mem_map_of_mem hp)
  refine ⟨fun v w hvw => ?_, fun s t hs ht hst' => ?_, ocvToSocC_eq h hfit, fun s => socToOcvC_eq,
    fun v => ?_, fun s hs => ?_, fun p hp => ?_, fun pre p post he hfirst => ?_,
    fun x => ⟨divisor_voltage h x, divisor_percentage x⟩, fun s hs p hp q hq hqs hsp => ?_⟩
  · rw [ocvToSocC_eq h hfit, ocvToSocC_eq h hfit, ocvToDodC_eq h hfit, ocvToDodC_eq h hfit]
    have := eval_mono hrs (Int.neg_le_neg hvw)
    omega
  · rw [socToOcvC_eq hs, socToOcvC_eq ht, dodToOcvC_eq h hfit, dodToOcvC_eq h hfit]
    have := eval_mono hr (show 10000 - t ≤ 10000 - s by omega)
    omega
  · obtain ⟨⟨p, hp, hlo⟩, q, hq, hhi⟩ := ocvToDodC_mem h hfit v
    rw [ocvToSocC_eq h hfit]
    exact ⟨⟨q, hq, by omega⟩, p, hp, by omega⟩
  · rw [socToOcvC_eq hs]
    exact dodToOcvC_mem h hfit _
  · rw [ocvToSocC_eq h hfit, hdod p hp]
  · have hp := h.percentage_mem p (by rw [he]; simp)
    have hc : IsCharge (10000 - p.percentage) := by
      unfold IsCharge IsI32
      omega
    have hfst : eval p.knot.key (ps.map Point.knot) = p.knot.value := by
      have he' : ps.map Point.knot = pre.map Point.knot ++ p.knot :: post.map Point.knot := by
        rw [he, List.map_append, List.map_cons]
      refine eval_first hr he' fun k hk => ?_
      obtain ⟨q, hq, rfl⟩ := List.mem_map.1 hk
      exact hfirst q hq
    rw [socToOcvC_eq hc, dodToOcvC_eq h hfit, Int.sub_sub_self]
    exact (Int.neg_eq_comm.1 hfst.symm)
  · have hback := eval_eval_mem hr hst (x := 10000 - s) (p := p.knot) (q := q.knot)
      (List.mem_map_of_mem hp) (List.mem_map_of_mem hq) (by simp only [Point.knot]; omega)
      (by simp only [Point.knot]; omega)
    simp only [Point.knot] at hback
    rw [ocvToSocC_eq h hfit, socToOcvC_eq hs, dodToOcvC_eq h hfit, ocvToDodC_eq h hfit, Int.neg_neg]
    omega

end

/-- A table with a flat run of percentages. -/
def flatRun : List Point := [⟨42000, 0⟩, ⟨41000, 5000⟩, ⟨40000, 5000⟩]

/-- The table with the largest steps. -/
def widest : List Point := [⟨65535, 0⟩, ⟨0, 65535⟩]

theorem flatRun_profile : Profile flatRun :=
  ⟨by decide, by decide, by decide, by decide, by decide⟩

theorem profile_converts_flatRun : Converts flatRun :=
  profile_converts flatRun_profile (by simp [Fits, flatRun])

/-- At the second row of a flat run a charge is converted to the voltage of the first. The charge
-2147483648 has no depth of discharge in an `int` and the first voltage, above that of an empty
battery. With the largest steps the product wraps, and the last row is not met. -/
theorem profile_converts_otherwise :
    (Profile flatRun ∧ ∃ p ∈ flatRun, socToOcvC flatRun (10000 - p.percentage) ≠ p.voltage) ∧
      socToOcvC flatRun 0 < socToOcvC flatRun (-2147483648) ∧
      (Profile widest ∧ ∃ p ∈ widest, ocvToDodC widest p.voltage ≠ p.percentage) :=
  ⟨⟨flatRun_profile, by decide +kernel⟩, by decide +kernel,
    ⟨by decide, by decide, by decide, by decide, by decide⟩, by decide +kernel⟩

end Battery
