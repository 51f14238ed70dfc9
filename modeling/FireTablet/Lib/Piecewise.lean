import Mathlib.Algebra.Order.Group.Unbundled.Int
import Mathlib.Data.List.Nodup

/-!
# Piecewise linear functions of integers

A function is given by knots whose keys and values do not fall. Its value at `x` is that of the
first knot if `x` is not behind it, of the last one if it is behind all, and lies on the line,
rounded down, through the first knot that `x` is not behind and the one before otherwise. With
values that rise the swapped knots give a function back that keeps what lies between two keys there.
-/

namespace Piecewise

structure Knot where
  key : Int
  value : Int
  deriving DecidableEq

def Knot.swap (p : Knot) : Knot := ⟨p.value, p.key⟩

/-- The line through two knots, rounded down. -/
def line (p q : Knot) (x : Int) : Int :=
  p.value + (q.value - p.value) * (x - p.key) / (q.key - p.key)

/-- The value at `x`, which is behind a knot. -/
def behind (x : Int) (prev : Knot) : List Knot → Int
  | [] => prev.value
  | q :: qs => if x ≤ q.key then line prev q x else behind x q qs

/-- The value at `x`. -/
def eval (x : Int) : List Knot → Int
  | [] => 0
  | p :: ps => if x ≤ p.key then p.value else behind x p ps

/-- Neither the keys nor the values fall. -/
def Rising (ps : List Knot) : Prop :=
  ps.Pairwise fun p q => p.key ≤ q.key ∧ p.value ≤ q.value

/-! ## Lines -/

section
variable {p q : Knot} (h : p.value ≤ q.value) {x y : Int}
include h

theorem le_line (hp : p.key < x) (hq : x ≤ q.key) : p.value ≤ line p q x := by
  have := Int.ediv_nonneg (Int.mul_nonneg (Int.sub_nonneg.2 h) (Int.sub_nonneg.2 (Int.le_of_lt hp)))
    (Int.sub_nonneg.2 (Int.le_trans (Int.le_of_lt hp) hq))
  unfold line
  omega

theorem line_mono (hp : p.key < x) (hxy : x ≤ y) (hq : y ≤ q.key) : line p q x ≤ line p q y := by
  have hmul : (q.value - p.value) * (x - p.key) ≤ (q.value - p.value) * (y - p.key) :=
    Int.mul_le_mul_of_nonneg_left (by omega) (Int.sub_nonneg.2 h)
  have := Int.ediv_le_ediv (show 0 < q.key - p.key by omega) hmul
  unfold line
  omega

omit h in
theorem line_key (hpq : p.key < q.key) : line p q q.key = q.value := by
  rw [line, Int.mul_ediv_cancel _ (by omega)]
  omega

theorem line_le (hp : p.key < x) (hq : x ≤ q.key) : line p q x ≤ q.value :=
  Int.le_trans (line_mono h hp hq (Int.le_refl _)) (Int.le_of_eq (line_key (by omega)))

end

/-! ## Behind a knot -/

theorem le_behind {x : Int} {prev : Knot} {qs : List Knot} (h : Rising (prev :: qs))
    (hx : prev.key < x) : prev.value ≤ behind x prev qs := by
  induction qs generalizing prev with
  | nil => exact Int.le_refl _
  | cons q qs ih =>
    obtain ⟨hprev, hqs⟩ := List.pairwise_cons.1 h
    have hv := (hprev q (List.mem_cons_self ..)).2
    rw [behind]
    split
    · exact le_line hv hx ‹_›
    · exact Int.le_trans hv (ih hqs (by omega))

theorem behind_le {x : Int} {prev : Knot} {qs : List Knot} (h : Rising (prev :: qs))
    (hx : prev.key < x) : ∃ q ∈ prev :: qs, behind x prev qs ≤ q.value := by
  induction qs generalizing prev with
  | nil => exact ⟨prev, List.mem_cons_self .., Int.le_refl _⟩
  | cons q qs ih =>
    obtain ⟨hprev, hqs⟩ := List.pairwise_cons.1 h
    rw [behind]
    split
    next hq =>
      exact ⟨q, by simp, line_le (hprev q (List.mem_cons_self ..)).2 hx hq⟩
    next hq =>
      obtain ⟨r, hr, hle⟩ := ih hqs (by omega)
      exact ⟨r, List.mem_cons_of_mem _ hr, hle⟩

theorem behind_mono {x y : Int} {prev : Knot} {qs : List Knot} (h : Rising (prev :: qs))
    (hx : prev.key < x) (hxy : x ≤ y) : behind x prev qs ≤ behind y prev qs := by
  induction qs generalizing prev with
  | nil => exact Int.le_refl _
  | cons q qs ih =>
    obtain ⟨hprev, hqs⟩ := List.pairwise_cons.1 h
    have hv := (hprev q (List.mem_cons_self ..)).2
    rw [behind, behind]
    split
    next hxq =>
      split
      next hyq => exact line_mono hv hx hxy hyq
      next hyq => exact Int.le_trans (line_le hv hx hxq) (le_behind hqs (by omega))
    next hxq =>
      rw [if_neg (by omega)]
      exact ih hqs (by omega)

/-- At a knot's key the function has the value of a knot with this key. -/
theorem behind_key {prev p : Knot} {qs : List Knot} (h : Rising (prev :: qs)) (hp : p ∈ qs)
    (hx : prev.key < p.key) :
    ∃ f ∈ qs, f.key = p.key ∧ f.value ≤ p.value ∧ behind p.key prev qs = f.value := by
  induction qs generalizing prev with
  | nil => cases hp
  | cons q qs ih =>
    obtain ⟨-, hqs⟩ := List.pairwise_cons.1 h
    rw [behind]
    rcases List.mem_cons.1 hp with rfl | hmem
    · rw [if_pos (Int.le_refl _)]
      exact ⟨p, hp, rfl, Int.le_refl _, line_key hx⟩
    · have hle := (List.pairwise_cons.1 hqs).1 p hmem
      split
      next hpq =>
        have he : q.key = p.key := Int.le_antisymm hle.1 hpq
        exact ⟨q, List.mem_cons_self .., he, hle.2, by rw [← he]; exact line_key (he ▸ hx)⟩
      next hpq =>
        obtain ⟨f, hf, hfk⟩ := ih hqs hmem (by omega)
        exact ⟨f, List.mem_cons_of_mem _ hf, hfk⟩

/-! ## Everywhere -/

section
variable {ps : List Knot} (h : Rising ps) {x y : Int}
include h

/-- **The function does not fall.** -/
theorem eval_mono (hxy : x ≤ y) : eval x ps ≤ eval y ps := by
  cases ps with
  | nil => exact Int.le_refl _
  | cons p ps =>
    rw [eval, eval]
    split
    · split
      · exact Int.le_refl _
      · exact le_behind h (by omega)
    · rw [if_neg (by omega)]
      exact behind_mono h (by omega) hxy

/-- No value is below all knots. -/
theorem le_eval (hne : ps ≠ []) : ∃ p ∈ ps, p.value ≤ eval x ps := by
  cases ps with
  | nil => exact absurd rfl hne
  | cons p ps =>
    refine ⟨p, List.mem_cons_self .., ?_⟩
    rw [eval]
    split
    · exact Int.le_refl _
    · exact le_behind h (by omega)

/-- No value is above all knots. -/
theorem eval_le (hne : ps ≠ []) : ∃ p ∈ ps, eval x ps ≤ p.value := by
  cases ps with
  | nil => exact absurd rfl hne
  | cons p ps =>
    rw [eval]
    split
    · exact ⟨p, List.mem_cons_self .., Int.le_refl _⟩
    · exact behind_le h (by omega)

/-- At a knot's key the function has the value of a knot with this key, which no other one is
below. -/
theorem eval_key {p : Knot} (hp : p ∈ ps) :
    ∃ f ∈ ps, f.key = p.key ∧ f.value ≤ p.value ∧ eval p.key ps = f.value := by
  cases ps with
  | nil => cases hp
  | cons q qs =>
    rw [eval]
    rcases List.mem_cons.1 hp with rfl | hmem
    · rw [if_pos (Int.le_refl _)]
      exact ⟨p, hp, rfl, Int.le_refl _, rfl⟩
    · have hle := (List.pairwise_cons.1 h).1 p hmem
      split
      next hpq => exact ⟨q, List.mem_cons_self .., Int.le_antisymm hle.1 hpq, hle.2, rfl⟩
      next hpq =>
        obtain ⟨f, hf, hfk⟩ := behind_key h hmem (by omega)
        exact ⟨f, List.mem_cons_of_mem _ hf, hfk⟩

/-- At the first knot with its key the function is exact. -/
theorem eval_first {pre post : List Knot} {p : Knot} (he : ps = pre ++ p :: post)
    (hfirst : ∀ q ∈ pre, q.key ≠ p.key) : eval p.key ps = p.value := by
  obtain ⟨f, hf, hfk, hfv, heval⟩ := eval_key h (p := p) (by rw [he]; simp)
  rw [heval]
  refine Int.le_antisymm hfv ?_
  rw [he, Rising, List.pairwise_append] at h
  rw [he, List.mem_append, List.mem_cons] at hf
  rcases hf with hf | rfl | hf
  · exact absurd hfk (hfirst f hf)
  · exact Int.le_refl _
  · exact ((List.pairwise_cons.1 h.2.1).1 f hf).2

/-! ## There and back -/

theorem rising_swap : Rising (ps.map Knot.swap) :=
  List.pairwise_map.2 (h.imp fun hpq => ⟨hpq.2, hpq.1⟩)

variable (hs : ps.Pairwise fun p q => p.value < q.value)
include hs

/-- Back from a knot's value. -/
theorem eval_swap_value {p : Knot} (hp : p ∈ ps) : eval p.value (ps.map Knot.swap) = p.key := by
  obtain ⟨f, hf, hfk, -, heval⟩ :=
    eval_key (rising_swap h) (p := p.swap) (List.mem_map_of_mem hp)
  obtain ⟨g, hg, rfl⟩ := List.mem_map.1 hf
  have hn : (ps.map Knot.value).Nodup := List.pairwise_map.2 (hs.imp Int.ne_of_lt)
  have hgp : g = p := List.inj_on_of_nodup_map hn hg hp hfk
  rw [show p.value = p.swap.key from rfl, heval, hgp]
  rfl

/-- There and back from a knot's key. -/
theorem eval_eval_key {p : Knot} (hp : p ∈ ps) :
    eval (eval p.key ps) (ps.map Knot.swap) = p.key := by
  obtain ⟨f, hf, hfk, -, heval⟩ := eval_key h hp
  rw [heval, eval_swap_value h hs hf, hfk]

/-- **There and back** stays between two keys. -/
theorem eval_eval_mem {p q : Knot} (hp : p ∈ ps) (hq : q ∈ ps) (hpx : p.key ≤ x)
    (hxq : x ≤ q.key) :
    p.key ≤ eval (eval x ps) (ps.map Knot.swap) ∧
      eval (eval x ps) (ps.map Knot.swap) ≤ q.key := by
  have hr := rising_swap h
  constructor
  · calc p.key = eval (eval p.key ps) (ps.map Knot.swap) := (eval_eval_key h hs hp).symm
      _ ≤ eval (eval x ps) (ps.map Knot.swap) := eval_mono hr (eval_mono h hpx)
  · calc eval (eval x ps) (ps.map Knot.swap) ≤ eval (eval q.key ps) (ps.map Knot.swap) :=
          eval_mono hr (eval_mono h hxq)
      _ = q.key := eval_eval_key h hs hq

end

end Piecewise
