import Mathlib.Data.List.Basic

/-!
# Code with jumps

Cells of `n` addresses each hold an instruction. `target` tells the instructions that jump from the
others. `follow` runs the code from an address to a stop address and gives the instructions that do
not jump, in the order they are run; `none` when the fuel is used up or an address has no cell.
-/

namespace Code

variable {α : Type*} (mem : Nat → Option α) (target : α → Option Nat) (n stop : Nat)

/-- The instructions run from an address to the stop address. -/
def follow : Nat → Nat → Option (List α)
  | 0, _ => none
  | fuel + 1, pc =>
    if pc = stop then some [] else
      match mem pc with
      | none => none
      | some v =>
        match target v with
        | some a => follow fuel a
        | none => (follow fuel (pc + n)).map (v :: ·)

variable {mem target n stop}

theorem follow_stop (fuel : Nat) : follow mem target n stop (fuel + 1) stop = some [] := by
  simp [follow]

theorem follow_jump {fuel pc a : Nat} {v : α} (hs : pc ≠ stop) (hm : mem pc = some v)
    (ht : target v = some a) :
    follow mem target n stop (fuel + 1) pc = follow mem target n stop fuel a := by
  simp [follow, hs, hm, ht]

theorem follow_plain {fuel pc : Nat} {v : α} (hs : pc ≠ stop) (hm : mem pc = some v)
    (ht : target v = none) :
    follow mem target n stop (fuel + 1) pc =
      (follow mem target n stop fuel (pc + n)).map (v :: ·) := by
  simp [follow, hs, hm, ht]

/-- A run of cells that do not jump. -/
theorem follow_line {f : Nat → α} {fuel : Nat} {l : List α} :
    ∀ (m pc : Nat), (∀ j < m, pc + n * j ≠ stop) → (∀ j < m, mem (pc + n * j) = some (f j)) →
      (∀ j < m, target (f j) = none) → follow mem target n stop fuel (pc + n * m) = some l →
      follow mem target n stop (fuel + m) pc = some ((List.range m).map f ++ l) := by
  intro m
  induction m generalizing f with
  | zero =>
    intro pc _ _ _ hl
    simpa using hl
  | succ m ih =>
    intro pc hs hm ht hl
    have hstep : ∀ j, pc + n + n * j = pc + n * (j + 1) := fun j => by
      rw [Nat.mul_succ]
      omega
    have hrest : follow mem target n stop (fuel + m) (pc + n) =
        some ((List.range m).map (fun j => f (j + 1)) ++ l) := by
      apply ih (f := fun j => f (j + 1)) (pc + n)
      · intro j hj
        rw [hstep]
        exact hs _ (by omega)
      · intro j hj
        rw [hstep]
        exact hm _ (by omega)
      · intro j hj
        exact ht _ (by omega)
      · rw [hstep]
        exact hl
    have h0 := hm 0 (by omega)
    rw [Nat.mul_zero, Nat.add_zero] at h0
    have hs0 := hs 0 (by omega)
    rw [Nat.mul_zero, Nat.add_zero] at hs0
    rw [← Nat.add_assoc, follow_plain hs0 h0 (ht 0 (by omega)), hrest, List.range_succ_eq_map]
    simp [Function.comp_def]

/-- More fuel gives the same. -/
theorem follow_mono {fuel pc : Nat} {l : List α} (h : follow mem target n stop fuel pc = some l)
    (k : Nat) : follow mem target n stop (fuel + k) pc = some l := by
  induction fuel generalizing pc l with
  | zero => simp [follow] at h
  | succ fuel ih =>
    rw [Nat.add_right_comm]
    by_cases hs : pc = stop
    · subst hs
      rw [follow_stop] at h ⊢
      exact h
    · cases hm : mem pc with
      | none => simp [follow, hs, hm] at h
      | some v =>
        cases ht : target v with
        | some a =>
          rw [follow_jump hs hm ht] at h ⊢
          exact ih h
        | none =>
          rw [follow_plain hs hm ht] at h ⊢
          obtain ⟨l', hl', rfl⟩ := Option.map_eq_some_iff.1 h
          rw [ih hl']
          rfl

/-- Code whose cells are read through `f`, by an engine that jumps at least where the first one
does: it runs the same, if it does not jump at the instructions that were run. -/
theorem follow_map {β : Type*} {mem' : Nat → Option β} {target' : β → Option Nat} {f : α → β}
    (hm : ∀ addr, mem' addr = (mem addr).map f)
    (ht : ∀ v a, target v = some a → target' (f v) = some a) {fuel pc : Nat} {l : List α}
    (h : follow mem target n stop fuel pc = some l) (hl : ∀ v ∈ l, target' (f v) = none) :
    follow mem' target' n stop fuel pc = some (l.map f) := by
  induction fuel generalizing pc l with
  | zero => simp [follow] at h
  | succ fuel ih =>
    by_cases hs : pc = stop
    · subst hs
      rw [follow_stop, Option.some.injEq] at h
      rw [follow_stop, ← h, List.map_nil]
    · cases hv : mem pc with
      | none => simp [follow, hs, hv] at h
      | some v =>
        have hv' : mem' pc = some (f v) := by rw [hm, hv, Option.map_some]
        cases hj : target v with
        | some a =>
          rw [follow_jump hs hv hj] at h
          rw [follow_jump hs hv' (ht v a hj)]
          exact ih h hl
        | none =>
          rw [follow_plain hs hv hj] at h
          obtain ⟨l', hl', rfl⟩ := Option.map_eq_some_iff.1 h
          rw [follow_plain hs hv' (hl v (by simp)), ih hl' fun w hw => hl w (by simp [hw])]
          rfl

end Code
