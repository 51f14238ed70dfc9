import Mathlib.Data.BitVec

/-!
# Bit fields of a register

A field is given by its mask and its shift, as drivers give it. `get` reads it from the value of the
register and `set` writes it by read, modify and write: what is read is what was written if it fits
(`get_set`), fields with disjoint masks do not touch each other (`get_set_of_disjoint`), and bits
outside the mask stay (`getLsbD_set`).
-/

/-- A field of a register of `w` bits. -/
structure BitField (w : Nat) where
  mask : BitVec w
  shift : Nat

namespace BitField

variable {w : Nat} (f g : BitField w) (v x : BitVec w)

/-- The value of the field. -/
def get : BitVec w := (v &&& f.mask) >>> f.shift

/-- The register with another value in the field. -/
def set : BitVec w := (v &&& ~~~f.mask) ||| ((x <<< f.shift) &&& f.mask)

/-- The value fits the field. -/
def Fits : Prop := ((x <<< f.shift) &&& f.mask) >>> f.shift = x

instance : Decidable (f.Fits x) := inferInstanceAs (Decidable (_ = _))

/-- The fields have no bit in common. -/
def Disjoint : Prop := f.mask &&& g.mask = 0

instance : Decidable (f.Disjoint g) := inferInstanceAs (Decidable (_ = _))

/-- The two values differ in the field only. -/
def SameRest (v v' : BitVec w) : Prop := v &&& ~~~f.mask = v' &&& ~~~f.mask

instance (v v' : BitVec w) : Decidable (f.SameRest v v') := inferInstanceAs (Decidable (_ = _))

variable {f g x}

/-- Writing the field of either of two values that differ in it only gives the same. -/
theorem set_congr {v v' : BitVec w} (h : f.SameRest v v') : f.set v x = f.set v' x := by
  unfold SameRest at h
  rw [set, set, h]

/-- A bit outside the mask stays. -/
theorem getLsbD_set {i : Nat} (h : f.mask.getLsbD i = false) :
    (f.set v x).getLsbD i = v.getLsbD i := by
  rw [set, BitVec.getLsbD_or, BitVec.getLsbD_and, BitVec.getLsbD_and, BitVec.getLsbD_not, h]
  by_cases hi : i < w
  · simp [hi]
  · simp [BitVec.getLsbD_of_ge v i (by omega)]

theorem get_set (h : f.Fits x) : f.get (f.set v x) = x := by
  have hmask : f.set v x &&& f.mask = (x <<< f.shift) &&& f.mask := by
    apply BitVec.eq_of_getLsbD_eq
    intro i hi
    simp only [set, BitVec.getLsbD_and, BitVec.getLsbD_or, BitVec.getLsbD_not, hi]
    cases f.mask.getLsbD i <;> simp
  rw [get, hmask]
  exact h

theorem get_set_of_disjoint (h : f.Disjoint g) : g.get (f.set v x) = g.get v := by
  have hmask : f.set v x &&& g.mask = v &&& g.mask := by
    apply BitVec.eq_of_getLsbD_eq
    intro i hi
    have hbit : (f.mask &&& g.mask).getLsbD i = false := by rw [h]; simp
    rw [BitVec.getLsbD_and] at hbit
    rw [BitVec.getLsbD_and, BitVec.getLsbD_and]
    cases hf : f.mask.getLsbD i with
    | false => rw [getLsbD_set v hf]
    | true =>
      rw [hf, Bool.true_and] at hbit
      rw [hbit, Bool.and_false, Bool.and_false]
  rw [get, get, hmask]

/-- A part of a field that is written. -/
theorem get_set_of_subset (h : g.mask &&& f.mask = g.mask) :
    g.get (f.set v x) = g.get (x <<< f.shift) := by
  have hmask : f.set v x &&& g.mask = (x <<< f.shift) &&& g.mask := by
    apply BitVec.eq_of_getLsbD_eq
    intro i hi
    have hbit : (g.mask &&& f.mask).getLsbD i = g.mask.getLsbD i := by rw [h]
    rw [BitVec.getLsbD_and] at hbit
    simp only [set, BitVec.getLsbD_and, BitVec.getLsbD_or, BitVec.getLsbD_not, hi]
    cases hg : g.mask.getLsbD i with
    | false => simp
    | true =>
      rw [hg, Bool.true_and] at hbit
      simp [hbit]
  rw [get, get, hmask]

variable (f)

/-- The field is cleared by writing 0. -/
theorem set_zero : f.set v 0 = v &&& ~~~f.mask := by
  simp [set]

theorem fits_zero : f.Fits 0 := by
  simp [Fits]

end BitField
