import Mathlib.Data.Int.Init

/-!
# C integers

C integers are `Int`s; a conversion to a fixed-width type is applied where C applies one. Signed
arithmetic wraps (kernel code is built with `-fno-strict-overflow`), so the value of an `int32_t`
expression is the conversion of its exact value.
-/

namespace CInt

/-- Conversion to `int32_t`. -/
def i32 (x : Int) : Int := (x + 2147483648) % 4294967296 - 2147483648

/-- Conversion to `uint16_t`. -/
def u16 (x : Int) : Int := x % 65536

/-- Conversion to `uint32_t`. -/
def u32 (x : Int) : Int := x % 4294967296

/-- Conversion to a 64-bit `size_t` or `unsigned long`. -/
def u64 (x : Int) : Int := x % 18446744073709551616

/-- Conversion to a 64-bit `long`. -/
def i64 (x : Int) : Int := (x + 9223372036854775808) % 18446744073709551616 - 9223372036854775808

/-- `x` is a value of type `int32_t`. -/
def IsI32 (x : Int) : Prop := -2147483648 ≤ x ∧ x < 2147483648

instance (x : Int) : Decidable (IsI32 x) := inferInstanceAs (Decidable (_ ∧ _))

theorem isI32_i32 (x : Int) : IsI32 (i32 x) := by
  unfold IsI32 i32; omega

theorem i32_eq {x : Int} (h : IsI32 x) : i32 x = x := by
  unfold IsI32 at h; unfold i32; omega

@[simp] theorem i32_i32 (x : Int) : i32 (i32 x) = i32 x := i32_eq (isI32_i32 x)

theorem u32_eq {x : Int} (h0 : 0 ≤ x) (h : x < 4294967296) : u32 x = x := by
  unfold u32; omega

theorem u64_eq {x : Int} (h0 : 0 ≤ x) (h : x < 18446744073709551616) : u64 x = x := by
  unfold u64; omega

theorem i64_eq {x : Int} (h0 : -9223372036854775808 ≤ x) (h : x < 9223372036854775808) :
    i64 x = x := by
  unfold i64; omega

/-! ## Rounding -/

/-- `x` rounded up to whole units. -/
def roundUp (x u : Int) : Int := x + u - 1 - (x + u - 1) % u

theorem dvd_roundUp (x u : Int) : u ∣ roundUp x u := Int.dvd_self_sub_emod

section
variable {x u : Int} (hu : 0 < u)
include hu

theorem le_roundUp : x ≤ roundUp x u := by
  have := Int.emod_lt_of_pos (x + u - 1) hu
  unfold roundUp; omega

/-- Rounding up leaves whole units as they are and nothing else. -/
theorem lt_roundUp_iff : x < roundUp x u ↔ x % u ≠ 0 := by
  have hle := le_roundUp (x := x) hu
  refine ⟨fun hlt h0 => ?_, fun h0 => ?_⟩
  · have h1 : (x + u - 1) % u = u - 1 := by
      rw [show x + u - 1 = x + (u - 1) by omega, Int.add_emod, h0, Int.zero_add, Int.emod_emod,
        Int.emod_eq_of_lt (by omega) (by omega)]
    unfold roundUp at hlt; omega
  · rcases Int.lt_or_eq_of_le hle with h | h
    · exact h
    · exact absurd (Int.emod_eq_zero_of_dvd (h ▸ dvd_roundUp x u)) h0

end

theorem emod_le_self {x u : Int} (h : 0 ≤ x) (hu : 0 < u) : x % u ≤ x := by
  have h1 := Int.mul_ediv_add_emod x u
  have h2 := Int.mul_nonneg (Int.le_of_lt hu) (Int.ediv_nonneg h (Int.le_of_lt hu))
  omega

/-- Truncated division leaves a remainder between zero and the number. -/
theorem tmod_between (x : Int) {u : Int} (hu : 0 < u) :
    0 ≤ x ∧ 0 ≤ x.tmod u ∧ x.tmod u ≤ x ∨ x < 0 ∧ x ≤ x.tmod u ∧ x.tmod u ≤ 0 := by
  rcases Int.lt_or_le x 0 with h | h
  · refine .inr ⟨h, ?_⟩
    have h1 := Int.emod_nonneg (-x) (Int.ne_of_gt hu)
    have h2 : -x % u ≤ -x := emod_le_self (by omega) hu
    have h3 : x.tmod u = -(-x % u) := by
      rw [← Int.tmod_eq_emod_of_nonneg (by omega), Int.neg_tmod, Int.neg_neg]
    omega
  · refine .inl ⟨h, ?_⟩
    rw [Int.tmod_eq_emod_of_nonneg h]
    exact ⟨Int.emod_nonneg _ (Int.ne_of_gt hu), emod_le_self h hu⟩

/-- Truncated division keeps a bound in whole units, below and above. -/
theorem le_tdiv {x u lo : Int} (hu : 0 < u) (h : lo * u ≤ x) : lo ≤ x.tdiv u := by
  have h1 := Int.tmod_add_tdiv_mul x u
  have h2 := tmod_between x hu
  have h3 := Int.tmod_lt_of_pos x hu
  apply Int.le_of_lt_add_one
  apply Int.lt_of_mul_lt_mul_right (a := u) ?_ (Int.le_of_lt hu)
  rw [Int.add_mul]
  omega

theorem tdiv_le {x u hi : Int} (hu : 0 < u) (h : x ≤ hi * u) : x.tdiv u ≤ hi := by
  have h1 : -hi ≤ (-x).tdiv u := le_tdiv hu (by rw [Int.neg_mul]; omega)
  rw [Int.neg_tdiv] at h1
  omega

end CInt
