import Mathlib.Data.List.Basic
import Mathlib.Algebra.Group.Nat.Defs

/-!
# Little-endian numbers

`le` is the number whose bytes, low byte first, are given; `ofNat n x` the `n` low bytes of `x`.

A `Buf n` is a block of `n` bytes. An access is given an offset and a number of bytes; it is `none`
when it touches a byte outside of the block (`read_isSome`, `write_isSome`), and an access of no
bytes touches none.
-/

namespace Bytes

/-- The number with the given bytes, low byte first. -/
def le : List UInt8 → Nat
  | [] => 0
  | b :: bs => b.toNat + 256 * le bs

/-- The `n` low bytes of a number, low byte first. -/
def ofNat : Nat → Nat → List UInt8
  | 0, _ => []
  | n + 1, x => UInt8.ofNat x :: ofNat n (x / 256)

@[simp] theorem length_ofNat (n x : Nat) : (ofNat n x).length = n := by
  induction n generalizing x with
  | zero => rfl
  | succ n ih => simp [ofNat, ih]

theorem le_append (as bs : List UInt8) : le (as ++ bs) = le as + 256 ^ as.length * le bs := by
  induction as with
  | nil => simp [le]
  | cons a as ih =>
    simp only [List.cons_append, le, ih, List.length_cons, Nat.pow_succ, Nat.mul_add]
    rw [Nat.mul_comm (256 ^ as.length) 256, Nat.mul_assoc]
    omega

theorem le_lt (bs : List UInt8) : le bs < 256 ^ bs.length := by
  induction bs with
  | nil => decide
  | cons b bs ih =>
    have := b.toNat_lt
    simp only [le, List.length_cons, Nat.pow_succ]
    omega

theorem le_ofNat (n x : Nat) : le (ofNat n x) = x % 256 ^ n := by
  induction n generalizing x with
  | zero => simp [ofNat, le, Nat.mod_one]
  | succ n ih =>
    rw [ofNat, le, ih, UInt8.toNat_ofNat', Nat.pow_succ' (m := 256)]
    exact (Nat.mod_mul (a := 256)).symm

/-! ## 32-bit words -/

/-- The bytes of a list of words. -/
def ofWords (ws : List UInt32) : List UInt8 := ws.flatMap fun w => ofNat 4 w.toNat

/-- Word `i` of a byte string; bytes past its end are zero. -/
def word (bs : List UInt8) (i : Nat) : UInt32 := UInt32.ofNat (le ((bs.drop (4 * i)).take 4))

@[simp] theorem length_ofWords (ws : List UInt32) : (ofWords ws).length = 4 * ws.length := by
  induction ws with
  | nil => rfl
  | cons w ws ih =>
    rw [ofWords, List.flatMap_cons, List.length_append, length_ofNat, ← ofWords, ih,
      List.length_cons]
    omega

theorem word_ofWords {ws : List UInt32} {i : Nat} (h : i < ws.length) :
    word (ofWords ws) i = ws[i] := by
  induction ws generalizing i with
  | nil => exact absurd h (Nat.not_lt_zero _)
  | cons w ws ih =>
    rw [ofWords, List.flatMap_cons, ← ofWords]
    cases i with
    | zero =>
      have hw : w.toNat < 256 ^ 4 := w.toNat_lt
      rw [word, Nat.mul_zero, List.drop_zero, List.take_left' (length_ofNat 4 _), le_ofNat,
        Nat.mod_eq_of_lt hw]
      exact UInt32.ofNat_toNat
    | succ i =>
      rw [word, show 4 * (i + 1) = (ofNat 4 w.toNat).length + 4 * i by rw [length_ofNat]; omega,
        ← List.drop_drop, List.drop_left, List.getElem_cons_succ]
      exact ih (Nat.lt_of_succ_lt_succ h)

end Bytes

/-! ## Blocks of memory with bounds -/

/-- A block of `n` bytes. -/
structure Buf (n : Nat) where
  bytes : List UInt8
  length_eq : bytes.length = n

namespace Buf

variable {n : Nat}

/-- The block of zero bytes. -/
def zero (n : Nat) : Buf n := ⟨List.replicate n 0, List.length_replicate⟩

/-- The block with the given contents. -/
def ofList (bs : List UInt8) : Buf bs.length := ⟨bs, rfl⟩

/-- An access that touches no byte outside of a block of `n` bytes. -/
def Within (n off len : Nat) : Prop := len = 0 ∨ off + len ≤ n

instance (n off len : Nat) : Decidable (Within n off len) := by
  unfold Within
  infer_instance

/-- The `len` bytes at `off`. -/
def read (b : Buf n) (off len : Nat) : Option (List UInt8) :=
  if Within n off len then some ((b.bytes.drop off).take len) else none

/-- The bytes `bs` stored at `off`. -/
def write (b : Buf n) (off : Nat) (bs : List UInt8) : Option (Buf n) :=
  if h : Within n off bs.length then
    some ⟨b.bytes.take off ++ bs ++ b.bytes.drop (off + bs.length), by
      have := b.length_eq
      simp only [Within, List.length_append, List.length_take, List.length_drop] at h ⊢
      omega⟩
  else none

/-- The 32-bit number at `off`. -/
def u32 (b : Buf n) (off : Nat) : Option Nat := (b.read off 4).map Bytes.le

/-- The 32-bit number of the bytes of the block from `off` on. -/
def word (b : Buf n) (off : Nat) : Nat := Bytes.le ((b.bytes.drop off).take 4)

/-- The length of the text at `off`, up to its terminator. -/
def strlen (b : Buf n) (off : Nat) : Option Nat := (b.bytes.drop off).idxOf? 0

@[simp] theorem within_zero {len : Nat} : Within n 0 len ↔ len ≤ n := by
  simp only [Within]
  omega

theorem within_pos {off len : Nat} (h : 0 < len) : Within n off len ↔ off + len ≤ n := by
  simp only [Within]
  omega

@[simp] theorem read_isSome (b : Buf n) (off len : Nat) :
    (b.read off len).isSome ↔ Within n off len := by
  unfold read
  split <;> simp_all

@[simp] theorem write_isSome (b : Buf n) (off : Nat) (bs : List UInt8) :
    (b.write off bs).isSome ↔ Within n off bs.length := by
  unfold write
  split <;> simp_all

theorem u32_eq (b : Buf n) (off : Nat) :
    b.u32 off = if off + 4 ≤ n then some (b.word off) else none := by
  unfold u32 read
  rw [if_congr (within_pos (by decide)) rfl rfl]
  split <;> rfl

theorem u32_isSome (b : Buf n) (off : Nat) : (b.u32 off).isSome ↔ off + 4 ≤ n := by
  rw [u32_eq]
  split <;> simp_all

theorem u32_some {b : Buf n} {off v : Nat} (h : b.u32 off = some v) : v = b.word off := by
  rw [u32_eq] at h
  split at h
  · exact (Option.some.inj h).symm
  · cases h

theorem length_read {b : Buf n} {off len : Nat} {bs : List UInt8} (h : b.read off len = some bs) :
    bs.length = len := by
  have hb := b.length_eq
  unfold read at h
  split at h
  · next hw =>
    cases h
    simp only [Within] at hw
    rw [List.length_take, List.length_drop]
    omega
  · cases h

theorem bytes_write {b b' : Buf n} {off : Nat} {bs : List UInt8} (h : b.write off bs = some b') :
    Within n off bs.length ∧
      b'.bytes = b.bytes.take off ++ (bs ++ b.bytes.drop (off + bs.length)) := by
  unfold write at h
  split at h
  · next hw =>
    cases h
    exact ⟨hw, List.append_assoc ..⟩
  · cases h

/-- What was written is read again. -/
theorem read_write_same {b b' : Buf n} {off : Nat} {bs : List UInt8}
    (h : b.write off bs = some b') : b'.read off bs.length = some bs := by
  obtain ⟨hw, he⟩ := bytes_write h
  rw [read, if_pos hw, he]
  rcases hw with h0 | h0
  · rw [h0, List.take_zero, List.length_eq_zero_iff.1 h0]
  · have := b.length_eq
    rw [List.drop_left' (by rw [List.length_take]; omega), List.take_left' rfl]

/-- A write changes nothing before its offset. -/
theorem read_write_before {b b' : Buf n} {off o l : Nat} {bs : List UInt8}
    (h : b.write off bs = some b') (ho : o + l ≤ off) : b'.read o l = b.read o l := by
  obtain ⟨hw, he⟩ := bytes_write h
  rw [read, read, he]
  rcases hw with h0 | h0
  · rw [List.length_eq_zero_iff.1 h0, List.nil_append, List.length_nil, Nat.add_zero,
      List.take_append_drop]
  · have := b.length_eq
    have htake : ((b.bytes.take off).drop o).take l = (b.bytes.drop o).take l := by
      rw [List.drop_take, List.take_take, Nat.min_eq_left (by omega)]
    rw [List.drop_append_of_le_length (by rw [List.length_take]; omega),
      List.take_append_of_le_length (by rw [List.length_drop, List.length_take]; omega), htake]

/-- Behind what is at the start of a block, more is written. -/
theorem take_write {b b' : Buf n} {off : Nat} {bs : List UInt8} (h : b.write off bs = some b')
    (ho : off ≤ n) : b'.bytes.take (off + bs.length) = b.bytes.take off ++ bs := by
  obtain ⟨-, he⟩ := bytes_write h
  have := b.length_eq
  rw [he, ← List.append_assoc, List.take_left']
  rw [List.length_append, List.length_take]
  omega

theorem strlen_isSome (b : Buf n) (off : Nat) : (b.strlen off).isSome ↔ 0 ∈ b.bytes.drop off := by
  rw [strlen, List.isSome_idxOf?]

/-- A text ends inside its block. -/
theorem strlen_lt {b : Buf n} {off k : Nat} (h : b.strlen off = some k) : off + k < n := by
  have hk := (List.idxOf?_eq_some_iff.1 h).1
  have := b.length_eq
  rw [List.length_drop] at hk
  omega

/-! ## Sequences of accesses -/

/-- One access after another. -/
theorem isSome_bind_iff {α β : Type*} {x : Option α} {f : α → Option β} {P Q : Prop}
    (hx : x.isSome ↔ P) (hf : ∀ a, x = some a → ((f a).isSome ↔ Q)) :
    (x.bind f).isSome ↔ P ∧ Q := by
  rw [← hx]
  cases x with
  | none => simp
  | some a => simpa using hf a rfl

theorem isSome_bind {α β : Type*} {x : Option α} {f : α → Option β} (hx : x.isSome)
    (hf : ∀ a, x = some a → (f a).isSome) : (x.bind f).isSome := by
  obtain ⟨a, rfl⟩ := Option.isSome_iff_exists.1 hx
  exact hf a rfl

/-- An access that cannot fail after the one before it. -/
theorem isSome_bind_left {α β : Type*} {x : Option α} {f : α → Option β}
    (hf : ∀ a, x = some a → (f a).isSome) : (x.bind f).isSome ↔ x.isSome :=
  ⟨Option.isSome_of_isSome_bind, fun hx => isSome_bind hx hf⟩

end Buf
