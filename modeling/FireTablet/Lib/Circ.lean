import Mathlib.Data.List.Basic
import Mathlib.Data.Nat.Bitwise

/-!
# Circular buffers

A circular buffer is a function from slots to values, of which the slots `0 .. N - 1` are used.
`wrap N i` is the slot `i` places after slot `0` for `i < 2 * N`, `dist N w p` the number of places
from slot `w` forward to slot `p`. `read` lists `k` slots from `r` on, `write` replaces the slots
from `w` on; both go round the end. The rules about the two are stated for one turn at most
(`k ≤ N`), which is what bounded queues need.

A pointer into a ring of `n` slots that counts the turns modulo 2: a position `p`, counted from the
start and never wrapped, is coded as its slot `p % n` and the bit `p / n % 2`, which is put above
the `k` bits of the slot. Two positions at most `n` apart are told apart by their codes, and their
distance is found from the slots and from whether the bits differ.
-/

namespace Circ

variable {α : Type*}

/-! ## Slots -/

/-- The slot reached by going `i` places from slot `0`, `i < 2 * N`. -/
def wrap (N i : Nat) : Nat := if i < N then i else i - N

/-- The number of places from `w` forward to `p`. -/
def dist (N w p : Nat) : Nat := if w ≤ p then p - w else p + N - w

theorem wrap_of_lt {N i : Nat} (h : i < N) : wrap N i = i := if_pos h

theorem wrap_of_ge {N i : Nat} (h : N ≤ i) : wrap N i = i - N := if_neg (by omega)

theorem wrap_lt {N i : Nat} (h : i < 2 * N) : wrap N i < N := by
  unfold wrap; split <;> omega

theorem wrap_eq_mod {N i : Nat} (h : i < 2 * N) : wrap N i = i % N := by
  unfold wrap
  split
  · rw [Nat.mod_eq_of_lt ‹_›]
  · rw [Nat.mod_eq_sub_mod (by omega), Nat.mod_eq_of_lt (by omega)]

theorem dist_lt {N w p : Nat} (hw : w < N) (hp : p < N) : dist N w p < N := by
  unfold dist; split <;> omega

theorem dist_self (N w : Nat) : dist N w w = 0 := by simp [dist]

/-- Going on by `k` places from a slot reached by `j` places. -/
theorem wrap_wrap_add {N r j k : Nat} (hr : r < N) (h : j + k ≤ N) :
    wrap N (wrap N (r + j) + k) = wrap N (r + (j + k)) := by
  unfold wrap; split_ifs <;> omega

theorem wrap_add_dist {N w p : Nat} (hw : w < N) (hp : p < N) : wrap N (w + dist N w p) = p := by
  unfold wrap dist; split_ifs <;> omega

theorem dist_wrap_add {N w i : Nat} (hw : w < N) (hi : i < N) : dist N w (wrap N (w + i)) = i := by
  unfold wrap dist; split_ifs <;> omega

theorem dist_add_dist {N r w i : Nat} (hr : r < N) (hw : w < N) (hi : i < dist N r w) :
    dist N w (wrap N (r + i)) = N - dist N r w + i := by
  unfold wrap dist at *; split_ifs at * <;> omega

/-! ## Reading and writing -/

/-- The `k` values from slot `r` on. -/
def read (f : Nat → α) (N r k : Nat) : List α := (List.range k).map fun i => f (wrap N (r + i))

/-- The buffer with `data` put from slot `w` on. -/
def write (f : Nat → α) (N w : Nat) (data : List α) : Nat → α := fun p =>
  if p < N then (data[dist N w p]?).getD (f p) else f p

@[simp] theorem read_length (f : Nat → α) (N r k : Nat) : (read f N r k).length = k := by
  simp [read]

@[simp] theorem read_zero (f : Nat → α) (N r : Nat) : read f N r 0 = [] := rfl

@[simp] theorem getElem_read (f : Nat → α) (N r k i : Nat) (h : i < (read f N r k).length) :
    (read f N r k)[i] = f (wrap N (r + i)) := by
  simp [read]

theorem read_congr {f g : Nat → α} {N r k : Nat}
    (h : ∀ i < k, f (wrap N (r + i)) = g (wrap N (r + i))) : read f N r k = read g N r k :=
  List.map_congr_left fun i hi => h i (List.mem_range.1 hi)

/-- A read splits at any place. -/
theorem read_add {f : Nat → α} {N r j k : Nat} (hr : r < N) (h : j + k ≤ N) :
    read f N r (j + k) = read f N r j ++ read f N (wrap N (r + j)) k := by
  unfold read
  rw [List.range_add, List.map_append, List.map_map]
  congr 1
  refine List.map_congr_left fun i hi => ?_
  have := List.mem_range.1 hi
  simp only [Function.comp_apply]
  rw [wrap_wrap_add hr (by omega)]

theorem read_take {f : Nat → α} {N r j k : Nat} :
    (read f N r k).take j = read f N r (min j k) := by
  unfold read
  rw [← List.map_take, List.take_range]

theorem read_drop {f : Nat → α} {N r j k : Nat} (hr : r < N) (hj : j ≤ k) (hk : k ≤ N) :
    (read f N r k).drop j = read f N (wrap N (r + j)) (k - j) := by
  conv_lhs => rw [show k = j + (k - j) by omega, read_add hr (by omega)]
  exact List.drop_left' (read_length ..)

/-- Slots that are not among the written ones keep their values. -/
theorem write_other {f : Nat → α} {N w p : Nat} {data : List α} (h : data.length ≤ dist N w p) :
    write f N w data p = f p := by
  unfold write
  split
  · rw [List.getElem?_eq_none h, Option.getD_none]
  · rfl

/-- A written slot. -/
theorem write_at {f : Nat → α} {N w i : Nat} {data : List α} (hw : w < N) (hN : data.length ≤ N)
    (hi : i < data.length) : write f N w data (wrap N (w + i)) = data[i] := by
  unfold write
  rw [if_pos (wrap_lt (by omega)), dist_wrap_add hw (by omega), List.getElem?_eq_getElem hi,
    Option.getD_some]

/-- **Appending**: writing where the stored values end. -/
theorem read_write_append {f : Nat → α} {N r w u : Nat} {data : List α} (hr : r < N)
    (hw : w = wrap N (r + u)) (h : u + data.length ≤ N) :
    read (write f N w data) N r (u + data.length) = read f N r u ++ data := by
  have hwN : w < N := hw ▸ wrap_lt (by omega)
  rw [read_add hr h, ← hw]
  congr 1
  · refine read_congr fun i hi => write_other ?_
    subst hw
    unfold wrap dist at *; split_ifs at * <;> omega
  · refine List.ext_getElem (by simp) fun i h1 h2 => ?_
    rw [getElem_read, write_at hwN (by omega) h2]

/-- **Overwriting**: writing where the stored values end, over the `d` oldest of them. -/
theorem read_write_overwrite {f : Nat → α} {N r w u d : Nat} (data : List α) (hr : r < N)
    (hu : u ≤ N) (hd : d ≤ u) (hw : w = wrap N (r + u)) (h : u - d + data.length ≤ N) :
    read (write f N w data) N (wrap N (r + d)) (u - d + data.length) =
      (read f N r u).drop d ++ data := by
  rw [read_write_append (wrap_lt (by omega)) _ h, ← read_drop hr hd hu]
  rw [wrap_wrap_add hr (by omega), hw]
  congr 1
  omega

/-! ## Copies that do not wrap -/

/-- The buffer with `data` put at `off` and on, as `memcpy` does. -/
def copy (f : Nat → α) (off : Nat) (data : List α) : Nat → α := fun p =>
  if off ≤ p then (data[p - off]?).getD (f p) else f p

/-- The `len` values at `off` and on. -/
def slice (f : Nat → α) (off len : Nat) : List α := (List.range len).map fun i => f (off + i)

@[simp] theorem slice_length (f : Nat → α) (off len : Nat) : (slice f off len).length = len := by
  simp [slice]

theorem slice_eq_read {f : Nat → α} {N off len : Nat} (h : off + len ≤ N) :
    slice f off len = read f N off len := by
  refine List.map_congr_left fun i hi => ?_
  have hlt := List.mem_range.1 hi
  rw [wrap_of_lt (by omega)]

/-- **Writing in two copies**, up to the end of the buffer and on from its start. -/
theorem copy_copy {f : Nat → α} {N w e : Nat} {d : List α} (hw : w < N)
    (he : e = min (N - w) d.length) (h : d.length ≤ N) :
    copy (copy f w (d.take e)) 0 (d.drop e) = write f N w d := by
  funext p
  simp only [copy, write, dist, Nat.zero_le, if_true, Nat.sub_zero]
  by_cases hp : w ≤ p
  · have hdrop : (d.drop e)[p]? = none := List.getElem?_eq_none (by simp; omega)
    rw [hdrop, Option.getD_none, if_pos hp, if_pos hp]
    by_cases hlt : p - w < e
    · rw [List.getElem?_take_of_lt hlt, if_pos (by omega)]
    · rw [List.getElem?_eq_none (by simp; omega), Option.getD_none]
      by_cases hN : p < N
      · rw [if_pos hN, List.getElem?_eq_none (by omega), Option.getD_none]
      · rw [if_neg hN]
  · rw [if_neg hp, if_pos (by omega), if_neg hp, List.getElem?_drop]
    by_cases hlt : e + p < d.length
    · rw [show e + p = p + N - w by omega]
    · rw [List.getElem?_eq_none (by omega), List.getElem?_eq_none (by omega)]

/-- A copy that ends before the end of the buffer. -/
theorem copy_eq_write {f : Nat → α} {N w : Nat} {data : List α} (hw : w < N)
    (h : w + data.length ≤ N) : copy f w data = write f N w data := by
  have hc := copy_copy (f := f) (e := data.length) (d := data) hw (by omega) (by omega)
  rw [List.take_length, List.drop_length] at hc
  rw [← hc]
  funext p
  simp [copy]

end Circ

/-! ## Pointers with a wrap bit -/

namespace WrapPtr

variable {n k p r w d : Nat}

/-- The wrap bit of a position. -/
def bit (n k p : Nat) : Nat := 2 ^ k * (p / n % 2)

/-- The code of a position. -/
def enc (n k p : Nat) : Nat := p % n + bit n k p

@[simp] theorem bit_zero (n k : Nat) : bit n k 0 = 0 := by simp [bit]

@[simp] theorem enc_zero (n k : Nat) : enc n k 0 = 0 := by simp [enc]

theorem slot_lt (h0 : 0 < n) (hn : n ≤ 2 ^ k) (p : Nat) : p % n < 2 ^ k :=
  Nat.lt_of_lt_of_le (Nat.mod_lt _ h0) hn

/-! ## Codes as bits -/

theorem enc_eq_or (h0 : 0 < n) (hn : n ≤ 2 ^ k) (p : Nat) : p % n ||| bit n k p = enc n k p := by
  rw [Nat.or_comm, enc, Nat.add_comm]
  exact (Nat.two_pow_add_eq_or_of_lt (slot_lt h0 hn p) _).symm

theorem enc_and_mask (h0 : 0 < n) (hn : n ≤ 2 ^ k) (p : Nat) :
    enc n k p &&& (2 ^ k - 1) = p % n := by
  rw [Nat.and_two_pow_sub_one_eq_mod, enc, bit, Nat.add_mul_mod_self_left,
    Nat.mod_eq_of_lt (slot_lt h0 hn p)]

theorem bit_eq (n k p : Nat) : bit n k p = 0 ∧ p / n % 2 = 0 ∨ bit n k p = 2 ^ k ∧ p / n % 2 = 1 := by
  unfold bit
  rcases Nat.mod_two_eq_zero_or_one (p / n) with h | h <;> simp [h]

theorem enc_and_wrap (h0 : 0 < n) (hn : n ≤ 2 ^ k) (p : Nat) : enc n k p &&& 2 ^ k = bit n k p := by
  have hlt := slot_lt h0 hn p
  rw [Nat.and_two_pow]
  rcases bit_eq n k p with ⟨hb, hp⟩ | ⟨hb, hp⟩
  · rw [enc, hb, Nat.add_zero, Nat.testBit_lt_two_pow hlt]
    simp
  · have ht : (enc n k p).testBit k = true := by
      rw [enc, hb, Nat.add_comm, Nat.testBit_two_pow_add_eq, Nat.testBit_lt_two_pow hlt]
      rfl
    rw [ht, hb]
    simp

theorem bit_xor (h : w / n = r / n + 1) : bit n k r ^^^ 2 ^ k = bit n k w := by
  rcases bit_eq n k r with ⟨hb, hp⟩ | ⟨hb, hp⟩
  · have hw : w / n % 2 = 1 := by omega
    rw [hb, bit, hw]
    simp
  · have hw : w / n % 2 = 0 := by omega
    rw [hb, bit, hw]
    simp

theorem bit_ne (h : w / n = r / n + 1) : bit n k w ≠ bit n k r := by
  have hpos : 0 < 2 ^ k := Nat.two_pow_pos k
  rcases bit_eq n k r with ⟨hb, hp⟩ | ⟨hb, hp⟩ <;>
    rcases bit_eq n k w with ⟨hb', hp'⟩ | ⟨hb', hp'⟩ <;> omega

/-! ## Moving on -/

/-- Going on by at most one turn, without passing the end. -/
theorem add_of_lt (h0 : 0 < n) (h : r % n + d < n) :
    (r + d) % n = r % n + d ∧ (r + d) / n = r / n := by
  have hr : r + d = n * (r / n) + (r % n + d) := by
    have := Nat.div_add_mod r n
    omega
  rw [hr, Nat.mul_add_mod, Nat.mul_add_div h0, Nat.mod_eq_of_lt h, Nat.div_eq_of_lt h]
  exact ⟨rfl, by omega⟩

/-- Going on by at most one turn, past the end. -/
theorem add_of_ge (h0 : 0 < n) (h : n ≤ r % n + d) (hd : d ≤ n) :
    (r + d) % n = r % n + d - n ∧ (r + d) / n = r / n + 1 := by
  have hlt : r % n < n := Nat.mod_lt _ h0
  have hr : r + d = n * (r / n + 1) + (r % n + d - n) := by
    have := Nat.div_add_mod r n
    rw [Nat.mul_add]
    omega
  have hs : r % n + d - n < n := by omega
  rw [hr, Nat.mul_add_mod, Nat.mul_add_div h0, Nat.mod_eq_of_lt hs, Nat.div_eq_of_lt hs]
  exact ⟨rfl, by omega⟩

/-- The slot of a position, going round the end. -/
theorem wrap_slot (h0 : 0 < n) (hd : d ≤ n) : Circ.wrap n (r % n + d) = (r + d) % n := by
  by_cases h : r % n + d < n
  · rw [Circ.wrap_of_lt h, (add_of_lt h0 h).1]
  · rw [Circ.wrap_of_ge (by omega), (add_of_ge h0 (by omega) hd).1]

/-- **The distance** from a position to one at most a turn further on. -/
theorem dist_eq (h0 : 0 < n) (hr : r ≤ w) (hw : w ≤ r + n) :
    (if bit n k w ≠ bit n k r then w % n + n - r % n else w % n - r % n) = w - r := by
  obtain ⟨d, rfl⟩ := Nat.exists_eq_add_of_le hr
  by_cases h : r % n + d < n
  · obtain ⟨hm, hq⟩ := add_of_lt h0 h
    have hb : bit n k (r + d) = bit n k r := by rw [bit, hq, bit]
    rw [if_neg (not_not.2 hb), hm]
    omega
  · obtain ⟨hm, hq⟩ := add_of_ge (r := r) h0 (by omega) (by omega : d ≤ n)
    rw [if_pos (bit_ne hq), hm]
    have := Nat.mod_lt r h0
    omega

/-- Positions at most a turn apart are told apart by their codes. -/
theorem enc_inj (h0 : 0 < n) (hn : n ≤ 2 ^ k) (hr : r ≤ w) (hw : w ≤ r + n)
    (h : enc n k r = enc n k w) : r = w := by
  have hm : r % n = w % n := by rw [← enc_and_mask h0 hn r, h, enc_and_mask h0 hn]
  have hb : bit n k r = bit n k w := by rw [← enc_and_wrap h0 hn r, h, enc_and_wrap h0 hn]
  have hd := dist_eq (k := k) h0 hr hw
  rw [if_neg (not_not.2 hb.symm), hm] at hd
  omega

/-- The code after going on by at most one turn. -/
theorem enc_add (h0 : 0 < n) (hn : n ≤ 2 ^ k) (hd : d ≤ n) :
    (if r % n + d ≥ n then (r % n + d - n) ||| (bit n k r ^^^ 2 ^ k)
      else (r % n + d) ||| bit n k r) = enc n k (r + d) := by
  split_ifs with h
  · obtain ⟨hm, hq⟩ := add_of_ge (r := r) h0 h hd
    rw [bit_xor hq, ← hm, enc_eq_or h0 hn]
  · obtain ⟨hm, hq⟩ := add_of_lt (r := r) h0 (by omega : r % n + d < n)
    have hb : bit n k r = bit n k (r + d) := by rw [bit, bit, hq]
    rw [hb, ← hm, enc_eq_or h0 hn]

end WrapPtr
