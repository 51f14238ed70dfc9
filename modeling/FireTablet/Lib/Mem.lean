import FireTablet.Lib.Circ

/-!
# Byte memory

Memory is a function from addresses to bytes. `memcpyTo` and `memcpyFrom` are `memcpy` from and to
a caller's buffer; a length that is negative as a signed number is converted by C to a `size_t` no
object reaches, so such a copy runs outside its objects and gives `none`, as does a copy of more
bytes than the caller's buffer has.

`cells m base` is the memory from `base` on as the slots of a circular buffer: a copy in two parts,
up to the end of the buffer and on from its start, is `Circ.write` (`cells_store_wrap`).
-/

/-- Byte-addressed memory. -/
abbrev Mem := Int → UInt8

namespace Mem

/-- The bytes `bs` stored at address `a`. -/
def store (m : Mem) (a : Int) (bs : List UInt8) : Mem := fun x =>
  if a ≤ x then (bs[(x - a).toNat]?).getD (m x) else m x

/-- The `n` bytes at address `a`. -/
def load (m : Mem) (a : Int) (n : Nat) : List UInt8 := (List.range n).map fun i : Nat => m (a + i)

/-- `memcpy(a, bs, n)`. -/
def memcpyTo (m : Mem) (a : Int) (bs : List UInt8) (n : Int) : Option Mem :=
  if 0 ≤ n ∧ n ≤ bs.length then some (m.store a (bs.take n.toNat)) else none

/-- `memcpy(buf, a, n)` for a `buf` of `cap` bytes: the bytes that land in `buf`. -/
def memcpyFrom (m : Mem) (a : Int) (cap : Nat) (n : Int) : Option (List UInt8) :=
  if 0 ≤ n ∧ n ≤ cap then some (m.load a n.toNat) else none

/-- The memory from `base` on. -/
def cells (m : Mem) (base : Int) : Nat → UInt8 := fun p => m (base + p)

theorem store_of_lt {m : Mem} {a x : Int} {bs : List UInt8} (h : x < a) : m.store a bs x = m x := by
  simp [store, show ¬ a ≤ x by omega]

theorem store_of_ge {m : Mem} {a x : Int} {bs : List UInt8} (h : a + bs.length ≤ x) :
    m.store a bs x = m x := by
  unfold store
  split
  · rw [List.getElem?_eq_none (by omega), Option.getD_none]
  · rfl

@[simp] theorem load_length (m : Mem) (a : Int) (n : Nat) : (m.load a n).length = n := by
  simp [load]

@[simp] theorem load_zero (m : Mem) (a : Int) : m.load a 0 = [] := rfl

/-- What was stored is loaded again. -/
theorem load_store_same (m : Mem) (a : Int) (bs : List UInt8) :
    (m.store a bs).load a bs.length = bs := by
  refine List.ext_getElem (by simp) fun i _ h => ?_
  simp only [load, List.getElem_map, List.getElem_range, store]
  rw [if_pos (by omega), show (a + (i : Int) - a).toNat = i by omega, List.getElem?_eq_getElem h]
  rfl

/-- Loading elsewhere. -/
theorem load_store_other {m : Mem} {a b : Int} {bs : List UInt8} {n : Nat}
    (h : a + n ≤ b ∨ b + bs.length ≤ a) : (m.store b bs).load a n = m.load a n := by
  refine List.map_congr_left fun i hi => ?_
  have := List.mem_range.1 hi
  cases h with
  | inl h => exact store_of_lt (by omega)
  | inr h => exact store_of_ge (by omega)

theorem memcpyTo_some {m : Mem} {a n : Int} {bs : List UInt8} (h0 : 0 ≤ n) (h : n ≤ bs.length) :
    m.memcpyTo a bs n = some (m.store a (bs.take n.toNat)) := if_pos ⟨h0, h⟩

theorem memcpyTo_neg {m : Mem} {a n : Int} {bs : List UInt8} (h : n < 0) :
    m.memcpyTo a bs n = none := if_neg (by omega)

theorem memcpyFrom_some {m : Mem} {a n : Int} {cap : Nat} (h0 : 0 ≤ n) (h : n ≤ cap) :
    m.memcpyFrom a cap n = some (m.load a n.toNat) := if_pos ⟨h0, h⟩

/-- Storing up to the end of a buffer of `N` bytes. -/
theorem cells_store {m : Mem} {base : Int} {N w : Nat} {bs : List UInt8} (h : w + bs.length ≤ N) :
    (m.store (base + w) bs).cells base = Circ.write (m.cells base) N w bs := by
  funext p
  simp only [cells, store, Circ.write, Circ.dist]
  split_ifs with h1 h2 h3 h3
  · rw [show (base + p - (base + w)).toNat = p - w by omega]
  · omega
  · rw [List.getElem?_eq_none (by omega), Option.getD_none]
  · omega
  · rw [List.getElem?_eq_none (by omega), Option.getD_none]
  · rfl

/-- Storing up to the end of a buffer of `N` bytes and on from its start. -/
theorem cells_store_wrap {m : Mem} {base : Int} {N w e : Nat} {bs : List UInt8} (hw : w + e = N)
    (h : bs.length ≤ N) :
    ((m.store (base + w) (bs.take e)).store base (bs.drop e)).cells base =
      Circ.write (m.cells base) N w bs := by
  funext p
  simp only [cells, store, Circ.write, Circ.dist, List.getElem?_drop]
  rw [if_pos (show base ≤ base + p by omega), show (base + p - base).toNat = p by omega]
  by_cases hp : p < N
  · simp only [hp, if_true]
    by_cases hwp : w ≤ p
    · rw [List.getElem?_eq_none (show bs.length ≤ e + p by omega), Option.getD_none,
        if_pos (by omega), if_pos hwp, show (base + p - (base + w)).toNat = p - w by omega,
        List.getElem?_take_of_lt (by omega)]
    · rw [if_neg hwp, if_neg (by omega), show e + p = p + N - w by omega]
  · rw [if_neg hp, List.getElem?_eq_none (show bs.length ≤ e + p by omega), Option.getD_none]
    split_ifs with h2
    · rw [List.getElem?_eq_none (by simp; omega), Option.getD_none]
    · rfl

/-- Loading inside a buffer of `N` bytes. -/
theorem load_cells (m : Mem) (base : Int) {N r k : Nat} (h : r + k ≤ N) :
    m.load (base + r) k = Circ.read (m.cells base) N r k := by
  unfold load Circ.read
  refine List.map_congr_left fun i hi => ?_
  have := List.mem_range.1 hi
  rw [cells, Circ.wrap_of_lt (by omega)]
  congr 1
  omega

/-- Loading up to the end of a buffer of `N` bytes and on from its start. -/
theorem load_cells_wrap {m : Mem} {base : Int} {N r e k : Nat} (hr : r < N) (he : r + e = N)
    (hk : e ≤ k) (h : k ≤ N) :
    m.load (base + r) e ++ m.load base (k - e) = Circ.read (m.cells base) N r k := by
  rw [show k = e + (k - e) by omega, Circ.read_add hr (by omega), load_cells m base (N := N) (by omega),
    show Circ.wrap N (r + e) = 0 by simp [Circ.wrap, he]]
  congr 1
  simpa using load_cells m base (N := N) (r := 0) (k := k - e) (by omega)

end Mem
