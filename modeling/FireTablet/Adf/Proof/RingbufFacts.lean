import FireTablet.Adf.Ringbuf

/-!
# The ring buffer's operations on a valid ring

A ring is valid (`Ring.Valid`) when its buffer has a positive size that an `int32_t` holds and both
pointers are in range (`ADF_RINGBUF_IN_RANGE`). It then has `N` slots with the read and write
pointers at slots `r` and `w` (`RingAt`), its bytes are those from `r` forward to `w`
(`Ring.content`), and the macros are slot arithmetic: `CALC_RW_SIZE` is `Circ.dist`, `CALC_WR_SIZE`
what is left, `MOVE_PTR` is `Circ.wrap`. Each operation gets one lemma in these terms (`RingAt.put`,
`RingAt.flush`); the proofs about runs use nothing else.
-/

namespace Adf

open CInt

/-! ## Valid rings -/

/-- The number of bytes of a ring's buffer. -/
def Ring.size (s : Ring) : Nat := (s.rBuf.limit - s.rBuf.base).toNat

/-- The slot of the read pointer. -/
def Ring.rslot (s : Ring) : Nat := (s.rBuf.rp - s.rBuf.base).toNat

/-- The slot of the write pointer. -/
def Ring.wslot (s : Ring) : Nat := (s.rBuf.wp - s.rBuf.base).toNat

/-- The number of bytes a ring holds. -/
def Ring.used (s : Ring) : Nat := Circ.dist s.size s.rslot s.wslot

/-- The bytes a ring holds, oldest first. -/
def Ring.content (s : Ring) : List UInt8 :=
  Circ.read (s.mem.cells s.rBuf.base) s.size s.rslot s.used

/-- A ring with a buffer and both pointers in it; `drop` is some `int32_t`. -/
structure Ring.Valid (s : Ring) : Prop where
  base : IsI32 s.rBuf.base
  limit : IsI32 s.rBuf.limit
  lt : s.rBuf.base < s.rBuf.limit
  size : IsI32 (s.rBuf.limit - s.rBuf.base)
  rp : adfRingbufInRange s.rBuf.rp s.rBuf.base s.rBuf.limit = true
  wp : adfRingbufInRange s.rBuf.wp s.rBuf.base s.rBuf.limit = true
  drop : IsI32 s.rBuf.drop

/-- A struct with a buffer of `N` slots and its pointers at slots `r` and `w`. -/
structure RingAt (b : AdfRingbuf) (N r w : Nat) : Prop where
  base : IsI32 b.base
  limit : b.limit = b.base + N
  limitI32 : IsI32 b.limit
  sizeI32 : IsI32 N
  rp : b.rp = b.base + r
  wp : b.wp = b.base + w
  r_lt : r < N
  w_lt : w < N

theorem inRange_iff {p base limit : Int} :
    adfRingbufInRange p base limit = true ↔ base ≤ p ∧ p < limit := by
  simp [adfRingbufInRange]

theorem Ring.Valid.at {s : Ring} (h : s.Valid) : RingAt s.rBuf s.size s.rslot s.wslot := by
  obtain ⟨hb, hl, hlt, hs, hr, hw, -⟩ := h
  rw [inRange_iff] at hr hw
  unfold Ring.size Ring.rslot Ring.wslot
  exact ⟨hb, by omega, hl, by rwa [Int.toNat_of_nonneg (by omega)], by omega, by omega, by omega,
    by omega⟩

section
variable {s : Ring} {N r w : Nat} (h : RingAt s.rBuf N r w)
include h

theorem RingAt.size_eq : s.size = N := by
  have := h.limit; unfold Ring.size; omega

theorem RingAt.rslot_eq : s.rslot = r := by
  have := h.rp; unfold Ring.rslot; omega

theorem RingAt.wslot_eq : s.wslot = w := by
  have := h.wp; unfold Ring.wslot; omega

theorem RingAt.used_eq : s.used = Circ.dist N r w := by
  rw [Ring.used, h.size_eq, h.rslot_eq, h.wslot_eq]

theorem RingAt.content_eq :
    s.content = Circ.read (s.mem.cells s.rBuf.base) N r (Circ.dist N r w) := by
  rw [Ring.content, h.size_eq, h.rslot_eq, h.used_eq]

theorem RingAt.content_length : s.content.length = Circ.dist N r w := by
  rw [h.content_eq, Circ.read_length]

theorem RingAt.valid (hd : IsI32 s.rBuf.drop) : s.Valid := by
  obtain ⟨hb, hl, hli, hs, hr, hw, hrN, hwN⟩ := h
  refine ⟨hb, hli, by omega, ?_, ?_, ?_, hd⟩
  · rw [hl, show s.rBuf.base + (N : Int) - s.rBuf.base = N by omega]; exact hs
  · rw [inRange_iff]; omega
  · rw [inRange_iff]; omega

end

/-! ## The macros -/

section
variable {b : AdfRingbuf} {N r w : Nat} (h : RingAt b N r w)
include h

theorem RingAt.used_lt : Circ.dist N r w < N := Circ.dist_lt h.r_lt h.w_lt

theorem RingAt.wrap_used : w = Circ.wrap N (r + Circ.dist N r w) :=
  (Circ.wrap_add_dist h.r_lt h.w_lt).symm

theorem RingAt.lenToEnd {p : Nat} (hp : p ≤ N) : i32 (b.limit - (b.base + p)) = (N : Int) - p := by
  have := h.sizeI32
  rw [h.limit, i32_eq] <;> unfold IsI32 at * <;> omega

theorem RingAt.usedSize : adfRingbufGetUsedSize b = Circ.dist N r w := by
  have h1 := h.sizeI32
  have h2 := h.r_lt
  have h3 := h.w_lt
  unfold IsI32 at h1
  unfold adfRingbufGetUsedSize adfRingbufCalcRwSize Circ.dist
  rw [h.rp, h.wp, h.limit]
  split_ifs
  all_goals rw [i32_eq (by unfold IsI32; omega)]; omega

theorem RingAt.freeSize : adfRingbufGetFreeSize b = (N - Circ.dist N r w : Nat) := by
  have h1 := h.sizeI32
  have h2 := h.r_lt
  have h3 := h.w_lt
  unfold IsI32 at h1
  unfold adfRingbufGetFreeSize adfRingbufCalcWrSize Circ.dist
  rw [h.rp, h.wp, h.limit]
  split_ifs
  all_goals rw [i32_eq (by unfold IsI32; omega)]; omega

/-- Moving a pointer at slot `p` by at most the size of the buffer. -/
theorem RingAt.movePtr {p k : Nat} (hp : p < N) (hk : k ≤ N) :
    adfRingbufMovePtr (b.base + p) k b.base b.limit = b.base + Circ.wrap N (p + k) := by
  have hb := h.base
  have hl := h.limitI32
  rw [h.limit] at hl
  unfold IsI32 at hb hl
  unfold adfRingbufMovePtr Circ.wrap
  rw [h.lenToEnd (Nat.le_of_lt hp), h.limit]
  split_ifs
  all_goals rw [i32_eq (by unfold IsI32; omega)]; omega

/-- The struct after moving the write pointer on. -/
theorem RingAt.move_wp {k : Nat} (hk : k ≤ N) :
    RingAt { b with wp := adfRingbufMovePtr b.wp k b.base b.limit } N r
      (Circ.wrap N (w + k)) :=
  ⟨h.base, h.limit, h.limitI32, h.sizeI32, h.rp, by rw [h.wp]; exact h.movePtr h.w_lt hk, h.r_lt,
    Circ.wrap_lt (by have := h.w_lt; omega)⟩

/-- The struct after moving the read pointer on. -/
theorem RingAt.move_rp {k : Nat} (hk : k ≤ N) (d : Int) :
    RingAt { b with drop := d, rp := adfRingbufMovePtr b.rp k b.base b.limit } N
      (Circ.wrap N (r + k)) w :=
  ⟨h.base, h.limit, h.limitI32, h.sizeI32, by rw [h.rp]; exact h.movePtr h.r_lt hk, h.wp,
    Circ.wrap_lt (by have := h.r_lt; omega), h.w_lt⟩

end

/-! ## Reading, flushing, writing -/

/-- `adfRingbuf_read` in slots, for any read pointer up to `limit`: the next bytes of the `u` used
ones. -/
theorem readSlots {s : Ring} {N r u cap len : Nat} (hl : s.rBuf.limit = s.rBuf.base + N)
    (hN : IsI32 N) (hrp : s.rBuf.rp = s.rBuf.base + r) (hr : r ≤ N)
    (hu : adfRingbufGetUsedSize s.rBuf = u) (huN : u ≤ N) (hc : min len u ≤ cap) :
    adfRingbufRead s (some cap) len =
      some (Circ.read (s.mem.cells s.rBuf.base) N (Circ.wrap N r) (min len u)) := by
  unfold adfRingbufRead
  dsimp only
  by_cases h0 : len = 0
  · simp [h0]
  rw [if_neg (by omega)]
  have hrem : adfRingbufCalcRwSize s.rBuf.rp s.rBuf.wp s.rBuf.base s.rBuf.limit = u := hu
  have hlen : (if (len : Int) > u then (u : Int) else len) = (min len u : Nat) := by
    split_ifs <;> omega
  have hend : i32 (s.rBuf.limit - s.rBuf.rp) = (N : Int) - r := by
    rw [hl, hrp, i32_eq] <;> unfold IsI32 at * <;> omega
  rw [hrem, hlen, hend, hrp]
  generalize min len u = k at *
  split_ifs with hw
  · rw [Mem.memcpyFrom_some (by omega) (by omega), Int.toNat_natCast,
      Mem.load_cells _ _ (N := N) (by omega)]
    rcases Nat.lt_or_eq_of_le hr with hlt | rfl
    · rw [Circ.wrap_of_lt hlt]
    · rw [show k = 0 by omega]; rfl
  · rw [Mem.memcpyFrom_some (by omega) (by omega), Option.bind_some,
      Mem.memcpyFrom_some (by omega) (by omega), Option.map_some,
      show ((N : Int) - r).toNat = N - r by omega,
      show ((k : Int) - (N - r)).toNat = k - (N - r) by omega]
    rcases Nat.lt_or_eq_of_le hr with hlt | rfl
    · rw [Mem.load_cells_wrap hlt (by omega) (by omega) (by omega), Circ.wrap_of_lt hlt]
    · have hall := Mem.load_cells s.mem s.rBuf.base (N := r) (r := 0) (k := k) (by omega)
      rw [Nat.sub_self, Nat.sub_zero, Circ.wrap_of_ge (Nat.le_refl r), Nat.sub_self, ← hall]
      simp

section
variable {s : Ring} {N r w : Nat} (h : RingAt s.rBuf N r w)
include h

/-- **`adfRingbuf_read`** copies the first bytes the ring holds. -/
theorem RingAt.read {cap len : Nat} (hc : min len s.content.length ≤ cap) :
    adfRingbufRead s (some cap) len = some (s.content.take len) := by
  rw [h.content_length] at hc
  rw [h.content_eq, Circ.read_take, readSlots h.limit h.sizeI32 h.rp (Nat.le_of_lt h.r_lt)
    h.usedSize (Nat.le_of_lt h.used_lt) hc, Circ.wrap_of_lt h.r_lt]

/-- **`adfRingbuf_flush`** removes the first bytes the ring holds. -/
theorem RingAt.flush (len : Nat) :
    ∃ s', adfRingbufFlush s len = (((min len s.content.length : Nat) : Int), s') ∧
      RingAt s'.rBuf N (Circ.wrap N (r + min len s.content.length)) w ∧
      s'.content = s.content.drop len ∧ s'.mem = s.mem ∧ s'.rBuf.base = s.rBuf.base ∧
      s'.rBuf.drop = s.rBuf.drop ∧ s'.rBuf.dropunit = s.rBuf.dropunit := by
  have hu := h.used_lt
  have hr := h.r_lt
  have hl := h.content_length
  unfold adfRingbufFlush
  by_cases h0 : len = 0
  · subst h0
    refine ⟨s, by simp, ?_, rfl, rfl, rfl, rfl, rfl⟩
    simpa [Circ.wrap_of_lt hr] using h
  rw [if_neg (by omega)]
  have hrem : adfRingbufCalcRwSize s.rBuf.rp s.rBuf.wp s.rBuf.base s.rBuf.limit =
      (Circ.dist N r w : Nat) := h.usedSize
  have hlen : (if (len : Int) > (Circ.dist N r w : Nat) then ((Circ.dist N r w : Nat) : Int)
      else len) = (min len (Circ.dist N r w) : Nat) := by
    split_ifs <;> omega
  simp only [hrem, hlen, hl]
  have hat := h.move_rp (k := min len (Circ.dist N r w)) (by omega) s.rBuf.drop
  refine ⟨_, rfl, hat, ?_, rfl, rfl, rfl, rfl⟩
  rw [RingAt.content_eq (s := ⟨_, s.mem⟩) hat, h.content_eq]
  dsimp only
  have hd : Circ.dist N (Circ.wrap N (r + min len (Circ.dist N r w))) w =
      Circ.dist N r w - min len (Circ.dist N r w) := by
    have := h.w_lt
    unfold Circ.wrap Circ.dist at *; split_ifs at * <;> omega
  rw [hd, ← Circ.read_drop hr (by omega) (by omega)]
  rcases Nat.le_total len (Circ.dist N r w) with hle | hle
  · rw [Nat.min_eq_left hle]
  · rw [Nat.min_eq_right hle, List.drop_of_length_le (by simp),
      List.drop_of_length_le (by simpa using hle)]

/-- The copy of `adfRingbuf_write` stores the first `k` bytes of the data from the write pointer
on, inside the buffer. -/
theorem RingAt.writeCopy {data : List UInt8} {k : Nat} (hk : k ≤ data.length) (hN : k ≤ N) :
    ∃ m, adfRingbufWriteCopy s data k = some m ∧
      m.cells s.rBuf.base = Circ.write (s.mem.cells s.rBuf.base) N w (data.take k) ∧
      ∀ a, a < s.rBuf.base ∨ s.rBuf.limit ≤ a → m a = s.mem a := by
  have hw := h.w_lt
  have hlen : (data.take k).length = k := List.length_take_of_le hk
  unfold adfRingbufWriteCopy
  rw [h.wp, h.lenToEnd (Nat.le_of_lt hw), h.limit]
  dsimp only
  split_ifs with he
  · rw [Mem.memcpyTo_some (by omega) (by omega), Int.toNat_natCast]
    refine ⟨_, rfl, Mem.cells_store (by omega), fun a ha => ?_⟩
    rcases ha with ha | ha
    · exact Mem.store_of_lt (by omega)
    · exact Mem.store_of_ge (by omega)
  · rw [Mem.memcpyTo_some (by omega) (by omega), Option.bind_some,
      Mem.memcpyTo_some (by omega) (by rw [List.length_drop]; omega)]
    have e1 : ((N : Int) - w).toNat = N - w := by omega
    have e2 : ((k : Int) - (N - w)).toNat = k - (N - w) := by omega
    have e3 : data.take (N - w) = (data.take k).take (N - w) := by
      rw [List.take_take, Nat.min_eq_left (by omega)]
    have e4 : (data.drop (N - w)).take (k - (N - w)) = (data.take k).drop (N - w) := by
      rw [List.drop_take]
    rw [e1, e2, e3, e4]
    refine ⟨_, rfl, Mem.cells_store_wrap (by omega) (by omega), fun a ha => ?_⟩
    have h1 : ((data.take k).take (N - w)).length = N - w := by
      rw [List.length_take, hlen]; omega
    have h2 : ((data.take k).drop (N - w)).length = k - (N - w) := by
      rw [List.length_drop, hlen]
    rcases ha with ha | ha
    · rw [Mem.store_of_lt (by omega), Mem.store_of_lt (by omega)]
    · rw [Mem.store_of_ge (by omega), Mem.store_of_ge (by omega)]

/-- **Storing `k` bytes and moving the write pointer on** appends them, while a slot is left. -/
theorem RingAt.put {data : List UInt8} {k : Nat} (hk : k ≤ data.length)
    (hN : Circ.dist N r w + k < N) :
    ∃ m, adfRingbufWriteCopy s data k = some m ∧
      RingAt { s.rBuf with wp := adfRingbufMovePtr s.rBuf.wp k s.rBuf.base s.rBuf.limit } N r
        (Circ.wrap N (w + k)) ∧
      Ring.content ⟨{ s.rBuf with
        wp := adfRingbufMovePtr s.rBuf.wp k s.rBuf.base s.rBuf.limit }, m⟩ =
        s.content ++ data.take k ∧
      ∀ a, a < s.rBuf.base ∨ s.rBuf.limit ≤ a → m a = s.mem a := by
  obtain ⟨m, hm, hcells, hframe⟩ := h.writeCopy hk (by omega)
  have hat := h.move_wp (k := k) (by omega)
  refine ⟨m, hm, hat, ?_, hframe⟩
  have hd : Circ.dist N r (Circ.wrap N (w + k)) = Circ.dist N r w + k := by
    have := h.r_lt
    have := h.w_lt
    unfold Circ.wrap Circ.dist at *; split_ifs at * <;> omega
  have hlen : (data.take k).length = k := List.length_take_of_le hk
  rw [RingAt.content_eq (s := ⟨_, m⟩) hat, h.content_eq, hd]
  dsimp only
  have happ := Circ.read_write_append (f := s.mem.cells s.rBuf.base) h.r_lt h.wrap_used
    (show Circ.dist N r w + (data.take k).length ≤ N by omega)
  rwa [hlen, ← hcells] at happ

end

end Adf
