import FireTablet.Adf.Proof.RingbufFacts

/-!
# Reserving

`adfRingbuf_reserve` moves the read pointer back, so that the ring counts `r` more bytes as used,
and `adfRingbuf_flush` of them moves it on again. A length that leaves a slot free is reserved as it
is. A longer one is cut to the free bytes rounded down to whole drop units, where `CALC_WR_SIZE`
counts the slot that must stay free too: without a drop unit that divides by zero, and where the
unit divides that number the pointers meet, so the full ring looks empty (`reserve_iff`).
-/

namespace Adf

open CInt

/-- What a reservation does: it gives a number of bytes that the ring then holds more than before,
no more than there was room for, a ring with reserved bytes does not look empty, and a flush of them
gives the used size from before. -/
def ReserveOk (s : Ring) (len : Int) : Prop :=
  ∃ (r : Nat) (s' : Ring), adfRingbufReserve s len = some ((r : Int), s') ∧
    adfRingbufGetUsedSize s'.rBuf = adfRingbufGetUsedSize s.rBuf + r ∧
    r + s.used ≤ s.size - 1 ∧ (0 < r → adfRingbufGetUsedSize s'.rBuf ≠ 0) ∧
    adfRingbufGetUsedSize (adfRingbufFlush s' r).2.rBuf = adfRingbufGetUsedSize s.rBuf

/-! ## The read pointer moved back -/

/-- The ring after `k` bytes were reserved. -/
def Ring.reserved (s : Ring) (k : Int) : Ring :=
  { s with rBuf := { s.rBuf with
    rp := adfRingbufMovePtr s.rBuf.rp (i32 (s.rBuf.limit - s.rBuf.base - k)) s.rBuf.base
      s.rBuf.limit } }

section
variable {s : Ring} {N r w : Nat} (h : RingAt s.rBuf N r w)
include h

theorem RingAt.reserved {k : Nat} (hk : k ≤ N) :
    RingAt (s.reserved k).rBuf N (Circ.wrap N (r + (N - k))) w := by
  have hN := h.sizeI32
  have hoff : i32 (s.rBuf.limit - s.rBuf.base - k) = (N - k : Nat) := by
    unfold IsI32 at hN
    rw [h.limit, i32_eq] <;> (try unfold IsI32) <;> omega
  have hat := h.move_rp (k := N - k) (by omega) s.rBuf.drop
  rw [Ring.reserved, hoff]
  exact hat

/-- The used size grows by `k`, unless the pointers meet. -/
theorem RingAt.used_reserved {k : Nat} (hk : Circ.dist N r w + k ≤ N) :
    Circ.dist N (Circ.wrap N (r + (N - k))) w =
      if Circ.dist N r w + k < N then Circ.dist N r w + k else 0 := by
  have hr := h.r_lt
  have hw := h.w_lt
  unfold Circ.wrap Circ.dist at *
  split_ifs at * <;> omega

/-- **Reserving `k` bytes** is right if and only if a slot stays free. -/
theorem RingAt.reserved_iff {k : Nat} (hk : Circ.dist N r w + k ≤ N) :
    adfRingbufGetUsedSize (s.reserved k).rBuf = adfRingbufGetUsedSize s.rBuf + k ∧
        k + s.used ≤ s.size - 1 ∧ (0 < k → adfRingbufGetUsedSize (s.reserved k).rBuf ≠ 0) ∧
        adfRingbufGetUsedSize (adfRingbufFlush (s.reserved k) k).2.rBuf =
          adfRingbufGetUsedSize s.rBuf ↔
      Circ.dist N r w + k < N := by
  have hpos := h.r_lt
  have hat := h.reserved (k := k) (by omega)
  have hused := h.used_reserved hk
  rw [hat.usedSize, h.usedSize, h.used_eq, h.size_eq]
  constructor
  · rintro ⟨-, hle, -, -⟩
    omega
  · intro hlt
    rw [if_pos hlt] at hused
    obtain ⟨s', hflush, hat', -⟩ := hat.flush k
    rw [hflush, hat'.usedSize]
    have hlen := hat.content_length
    refine ⟨by omega, by omega, fun h0 => by omega, ?_⟩
    -- the read pointer is back where it was
    have hback : Circ.wrap N
        (Circ.wrap N (r + (N - k)) + min k (s.reserved k).content.length) = r := by
      rw [hlen, hused, Nat.min_eq_left (by omega)]
      unfold Circ.wrap
      split_ifs <;> omega
    rw [hback]

end

/-! ## The length that is reserved -/

/-- `adfRingbuf_reserve` on a ring whose free bytes, with the slot that stays free, are `a`. -/
theorem reserve_eq {s : Ring} {a : Int} (ha : adfRingbufGetFreeSize s.rBuf = a) {len : Int}
    (hlen : len ≠ 0) :
    adfRingbufReserve s len =
      if len < a then some (len, s.reserved len)
      else if s.rBuf.dropunit = 0 then none
      else some (a - a.tmod s.rBuf.dropunit, s.reserved (a - a.tmod s.rBuf.dropunit)) := by
  unfold adfRingbufReserve
  rw [if_neg hlen]
  dsimp only
  rw [show adfRingbufCalcWrSize s.rBuf.wp s.rBuf.rp s.rBuf.base s.rBuf.limit = a from ha]
  by_cases hlt : len < a
  · rw [if_neg (by omega), if_pos hlt]
    rfl
  · rw [if_pos (by omega), if_neg hlt]
    rfl

/-- **Reserving** is right if and only if the length is one and leaves a slot free, or there is a
drop unit and it does not divide the free bytes. -/
theorem reserve_iff {s : Ring} (h : s.Valid) (len : Int) :
    ReserveOk s len ↔ 0 ≤ len ∧ (s.used + len ≤ (s.size : Int) - 1 ∨
      s.rBuf.dropunit ≠ 0 ∧ ¬ s.rBuf.dropunit ∣ (s.size : Int) - s.used) := by
  have hat := h.at
  generalize hN : s.size = N at hat
  generalize hr : s.rslot = r at hat
  generalize hw : s.wslot = w at hat
  have hu := hat.used_lt
  rw [hat.used_eq]
  have hfree : adfRingbufGetFreeSize s.rBuf = (N : Int) - (Circ.dist N r w : Nat) := by
    rw [hat.freeSize]
    omega
  generalize huN : Circ.dist N r w = u at hu hfree
  -- the property for a reservation of `k` bytes
  have hiff : ∀ k : Nat, u + k ≤ N → adfRingbufReserve s len = some ((k : Int), s.reserved k) →
      (ReserveOk s len ↔ u + k < N) := fun k hk heq => by
    rw [← huN, ← hat.reserved_iff (by omega), ReserveOk]
    constructor
    · rintro ⟨k', s', hres, hok⟩
      rw [heq] at hres
      cases hres
      exact hok
    · exact fun hok => ⟨k, _, heq, hok⟩
  by_cases h0 : len = 0
  · subst h0
    refine ⟨fun _ => ⟨Int.le_refl 0, .inl (by omega)⟩,
      fun _ => ⟨0, s, rfl, by omega, ?_, by omega, ?_⟩⟩
    · rw [hat.used_eq]
      omega
    · rfl
  have heq := reserve_eq hfree h0
  by_cases hneg : len < 0
  · rw [if_pos (by omega)] at heq
    refine ⟨?_, fun hc => absurd hc.1 (by omega)⟩
    rintro ⟨k, s', hres, -⟩
    rw [heq] at hres
    have : len = k := congrArg Prod.fst (Option.some.inj hres)
    omega
  obtain ⟨n, rfl⟩ := Int.eq_ofNat_of_zero_le (Int.not_lt.1 hneg)
  by_cases hlt : (n : Int) < N - u
  · rw [if_pos hlt] at heq
    rw [hiff n (by omega) heq]
    exact ⟨fun _ => ⟨by omega, .inl (by omega)⟩, fun _ => by omega⟩
  rw [if_neg hlt] at heq
  by_cases hdu : s.rBuf.dropunit = 0
  · -- the division by zero
    rw [if_pos hdu] at heq
    refine ⟨?_, fun hc => ?_⟩
    · rintro ⟨k, s', hres, -⟩
      rw [heq] at hres
      cases hres
    · rcases hc.2 with hle | hne
      · omega
      · exact absurd hdu hne.1
  · rw [if_neg hdu] at heq
    -- the free bytes without the rest of the division
    have hrem0 := Int.tmod_nonneg s.rBuf.dropunit (show 0 ≤ (N : Int) - u by omega)
    have habs := Int.natAbs_tmod ((N : Int) - u) s.rBuf.dropunit
    have hle := Nat.mod_le ((N : Int) - u).natAbs s.rBuf.dropunit.natAbs
    obtain ⟨k, hk⟩ := Int.eq_ofNat_of_zero_le
      (show 0 ≤ (N : Int) - u - ((N : Int) - u).tmod s.rBuf.dropunit by omega)
    rw [hk] at heq
    rw [hiff k (by omega) heq, Int.dvd_iff_tmod_eq_zero]
    constructor
    · exact fun hlt' => ⟨by omega, .inr ⟨hdu, by omega⟩⟩
    · rintro ⟨-, hle | ⟨-, hne⟩⟩ <;> omega

/-- A ring of 8 bytes that holds 5. -/
def used5 (dropunit : Int) : Ring :=
  ⟨⟨32, 40, 37, 32, 0, dropunit, (0, 0)⟩, fun a => UInt8.ofNat (a - 31).toNat⟩

theorem used5_valid (dropunit : Int) : (used5 dropunit).Valid := by
  constructor <;> simp [used5, IsI32, adfRingbufInRange]

theorem reserve_used5 :
    ReserveOk (used5 4) 7 ↔ 0 ≤ (7 : Int) ∧ ((5 : Int) + 7 ≤ 8 - 1 ∨
      (4 : Int) ≠ 0 ∧ ¬ (4 : Int) ∣ 8 - 5) :=
  reserve_iff (used5_valid 4) 7

/-- **Three bytes more**: without a drop unit they divide by zero, with units of one byte the full
ring looks empty. -/
theorem reserve_three :
    adfRingbufReserve (used5 0) 3 = none ∧
      (adfRingbufReserve (used5 1) 3).map (fun r => (r.1, adfRingbufGetUsedSize r.2.rBuf)) =
        some (3, 0) ∧
      ¬ ReserveOk (used5 0) 3 ∧ ¬ ReserveOk (used5 1) 3 := by
  have hfull : (adfRingbufReserve (used5 1) 3).map
      (fun r => (r.1, adfRingbufGetUsedSize r.2.rBuf)) = some (3, 0) := rfl
  refine ⟨rfl, hfull, ?_, ?_⟩
  · rintro ⟨r, s', hres, -⟩
    cases hres
  · rintro ⟨r, s', hres, hused, -⟩
    rw [hres, Option.map_some, Option.some.injEq, Prod.mk.injEq] at hfull
    obtain ⟨hr, hzero⟩ := hfull
    dsimp only at hr hzero
    rw [hzero, hr] at hused
    exact absurd hused (by decide)

end Adf
