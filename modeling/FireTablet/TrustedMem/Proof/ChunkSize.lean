import FireTablet.TrustedMem.Region
import Mathlib.Data.Nat.Find
import Mathlib.Order.Bounds.Basic

/-!
# The adjustment of a chunk's size and alignment

Multi-chunk types round the size up to whole chunks and align to a chunk; the other types align to
the smallest *ordered size* that covers the request, which is the chunk size times a power of two.
An alignment that equals the adjusted size is left alone, and each of the two steps can be switched
off by the configuration (`parameterChecks_adjust`).
-/

namespace TrustedMem

/-- A chunk size that the driver can work with. -/
structure Chunked (cfg : TrustedMemConfigs) : Prop where
  pow : ∃ n < 32, cfg.minimalChunkSize = 2 ^ n
  phys : cfg.physLimitMinAllocSize ≤ cfg.minimalChunkSize

/-- The ordered sizes that cover a size. -/
def orderedSizes (cfg : TrustedMemConfigs) (size : Nat) : Set Nat :=
  {a | (∃ k, a = cfg.minimalChunkSize * 2 ^ k) ∧ size ≤ a}

/-- Whether sizes are rounded up to whole chunks. -/
def RoundsUp (cfg : TrustedMemConfigs) : Prop :=
  cfg.minSizeCheckEnable = true ∧ isMteeMchunks cfg = true

instance (cfg : TrustedMemConfigs) : Decidable (RoundsUp cfg) := inferInstanceAs (Decidable (_ ∧ _))

/-- The size that is allocated for a request, as a number. -/
def adjustedSize (cfg : TrustedMemConfigs) (size : Nat) : Nat :=
  if RoundsUp cfg then ((size - 1) / cfg.minimalChunkSize + 1) * cfg.minimalChunkSize else size

/-- The request is refused: a type of single chunks, and less than one chunk. -/
def TooSmall (cfg : TrustedMemConfigs) (size : Nat) : Prop :=
  cfg.minSizeCheckEnable = true ∧ isMteeMchunks cfg = false ∧ size < cfg.minimalChunkSize

/-- The rounded size fits 32 bits, and the search for the ordered size is not made above the largest
one. -/
structure InRange (cfg : TrustedMemConfigs) (alignment size : Nat) : Prop where
  rounded : RoundsUp cfg → size + cfg.minimalChunkSize ≤ 2 ^ 32
  searched : cfg.alignmentCheckEnable = true → isMteeMchunks cfg = false → alignment ≠ size →
    size ≤ 2 ^ 31

/-- What a request that is not refused is adjusted to. -/
structure Adjusted (cfg : TrustedMemConfigs) (alignment size alignment' size' : Nat) : Prop where
  size_eq : size' = adjustedSize cfg size
  le_size : size ≤ size'
  size_lt : size' < 2 ^ 32
  dvd_size : RoundsUp cfg → cfg.minimalChunkSize ∣ size'
  kept : cfg.alignmentCheckEnable = false ∨ alignment = size' → alignment' = alignment
  chunk : cfg.alignmentCheckEnable = true → alignment ≠ size' → isMteeMchunks cfg = true →
    alignment' = cfg.minimalChunkSize
  least : cfg.alignmentCheckEnable = true → alignment ≠ size' → isMteeMchunks cfg = false →
    IsLeast (orderedSizes cfg size') alignment'
  alignment_lt : alignment' < 2 ^ 32

variable {cfg : TrustedMemConfigs}

/-! ## Sizes -/

theorem dvd_adjustedSize (hr : RoundsUp cfg) (size : Nat) :
    cfg.minimalChunkSize ∣ adjustedSize cfg size := by
  rw [adjustedSize, if_pos hr]
  exact Nat.dvd_mul_left ..

theorem adjustedSize_lt {size : Nat} (h1 : 1 ≤ size) (h32 : size < 2 ^ 32)
    (hr : RoundsUp cfg → size + cfg.minimalChunkSize ≤ 2 ^ 32) : adjustedSize cfg size < 2 ^ 32 := by
  unfold adjustedSize
  split
  · have := Nat.div_mul_le_self (size - 1) cfg.minimalChunkSize
    have := hr ‹_›
    rw [Nat.add_mul, Nat.one_mul]
    omega
  · exact h32

section
variable (hc : Chunked cfg)
include hc

theorem Chunked.pos : 0 < cfg.minimalChunkSize := by
  obtain ⟨n, -, h⟩ := hc.pow
  exact h ▸ Nat.two_pow_pos n

theorem le_adjustedSize (size : Nat) : size ≤ adjustedSize cfg size := by
  unfold adjustedSize
  split
  · have := (Nat.div_lt_iff_lt_mul hc.pos).1 (Nat.lt_add_one ((size - 1) / cfg.minimalChunkSize))
    omega
  · exact Nat.le_refl _

/-- The check of the size does as it says. -/
theorem minChunkSizeCheck_spec (hm : cfg.minSizeCheckEnable = true) {size : Nat} (h1 : 1 ≤ size)
    (h32 : size < 2 ^ 32) (hr : RoundsUp cfg → size + cfg.minimalChunkSize ≤ 2 ^ 32) :
    (TooSmall cfg size ∧ minChunkSizeCheck cfg size = (tmemInvalidDeviceMinChunkSize, size)) ∨
      (¬ TooSmall cfg size ∧ minChunkSizeCheck cfg size = (tmemOk, adjustedSize cfg size)) := by
  unfold minChunkSizeCheck
  rw [if_neg (Nat.not_lt.2 hc.phys)]
  cases hmt : isMteeMchunks cfg with
  | true =>
    have hlt := adjustedSize_lt h1 h32 hr
    rw [adjustedSize, if_pos ⟨hm, hmt⟩] at hlt
    refine .inr ⟨by simp [TooSmall, hmt], ?_⟩
    have hsub : (size + 2 ^ 32 - 1) % 2 ^ 32 = size - 1 := by omega
    rw [if_pos rfl, adjustedSize, if_pos ⟨hm, hmt⟩, hsub, Nat.mod_eq_of_lt hlt]
  | false =>
    rw [if_neg Bool.false_ne_true]
    by_cases hs : size < cfg.minimalChunkSize
    · exact .inl ⟨⟨hm, hmt, hs⟩, if_pos hs⟩
    · refine .inr ⟨fun h => hs h.2.2, ?_⟩
      rw [if_neg hs, adjustedSize, if_neg (by simp [RoundsUp, hmt])]

/-! ## Alignments -/

/-- The search finds the smallest ordered size. -/
theorem getOrderedSize_least (hmt : isMteeMchunks cfg = false) {size : Nat}
    (hs : size ≤ 2 ^ 31) :
    ∃ a, getOrderedSize cfg size = some a ∧ a ≤ 2 ^ 31 ∧ IsLeast (orderedSizes cfg size) a := by
  obtain ⟨n, hn, hpow⟩ := hc.pow
  unfold getOrderedSize
  by_cases hlt : size < cfg.minimalChunkSize
  · refine ⟨_, if_pos hlt, ?_, ⟨⟨0, by simp⟩, Nat.le_of_lt hlt⟩, ?_⟩
    · exact hpow ▸ Nat.pow_le_pow_right Nat.two_pos (Nat.le_of_lt_succ hn)
    · rintro _ ⟨⟨k, rfl⟩, -⟩
      exact Nat.le_mul_of_pos_right _ (Nat.two_pow_pos k)
  · rw [if_neg hlt, hmt, if_neg Bool.false_ne_true]
    -- the first order that is large enough; none before it wraps
    have hex : ∃ k, size ≤ 2 ^ (n + k) := ⟨31 - n, by rwa [show n + (31 - n) = 31 by omega]⟩
    have hk := Nat.find_spec hex
    have hmin : ∀ j < Nat.find hex, 2 ^ (n + j) < size := fun j hj =>
      Nat.lt_of_not_le (Nat.find_min hex hj)
    have hle : Nat.find hex ≤ 31 - n :=
      Nat.find_min' hex (by rwa [show n + (31 - n) = 31 by omega])
    generalize Nat.find hex = k at hk hmin hle
    have hval : ∀ j ≤ k, cfg.minimalChunkSize * 2 ^ j % 2 ^ 32 = 2 ^ (n + j) := fun j hj => by
      rw [hpow, ← Nat.pow_add]
      exact Nat.mod_eq_of_lt (Nat.pow_lt_pow_right Nat.one_lt_two (by omega))
    refine ⟨2 ^ (n + k), ?_, Nat.pow_le_pow_right Nat.two_pos (by omega),
      ⟨⟨k, by rw [hpow, Nat.pow_add]⟩, hk⟩, ?_⟩
    · have hfind : (List.range 32).find?
          ((fun a => decide (size ≤ a)) ∘ fun o => cfg.minimalChunkSize * 2 ^ o % 2 ^ 32) =
            some k := by
        rw [List.find?_range_eq_some]
        refine ⟨?_, List.mem_range.2 (by omega), ?_⟩
        · show decide (size ≤ cfg.minimalChunkSize * 2 ^ k % 2 ^ 32) = true
          rw [hval k (Nat.le_refl k)]
          exact decide_eq_true hk
        · intro j hj
          show (!decide (size ≤ cfg.minimalChunkSize * 2 ^ j % 2 ^ 32)) = true
          rw [hval j (Nat.le_of_lt hj), decide_eq_false (Nat.not_le.2 (hmin j hj))]
          rfl
      rw [List.find?_map, hfind, Option.map_some, hval k (Nat.le_refl k)]
    · rintro _ ⟨⟨j, rfl⟩, hj⟩
      rw [hpow, ← Nat.pow_add] at hj ⊢
      refine Nat.pow_le_pow_right Nat.two_pos (Nat.le_of_not_lt fun hlt' => ?_)
      exact Nat.not_lt.2 hj (hmin j (by omega))

end

theorem getOrderedSize_chunk (hmt : isMteeMchunks cfg = true) (size : Nat) :
    getOrderedSize cfg size = some cfg.minimalChunkSize := by
  unfold getOrderedSize
  rw [hmt, if_pos rfl, ite_self]

/-- An alignment other than the size is replaced. -/
theorem alignmentAdjust_update {alignment size : Nat} (h : alignment ≠ size) :
    alignmentAdjust cfg alignment size = getOrderedSize cfg size := by
  unfold alignmentAdjust
  dsimp only
  by_cases h0 : alignment = 0 ∨ size < alignment
  · rw [if_pos h0]
    cases getOrderedSize cfg size with
    | none => rfl
    | some a => simp
  · rw [if_neg h0, Option.bind_some, if_pos (by omega)]

theorem alignmentAdjust_self {size : Nat} (h : 1 ≤ size) :
    alignmentAdjust cfg size size = some size := by
  unfold alignmentAdjust
  dsimp only
  rw [if_neg (by omega), Option.bind_some, if_neg (Nat.lt_irrefl size)]

/-! ## Both -/

/-- What the second step makes of an alignment. -/
theorem alignmentAdjust_spec (hc : Chunked cfg) {alignment size' : Nat} (h1 : 1 ≤ size')
    (h32 : size' < 2 ^ 32)
    (hs : isMteeMchunks cfg = false → alignment ≠ size' → size' ≤ 2 ^ 31) :
    ∃ a, alignmentAdjust cfg alignment size' = some a ∧ a < 2 ^ 32 ∧
      (alignment = size' → a = alignment) ∧
      (alignment ≠ size' → isMteeMchunks cfg = true → a = cfg.minimalChunkSize) ∧
      (alignment ≠ size' → isMteeMchunks cfg = false → IsLeast (orderedSizes cfg size') a) := by
  by_cases he : alignment = size'
  · subst he
    exact ⟨_, alignmentAdjust_self h1, h32, fun _ => rfl, fun h => absurd rfl h,
      fun h => absurd rfl h⟩
  · rw [alignmentAdjust_update he]
    cases hmt : isMteeMchunks cfg with
    | true =>
      obtain ⟨n, hn, hpow⟩ := hc.pow
      refine ⟨_, getOrderedSize_chunk hmt size', ?_, fun h => absurd h he, fun _ _ => rfl, nofun⟩
      exact hpow ▸ Nat.pow_lt_pow_right Nat.one_lt_two hn
    | false =>
      obtain ⟨a, hfind, hle, hleast⟩ := getOrderedSize_least hc hmt (hs hmt he)
      exact ⟨a, hfind, by omega, fun h => absurd h he, nofun, fun _ _ => hleast⟩

/-- **Adjustment.** A request in range is checked in a finite number of steps, is refused only when
it is too small, and is otherwise adjusted without wrapping. -/
theorem parameterChecks_adjust {cfg : TrustedMemConfigs} (hc : Chunked cfg) {alignment size : Nat}
    (h1 : 1 ≤ size) (h32 : size < 2 ^ 32) (ha : alignment < 2 ^ 32)
    (hr : InRange cfg alignment size) :
    ∃ ret alignment' size', parameterChecks cfg alignment size = some (ret, alignment', size') ∧
      (ret = tmemOk ↔ ¬ TooSmall cfg size) ∧
      (ret = tmemOk → Adjusted cfg alignment size alignment' size') := by
  have hle := le_adjustedSize hc size
  have hlt := adjustedSize_lt h1 h32 hr.rounded
  -- the first step leaves the adjusted size
  have hfirst : TooSmall cfg size ∨ ¬ TooSmall cfg size ∧
      (if cfg.minSizeCheckEnable then minChunkSizeCheck cfg size else (tmemOk, size)) =
        (tmemOk, adjustedSize cfg size) := by
    cases hm : cfg.minSizeCheckEnable with
    | false =>
      exact .inr ⟨by simp [TooSmall, hm], by simp [adjustedSize, RoundsUp, hm]⟩
    | true =>
      obtain ⟨h, -⟩ | ⟨h, he⟩ := minChunkSizeCheck_spec hc hm h1 h32 hr.rounded
      · exact .inl h
      · exact .inr ⟨h, by rw [if_pos rfl, he]⟩
  unfold parameterChecks
  dsimp only
  obtain hsmall | ⟨hsmall, he⟩ := hfirst
  · obtain ⟨-, he⟩ | ⟨h, -⟩ := minChunkSizeCheck_spec hc hsmall.1 h1 h32 hr.rounded
    · have hne : tmemInvalidDeviceMinChunkSize ≠ tmemOk := by decide
      rw [if_pos hsmall.1, he, if_pos (show (tmemInvalidDeviceMinChunkSize, size).1 ≠ 0 from hne)]
      exact ⟨_, _, _, rfl, iff_of_false hne (not_not.2 hsmall), fun h => absurd h hne⟩
    · exact absurd hsmall h
  · rw [he, if_neg (show ¬ (tmemOk, adjustedSize cfg size).1 ≠ 0 by simp [tmemOk])]
    cases hal : cfg.alignmentCheckEnable with
    | false =>
      refine ⟨_, _, _, rfl, iff_of_true rfl hsmall, fun _ => ⟨rfl, hle, hlt, fun h =>
        dvd_adjustedSize h size, fun _ => rfl, ?_, ?_, ha⟩⟩
      · intro h; rw [hal] at h; cases h
      · intro h; rw [hal] at h; cases h
    | true =>
      have hs : isMteeMchunks cfg = false → alignment ≠ adjustedSize cfg size →
          adjustedSize cfg size ≤ 2 ^ 31 := fun hmt hne => by
        have hsz : adjustedSize cfg size = size := if_neg (by simp [RoundsUp, hmt])
        rw [hsz] at hne ⊢
        exact hr.searched hal hmt hne
      obtain ⟨a, hadj, halt, hk, hch, hl⟩ :=
        alignmentAdjust_spec hc (Nat.le_trans h1 hle) hlt hs
      rw [if_pos rfl, hadj]
      refine ⟨_, _, _, rfl, iff_of_true rfl hsmall, fun _ => ⟨rfl, hle, hlt, fun h =>
        dvd_adjustedSize h size, fun h => hk ?_, fun _ => hch, fun _ => hl, halt⟩⟩
      exact h.resolve_left (by simp [hal])

/-- A device of a type with single chunks, or with many, of 4 KiB. -/
def device4k (memType : TrustedMemType) (checkAlignment : Bool) : TrustedMemConfigs :=
  ⟨memType, false, 4096, 4096, false, true, checkAlignment⟩

theorem device4k_chunked (memType : TrustedMemType) (b : Bool) : Chunked (device4k memType b) :=
  ⟨⟨12, by decide, rfl⟩, Nat.le_refl _⟩

/-- Five KiB of a type with single chunks are aligned to eight. -/
theorem parameterChecks_adjust_svp :
    ∃ ret alignment' size', parameterChecks (device4k .svp true) 0 5120 =
        some (ret, alignment', size') ∧
      (ret = tmemOk ↔ ¬ TooSmall (device4k .svp true) 5120) ∧
      (ret = tmemOk → Adjusted (device4k .svp true) 0 5120 alignment' size') :=
  parameterChecks_adjust (device4k_chunked .svp true) (by decide) (by decide) (by decide)
    ⟨fun h => absurd h.2 (by decide), fun _ _ _ => by decide⟩

/-! ## Requests that are adjusted otherwise -/

/-- What one would ask for of every request: the check ends, and one that succeeds leaves at least
the size, in whole chunks and aligned to one for the types with many, and otherwise aligned to the
smallest ordered size. -/
def AsAsked (cfg : TrustedMemConfigs) (alignment size : Nat) : Prop :=
  ∃ ret alignment' size', parameterChecks cfg alignment size = some (ret, alignment', size') ∧
    (ret = tmemOk → size ≤ size' ∧
      (isMteeMchunks cfg = true → cfg.minimalChunkSize ∣ size' ∧
        alignment' = cfg.minimalChunkSize) ∧
      (isMteeMchunks cfg = false → IsLeast (orderedSizes cfg size') alignment'))

/-- Above 2³¹ the search for an ordered size does not end. Rounding up to 2³² gives no bytes. Twelve
KiB that are asked for with their own size as alignment keep it, and without the check of alignments
any alignment stays. -/
theorem parameterChecks_adjust_otherwise :
    ¬ AsAsked (device4k .svp true) 0 (2 ^ 31 + 1) ∧ ¬ AsAsked (device4k .prot true) 0 (2 ^ 32 - 1) ∧
      ¬ AsAsked (device4k .svp true) 12288 12288 ∧ ¬ AsAsked (device4k .svp false) 1 4096 := by
  refine ⟨?_, ?_, ?_, ?_⟩
  · rintro ⟨_, _, _, h, -⟩
    rw [show parameterChecks (device4k .svp true) 0 (2 ^ 31 + 1) = none by decide +kernel] at h
    cases h
  · rintro ⟨_, _, _, h, hok⟩
    rw [show parameterChecks (device4k .prot true) 0 (2 ^ 32 - 1) = some (0, 4096, 0) by
      decide +kernel] at h
    cases h
    exact absurd (hok rfl).1 (by decide)
  · rintro ⟨_, _, _, h, hok⟩
    rw [show parameterChecks (device4k .svp true) 12288 12288 = some (0, 12288, 12288) by
      decide +kernel] at h
    cases h
    obtain ⟨⟨k, hk⟩, -⟩ := ((hok rfl).2.2 rfl).1
    -- 12288 = 3 · 4096 is no ordered size
    have hk' : 2 ^ k = 3 := Nat.eq_of_mul_eq_mul_left (by decide : 0 < 4096) hk.symm
    rcases k with _ | _ | k
    · cases hk'
    · cases hk'
    · rw [Nat.pow_add] at hk'
      omega
  · rintro ⟨_, _, _, h, hok⟩
    rw [show parameterChecks (device4k .svp false) 1 4096 = some (0, 1, 4096) by
      decide +kernel] at h
    cases h
    exact absurd ((hok rfl).2.2 rfl).1.2 (by decide)

end TrustedMem
