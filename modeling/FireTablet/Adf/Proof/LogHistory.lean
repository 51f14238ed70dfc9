import FireTablet.Adf.Log
import FireTablet.Adf.Proof.RingbufFacts
import Mathlib.Data.List.TakeWhile

/-!
# What a log buffer holds

A log buffer of `N` bytes always holds `N` bytes in order: the last ones of its initial zeros and
the DSP's stream (`LogAt.hist`, oldest first, from the slot `w` where the next byte goes). A byte
more drops the oldest and comes last (`LogAt.put`), so after a stream the buffer holds what
`replicate N 0 ++ xs` ends with (`LogAt.append`, `LogLoaded.at`). Every read is a piece of that list
(`LogAt.slice`, `LogAt.read`): two bytes back for the magic (`LogAt.magic`), all but the oldest
byte or back to the base for the whole log (`LogAt.historyRp`).

`adfLog_dump` without a flag finds the oldest byte from the write pointer alone: a zero behind it
means that the buffer has not gone round yet. For a stream of non-zero bytes it puts out the newest
`N - 1` of them, or all when there are fewer (`log_history`). With the write pointer left at `limit`
the buffer is read from its base, and all `N` bytes come out (`log_history_limit`).
-/

namespace Adf

open CInt

/-- A log buffer of `N` bytes behind its struct: the next byte goes to slot `w`, and from there on
round the buffer are the bytes `hist`. -/
structure LogAt (s : Ring) (N w : Nat) (hist : List UInt8) : Prop where
  base : s.rBuf.base = sizeofAdfRingbuf
  limit : s.rBuf.limit = s.rBuf.base + N
  limitI32 : IsI32 s.rBuf.limit
  lt : w < N
  wp : s.rBuf.wp = s.rBuf.base + w ∨ w = 0 ∧ s.rBuf.wp = s.rBuf.base + N
  hist : Circ.read (s.mem.cells s.rBuf.base) N w N = hist

/-- A log buffer as it is loaded: zeros, with the write pointer at the base. -/
structure LogLoaded (s : Ring) (N : Nat) : Prop where
  base : s.rBuf.base = sizeofAdfRingbuf
  limit : s.rBuf.limit = s.rBuf.base + N
  limitI32 : IsI32 s.rBuf.limit
  pos : 0 < N
  wp : s.rBuf.wp = s.rBuf.base
  zero : ∀ p < N, s.mem.cells s.rBuf.base p = 0

theorem LogLoaded.at {s : Ring} {N : Nat} (h : LogLoaded s N) :
    LogAt s N 0 (List.replicate N 0) := by
  refine ⟨h.base, h.limit, h.limitI32, h.pos, .inl (by simp [h.wp]), ?_⟩
  refine List.ext_getElem (by simp) fun i h1 _ => ?_
  rw [Circ.read_length] at h1
  rw [Circ.getElem_read, List.getElem_replicate]
  exact h.zero _ (Circ.wrap_lt (by omega))

section
variable {s : Ring} {N w : Nat} {hist : List UInt8} (h : LogAt s N w hist)
include h

theorem LogAt.length : hist.length = N := by rw [← h.hist, Circ.read_length]

theorem LogAt.sizeI32 : IsI32 N := by
  have hb := h.base
  have hl := h.limit
  have hi := h.limitI32
  unfold IsI32 sizeofAdfRingbuf at *
  omega

/-! ## The DSP's bytes -/

/-- A byte more. -/
theorem LogAt.put (b : UInt8) (stay : Bool) :
    LogAt (dspPut s b stay) N (Circ.wrap N (w + 1)) (hist.drop 1 ++ [b]) := by
  have hw := h.lt
  have hl := h.limit
  have hp : (if s.rBuf.wp < s.rBuf.limit then s.rBuf.wp else s.rBuf.base) = s.rBuf.base + w := by
    rcases h.wp with hwp | ⟨hw0, hwp⟩ <;> split_ifs <;> omega
  refine ⟨h.base, hl, h.limitI32, Circ.wrap_lt (by omega), ?_, ?_⟩
  · simp only [dspPut, hl]
    unfold Circ.wrap
    split_ifs <;> omega
  · have hover := Circ.read_write_overwrite (f := s.mem.cells s.rBuf.base) (d := 1) [b] hw
      (Nat.le_refl N) (by omega) (w := w) (by unfold Circ.wrap; split_ifs <;> omega)
      (by simp; omega)
    simp only [dspPut, hp]
    rw [Mem.cells_store (N := N) (by simp; omega), ← h.hist, ← hover]
    congr 1
    simp; omega

end

/-- A stream more. -/
theorem LogAt.append {s : Ring} {N w : Nat} {hist : List UInt8} (h : LogAt s N w hist)
    (bs : List (UInt8 × Bool)) :
    LogAt (dspAppend s bs) N ((w + bs.length) % N) ((hist ++ bs.map Prod.fst).drop bs.length) := by
  induction bs generalizing s w hist with
  | nil => simpa [dspAppend, Nat.mod_eq_of_lt h.lt] using h
  | cons b bs ih =>
    have hput := ih (h.put b.1 b.2)
    have hlen := h.length
    have hw := h.lt
    rw [Circ.wrap_eq_mod (by omega), Nat.mod_add_mod] at hput
    cases hist with
    | nil => simp at hlen; omega
    | cons a as =>
      rw [List.length_cons, show w + (bs.length + 1) = w + 1 + bs.length by omega]
      simpa [dspAppend] using hput

theorem LogLoaded.append {s : Ring} {N : Nat} (h : LogLoaded s N) (bs : List (UInt8 × Bool)) :
    LogAt (dspAppend s bs) N (bs.length % N)
      ((List.replicate N 0 ++ bs.map Prod.fst).drop bs.length) := by
  simpa using h.at.append bs

/-! ## Reads -/

section
variable {s : Ring} {N w : Nat} {hist : List UInt8} (h : LogAt s N w hist)
include h

/-- The bytes from any slot on, up to the newest. -/
theorem LogAt.slice {i j : Nat} (hij : i + j ≤ N) :
    Circ.read (s.mem.cells s.rBuf.base) N (Circ.wrap N (w + i)) j = (hist.drop i).take j := by
  rw [← h.hist, Circ.read_drop h.lt (by omega) (Nat.le_refl N), Circ.read_take,
    Nat.min_eq_left (by omega)]

/-- The used size from any read pointer to any write pointer. -/
theorem LogAt.usedSize {b : AdfRingbuf} {r e : Nat} (hb : b.base = s.rBuf.base)
    (hl : b.limit = s.rBuf.limit) (hrp : b.rp = s.rBuf.base + r) (hr : r ≤ N)
    (hwp : b.wp = s.rBuf.base + e) (he : e ≤ N) :
    adfRingbufGetUsedSize b = (Circ.dist N r e : Nat) := by
  have hN := h.sizeI32
  have hlim := h.limit
  unfold adfRingbufGetUsedSize adfRingbufCalcRwSize Circ.dist
  rw [hrp, hwp, hb, hl, hlim]
  split_ifs
  · rw [i32_eq (by unfold IsI32 at *; omega)]; omega
  · omega
  · omega
  · rw [i32_eq (by unfold IsI32 at *; omega)]; omega

/-- Reading from slot `r` (`N` for `limit`), `i` places after the oldest byte, with `u` bytes
used. -/
theorem LogAt.read {rp : Int} {r u : Nat} (i cap len : Nat) (hrp : rp = s.rBuf.base + r) (hr : r ≤ N)
    (hi : Circ.wrap N r = Circ.wrap N (w + i)) (hu : adfRingbufGetUsedSize (s.setRp rp).rBuf = u)
    (hiu : i + u ≤ N) (hc : min len u ≤ cap) :
    adfRingbufRead (s.setRp rp) (some cap) len = some ((hist.drop i).take (min len u)) := by
  rw [readSlots (s := s.setRp rp) (N := N) h.limit h.sizeI32 hrp hr hu (by omega) hc,
    ← h.slice (by omega), hi]
  rfl

/-- The slot of the write pointer, `N` when it stays at `limit`. -/
theorem LogAt.wp_slot : ∃ e : Nat, s.rBuf.wp = s.rBuf.base + e ∧ (e = w ∨ w = 0 ∧ e = N) := by
  rcases h.wp with hwp | ⟨hw, hwp⟩
  · exact ⟨w, hwp, .inl rfl⟩
  · exact ⟨N, hwp, .inr ⟨hw, rfl⟩⟩

/-! ## `adfLog_reCalcHeader` -/

/-- **The read pointer for all of the log** is behind the write pointer if the oldest byte but one
is not zero, else at the base. -/
theorem LogAt.historyRp : ∃ r : Nat, adfLogHistoryRp s = some (s.rBuf.base + r) ∧
    r = if s.rBuf.wp < s.rBuf.limit ∧ hist[1]?.getD 0 ≠ 0 then w + 1 else 0 := by
  unfold adfLogHistoryRp
  by_cases hlt : s.rBuf.wp < s.rBuf.limit
  · have hw := h.lt
    have hl := h.limit
    have hli := h.limitI32
    have hb := h.base
    have hwp : s.rBuf.wp = s.rBuf.base + w := by rcases h.wp with hwp | ⟨_, hwp⟩ <;> omega
    have hrp : i32 (s.rBuf.wp + 1) = s.rBuf.base + (w + 1 : Nat) := by
      unfold IsI32 sizeofAdfRingbuf at *
      rw [i32_eq (by unfold IsI32; omega)]; omega
    have hd : Circ.dist N (w + 1) w = N - 1 := by unfold Circ.dist; split_ifs <;> omega
    have hu := h.usedSize (b := (s.setRp (i32 (s.rBuf.wp + 1))).rBuf) rfl rfl hrp (by omega) hwp
      (by omega)
    have hread : adfRingbufRead (s.setRp (i32 (s.rBuf.wp + 1))) (some 1) 1 = _ :=
      h.read 1 1 1 hrp (by omega) rfl hu (by omega) (by omega)
    have hcheck : ((hist.drop 1).take (min 1 (Circ.dist N (w + 1) w))).headD 0 =
        hist[1]?.getD 0 := by
      have := h.length
      rcases hist with _ | ⟨a, _ | ⟨b, bs⟩⟩
      · simp
      · simp
      · simp only [List.length_cons] at this
        rw [hd, Nat.min_eq_left (by omega)]
        rfl
    rw [if_pos hlt]
    dsimp only
    rw [hread, Option.map_some, hcheck]
    by_cases h0 : hist[1]?.getD 0 = 0
    · exact ⟨0, by rw [if_pos h0]; simp, by simp [h0]⟩
    · exact ⟨w + 1, by rw [if_neg h0, hrp], by simp [hlt, h0]⟩
  · exact ⟨0, by simp [hlt], by simp [hlt]⟩

/-- The two bytes before slot `q`. -/
theorem LogAt.twoBefore {b : AdfRingbuf} {q : Nat} (hq : q < N) (h3 : 3 ≤ N)
    (hb : b.base = s.rBuf.base) (hl : b.limit = s.rBuf.limit) (hwp : b.wp = s.rBuf.base + q)
    (hrp : b.rp = adfLogMagicPtr (s.rBuf.base + q) s.rBuf.base s.rBuf.limit) :
    adfRingbufRead ⟨b, s.mem⟩ (some 2) 2 =
      some (Circ.read (s.mem.cells s.rBuf.base) N (Circ.wrap N (q + (N - 2))) 2) := by
  have hN := h.sizeI32
  have hlim := h.limit
  have hli := h.limitI32
  have hbase := h.base
  have hptr : adfLogMagicPtr (s.rBuf.base + q) s.rBuf.base s.rBuf.limit =
      s.rBuf.base + (Circ.wrap N (q + (N - 2)) : Nat) := by
    unfold IsI32 sizeofAdfRingbuf at *
    unfold adfLogMagicPtr Circ.wrap
    rw [hlim, show s.rBuf.base + (N : Int) - s.rBuf.base = N by omega,
      i32_eq (x := (N : Int)) (by unfold IsI32; omega), i32_eq (by unfold IsI32; omega),
      u64_eq (x := (N : Int) - 2) (by omega) (by omega), u64_eq (by omega) (by omega)]
    dsimp only
    split_ifs
    all_goals rw [i32_eq (by unfold IsI32; omega)]; omega
  have hm : Circ.wrap N (q + (N - 2)) < N := Circ.wrap_lt (by omega)
  have hu := h.usedSize hb hl (hrp.trans hptr) (Nat.le_of_lt hm) hwp (Nat.le_of_lt hq)
  have hd : Circ.dist N (Circ.wrap N (q + (N - 2))) q = 2 := by
    unfold Circ.wrap Circ.dist at *; split_ifs at * <;> omega
  rw [hd] at hu
  have hread : adfRingbufRead ⟨b, s.mem⟩ (some 2) 2 = _ :=
    readSlots (by rw [hl, hb]; exact hlim) hN (by rw [hb]; exact hrp.trans hptr) (Nat.le_of_lt hm)
      hu (by omega) (by omega)
  rw [hread]
  dsimp only
  rw [Circ.wrap_of_lt hm, hb]
  rfl

/-! ## What is dumped and printed -/

/-- The buffer that is read from slot `r` on: the newest bytes. -/
theorem LogAt.allocAndRead {r e : Nat} (hwp : s.rBuf.wp = s.rBuf.base + e)
    (he : e = w ∨ w = 0 ∧ e = N) (hr : r ≤ N) (hpos : 0 < Circ.dist N r e) :
    adfLogAllocAndReadRbuf (s.setRp (s.rBuf.base + r)) (Circ.dist N r e) true =
      some (some (hist.drop (N - Circ.dist N r e))) := by
  have hw := h.lt
  have hu := h.usedSize (b := (s.setRp (s.rBuf.base + r)).rBuf) rfl rfl rfl hr hwp (by omega)
  have hd : Circ.dist N r e ≤ N := by unfold Circ.dist; split_ifs <;> omega
  have hread := h.read (N - Circ.dist N r e) (Circ.dist N r e) (Circ.dist N r e) rfl hr
    (by unfold Circ.wrap Circ.dist at *; split_ifs at * <;> omega) hu (by omega) (by omega)
  unfold adfLogAllocAndReadRbuf
  rw [if_neg (by simp; omega), Int.toNat_natCast, hread]
  have hlen := h.length
  rw [Nat.min_self, List.take_of_length_le (by simp; omega)]
  simp only [Option.map_some, List.length_drop, hlen]
  rw [show Circ.dist N r e - (N - (N - Circ.dist N r e)) = 0 by omega]
  simp

section
variable {flag r e : Nat} (hwp : s.rBuf.wp = s.rBuf.base + e) (he : e = w ∨ w = 0 ∧ e = N)
  (hr : r ≤ N)
include hwp he hr

/-- **`adfLog_dump`** from the read pointer at slot `r`. -/
theorem LogAt.dump (hc : adfLogReCalcHeader s flag true =
      some (adfRingbufGetUsedSize (s.setRp (s.rBuf.base + r)).rBuf, s.setRp (s.rBuf.base + r))) :
    adfLogDump s flag true = some (0, cString (hist.drop (N - Circ.dist N r e)),
      s.setRp (s.rBuf.base + r)) := by
  have hu := h.usedSize (b := (s.setRp (s.rBuf.base + r)).rBuf) rfl rfl rfl hr hwp
    (by have := h.lt; omega)
  unfold adfLogDump
  rw [hc, Option.bind_some]
  dsimp only
  rw [hu]
  by_cases hpos : 0 < Circ.dist N r e
  · rw [if_pos (by omega), h.allocAndRead hwp he hr hpos]
    rfl
  · have hnil : hist.drop (N - Circ.dist N r e) = [] :=
      List.drop_of_length_le (by rw [h.length]; omega)
    rw [if_neg (by omega), hnil]
    rfl

/-- **`adfLog_print`** from the read pointer at slot `r`. -/
theorem LogAt.print (hc : adfLogReCalcHeader s flag false =
      some (adfRingbufGetUsedSize (s.setRp (s.rBuf.base + r)).rBuf, s.setRp (s.rBuf.base + r))) :
    adfLogPrint s (some flag) true = some (0, logLines (hist.drop (N - Circ.dist N r e)),
      s.setRp (s.rBuf.base + r)) := by
  have hu := h.usedSize (b := (s.setRp (s.rBuf.base + r)).rBuf) rfl rfl rfl hr hwp
    (by have := h.lt; omega)
  unfold adfLogPrint
  rw [Option.getD_some, hc, Option.bind_some]
  dsimp only
  rw [hu]
  by_cases hpos : 0 < Circ.dist N r e
  · rw [if_pos (by omega), h.allocAndRead hwp he hr hpos]
    rfl
  · have hnil : hist.drop (N - Circ.dist N r e) = [] :=
      List.drop_of_length_le (by rw [h.length]; omega)
    rw [if_neg (by omega), hnil]
    rfl

end

end

/-! ## The full log history -/

/-- A string without zeros is printed whole. -/
theorem cString_eq {bs : List UInt8} (h : ∀ b ∈ bs, b ≠ 0) : cString bs = bs := by
  rw [cString, List.takeWhile_eq_self_iff]
  simpa using h

theorem cString_nonzero {bs : List UInt8} : ∀ b ∈ cString bs, b ≠ 0 := fun b hb => by
  simpa using List.mem_takeWhile_imp hb

/-- The flag `0` is no read pointer of a log buffer. -/
theorem LogAt.reCalc_zero {s : Ring} {N w : Nat} {hist : List UInt8} (h : LogAt s N w hist)
    (chk : Bool) {rp : Int} (hrp : adfLogHistoryRp s = some rp) :
    adfLogReCalcHeader s 0 chk =
      some (adfRingbufGetUsedSize (s.setRp rp).rBuf, s.setRp rp) := by
  have hb := h.base
  have hin : ¬ adfRingbufInRange ((0 % 65536 : Nat) : Int) s.rBuf.base s.rBuf.limit = true := by
    rw [inRange_iff, hb]; unfold sizeofAdfRingbuf; omega
  unfold adfLogReCalcHeader
  rw [hrp, Option.bind_some]
  dsimp only
  rw [if_neg hin]
  rfl

/-! ## Streams -/

section
variable {N : Nat} {xs : List UInt8}

/-- The newest bytes of a buffer are the last ones of the stream. -/
theorem newest_eq {u : Nat} (hu : u ≤ xs.length) (huN : u ≤ N) :
    ((List.replicate N 0 ++ xs).drop xs.length).drop (N - u) = xs.drop (xs.length - u) := by
  rw [List.drop_drop, List.drop_append, List.drop_of_length_le (by simp; omega), List.nil_append,
    List.length_replicate]
  congr 1
  omega

/-- The oldest byte but one is zero while fewer than `N - 1` bytes came. -/
theorem second_eq_zero_iff (hnz : ∀ b ∈ xs, b ≠ 0) (hN : 1 < N) :
    (((List.replicate N 0 ++ xs).drop xs.length)[1]?).getD 0 = 0 ↔ xs.length + 1 < N := by
  rw [List.getElem?_drop]
  constructor
  · intro h0
    by_contra hge
    rw [List.getElem?_append_right (by simp; omega), List.length_replicate,
      List.getElem?_eq_getElem (by omega), Option.getD_some] at h0
    exact hnz _ (List.getElem_mem _) h0
  · intro hlt
    rw [List.getElem?_append_left (by simp; omega), List.getElem?_replicate, if_pos (by omega)]
    rfl

end

/-- The string that a dump of the newest `u` bytes puts out. -/
theorem cString_newest {N u : Nat} {xs : List UInt8} (hnz : ∀ b ∈ xs, b ≠ 0) (hu : u ≤ xs.length)
    (huN : u ≤ N) :
    cString (((List.replicate N 0 ++ xs).drop xs.length).drop (N - u)) =
      xs.drop (xs.length - u) := by
  rw [newest_eq hu huN]
  exact cString_eq fun b hb => hnz b (List.mem_of_mem_drop hb)

/-- The number of bytes from the slot where a dump of all of the log starts. -/
theorem LogAt.history_used {s : Ring} {N r e : Nat} {xs : List UInt8} (hnz : ∀ b ∈ xs, b ≠ 0)
    (h : LogAt s N (xs.length % N) ((List.replicate N 0 ++ xs).drop xs.length))
    (hwp : s.rBuf.wp = s.rBuf.base + e) (he : e = xs.length % N ∨ xs.length % N = 0 ∧ e = N)
    (hr : r = if s.rBuf.wp < s.rBuf.limit ∧
      (((List.replicate N 0 ++ xs).drop xs.length)[1]?).getD 0 ≠ 0 then xs.length % N + 1 else 0)
    (hnil : xs = [] → s.rBuf.wp = s.rBuf.base) :
    Circ.dist N r e = min xs.length (if s.rBuf.wp = s.rBuf.limit then N else N - 1) := by
  have hw := h.lt
  have hl := h.limit
  by_cases hlim : s.rBuf.wp = s.rBuf.limit
  · have h0 : xs.length ≠ 0 := fun h0 => by
      have := hnil (List.length_eq_zero_iff.1 h0); omega
    have hle : N ≤ xs.length := by
      by_contra hlt
      rw [Nat.mod_eq_of_lt (by omega)] at he; omega
    rw [if_neg (by omega)] at hr
    rw [if_pos hlim, hr, show e = N by omega]
    unfold Circ.dist; split_ifs <;> omega
  · have hew : e = xs.length % N := by omega
    rw [if_neg hlim, hr, hew]
    rcases Nat.lt_or_ge 1 N with hN | hN
    · simp only [show s.rBuf.wp < s.rBuf.limit by omega, true_and, ne_eq,
        second_eq_zero_iff hnz hN]
      by_cases hlt : xs.length + 1 < N
      · rw [if_neg (by omega), Nat.mod_eq_of_lt (by omega)]
        unfold Circ.dist; split_ifs <;> omega
      · rw [if_pos hlt]
        unfold Circ.dist; split_ifs <;> omega
    · have hnone : ((List.replicate N 0 ++ xs).drop xs.length)[1]? = none :=
        List.getElem?_eq_none (by rw [h.length]; omega)
      rw [if_neg (by rw [hnone]; simp)]
      unfold Circ.dist; split_ifs <;> omega

/-- **All of the log**: a dump without a flag puts out the last `N - 1` bytes of the stream, or the
last `N` when the write pointer is at `limit`, and all of a shorter stream. -/
theorem log_history {s : Ring} {N : Nat} (h : LogLoaded s N) (stream : List (UInt8 × Bool))
    (hnz : ∀ b ∈ stream.map Prod.fst, b ≠ 0) :
    ∃ s', adfLogDump (dspAppend s stream) 0 true = some (0,
      (stream.map Prod.fst).drop (stream.length - min stream.length
        (if (dspAppend s stream).rBuf.wp = (dspAppend s stream).rBuf.limit then N else N - 1)),
      s') := by
  have hat := h.append stream
  have hnil : stream.map Prod.fst = [] → (dspAppend s stream).rBuf.wp =
      (dspAppend s stream).rBuf.base := fun h0 => by
    rw [List.map_eq_nil_iff.1 h0]; exact h.wp
  have hlen : (stream.map Prod.fst).length = stream.length := List.length_map _
  rw [← hlen] at hat ⊢
  generalize stream.map Prod.fst = xs at *
  generalize dspAppend s stream = s1 at *
  obtain ⟨e, hwp, he⟩ := hat.wp_slot
  obtain ⟨r, hrp, hr⟩ := hat.historyRp
  have hu := hat.history_used hnz hwp he hr hnil
  have hw := hat.lt
  have hrN : r ≤ N := by split_ifs at hr <;> omega
  have hdump := hat.dump hwp he hrN (hat.reCalc_zero true hrp)
  rw [hu, cString_newest hnz (Nat.min_le_left _ _) (by split_ifs <;> omega)] at hdump
  exact ⟨_, hdump⟩

/-- A log buffer of 4 bytes, just loaded. -/
def log4 : Ring := ⟨⟨32, 36, 32, 32, 0, 0, (0, 0)⟩, fun _ => 0⟩

theorem log4_loaded : LogLoaded log4 4 := by
  constructor <;> decide

theorem log_history_log4 :
    ∃ s', adfLogDump (dspAppend log4 [(1, false), (2, false), (3, false), (4, false), (5, false)])
      0 true = some (0, [3, 4, 5], s') :=
  log_history log4_loaded [(1, false), (2, false), (3, false), (4, false), (5, false)] (by simp)

/-- With the write pointer left at `limit` by the fourth byte, all four bytes come out. -/
theorem log_history_limit :
    (∃ s', adfLogDump (dspAppend log4 [(1, false), (2, false), (3, false), (4, true)]) 0 true =
      some (0, [1, 2, 3, 4], s')) ∧
    ¬ ∃ s', adfLogDump (dspAppend log4 [(1, false), (2, false), (3, false), (4, true)]) 0 true =
      some (0, [2, 3, 4], s') := by
  refine ⟨⟨_, rfl⟩, ?_⟩
  rintro ⟨s', hs⟩
  have : adfLogDump (dspAppend log4 [(1, false), (2, false), (3, false), (4, true)]) 0 true =
      some (0, [1, 2, 3, 4], _) := rfl
  rw [this] at hs
  simp at hs

end Adf
