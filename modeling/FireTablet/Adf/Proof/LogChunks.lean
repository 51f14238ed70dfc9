import FireTablet.Adf.LogCommon
import FireTablet.Adf.Proof.LogHistory

/-!
# Printing the log in chunks

A chunk is cut back to the end of its last whole line, so that no line is printed in two parts. A
full chunk in which no line ends is thrown away. So of every line of the log, the text between two
line feeds, the last `length % 2048` bytes are printed, all of them when the line is shorter than a
chunk (`print_chunked`). The last text of the log counts as such a line whether or not a line feed
ends it. `adfLog_dump` reads the log with the same function, and only for a log of exactly one
chunk's length does it cut what the kernel tree's driver does not (`dump_agree_iff`).
-/

namespace Adf.Common

open CInt

/-! ## The lines of a text -/

/-- Induction on a text line by line. -/
theorem line_induction {P : List UInt8 → Prop} (last : ∀ a, 10 ∉ a → P a)
    (line : ∀ a bs, 10 ∉ a → P bs → P (a ++ 10 :: bs)) (bs : List UInt8) : P bs := by
  induction hn : bs.length using Nat.strong_induction_on generalizing bs with
  | _ n ih =>
    by_cases hmem : 10 ∈ bs
    · obtain ⟨a, rest, rfl, ha⟩ := List.eq_append_cons_of_mem hmem
      exact line a rest ha (ih rest.length (by subst hn; simp; omega) rest rfl)
    · exact last bs hmem

/-- What is printed of a line: all but the full chunks at its start. -/
def keptLine (p : List UInt8) : List UInt8 :=
  p.drop (adfLogCycleDumpLen * (p.length / adfLogCycleDumpLen))

/-- What is printed of a text. -/
def chunkedLines (bs : List UInt8) : List (List UInt8) :=
  (bs.splitOn 10).flatMap fun p => logLines (keptLine p)

theorem keptLine_short {p : List UInt8} (h : p.length < adfLogCycleDumpLen) : keptLine p = p := by
  rw [keptLine, Nat.div_eq_of_lt h, Nat.mul_zero, List.drop_zero]

/-- A full chunk before a line does not matter. -/
theorem keptLine_append {c p : List UInt8} (h : c.length = adfLogCycleDumpLen) :
    keptLine (c ++ p) = keptLine p := by
  have hpos : 0 < adfLogCycleDumpLen := by decide
  unfold keptLine
  rw [List.length_append, h, Nat.add_div_left _ hpos, Nat.mul_succ, Nat.add_comm, ← List.drop_drop,
    List.drop_left' h]

theorem chunkedLines_line (a bs : List UInt8) :
    chunkedLines (a ++ 10 :: bs) = chunkedLines a ++ chunkedLines bs := by
  unfold chunkedLines
  rw [List.splitOn_append_cons_self, List.flatMap_append]

theorem chunkedLines_last {a : List UInt8} (h : 10 ∉ a) :
    chunkedLines a = logLines (keptLine a) := by
  unfold chunkedLines
  rw [List.splitOn_eq_singleton h, List.flatMap_singleton]

theorem logLines_nil : logLines [] = [] := rfl

theorem chunkedLines_nil : chunkedLines [] = [] := rfl

theorem logLines_line {a bs : List UInt8} (h : ∀ b ∈ a ++ 10 :: bs, b ≠ 0) :
    logLines (a ++ 10 :: bs) = logLines a ++ logLines bs := by
  have ha : ∀ b ∈ a, b ≠ 0 := fun b hb => h b (by simp [hb])
  have hbs : ∀ b ∈ bs, b ≠ 0 := fun b hb => h b (by simp [hb])
  unfold logLines
  rw [cString_eq h, cString_eq ha, cString_eq hbs, List.splitOnP_append_cons _ _ (by decide),
    List.filter_append]

/-- The lines of a text are those of its parts between two line feeds. -/
theorem logLines_eq_flatMap {bs : List UInt8} (h : ∀ b ∈ bs, b ≠ 0) :
    logLines bs = (bs.splitOn 10).flatMap logLines := by
  induction bs using line_induction with
  | last a ha => rw [List.splitOn_eq_singleton ha, List.flatMap_singleton]
  | line a bs ha ih =>
    have hbs : ∀ b ∈ bs, b ≠ 0 := fun b hb => h b (by simp [hb])
    rw [logLines_line h, ih hbs, List.splitOn_append_cons_self, List.flatMap_append,
      List.splitOn_eq_singleton ha, List.flatMap_singleton]

/-- Where every line is shorter than a chunk, all of the text is printed. -/
theorem chunkedLines_all {bs : List UInt8} (h : ∀ b ∈ bs, b ≠ 0)
    (hshort : ∀ p ∈ bs.splitOn 10, p.length < adfLogCycleDumpLen) :
    chunkedLines bs = logLines bs := by
  rw [logLines_eq_flatMap h, chunkedLines]
  exact List.flatMap_congr fun p hp => by rw [keptLine_short (hshort p hp)]

theorem chunkedLines_short {bs : List UInt8} (h : ∀ b ∈ bs, b ≠ 0)
    (hlen : bs.length < adfLogCycleDumpLen) : chunkedLines bs = logLines bs := by
  induction bs using line_induction with
  | last a ha => rw [chunkedLines_last ha, keptLine_short hlen]
  | line a bs ha ih =>
    rw [List.length_append, List.length_cons] at hlen
    rw [chunkedLines_line, logLines_line h, chunkedLines_last ha, keptLine_short (by omega),
      ih (fun b hb => h b (by simp [hb])) (by omega)]

/-- A full chunk without a line feed is not printed. -/
theorem chunkedLines_drop {c : List UInt8} (bs : List UInt8) (hc : 10 ∉ c)
    (hlen : c.length = adfLogCycleDumpLen) : chunkedLines (c ++ bs) = chunkedLines bs := by
  induction bs using line_induction with
  | last a ha =>
    rw [chunkedLines_last (by simp [hc, ha]), chunkedLines_last ha, keptLine_append hlen]
  | line a bs ha ih =>
    rw [← List.append_assoc, chunkedLines_line, chunkedLines_line,
      chunkedLines_last (by simp [hc, ha]), chunkedLines_last ha, keptLine_append hlen]

/-! ## One chunk -/

/-- The search finds the end of the last line that ends before the last byte. -/
theorem lineEnd_spec (buf : List UInt8) (n : Nat) :
    (0 < n → adfLogLineEnd buf n < n) ∧
      (0 < adfLogLineEnd buf n → buf[adfLogLineEnd buf n - 1]? = some 10) ∧
      ∀ j, adfLogLineEnd buf n ≤ j → j + 1 < n → buf[j]? ≠ some 10 := by
  induction n with
  | zero => exact ⟨by omega, by simp [adfLogLineEnd], by omega⟩
  | succ n ih =>
    obtain ⟨hlt, hend, hno⟩ := ih
    unfold adfLogLineEnd
    split_ifs with hc
    · refine ⟨fun _ => by have := hlt hc.1; omega, hend, fun j hj hjn => ?_⟩
      by_cases hjl : j + 1 < n
      · exact hno j hj hjl
      · rw [show j = n - 1 by omega]
        exact hc.2
    · refine ⟨fun _ => by omega, fun hpos => ?_, fun j hj hjn => by omega⟩
      by_contra hne
      exact hc ⟨hpos, hne⟩

/-- The text a chunk is cut to and the number of bytes it takes. -/
def chunkOf (bs : List UInt8) : List UInt8 × Nat :=
  if bs.length = adfLogCycleDumpLen ∧ bs[bs.length - 1]? ≠ some 10 then
    let len := adfLogLineEnd bs bs.length
    (bs.take len, if len > 0 then len else bs.length)
  else (bs, bs.length)

theorem chunkOf_taken {bs : List UInt8} (h : bs ≠ []) :
    0 < (chunkOf bs).2 ∧ (chunkOf bs).2 ≤ bs.length := by
  have hpos : 0 < bs.length := List.length_pos_iff.2 h
  have hlt := (lineEnd_spec bs bs.length).1 hpos
  unfold chunkOf
  split_ifs
  · dsimp only
    split_ifs <;> omega
  · exact ⟨hpos, Nat.le_refl _⟩

/-- A text of at most a chunk that ends a line is printed as it is. -/
theorem chunk_line {bs : List UInt8} {k : Nat} (h : ∀ b ∈ bs, b ≠ 0) (hk : 0 < k)
    (hlen : k ≤ adfLogCycleDumpLen) (hend : bs[k - 1]? = some 10) :
    chunkedLines bs = logLines (bs.take k) ++ chunkedLines (bs.drop k) := by
  obtain ⟨hlt, hget⟩ := List.getElem?_eq_some_iff.1 hend
  have htake : bs.take k = bs.take (k - 1) ++ [10] := by
    rw [← hget, List.take_append_getElem, show k - 1 + 1 = k by omega]
  have hall : bs.take (k - 1) ++ 10 :: bs.drop k = bs := by
    rw [List.append_cons, ← htake, List.take_append_drop]
  have hnz : ∀ b ∈ bs.take (k - 1) ++ 10 :: [], b ≠ 0 := fun b hb => by
    rw [← htake] at hb
    exact h b (List.mem_of_mem_take hb)
  conv_lhs => rw [← hall, chunkedLines_line]
  rw [htake, logLines_line hnz, logLines_nil, List.append_nil,
    chunkedLines_short (fun b hb => h b (List.mem_of_mem_take hb)) (by simp; omega)]

/-- **A chunk**: what is printed of a text is what is printed of its first chunk and of the rest. -/
theorem chunk_step {bs : List UInt8} (h : ∀ b ∈ bs, b ≠ 0) (hne : bs ≠ []) :
    chunkedLines bs = logLines (chunkOf (bs.take adfLogCycleDumpLen)).1 ++
      chunkedLines (bs.drop (chunkOf (bs.take adfLogCycleDumpLen)).2) := by
  have hpos : 0 < bs.length := List.length_pos_iff.2 hne
  have hlen : (bs.take adfLogCycleDumpLen).length = min adfLogCycleDumpLen bs.length :=
    List.length_take
  have hK : 0 < adfLogCycleDumpLen := by decide
  have hspec := lineEnd_spec (bs.take adfLogCycleDumpLen) (bs.take adfLogCycleDumpLen).length
  unfold chunkOf
  generalize hk : adfLogLineEnd (bs.take adfLogCycleDumpLen)
    (bs.take adfLogCycleDumpLen).length = k at hspec
  obtain ⟨hlt, hend, hno⟩ := hspec
  split_ifs with hfull
  · dsimp only
    by_cases hk0 : k > 0
    · -- cut back to the end of a line
      rw [if_pos hk0, List.take_take, Nat.min_eq_left (by omega)]
      refine chunk_line h hk0 (by omega) ?_
      have := hend hk0
      rwa [List.getElem?_take_of_lt (by omega)] at this
    · -- no line ends in the chunk
      have hno10 : 10 ∉ bs.take adfLogCycleDumpLen := fun hmem => by
        obtain ⟨j, hj, hget⟩ := List.getElem_of_mem hmem
        have hj10 := List.getElem?_eq_some_iff.2 ⟨hj, hget⟩
        by_cases hlast : j + 1 < (bs.take adfLogCycleDumpLen).length
        · exact hno j (by omega) hlast hj10
        · rw [show j = (bs.take adfLogCycleDumpLen).length - 1 by omega] at hj10
          exact hfull.2 hj10
      have hdrop := chunkedLines_drop (bs.drop adfLogCycleDumpLen) hno10 hfull.1
      rw [List.take_append_drop] at hdrop
      rw [if_neg hk0, show k = 0 by omega, List.take_zero, logLines_nil, List.nil_append, hfull.1,
        hdrop]
  · by_cases hle : adfLogCycleDumpLen ≤ bs.length
    · -- the chunk ends a line
      have hl : (bs.take adfLogCycleDumpLen).length = adfLogCycleDumpLen := by omega
      rw [hl]
      refine chunk_line h hK (Nat.le_refl _) ?_
      by_contra hne10
      refine hfull ⟨hl, ?_⟩
      rwa [hl, List.getElem?_take_of_lt (by omega)]
    · -- the last chunk, shorter than the others
      have htake : bs.take adfLogCycleDumpLen = bs := List.take_of_length_le (by omega)
      rw [htake, List.drop_length, chunkedLines_nil, List.append_nil,
        chunkedLines_short h (by omega)]

/-! ## The ring -/

/-- A log buffer of `N` bytes with its write pointer in it or at `limit`, anywhere. -/
structure LogBuf (s : Ring) (N e : Nat) : Prop where
  base : IsI32 s.rBuf.base
  limit : s.rBuf.limit = s.rBuf.base + N
  limitI32 : IsI32 s.rBuf.limit
  sizeI32 : IsI32 N
  pos : 0 < N
  wp : s.rBuf.wp = s.rBuf.base + e
  e_le : e ≤ N

/-- A log buffer with its read pointer in it or at `limit`. -/
structure LogRing (s : Ring) (N r e : Nat) : Prop extends LogBuf s N e where
  rp : s.rBuf.rp = s.rBuf.base + r
  r_le : r ≤ N

section
variable {s : Ring} {N r e : Nat} (h : LogRing s N r e)
include h

theorem LogRing.dist_le : Circ.dist N r e ≤ N := by
  have := h.r_le
  have := h.e_le
  unfold Circ.dist
  split_ifs <;> omega

theorem LogRing.usedSize : adfRingbufGetUsedSize s.rBuf = (Circ.dist N r e : Nat) := by
  have hN := h.sizeI32
  have hr := h.r_le
  have he := h.e_le
  unfold IsI32 at hN
  unfold adfRingbufGetUsedSize adfRingbufCalcRwSize Circ.dist
  rw [h.rp, h.wp, h.limit]
  split_ifs
  · rw [i32_eq (by unfold IsI32; omega)]; omega
  · omega
  · omega
  · rw [i32_eq (by unfold IsI32; omega)]; omega

theorem LogRing.content_eq :
    s.content = Circ.read (s.mem.cells s.rBuf.base) N (Circ.wrap N r) (Circ.dist N r e) := by
  have hsize : s.size = N := by have := h.limit; unfold Ring.size; omega
  have hr : s.rslot = r := by have := h.rp; unfold Ring.rslot; omega
  have he : s.wslot = e := by have := h.wp; unfold Ring.wslot; omega
  have hle := h.dist_le
  have hrN := h.r_le
  rw [Ring.content, Ring.used, hsize, hr, he]
  refine List.ext_getElem (by simp) fun i hi _ => ?_
  rw [Circ.read_length] at hi
  rw [Circ.getElem_read, Circ.getElem_read]
  congr 1
  unfold Circ.wrap
  split_ifs <;> omega

theorem LogRing.content_length : s.content.length = Circ.dist N r e := by
  rw [h.content_eq, Circ.read_length]

theorem LogRing.read {cap len : Nat} (hc : min len s.content.length ≤ cap) :
    adfRingbufRead s (some cap) len = some (s.content.take len) := by
  rw [h.content_length] at hc
  rw [readSlots h.limit h.sizeI32 h.rp h.r_le h.usedSize h.dist_le hc, h.content_eq,
    Circ.read_take]

/-- Flushing a part of what the ring holds. -/
theorem LogRing.flush {k : Nat} (hk : 0 < k) (hlt : k < s.content.length) :
    (∃ r', LogRing (adfRingbufFlush s k).2 N r' e) ∧
      (adfRingbufFlush s k).2.content = s.content.drop k := by
  have hlen := h.content_length
  have hd := h.dist_le
  have hr := h.r_le
  have he := h.e_le
  have hb := h.base
  have hli := h.limitI32
  have hN := h.sizeI32
  rw [h.limit] at hli
  unfold IsI32 at hb hli hN
  have hrem : adfRingbufCalcRwSize s.rBuf.rp s.rBuf.wp s.rBuf.base s.rBuf.limit =
      (Circ.dist N r e : Nat) := h.usedSize
  have hend : i32 (s.rBuf.limit - s.rBuf.rp) = (N : Int) - r := by
    rw [h.limit, h.rp, i32_eq (by unfold IsI32; omega)]; omega
  -- the read pointer goes round the end when it reaches it
  have hmove : adfRingbufMovePtr s.rBuf.rp k s.rBuf.base s.rBuf.limit =
      s.rBuf.base + (if r + k < N then r + k else r + k - N : Nat) := by
    unfold adfRingbufMovePtr
    rw [hend, h.rp, h.limit]
    unfold Circ.dist at hlen
    split_ifs at * <;> first | omega | (rw [i32_eq (by unfold IsI32; omega)]; omega)
  have hflush : (adfRingbufFlush s k).2 = { s with rBuf := { s.rBuf with
      rp := s.rBuf.base + (if r + k < N then r + k else r + k - N : Nat) } } := by
    unfold adfRingbufFlush
    rw [if_neg (by omega)]
    dsimp only
    rw [hrem, if_neg (by omega), hmove]
  have hring : LogRing (adfRingbufFlush s k).2 N (if r + k < N then r + k else r + k - N) e := by
    rw [hflush]
    exact ⟨⟨h.base, h.limit, h.limitI32, h.sizeI32, h.pos, h.wp, h.e_le⟩, rfl,
      by split_ifs <;> omega⟩
  refine ⟨⟨_, hring⟩, ?_⟩
  rw [hring.content_eq, h.content_eq,
    Circ.read_drop (Circ.wrap_lt (by have := h.pos; omega)) (by omega) hd, hflush]
  dsimp only
  have hpos := h.pos
  congr 1
  · unfold Circ.wrap Circ.dist at *
    split_ifs at * <;> omega
  · unfold Circ.dist at *
    split_ifs at * <;> omega

/-- **`adfLog_allocAndReadRbuf`** for the next chunk. -/
theorem LogRing.allocAndRead {n : Nat} (hn : 0 < n) (hle : n ≤ s.content.length) :
    adfLogAllocAndReadRbuf s n true =
      some (some (chunkOf (s.content.take n)).1, (((chunkOf (s.content.take n)).2 : Nat) : Int),
        (adfRingbufFlush s ((chunkOf (s.content.take n)).2 : Nat)).2) := by
  have hl : (s.content.take n).length = n := by rw [List.length_take]; omega
  unfold adfLogAllocAndReadRbuf
  rw [if_neg (by simp; omega), Int.toNat_natCast, h.read (by omega), Option.map_some, hl,
    Nat.sub_self, List.replicate_zero, List.append_nil]
  unfold chunkOf
  rw [hl]
  dsimp only
  by_cases hfull : n = adfLogCycleDumpLen ∧ (s.content.take n)[n - 1]? ≠ some 10
  · rw [if_pos ⟨by omega, hfull.2⟩, if_pos hfull]
    dsimp only
    split_ifs <;> rfl
  · rw [if_neg fun hc => hfull ⟨by omega, hc.2⟩, if_neg hfull]

end

/-! ## The header -/

/-- The log that is left to print or to dump. -/
def logRemaining (s : Ring) (flag : Nat) (chkOverlap : Bool) : List UInt8 :=
  ((adfLogReCalcHeader s flag chkOverlap).map fun r => r.2.content).getD []

section
variable {s : Ring} {N e : Nat} (h : LogBuf s N e)
include h

/-- The ring with a read pointer in the buffer. -/
theorem LogBuf.setRp {r : Nat} (hr : r ≤ N) : LogRing (s.setRp (s.rBuf.base + r)) N r e :=
  ⟨⟨h.base, h.limit, h.limitI32, h.sizeI32, h.pos, h.wp, h.e_le⟩, rfl, hr⟩

theorem LogBuf.next (hlt : s.rBuf.wp < s.rBuf.limit) :
    i32 (s.rBuf.wp + 1) = s.rBuf.base + (e + 1 : Nat) ∧ e + 1 ≤ N := by
  have hl := h.limit
  have hb := h.base
  have hli := h.limitI32
  have hw := h.wp
  unfold IsI32 at hb hli
  rw [i32_eq (by unfold IsI32; omega)]
  omega

theorem LogBuf.historyRp : ∃ r ≤ N, adfLogHistoryRp s = some (s.rBuf.base + r) := by
  unfold adfLogHistoryRp
  by_cases hlt : s.rBuf.wp < s.rBuf.limit
  · obtain ⟨hnext, hle⟩ := h.next hlt
    have hread : adfRingbufRead (s.setRp (s.rBuf.base + (e + 1 : Nat))) (some 1) 1 = _ :=
      (h.setRp hle).read (Nat.min_le_left 1 _)
    rw [if_pos hlt]
    dsimp only
    rw [hnext, hread, Option.map_some]
    split_ifs
    · exact ⟨0, by omega, by simp⟩
    · exact ⟨e + 1, hle, rfl⟩
  · exact ⟨0, by omega, by simp [hlt]⟩

/-- The read pointer of **`adfLog_reCalcHeader`** is in the buffer. -/
theorem LogBuf.reCalc {flag : Nat} {chk : Bool} {u : Int} {s1 : Ring}
    (hc : adfLogReCalcHeader s flag chk = some (u, s1)) :
    ∃ r, LogRing s1 N r e ∧ u = s1.content.length := by
  obtain ⟨r, hr, hrp⟩ := h.historyRp
  have hset : ∀ q : Nat, q ≤ N → some (adfRingbufGetUsedSize (s.setRp (s.rBuf.base + q)).rBuf,
      s.setRp (s.rBuf.base + q)) = some (u, s1) →
      ∃ r, LogRing s1 N r e ∧ u = s1.content.length := by
    intro q hq heq
    simp only [Option.some.injEq, Prod.mk.injEq] at heq
    obtain ⟨rfl, rfl⟩ := heq
    exact ⟨q, h.setRp hq, by rw [(h.setRp hq).usedSize, (h.setRp hq).content_length]⟩
  unfold adfLogReCalcHeader at hc
  rw [hrp, Option.bind_some] at hc
  dsimp only at hc
  by_cases hin : adfRingbufInRange ((flag % 65536 : Nat) : Int) s.rBuf.base s.rBuf.limit = true
  · obtain ⟨hlo, hhi⟩ := inRange_iff.1 hin
    have hl := h.limit
    obtain ⟨q, hq⟩ := Int.eq_ofNat_of_zero_le (Int.sub_nonneg.2 hlo)
    have hqN : q ≤ N := by omega
    have hptr : ((flag % 65536 : Nat) : Int) = s.rBuf.base + q := by omega
    rw [if_pos hin, hptr] at hc
    cases chk with
    | false => exact hset q hqN hc
    | true =>
      rw [if_pos rfl] at hc
      cases hm : adfLogMagic s (s.rBuf.base + q) with
      | none => rw [hm] at hc; cases hc
      | some magic =>
        rw [hm, Option.map_some, Option.map_some] at hc
        split_ifs at hc
        · exact hset q hqN hc
        · exact hset r hr hc
  · rw [if_neg hin] at hc
    exact hset r hr hc

/-- Without the check of the magic the header is always found. -/
theorem LogBuf.reCalc_isSome (flag : Nat) : (adfLogReCalcHeader s flag false).isSome := by
  obtain ⟨r, -, hrp⟩ := h.historyRp
  unfold adfLogReCalcHeader
  rw [hrp, Option.bind_some]
  dsimp only
  rw [if_neg Bool.false_ne_true]
  split_ifs <;> rfl

end

/-! ## Printing -/

/-- The loop prints the lines of the log, as many chunks of them as could be allocated. -/
theorem printLoop_chunked {N e : Nat} (vmalloc : Nat → Bool) (fuel : Nat) :
    ∀ (i : Nat) (s : Ring) (bs : List UInt8), bs.length ≤ fuel → (∀ b ∈ bs, b ≠ 0) →
      (bs ≠ [] → ∃ r, LogRing s N r e ∧ s.content = bs) →
      ∃ ret lines s', adfLogPrintLoop vmalloc fuel i s bs.length = some (ret, lines, s') ∧
        lines <+: chunkedLines bs ∧
        ((∀ j, vmalloc j = true) → ret = 0 ∧ lines = chunkedLines bs) := by
  induction fuel with
  | zero =>
    intro i s bs hle _ _
    have hnil : bs = [] := List.length_eq_zero_iff.1 (by omega)
    subst hnil
    exact ⟨0, [], s, rfl, List.nil_prefix, fun _ => ⟨rfl, rfl⟩⟩
  | succ fuel ih =>
    intro i s bs hle hnz hring
    by_cases hnil : bs = []
    · subst hnil
      exact ⟨0, [], s, rfl, List.nil_prefix, fun _ => ⟨rfl, rfl⟩⟩
    obtain ⟨r, hr, hbs⟩ := hring hnil
    have hpos : 0 < bs.length := List.length_pos_iff.2 hnil
    have hN : bs.length ≤ N := by rw [← hbs, hr.content_length]; exact hr.dist_le
    have hNi := hr.sizeI32
    have hK : 0 < adfLogCycleDumpLen := by decide
    -- the size of the chunk
    have hmin : (if (bs.length : Int) > adfLogCycleDumpLen then (adfLogCycleDumpLen : Int)
        else bs.length) = (min adfLogCycleDumpLen bs.length : Nat) := by
      split_ifs <;> omega
    have htake : bs.take (min adfLogCycleDumpLen bs.length) = bs.take adfLogCycleDumpLen := by
      rw [← List.take_take, List.take_length]
    unfold adfLogPrintLoop
    rw [if_pos (by omega)]
    dsimp only
    rw [hmin]
    cases hv : vmalloc i with
    | false =>
      refine ⟨enomem, [], s, ?_, List.nil_prefix, fun hall => ?_⟩
      · unfold adfLogAllocAndReadRbuf
        rw [if_pos (.inr rfl)]
        rfl
      · rw [hall i] at hv
        cases hv
    | true =>
      have halloc := hr.allocAndRead (n := min adfLogCycleDumpLen bs.length) (by omega)
        (by rw [hbs]; omega)
      have hstep := chunk_step hnz hnil
      have hne : bs.take adfLogCycleDumpLen ≠ [] := by simp [hnil]; omega
      have htaken := chunkOf_taken hne
      rw [hbs, htake] at halloc
      generalize chunkOf (bs.take adfLogCycleDumpLen) = chunk at halloc hstep htaken
      obtain ⟨text, taken⟩ := chunk
      obtain ⟨htpos, htle⟩ := htaken
      dsimp only at halloc hstep htpos htle
      rw [List.length_take] at htle
      have hrest : i32 ((bs.length : Int) - taken) = (bs.drop taken).length := by
        rw [i32_eq (by unfold IsI32 at *; omega), List.length_drop]
        omega
      obtain ⟨ret, lines, s', hloop, hpre, hall⟩ := ih (i + 1)
        (adfRingbufFlush s (taken : Nat)).2 (bs.drop taken) (by rw [List.length_drop]; omega)
        (fun b hb => hnz b (List.mem_of_mem_drop hb)) fun hne => by
          have hlt : taken < bs.length := by
            by_contra hge
            exact hne (List.drop_of_length_le (by omega))
          obtain ⟨⟨r', hr'⟩, hc⟩ := hr.flush htpos (by rw [hbs]; exact hlt)
          exact ⟨r', hr', by rw [hc, hbs]⟩
      rw [halloc, Option.bind_some]
      dsimp only
      rw [hrest, hloop, hstep]
      exact ⟨ret, logLines text ++ lines, s', rfl, (List.prefix_append_right_inj _).2 hpre,
        fun hv => ⟨(hall hv).1, by rw [(hall hv).2]⟩⟩

section
variable {s : Ring} {N e : Nat} (h : LogBuf s N e)
include h

theorem LogBuf.print (logFlag : Option Nat)
    (hnz : ∀ b ∈ logRemaining s (logFlag.getD 0) false, b ≠ 0) (vmalloc : Nat → Bool) {fuel : Nat}
    (hfuel : (logRemaining s (logFlag.getD 0) false).length ≤ fuel) :
    ∃ ret lines s', adfLogPrint s logFlag vmalloc fuel = some (ret, lines, s') ∧
      lines <+: chunkedLines (logRemaining s (logFlag.getD 0) false) ∧
      ((∀ i, vmalloc i = true) →
        ret = 0 ∧ lines = chunkedLines (logRemaining s (logFlag.getD 0) false)) := by
  obtain ⟨⟨u, s1⟩, hc⟩ := Option.isSome_iff_exists.1 (h.reCalc_isSome (logFlag.getD 0))
  obtain ⟨r, hr, hu⟩ := h.reCalc hc
  have hrem : logRemaining s (logFlag.getD 0) false = s1.content := by
    rw [logRemaining, hc]
    rfl
  rw [hrem] at hnz hfuel ⊢
  obtain ⟨ret, lines, s', hloop, hlines⟩ := printLoop_chunked vmalloc fuel 0 s1 s1.content
    hfuel hnz fun _ => ⟨r, hr, rfl⟩
  refine ⟨ret, lines, s', ?_, hlines⟩
  unfold adfLogPrint
  rw [hc, Option.bind_some, hu]
  exact hloop

/-- **Printing in chunks** ends; every line of the log is printed once and in order, without the
full chunks at its start, as long as the allocations succeed. A line shorter than a chunk is
printed whole, and where all lines are, the last one included, all of the log is printed. -/
theorem print_chunked (logFlag : Option Nat)
    (hnz : ∀ b ∈ logRemaining s (logFlag.getD 0) false, b ≠ 0) (vmalloc : Nat → Bool) {fuel : Nat}
    (hfuel : (logRemaining s (logFlag.getD 0) false).length ≤ fuel) :
    ∃ ret lines s', adfLogPrint s logFlag vmalloc fuel = some (ret, lines, s') ∧
      lines <+: chunkedLines (logRemaining s (logFlag.getD 0) false) ∧
      ((∀ i, vmalloc i = true) → ret = 0 ∧
        lines = chunkedLines (logRemaining s (logFlag.getD 0) false) ∧
        ((∀ p ∈ (logRemaining s (logFlag.getD 0) false).splitOn 10, p.length < 2048) →
          lines = logLines (logRemaining s (logFlag.getD 0) false)) ∧
        ∀ as p bs, (logRemaining s (logFlag.getD 0) false).splitOn 10 = as ++ p :: bs →
          p.length < 2048 →
          lines = (as.flatMap fun q => logLines (keptLine q)) ++ logLines p ++
            bs.flatMap fun q => logLines (keptLine q)) := by
  obtain ⟨ret, lines, s', hprint, hpre, hall⟩ := h.print logFlag hnz vmalloc hfuel
  refine ⟨ret, lines, s', hprint, hpre, fun hv => ?_⟩
  obtain ⟨hret, hlines⟩ := hall hv
  refine ⟨hret, hlines, fun hshort => ?_, fun as p bs hsplit hp => ?_⟩
  · rw [hlines, chunkedLines_all hnz hshort]
  · rw [hlines, chunkedLines, hsplit, List.flatMap_append, List.flatMap_cons, keptLine_short hp,
      List.append_assoc]

end

/-- A log buffer of 8 bytes with the text `hi`, a line feed and `yo`. -/
def log8 : Ring :=
  ⟨⟨32, 40, 37, 32, 0, 0, (0, 0)⟩, fun a => [104, 105, 10, 121, 111].getD (a - 32).toNat 0⟩

theorem log8_buf : LogBuf log8 8 5 := by
  constructor <;> decide

theorem log8_nonzero (chk : Bool) : ∀ b ∈ logRemaining log8 0 chk, b ≠ 0 := by
  have h : logRemaining log8 0 chk = [104, 105, 10, 121, 111] := by cases chk <;> rfl
  rw [h]
  simp

theorem print_chunked_log8 :
    ∃ ret lines s', adfLogPrint log8 none (fun _ => true) 5 = some (ret, lines, s') ∧
      lines <+: [[104, 105], [121, 111]] ∧
      ((∀ _ : Nat, true = true) → ret = 0 ∧ lines = [[104, 105], [121, 111]] ∧
        ((∀ p ∈ (logRemaining log8 0 false).splitOn 10, p.length < 2048) →
          lines = logLines (logRemaining log8 0 false)) ∧
        ∀ as p bs, (logRemaining log8 0 false).splitOn 10 = as ++ p :: bs → p.length < 2048 →
          lines = (as.flatMap fun q => logLines (keptLine q)) ++ logLines p ++
            bs.flatMap fun q => logLines (keptLine q)) :=
  print_chunked log8_buf none (log8_nonzero false) (fun _ => true) (by decide)

/-- A log of 2048 letters, from the end of the buffer round to the write pointer. -/
def letters : Ring := ⟨⟨32, 2081, 2080, 32, 0, 0, (0, 0)⟩, fun _ => 97⟩

theorem letters_buf : LogBuf letters 2049 2048 := by
  constructor <;> decide

theorem letters_remaining (chk : Bool) :
    logRemaining letters 0 chk = List.replicate 2048 97 := by
  have hc : adfLogReCalcHeader letters 0 chk = some (2048, letters.setRp 2081) := by
    cases chk <;> rfl
  have hring : LogRing (letters.setRp 2081) 2049 2049 2048 :=
    letters_buf.setRp (Nat.le_refl 2049)
  rw [logRemaining, hc, Option.map_some, Option.getD_some, hring.content_eq]
  refine List.ext_getElem ?_ fun i _ _ => ?_
  · rw [Circ.read_length, List.length_replicate]
    decide
  · rw [Circ.getElem_read, List.getElem_replicate]
    rfl

theorem letters_nonzero (chk : Bool) : ∀ b ∈ logRemaining letters 0 chk, b ≠ 0 := by
  intro b hb
  rw [letters_remaining chk] at hb
  rw [List.eq_of_mem_replicate hb]
  decide

theorem letters_line : 10 ∉ List.replicate 2048 (97 : UInt8) := fun h =>
  absurd (List.eq_of_mem_replicate h) (by decide)

/-- **A last line of a chunk's length** is not printed although no line feed ends it. -/
theorem print_long_last :
    (∃ s', adfLogPrint letters none (fun _ => true) 2048 = some (0, [], s')) ∧
      logLines (logRemaining letters 0 false) = [List.replicate 2048 97] ∧
      ¬ ∀ (s : Ring) (N e : Nat), LogBuf s N e → ∀ logFlag : Option Nat,
        (∀ b ∈ logRemaining s (logFlag.getD 0) false, b ≠ 0) →
        (∀ p ∈ ((logRemaining s (logFlag.getD 0) false).splitOn 10).dropLast, p.length + 1 < 2048) →
        ∃ ret s', adfLogPrint s logFlag (fun _ => true)
          (logRemaining s (logFlag.getD 0) false).length =
            some (ret, logLines (logRemaining s (logFlag.getD 0) false), s') := by
  have hrem := letters_remaining false
  have hnz := letters_nonzero false
  have hlen : (logRemaining letters 0 false).length = 2048 := by rw [hrem, List.length_replicate]
  have hnone : chunkedLines (logRemaining letters 0 false) = [] := by
    rw [hrem, chunkedLines_last letters_line, keptLine, List.length_replicate]
    exact congrArg logLines (List.drop_of_length_le (by rw [List.length_replicate]; decide))
  have hall : logLines (logRemaining letters 0 false) = [List.replicate 2048 97] := by
    rw [hrem, logLines, cString_eq (by rwa [hrem] at hnz), List.splitOnP_eq_singleton]
    · rfl
    · intro x hx
      rw [List.eq_of_mem_replicate hx]
      rfl
  obtain ⟨ret, lines, s', hprint, -, hlines⟩ :=
    letters_buf.print none hnz (fun _ => true) (hlen.trans_le (Nat.le_refl 2048))
  obtain ⟨hret, hl⟩ := hlines fun _ => rfl
  rw [hret, hl, Option.getD_none, hnone] at hprint
  refine ⟨⟨s', hprint⟩, hall, fun hprop => ?_⟩
  obtain ⟨ret', s'', hp⟩ := hprop letters 2049 2048 letters_buf none hnz (by
    rw [Option.getD_none, hrem, List.splitOn_eq_singleton letters_line, List.dropLast_singleton]
    exact fun p hp => absurd hp List.not_mem_nil)
  rw [Option.getD_none, hlen, hall, hprint] at hp
  cases hp

/-! ## Dumping -/

section
variable {s : Ring} {N r e : Nat} (h : LogRing s N r e)
include h

/-- The kernel tree's driver reads all of it. -/
theorem LogRing.allocAndRead_all (hne : s.content ≠ []) :
    Adf.adfLogAllocAndReadRbuf s s.content.length true = some (some s.content) := by
  have hpos : 0 < s.content.length := List.length_pos_iff.2 hne
  unfold Adf.adfLogAllocAndReadRbuf
  rw [if_neg (by simp; omega), Int.toNat_natCast, h.read (Nat.min_le_left _ _), Option.map_some,
    List.take_length, Nat.sub_self, List.replicate_zero, List.append_nil]

end

theorem chunkOf_eq_iff (bs : List UInt8) :
    (chunkOf bs).1 = bs ↔
      ¬(bs.length = adfLogCycleDumpLen ∧ bs[bs.length - 1]? ≠ some 10) := by
  unfold chunkOf
  split_ifs with hc
  · have hpos : 0 < bs.length := by rw [hc.1]; decide
    have hlt := (lineEnd_spec bs bs.length).1 hpos
    refine ⟨fun heq => ?_, fun hno => absurd hc hno⟩
    have := congrArg List.length heq
    rw [List.length_take] at this
    omega
  · exact ⟨fun _ => hc, fun _ => rfl⟩

/-- What the two drivers dump of a log buffer. -/
theorem dumps_eq {s : Ring} {N e : Nat} (h : LogBuf s N e) (flag : Nat) (vmalloc : Bool)
    (hnz : ∀ b ∈ logRemaining s flag true, b ≠ 0) :
    (adfLogReCalcHeader s flag true = none ∧ adfLogDump s flag vmalloc = none ∧
        Adf.adfLogDump s flag vmalloc = none) ∨
      (adfLogDump s flag vmalloc).map (·.2.1) =
          some (if vmalloc then (chunkOf (logRemaining s flag true)).1 else []) ∧
        (Adf.adfLogDump s flag vmalloc).map (·.2.1) =
          some (if vmalloc then logRemaining s flag true else []) := by
  unfold adfLogDump Adf.adfLogDump
  cases hc : adfLogReCalcHeader s flag true with
  | none => exact .inl ⟨rfl, rfl, rfl⟩
  | some res =>
    obtain ⟨u, s1⟩ := res
    obtain ⟨r, hr, hu⟩ := h.reCalc hc
    have hrem : logRemaining s flag true = s1.content := by
      rw [logRemaining, hc]
      rfl
    rw [hrem] at hnz ⊢
    refine .inr ?_
    rw [Option.bind_some, Option.bind_some]
    dsimp only
    rw [hu]
    by_cases hnil : s1.content = []
    · rw [hnil]
      cases vmalloc <;> exact ⟨rfl, rfl⟩
    have hpos : 0 < s1.content.length := List.length_pos_iff.2 hnil
    have hgt : (s1.content.length : Int) > 0 := by omega
    simp only [if_pos hgt]
    cases vmalloc with
    | false =>
      have hcommon : adfLogAllocAndReadRbuf s1 s1.content.length false =
          some (none, (s1.content.length : Int), s1) := if_pos (.inr rfl)
      have hkernel : Adf.adfLogAllocAndReadRbuf s1 s1.content.length false = some none :=
        if_pos (.inr rfl)
      rw [hcommon, hkernel]
      exact ⟨rfl, rfl⟩
    | true =>
      have hcut : ∀ b ∈ (chunkOf s1.content).1, b ≠ 0 := by
        unfold chunkOf
        split_ifs
        · exact fun b hb => hnz b (List.mem_of_mem_take hb)
        · exact hnz
      have halloc := hr.allocAndRead hpos (Nat.le_refl _)
      rw [List.take_length] at halloc
      rw [halloc, hr.allocAndRead_all hnil]
      simp only [Option.map_some, if_true, cString_eq hcut, cString_eq hnz, and_self]

/-- **The dumps of the two drivers** agree unless the log that is left is exactly a chunk long and
does not end with a line feed. -/
theorem dump_agree_iff {s : Ring} {N e : Nat} (h : LogBuf s N e) (flag : Nat) (vmalloc : Bool)
    (hnz : ∀ b ∈ logRemaining s flag true, b ≠ 0) :
    (adfLogDump s flag vmalloc).map (·.2.1) = (Adf.adfLogDump s flag vmalloc).map (·.2.1) ↔
      ¬(vmalloc = true ∧ (logRemaining s flag true).length = 2048 ∧
        (logRemaining s flag true)[2047]? ≠ some 10) := by
  rcases dumps_eq h flag vmalloc hnz with ⟨hc, h1, h2⟩ | ⟨h1, h2⟩
  · have hnil : logRemaining s flag true = [] := by
      rw [logRemaining, hc]
      rfl
    rw [h1, h2, hnil]
    simp
  · rw [h1, h2, Option.some.injEq]
    cases vmalloc with
    | false => simp
    | true =>
      rw [if_pos rfl, if_pos rfl, chunkOf_eq_iff]
      refine not_congr ⟨fun ⟨hl, h10⟩ => ⟨rfl, hl, ?_⟩, fun ⟨_, hl, h10⟩ => ⟨hl, ?_⟩⟩
      · rwa [hl] at h10
      · rwa [hl]

theorem dump_agree_log8 :
    (adfLogDump log8 0 true).map (·.2.1) = (Adf.adfLogDump log8 0 true).map (·.2.1) ↔
      ¬(true = true ∧ (logRemaining log8 0 true).length = 2048 ∧
        (logRemaining log8 0 true)[2047]? ≠ some 10) :=
  dump_agree_iff log8_buf 0 true (log8_nonzero true)

/-- Of 2048 letters the common driver dumps nothing. -/
theorem dump_letters :
    (adfLogDump letters 0 true).map (·.2.1) = some [] ∧
      (Adf.adfLogDump letters 0 true).map (·.2.1) = some (List.replicate 2048 97) ∧
      ¬ ∀ (s : Ring) (N e : Nat), LogBuf s N e → ∀ (flag : Nat) (vmalloc : Bool),
        (∀ b ∈ logRemaining s flag true, b ≠ 0) →
        (adfLogDump s flag vmalloc).map (·.2.1) = (Adf.adfLogDump s flag vmalloc).map (·.2.1) := by
  have hrem := letters_remaining true
  have hnz := letters_nonzero true
  have hcut : (chunkOf (List.replicate 2048 (97 : UInt8))).1 = [] := by
    have hspec := lineEnd_spec (List.replicate 2048 (97 : UInt8)) 2048
    have hno : ∀ j : Nat, (List.replicate 2048 (97 : UInt8))[j]? ≠ some 10 := fun j hj =>
      letters_line (List.mem_of_getElem? hj)
    unfold chunkOf
    rw [List.length_replicate, if_pos ⟨rfl, hno _⟩]
    dsimp only
    rw [show adfLogLineEnd (List.replicate 2048 (97 : UInt8)) 2048 = 0 from
      Nat.eq_zero_of_not_pos fun hpos => hno _ (hspec.2.1 hpos), List.take_zero]
  rcases dumps_eq letters_buf 0 true hnz with ⟨hc, -⟩ | ⟨h1, h2⟩
  · have hnil : logRemaining letters 0 true = [] := by
      rw [logRemaining, hc]
      rfl
    rw [hrem] at hnil
    cases hnil
  · rw [if_pos rfl, hrem] at h1 h2
    rw [hcut] at h1
    refine ⟨h1, h2, fun hall => ?_⟩
    have heq := hall letters 2049 2048 letters_buf 0 true hnz
    rw [h1, h2] at heq
    cases heq

end Adf.Common
