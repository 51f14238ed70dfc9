import FireTablet.Adf.Proof.LogHistory

/-!
# Clearing the log

`adfLog_clearHistory` keeps the write pointer in the low half of the flag and the two bytes before
it in the high half, which overwrite the high half of the pointer. A later dump starts at that
pointer if the two bytes are still before it. So it puts out the bytes since the clear exactly when
the write pointer of the clear fits 16 bits (and no byte is zero, where `%s` would stop):
`clear_dump`. In a buffer of 64 KiB or more the pointer does not fit near the end, and a dump right
after the clear puts out all of the log again (`clear_dump_cut`).
-/

namespace Adf

open CInt

/-- The dump with `flag` puts out `out`. -/
def Dumps (s : Ring) (flag : Nat) (out : List UInt8) : Prop :=
  ∃ s', adfLogDump s flag true = some (0, out, s')

/-- A log buffer that was loaded and since then got bytes that are not zero. -/
def LogText (s : Ring) (N : Nat) : Prop :=
  ∃ s0 pre, LogLoaded s0 N ∧ (∀ b ∈ pre.map Prod.fst, b ≠ 0) ∧ dspAppend s0 pre = s

theorem dspAppend_setRp (s : Ring) (bs : List (UInt8 × Bool)) (rp : Int) :
    dspAppend (s.setRp rp) bs = (dspAppend s bs).setRp rp := by
  induction bs generalizing s with
  | nil => rfl
  | cons b bs ih => exact ih (dspPut s b.1 b.2)

theorem LogText.setRp {s : Ring} {N : Nat} (h : LogText s N) (rp : Int) :
    LogText (s.setRp rp) N := by
  obtain ⟨s0, pre, h0, hnz, rfl⟩ := h
  exact ⟨s0.setRp rp, pre, ⟨h0.base, h0.limit, h0.limitI32, h0.pos, h0.wp, h0.zero⟩, hnz,
    dspAppend_setRp s0 pre rp⟩

/-- A log buffer that passes the check before a clear. -/
theorem LogAt.of_checkValid {s : Ring} {N : Nat}
    (hv : adfRingbufCheckValid s.rBuf sizeofAdfRingbuf N = true) (hli : IsI32 s.rBuf.limit) :
    LogAt s N s.wslot (Circ.read (s.mem.cells s.rBuf.base) N s.wslot N) ∧
      s.rBuf.wp = s.rBuf.base + s.wslot := by
  unfold adfRingbufCheckValid at hv
  split_ifs at hv with hne
  simp only [not_or, Decidable.not_not] at hne
  obtain ⟨hb, hs⟩ := hne
  rw [Bool.and_eq_true, inRange_iff, inRange_iff] at hv
  obtain ⟨-, hw⟩ := hv
  have hwp : s.rBuf.wp = s.rBuf.base + s.wslot := by unfold Ring.wslot; omega
  have hlim : s.rBuf.limit = s.rBuf.base + N := by
    unfold IsI32 sizeofAdfRingbuf at *
    rw [i32_eq (by unfold IsI32; omega)] at hs
    omega
  exact ⟨⟨hb, hlim, hli, by omega, .inl hwp, rfl⟩, hwp⟩

section
variable {s : Ring} {N w : Nat} {hist : List UInt8} (h : LogAt s N w hist) (h3 : 3 ≤ N)
include h

theorem LogAt.setRp (rp : Int) : LogAt (s.setRp rp) N w hist :=
  ⟨h.base, h.limit, h.limitI32, h.lt, h.wp, h.hist⟩

include h3

/-- **The flag** of a clear. -/
theorem LogAt.clear (hwp : s.rBuf.wp = s.rBuf.base + w) :
    ∃ flag rp, adfLogClearHistory s = some (flag, s.setRp rp) ∧
      flag % 65536 = s.rBuf.wp.toNat % 65536 ∧
      flag / 65536 % 65536 = Bytes.le (hist.drop (N - 2)) := by
  have hw := h.lt
  have hlen := h.length
  have hli := h.limitI32
  have hl := h.limit
  have hb := h.base
  have hread : adfRingbufRead (s.setRp (adfLogMagicPtr s.rBuf.wp s.rBuf.base s.rBuf.limit))
      (some 2) 2 = some (hist.drop (N - 2)) := by
    have hslice := h.slice (i := N - 2) (j := 2) (by omega)
    rw [List.take_of_length_le (by simp; omega)] at hslice
    rw [← hslice]
    exact h.twoBefore hw h3 rfl rfl hwp (by rw [← hwp])
  have h2 : (hist.drop (N - 2)).length = 2 := by simp; omega
  have hclear : adfLogClearHistory s = some (Bytes.le ((Bytes.ofNat 4 (u32 s.rBuf.wp).toNat).take 2 ++
      hist.drop (N - 2) ++ (Bytes.ofNat 4 (u32 s.rBuf.wp).toNat).drop 4),
      s.setRp (adfLogMagicPtr s.rBuf.wp s.rBuf.base s.rBuf.limit)) := by
    unfold adfLogClearHistory
    dsimp only
    rw [hread, Option.map_some, h2]
  refine ⟨_, _, hclear, ?_⟩
  have hlt := Bytes.le_lt (hist.drop (N - 2))
  have hu : (u32 s.rBuf.wp).toNat = s.rBuf.wp.toNat := by
    unfold IsI32 sizeofAdfRingbuf at *
    rw [u32_eq (by omega) (by omega)]
  have hlow : (Bytes.ofNat 4 s.rBuf.wp.toNat).take 2 = Bytes.ofNat 2 s.rBuf.wp.toNat := by
    simp [Bytes.ofNat]
  have hhigh : (Bytes.ofNat 4 s.rBuf.wp.toNat).drop 4 = [] := List.drop_of_length_le (by simp)
  rw [hu, hhigh, List.append_nil, Bytes.le_append, hlow, Bytes.le_ofNat, Bytes.length_ofNat]
  rw [h2] at hlt
  omega

/-- The read pointer of a dump: that of the flag if the two bytes before it are the flag's, else
that for all of the log. -/
theorem LogAt.reCalc {r : Nat} (hrp : adfLogHistoryRp s = some (s.rBuf.base + r)) (flag : Nat) :
    ∃ r' : Nat, adfLogReCalcHeader s flag true = some
        (adfRingbufGetUsedSize (s.setRp (s.rBuf.base + r')).rBuf, s.setRp (s.rBuf.base + r')) ∧
      ((∃ q < N, ((flag % 65536 : Nat) : Int) = s.rBuf.base + q ∧ r' = q) ∨
        r' = r ∧ ∀ q < N, ((flag % 65536 : Nat) : Int) = s.rBuf.base + q →
          Bytes.le (Circ.read (s.mem.cells s.rBuf.base) N (Circ.wrap N (q + (N - 2))) 2) ≠
            flag / 65536 % 65536) := by
  have hl := h.limit
  unfold adfLogReCalcHeader
  rw [hrp, Option.bind_some]
  dsimp only
  by_cases hin : adfRingbufInRange ((flag % 65536 : Nat) : Int) s.rBuf.base s.rBuf.limit = true
  · rw [if_pos hin, if_pos rfl]
    rw [inRange_iff] at hin
    obtain ⟨q, hq⟩ : ∃ q : Nat, ((flag % 65536 : Nat) : Int) = s.rBuf.base + q :=
      ⟨(((flag % 65536 : Nat) : Int) - s.rBuf.base).toNat, by omega⟩
    have hqN : q < N := by omega
    have hread := h.twoBefore (b := { s.rBuf with
        rp := adfLogMagicPtr (s.rBuf.base + q) s.rBuf.base s.rBuf.limit, wp := s.rBuf.base + q })
      hqN h3 rfl rfl rfl rfl
    rw [hq]
    unfold adfLogMagic
    rw [hread, Option.map_some, Option.map_some, Option.map_some]
    by_cases hm : Bytes.le (Circ.read (s.mem.cells s.rBuf.base) N (Circ.wrap N (q + (N - 2))) 2) =
        flag / 65536 % 65536
    · rw [if_pos hm]
      exact ⟨q, rfl, .inl ⟨q, hqN, rfl, rfl⟩⟩
    · rw [if_neg hm]
      refine ⟨r, rfl, .inr ⟨rfl, fun q' _ he => ?_⟩⟩
      rw [show q' = q by omega]
      exact hm
  · rw [if_neg hin]
    refine ⟨r, rfl, .inr ⟨rfl, fun q hq he => ?_⟩⟩
    rw [inRange_iff] at hin
    omega

end

/-! ## Clear, then dump -/

section
variable {s : Ring} {N w flag : Nat} {hist : List UInt8} (h : LogAt s N w hist)
  (hwp : s.rBuf.wp = s.rBuf.base + w) (hf : flag % 65536 = s.rBuf.wp.toNat % 65536)
  {ys : List (UInt8 × Bool)} (hk : ys.length + 2 < N)
include h hwp hf hk

/-- The bytes since a clear whose write pointer fits 16 bits. -/
theorem dumps_of_fits (hm : flag / 65536 % 65536 = Bytes.le (hist.drop (N - 2)))
    (h16 : s.rBuf.wp < 65536) (hnz : ∀ b ∈ ys.map Prod.fst, b ≠ 0) :
    Dumps (dspAppend s ys) flag (ys.map Prod.fst) := by
  have hat := h.append ys
  have hw := h.lt
  have hb := h.base
  have hlen := h.length
  have hbt : (dspAppend s ys).rBuf.base = s.rBuf.base := by rw [hat.base, hb]
  have hw2 : (w + ys.length) % N = Circ.wrap N (w + ys.length) := (Circ.wrap_eq_mod (by omega)).symm
  rw [hw2] at hat
  have hq : ((flag % 65536 : Nat) : Int) = (dspAppend s ys).rBuf.base + w := by
    rw [hbt, ← hwp, hf]; unfold sizeofAdfRingbuf at hb; omega
  obtain ⟨r, hrp, -⟩ := hat.historyRp
  obtain ⟨r', hc, hr'⟩ := hat.reCalc (by omega) hrp flag
  -- the two bytes before the pointer of the clear are still there
  have hmagic : Circ.read ((dspAppend s ys).mem.cells (dspAppend s ys).rBuf.base) N
      (Circ.wrap N (w + (N - 2))) 2 = hist.drop (N - 2) := by
    have hslice := hat.slice (i := N - 2 - ys.length) (j := 2) (by omega)
    rw [Circ.wrap_wrap_add hw (by omega), show ys.length + (N - 2 - ys.length) = N - 2 by omega,
      List.drop_drop, show ys.length + (N - 2 - ys.length) = N - 2 by omega,
      List.drop_append_of_le_length (by omega), List.take_left' (by simp; omega)] at hslice
    exact hslice
  obtain rfl : r' = w := by
    rcases hr' with ⟨q, -, hq', rfl⟩ | ⟨-, hne⟩
    · omega
    · exact absurd (by rw [hmagic, hm]) (hne w hw hq)
  obtain ⟨e, hwpe, he⟩ := hat.wp_slot
  have hd : Circ.dist N r' e = ys.length := by
    rcases he with rfl | ⟨h0, rfl⟩
    · exact Circ.dist_wrap_add hw (by omega)
    · rcases Nat.eq_zero_or_pos ys.length with hy | hy
      · -- nothing came since, so the write pointer is where it was
        rw [List.length_eq_zero_iff] at hy
        subst hy
        have : (dspAppend s []).rBuf.wp = s.rBuf.base + r' := hwp
        omega
      · unfold Circ.wrap Circ.dist at *; split_ifs at * <;> omega
  have hdump := hat.dump hwpe he (Nat.le_of_lt hw) hc
  rw [hd, List.drop_drop, show ys.length + (N - ys.length) = hist.length by omega, List.drop_left,
    cString_eq hnz] at hdump
  exact ⟨_, hdump⟩

omit h in
/-- Where the write pointer of the clear does not fit, a dump starts elsewhere. -/
theorem fits_of_dumps (hw : w < N) (hb : s.rBuf.base = sizeofAdfRingbuf) (ht : LogText s N)
    (hd : Dumps (dspAppend s ys) flag (ys.map Prod.fst)) :
    s.rBuf.wp < 65536 ∧ ∀ b ∈ ys.map Prod.fst, b ≠ 0 := by
  obtain ⟨s0, pre, h0, hpre, rfl⟩ := ht
  obtain ⟨s', hdump⟩ := hd
  have hpw : w = pre.length % N := by
    obtain ⟨e, hwpe, he⟩ := (h0.append pre).wp_slot
    omega
  have hat := h0.append (pre ++ ys)
  rw [show dspAppend s0 (pre ++ ys) = dspAppend (dspAppend s0 pre) ys from List.foldl_append ..]
    at hat
  have hwrap : (pre ++ ys).length % N = Circ.wrap N (w + ys.length) := by
    rw [Circ.wrap_eq_mod (by omega), List.length_append, hpw, Nat.mod_add_mod]
  have hlen : ((pre ++ ys).map Prod.fst).length = (pre ++ ys).length := List.length_map _
  rw [← hlen] at hat hwrap
  have hT : ((pre ++ ys).map Prod.fst).length = pre.length + ys.length := by simp
  have hw2 := hat.lt
  obtain ⟨e, hwpe, he⟩ := hat.wp_slot
  obtain ⟨r, hrp, hr⟩ := hat.historyRp
  obtain ⟨r', hc, hr'⟩ := hat.reCalc (by omega) hrp flag
  have hr'N : r' ≤ N := by
    rcases hr' with ⟨q, hqN, -, rfl⟩ | ⟨rfl, -⟩
    · omega
    · split_ifs at hr <;> omega
  have hout := hat.dump hwpe he hr'N hc
  rw [hdump] at hout
  simp only [Option.some.injEq, Prod.mk.injEq, true_and] at hout
  have hys : ∀ b ∈ ys.map Prod.fst, b ≠ 0 := by rw [hout.1]; exact cString_nonzero
  refine ⟨?_, hys⟩
  by_contra h16
  -- the dump starts elsewhere, so its length is another one
  have hxs : ∀ b ∈ (pre ++ ys).map Prod.fst, b ≠ 0 := by
    intro b hb
    rw [List.map_append, List.mem_append] at hb
    exact hb.elim (hpre b) (hys b)
  have hmod : pre.length % N ≤ pre.length := Nat.mod_le _ _
  unfold sizeofAdfRingbuf at hb
  have hu : ys.length ≠ Circ.dist N r' e ∧
      Circ.dist N r' e ≤ ((pre ++ ys).map Prod.fst).length := by
    rcases hr' with ⟨q, hqN, hq, rfl⟩ | ⟨rfl, -⟩
    · have hbt := hat.base
      unfold sizeofAdfRingbuf at hbt
      have hlt : r' < w := by omega
      rcases Nat.lt_or_ge ((pre ++ ys).map Prod.fst).length N with hN | hN
      · rw [Nat.mod_eq_of_lt hN] at he
        rw [Nat.mod_eq_of_lt (by omega)] at hpw
        unfold Circ.dist; split_ifs <;> omega
      · rw [hwrap] at he
        clear hwrap hr hw2
        unfold Circ.dist Circ.wrap at *; split_ifs at * <;> omega
    · rw [hat.history_used hxs hwpe he hr (fun hnil => by
        rw [hnil] at hT; simp at hT; omega)]
      split_ifs <;> omega
  clear hr'
  have hlen := congrArg List.length hout.1
  rw [cString_newest hxs hu.2 (by unfold Circ.dist; split_ifs <;> omega), List.length_drop,
    List.length_map] at hlen
  omega

end

/-- **Clear, then dump**: in a log buffer that passes the check before a clear, the dump after fewer
than `N - 2` bytes puts out just these bytes if the write pointer of the clear fits 16 bits and none
of them is zero; in a buffer of text, only then. -/
theorem clear_dump {s : Ring} {N : Nat}
    (hv : adfRingbufCheckValid s.rBuf sizeofAdfRingbuf N = true) (hli : IsI32 s.rBuf.limit)
    (ys : List (UInt8 × Bool)) (hk : ys.length + 2 < N) :
    ∃ flag s1, adfLogClearHistory s = some (flag, s1) ∧
      (s.rBuf.wp < 65536 ∧ (∀ b ∈ ys.map Prod.fst, b ≠ 0) →
        Dumps (dspAppend s1 ys) flag (ys.map Prod.fst)) ∧
      (LogText s N → Dumps (dspAppend s1 ys) flag (ys.map Prod.fst) →
        s.rBuf.wp < 65536 ∧ ∀ b ∈ ys.map Prod.fst, b ≠ 0) := by
  obtain ⟨h, hwp⟩ := LogAt.of_checkValid hv hli
  obtain ⟨flag, rp, hclear, hlow, hhigh⟩ := h.clear (by omega) hwp
  refine ⟨flag, s.setRp rp, hclear, fun hc => ?_, fun ht hd => ?_⟩
  · exact dumps_of_fits (h.setRp rp) hwp hlow hk hhigh hc.1 hc.2
  · exact fits_of_dumps (s := s.setRp rp) hwp hlow hk h.lt h.base (ht.setRp rp) hd

theorem clear_dump_log4 :
    ∃ flag s1, adfLogClearHistory log4 = some (flag, s1) ∧
      (log4.rBuf.wp < 65536 ∧ (∀ b ∈ [(7 : UInt8)], b ≠ 0) →
        Dumps (dspAppend s1 [(7, false)]) flag [7]) ∧
      (LogText log4 4 → Dumps (dspAppend s1 [(7, false)]) flag [7] →
        log4.rBuf.wp < 65536 ∧ ∀ b ∈ [(7 : UInt8)], b ≠ 0) :=
  clear_dump (s := log4) (N := 4) (by decide) (by decide) [(7, false)] (by decide)

/-- A dump right after a clear whose write pointer does not fit is not empty. -/
theorem not_dumps_nil {s0 : Ring} {N : Nat} (h0 : LogLoaded s0 N) (pre : List (UInt8 × Bool))
    (hnz : ∀ b ∈ pre.map Prod.fst, b ≠ 0) (hlt : pre.length < N) (h16 : 65504 ≤ pre.length) :
    (dspAppend s0 pre).rBuf.wp = 32 + pre.length ∧
    ∃ flag s1, adfLogClearHistory (dspAppend s0 pre) = some (flag, s1) ∧ ¬ Dumps s1 flag [] := by
  have h := h0.append pre
  have hb := h.base
  unfold sizeofAdfRingbuf at hb
  rw [Nat.mod_eq_of_lt hlt] at h
  have hwp : (dspAppend s0 pre).rBuf.wp = (dspAppend s0 pre).rBuf.base + pre.length := by
    have := h.wp; omega
  obtain ⟨flag, rp, hclear, hlow, -⟩ := h.clear (by omega) hwp
  refine ⟨by omega, flag, _, hclear, fun hd => ?_⟩
  have hnil : Dumps (dspAppend ((dspAppend s0 pre).setRp rp) []) flag
      (([] : List (UInt8 × Bool)).map Prod.fst) := hd
  have hfits := (fits_of_dumps (s := (dspAppend s0 pre).setRp rp) hwp hlow
    (show 0 + 2 < N by omega) hlt h.base (LogText.setRp ⟨s0, pre, h0, hnz, rfl⟩ rp) hnil).1
  change (dspAppend s0 pre).rBuf.wp < 65536 at hfits
  omega

/-- A log buffer of 64 KiB, just loaded. -/
def log64K : Ring := ⟨⟨32, 65568, 32, 32, 0, 0, (0, 0)⟩, fun _ => 0⟩

theorem log64K_loaded : LogLoaded log64K 65536 :=
  ⟨rfl, rfl, by decide, by decide, rfl, fun _ _ => rfl⟩

/-- After 65508 letters the write pointer is 65540, and a dump right after the clear is not empty.
-/
theorem clear_dump_cut :
    (dspAppend log64K (List.replicate 65508 (97, false))).rBuf.wp = 65540 ∧
    ∃ flag s1, adfLogClearHistory (dspAppend log64K (List.replicate 65508 (97, false))) =
      some (flag, s1) ∧ ¬ Dumps s1 flag [] := by
  have h := not_dumps_nil log64K_loaded (List.replicate 65508 (97, false))
    (fun b hb => by
      rw [List.map_replicate] at hb
      rw [List.eq_of_mem_replicate hb]
      decide)
    (by rw [List.length_replicate]; decide)
    (by rw [List.length_replicate]; decide)
  rw [List.length_replicate] at h
  exact h

end Adf
