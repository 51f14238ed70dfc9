import FireTablet.Btif.Proof.BbsFacts
import FireTablet.Btif.Bbs
import Mathlib.Data.List.Infix

/-!
# What the event search finds

The inner loop has moved `j` on when it meets a byte that differs, so a difference in the last byte
of the pattern looks like a match (`compareLoop_spec`). The search finds the pattern without its
last byte, followed by any byte (`searchLoop_spec`).
-/

namespace Btif

variable {α : Type*}

/-- The pattern up to its last byte, and any byte behind it, begin the list. -/
def Begins (subStr l : List α) : Prop := ∃ x, subStr.dropLast ++ [x] <+: l

/-- The pattern up to its last byte, and any byte behind it, are in the list. -/
def Occurs (subStr l : List α) : Prop := ∃ x, subStr.dropLast ++ [x] <:+: l

theorem begins_nil (subStr : List α) : ¬ Begins subStr [] := by
  rintro ⟨x, hx⟩
  simpa using hx.length_le

theorem begins_single (c d : α) (t : List α) : Begins [c] (d :: t) := ⟨d, by simp⟩

theorem begins_cons {c c' d : α} {s t : List α} :
    Begins (c :: c' :: s) (d :: t) ↔ c = d ∧ Begins (c' :: s) t := by
  constructor
  · intro h
    obtain ⟨x, hx⟩ := h
    rw [List.dropLast_cons_cons, List.cons_append, List.cons_prefix_cons] at hx
    exact ⟨hx.1, x, hx.2⟩
  · intro h
    obtain ⟨hc, x, hx⟩ := h
    refine ⟨x, ?_⟩
    rw [List.dropLast_cons_cons, List.cons_append, List.cons_prefix_cons]
    exact ⟨hc, hx⟩

theorem Begins.length_le {subStr l : List α} (h : Begins subStr l) : subStr.length ≤ l.length := by
  obtain ⟨x, hx⟩ := h
  have hlen := hx.length_le
  simp only [List.length_append, List.length_dropLast, List.length_singleton] at hlen
  omega

theorem occurs_nil (subStr : List α) : ¬ Occurs subStr [] := by
  rintro ⟨x, hx⟩
  simpa using hx.length_le

theorem occurs_cons {subStr t : List α} {d : α} :
    Occurs subStr (d :: t) ↔ Begins subStr (d :: t) ∨ Occurs subStr t := by
  unfold Occurs Begins
  simp only [List.infix_cons_iff, exists_or]

theorem Occurs.length_le {subStr l : List α} (h : Occurs subStr l) : subStr.length ≤ l.length := by
  obtain ⟨x, hx⟩ := h
  have hlen := hx.length_le
  simp only [List.length_append, List.length_dropLast, List.length_singleton] at hlen
  omega

/-- A pattern that is there is there up to its last byte. -/
theorem occurs_whole {subStr l : List α} (hpos : subStr ≠ []) (h : subStr <:+: l) :
    Occurs subStr l :=
  ⟨subStr.getLast hpos, by rwa [List.dropLast_append_getLast]⟩

/-! ## The loops -/

section
variable [DecidableEq α] {subStr buf : List α}

/-- **The inner loop**: `j` ends at the length of the pattern if the bytes agree, the last one of
the pattern left out. -/
theorem compareLoop_spec {fuel j k : Nat} (hfuel : subStr.length < fuel + j)
    (hj : j < subStr.length) :
    ∃ j', compareLoop subStr buf buf.length fuel j k = some j' ∧ j' ≤ subStr.length ∧
      (j' = subStr.length ↔ Begins (subStr.drop j) (buf.drop k)) := by
  induction fuel generalizing j k with
  | zero => omega
  | succ fuel ih =>
    have hsub := List.drop_eq_getElem_cons hj
    rw [compareLoop, if_neg (by omega)]
    by_cases hk : k ≥ buf.length
    · rw [if_pos hk, List.drop_eq_nil_of_le hk]
      exact ⟨j, rfl, by omega, fun h => by omega, fun h => (begins_nil _ h).elim⟩
    · have hbuf := List.drop_eq_getElem_cons (Nat.lt_of_not_le hk)
      rw [if_neg hk, List.getElem?_eq_getElem hj, List.getElem?_eq_getElem (Nat.lt_of_not_le hk),
        Option.bind_some, Option.bind_some, hsub, hbuf]
      by_cases hlast : j + 1 = subStr.length
      · -- at the last byte both outcomes leave `j` at the length
        rw [List.drop_eq_nil_of_le (Nat.le_of_eq hlast.symm)]
        refine ⟨j + 1, ?_, by omega, fun _ => begins_single _ _ _, fun _ => hlast⟩
        split_ifs with hc
        · rfl
        · cases fuel with
          | zero => omega
          | succ fuel => rw [compareLoop, if_pos (by omega)]
      · have hnext := List.drop_eq_getElem_cons (show j + 1 < subStr.length by omega)
        rw [hnext, begins_cons, ← hnext]
        by_cases hc : subStr[j] = buf[k]
        · rw [if_neg (by simpa using hc)]
          obtain ⟨j', hrun, hle, hiff⟩ := ih (k := k + 1) (by omega) (show j + 1 < _ by omega)
          exact ⟨j', hrun, hle, hiff.trans (and_iff_right hc).symm⟩
        · rw [if_pos hc]
          exact ⟨j + 1, rfl, by omega, fun h => absurd h hlast, fun h => absurd h.1 hc⟩

/-- **The outer loop** finds the pattern up to its last byte, and any byte behind it. -/
theorem searchLoop_spec (hpos : 0 < subStr.length) {n i : Nat} (hn : i + n = buf.length) :
    ∃ found, searchLoop subStr buf buf.length n i 0 = some found ∧
      (found = true ↔ Occurs subStr (buf.drop i)) := by
  induction n generalizing i with
  | zero =>
    rw [List.drop_eq_nil_of_le (by omega)]
    exact ⟨false, rfl, by simp [occurs_nil]⟩
  | succ n ih =>
    have hi : i < buf.length := by omega
    have hfuel : subStr.length < subStr.length + 1 + 0 := by omega
    obtain ⟨j, hrun, hle, hiff⟩ := compareLoop_spec (k := i) hfuel hpos
    rw [searchLoop, hrun, Option.bind_some]
    rw [List.drop_zero] at hiff
    have hcons := List.drop_eq_getElem_cons hi
    by_cases hj : j = subStr.length
    · have hbegins := hiff.1 hj
      have hroom := hbegins.length_le
      rw [List.length_drop] at hroom
      rw [if_pos hj, if_pos (by omega)]
      rw [hcons] at hbegins ⊢
      exact ⟨true, rfl, fun _ => occurs_cons.2 (.inl hbegins), fun _ => rfl⟩
    · obtain ⟨found, hfound, hocc⟩ := ih (i := i + 1) (by omega)
      rw [if_neg hj, if_pos (by omega)]
      refine ⟨found, hfound, hocc.trans ?_⟩
      rw [hcons, occurs_cons, ← hcons, ← hiff]
      exact (or_iff_right hj).symm

end

/-! ## The copy -/

/-- The slots of the unread bytes, in order. -/
def BtifBuf.unread (bbs : BtifBuf α) (N : Nat) : List Nat :=
  (List.range (Circ.dist N bbs.rdIdx bbs.wrIdx)).map fun i => Circ.wrap N (bbs.rdIdx + i)

theorem BtifBuf.map_unread (bbs : BtifBuf α) (N : Nat) :
    (bbs.unread N).map bbs.pBuf = bbs.content N := by
  simp [BtifBuf.unread, BtifBuf.content, Circ.read, Function.comp_def]

section
variable {bbs : BtifBuf α} {N : Nat} (hN : SizeOk N) (h : bbs.Ok N)
include hN h

/-- The copy is of the unread bytes. -/
theorem BtifBuf.Ok.copyOut :
    bbs.copyOut (Circ.dist N bbs.rdIdx bbs.wrIdx) = some (bbs.unread N) := by
  have hlt := hN.lt
  have hpow : (4 : Nat) ∣ 2 ^ 32 := by decide
  have hrd := h.rd
  have hwr := h.wr
  have hcount := h.count_lt
  have hsize : Circ.dist N bbs.rdIdx bbs.wrIdx ≤
      (Circ.dist N bbs.rdIdx bbs.wrIdx + 3) % 2 ^ 32 / 4 * 4 := by
    obtain ⟨k, hk⟩ := hN.pow
    have hk32 : k < 32 := (Nat.pow_lt_pow_iff_right (by decide)).1 (hk ▸ hlt)
    have hhalf : 2 ^ k ≤ 2 ^ 31 := Nat.pow_le_pow_right (by decide) (by omega)
    rw [Nat.mod_eq_of_lt (by omega)]
    omega
  have hslots : (if bbs.wrIdx ≥ bbs.rdIdx then bbs.memcpyOut bbs.rdIdx (Circ.dist N bbs.rdIdx bbs.wrIdx)
      else (bbs.memcpyOut bbs.rdIdx (subU32 bbs.size bbs.rdIdx)).bind fun tail =>
        (bbs.memcpyOut 0 (subU32 (Circ.dist N bbs.rdIdx bbs.wrIdx)
          (subU32 bbs.size bbs.rdIdx))).map fun head => tail ++ head) = some (bbs.unread N) := by
    by_cases hle : bbs.rdIdx ≤ bbs.wrIdx
    · have hdist : Circ.dist N bbs.rdIdx bbs.wrIdx = bbs.wrIdx - bbs.rdIdx := if_pos hle
      rw [if_pos hle, hdist, BtifBuf.memcpyOut, if_pos (by rw [h.size]; omega)]
      unfold BtifBuf.unread
      rw [hdist, List.range'_eq_map_range]
      congr 1
      refine List.map_congr_left fun i hi => ?_
      rw [List.mem_range] at hi
      rw [Circ.wrap_of_lt (by omega)]
    · have hdist : Circ.dist N bbs.rdIdx bbs.wrIdx = bbs.wrIdx + N - bbs.rdIdx := if_neg hle
      have htail : subU32 bbs.size bbs.rdIdx = N - bbs.rdIdx := by
        rw [h.size, subU32_eq (by omega) hlt]
      rw [if_neg hle, htail, hdist, subU32_eq (by omega) (by omega), BtifBuf.memcpyOut,
        if_pos (by rw [h.size]; omega), BtifBuf.memcpyOut, if_pos (by rw [h.size]; omega)]
      have hsplit : bbs.wrIdx + N - bbs.rdIdx = (N - bbs.rdIdx) + bbs.wrIdx := by omega
      unfold BtifBuf.unread
      rw [hdist, hsplit, List.range_add, List.map_append, Nat.add_sub_cancel_left,
        List.range'_eq_map_range, List.range'_eq_map_range, List.map_map]
      show some (_ ++ _) = _
      congr 2
      · refine List.map_congr_left fun i hi => ?_
        rw [List.mem_range] at hi
        rw [Circ.wrap_of_lt (by omega)]
      · refine List.map_congr_left fun i hi => ?_
        rw [List.mem_range] at hi
        rw [Function.comp_apply, Circ.wrap_of_ge (by omega)]
        omega
  unfold BtifBuf.copyOut
  dsimp only
  rw [hslots, Option.bind_some, if_pos (by simpa [BtifBuf.unread] using hsize)]

end

/-! ## The result -/

/-- The pattern is found right: with memory for the copy it occurs if it does so up to its last
byte, and without any it does not occur. -/
def SearchExact (alloc : Bool) (subStr l : List α) : Prop :=
  if alloc then Occurs subStr l → subStr <:+: l else ¬ subStr <:+: l

/-- **The event search** reads the unread bytes only. It answers whether the pattern occurs in them
if and only if `SearchExact` holds. -/
theorem event_search_iff [DecidableEq α] {bbs : BtifBuf α} {N : Nat} (hN : SizeOk N)
    (h : bbs.Ok N) (alloc : Bool) {subStr : List α} (hpos : 0 < subStr.length) :
    ∃ found slots, btifParserWmtEvt alloc bbs subStr = some (found, slots) ∧
      (∀ p ∈ slots, p ∈ bbs.unread N) ∧
      ((found = true ↔ subStr <:+: bbs.content N) ↔
        SearchExact alloc subStr (bbs.content N)) := by
  have hne : subStr ≠ [] := List.ne_nil_of_length_pos hpos
  have hcount : bbs.count = Circ.dist N bbs.rdIdx bbs.wrIdx := h.countCur hN h.wr
  have hlen : (bbs.content N).length = Circ.dist N bbs.rdIdx bbs.wrIdx := Circ.read_length _ _ _ _
  unfold btifParserWmtEvt
  rw [hcount]
  dsimp only
  by_cases hshort : Circ.dist N bbs.rdIdx bbs.wrIdx < subStr.length
  · have hno : ¬ Occurs subStr (bbs.content N) := fun ho => by
      have := ho.length_le
      omega
    have hnot : ¬ subStr <:+: bbs.content N := fun hi => hno (occurs_whole hne hi)
    rw [if_pos hshort]
    refine ⟨false, [], rfl, fun p hp => absurd hp (List.not_mem_nil), ?_⟩
    cases alloc with
    | true => simp [SearchExact, hno, hnot]
    | false => simp [SearchExact, hnot]
  · rw [if_neg hshort]
    cases alloc with
    | false => exact ⟨false, [], rfl, fun p hp => absurd hp (List.not_mem_nil), by
        simp [SearchExact]⟩
    | true =>
      have hstarts : 0 + Circ.dist N bbs.rdIdx bbs.wrIdx = (bbs.content N).length := by
        rw [hlen, Nat.zero_add]
      obtain ⟨found, hrun, hiff⟩ := searchLoop_spec hpos hstarts
      rw [hlen] at hrun
      refine ⟨found, bbs.unread N, ?_, fun p hp => hp, ?_⟩
      · rw [h.copyOut hN, Option.bind_some, bbs.map_unread, hrun]
        rfl
      · rw [List.drop_zero] at hiff
        rw [hiff]
        exact ⟨fun hi => hi.1, fun hi => ⟨hi, occurs_whole hne⟩⟩

/-- A ring of 64 KiB with the bytes 1 and 3 in it. -/
def evtRing : BtifBuf UInt8 := ⟨btifRxBufferSize false, 0, 2, fun p => if p = 0 then 1 else 3⟩

theorem event_search_iff_evtRing :
    ∃ found slots, btifParserWmtEvt true evtRing [1, 3] = some (found, slots) ∧
      (∀ p ∈ slots, p ∈ evtRing.unread (btifRxBufferSize false)) ∧
      ((found = true ↔ [1, 3] <:+: evtRing.content (btifRxBufferSize false)) ↔
        SearchExact true [1, 3] (evtRing.content (btifRxBufferSize false))) :=
  event_search_iff (sizeOk_btifRxBufferSize false) ⟨rfl, by decide, by decide⟩ true (by decide)

/-- The pattern 1, 2 is found in the bytes 1 and 3. -/
theorem event_search_last_byte :
    ¬ ∃ found slots, btifParserWmtEvt true evtRing [1, 2] = some (found, slots) ∧
      (∀ p ∈ slots, p ∈ evtRing.unread (btifRxBufferSize false)) ∧
      (found = true ↔ [1, 2] <:+: evtRing.content (btifRxBufferSize false)) := by
  have hrun : btifParserWmtEvt true evtRing [1, 2] = some (true, [0, 1]) := by decide
  have hnot : ¬ [1, 2] <:+: evtRing.content (btifRxBufferSize false) := by decide
  intro h
  obtain ⟨found, slots, heq, -, hiff⟩ := h
  rw [hrun, Option.some.injEq, Prod.mk.injEq] at heq
  exact hnot (hiff.1 heq.1.symm)

end Btif
