import FireTablet.Adf.Proof.CliTokens
import FireTablet.Adf.Proof.RingbufDrop
import FireTablet.Adf.Proof.RingbufFifo
import FireTablet.Kernel.Strings
import Mathlib.Data.List.Forall2

/-!
# The ring after a command

The loop of `adfCli_send` is a run of writes, one for each parameter (`loop_pieces`). What the ring
then holds depends on whether the parameters fit. While they do, it holds all of them
(`RingHolds.puts`). Without a drop unit a parameter that does not fit is cut by four bytes at least
(`RingHolds.cuts`), and with one the ring has the last bytes written, wherever its read pointer is
(`TailAt.puts`). In either case a byte is lost for each separator that a parameter starts with, and
more, so that the tokens are never there by chance.
-/

namespace Adf

open CInt Strings

/-! ## The loop -/

/-- A parameter to write: where it starts in the command, and its length. -/
structure Piece where
  data : List UInt8
  len : Nat
  le : len ≤ data.length
  pos : 0 < len

def Piece.text (p : Piece) : List UInt8 := p.data.take p.len

theorem Piece.text_length (p : Piece) : p.text.length = p.len := List.length_take_of_le p.le

/-- The writes of a list of parameters. -/
def putAll (s : Ring) (ps : List Piece) : Option Ring :=
  ps.foldlM (fun s p => adfCliPut s p.data p.len) s

theorem putAll_cons (s : Ring) (p : Piece) (ps : List Piece) :
    putAll s (p :: ps) = (adfCliPut s p.data p.len).bind (putAll · ps) := List.foldlM_cons

theorem putAll_append (s : Ring) (ps qs : List Piece) :
    putAll s (ps ++ qs) = (putAll s ps).bind (putAll · qs) := List.foldlM_append

/-- The bytes from `p` to `i`, and the byte at `i`. -/
theorem take_drop_succ {l : List UInt8} {p i : Nat} (hp : p ≤ i) (hi : i < l.length) :
    (l.drop p).take (i + 1 - p) = (l.drop p).take (i - p) ++ [l[i]] := by
  have hlt : i - p < (l.drop p).length := by
    rw [List.length_drop]
    omega
  have hget : (l.drop p)[i - p] = l[i] := by
    rw [List.getElem_drop]
    congr 1
    omega
  rw [show i + 1 - p = i - p + 1 by omega, ← List.take_append_getElem hlt, hget]

/-- **The loop** writes the parameters of the bytes that are left. -/
theorem loop_pieces {inBuf : List UInt8} {n i paramP : Nat} (hp : paramP ≤ i)
    (hn : i + n ≤ inBuf.length) (h31 : i + n < 2 ^ 31) :
    ∃ ps : List Piece,
      ps.map Piece.text =
        params ((inBuf.drop paramP).take (i - paramP)) ((inBuf.drop i).take n) ∧
      ∀ s, adfCliLoop inBuf n i paramP s = putAll s ps := by
  induction n generalizing i paramP with
  | zero => exact ⟨[], by rw [List.take_zero, params, List.map_nil], fun _ => rfl⟩
  | succ n ih =>
    have hi : i < inBuf.length := by omega
    have hrest : (inBuf.drop i).take (n + 1) = inBuf[i] :: (inBuf.drop (i + 1)).take n := by
      rw [List.drop_eq_getElem_cons hi, List.take_succ_cons]
    have hlen : ((inBuf.drop paramP).take (i - paramP)).length = i - paramP :=
      List.length_take_of_le (by rw [List.length_drop]; omega)
    rw [hrest]
    unfold params adfCliLoop
    rw [List.getElem?_eq_getElem hi]
    simp only [Option.bind_some]
    have hkeep := @ih (i + 1) paramP (by omega) (by omega) (by omega)
    rw [take_drop_succ hp hi] at hkeep
    by_cases hc : isSeparator inBuf[i] = true
    · by_cases hpos : paramP < i
      · have hcur : (inBuf.drop paramP).take (i - paramP) ≠ [] := by
          refine List.ne_nil_of_length_pos ?_
          omega
        obtain ⟨ps, hps, hloop⟩ := @ih (i + 1) (i + 1) (Nat.le_refl _) (by omega) (by omega)
        rw [Nat.sub_self, List.take_zero] at hps
        have hi32 : i32 ((i : Int) - paramP) = ((i - paramP : Nat) : Int) := by
          rw [i32_eq (by unfold IsI32; omega)]
          omega
        refine ⟨⟨inBuf.drop paramP, i - paramP, by rw [List.length_drop]; omega, by omega⟩ :: ps,
          ?_, fun s => ?_⟩
        · rw [if_pos ⟨hc, hcur⟩, List.map_cons, hps]
          rfl
        · rw [if_pos hc, putAll_cons, if_pos (by omega), hi32, funext hloop]
      · have hcur : (inBuf.drop paramP).take (i - paramP) = [] :=
          List.eq_nil_of_length_eq_zero (by omega)
        rw [if_neg fun h => h.2 hcur]
        obtain ⟨ps, hps, hloop⟩ := hkeep
        refine ⟨ps, hps, fun s => ?_⟩
        rw [if_pos hc, if_neg (by omega), hloop]
    · rw [if_neg fun h => hc h.1]
      obtain ⟨ps, hps, hloop⟩ := hkeep
      exact ⟨ps, hps, fun s => by rw [if_neg hc, hloop]⟩

/-! ## What a write leaves alone -/

theorem checkDrop_rBuf (b : AdfRingbuf) (len : Int) :
    ∃ rp drop, (adfRingbufCheckDrop b len).2 = { b with rp, drop } := by
  unfold adfRingbufCheckDrop
  dsimp only
  split_ifs
  · exact ⟨_, _, rfl⟩
  · exact ⟨_, _, rfl⟩
  · exact ⟨_, _, rfl⟩

theorem write_rBuf {s s' : Ring} {data : Option (List UInt8)} {len ret : Int}
    (h : adfRingbufWrite s data len = some (ret, s')) :
    ∃ rp wp drop, s'.rBuf = { s.rBuf with rp, wp, drop } := by
  unfold adfRingbufWrite at h
  cases data with
  | none =>
    cases h
    exact ⟨_, _, _, rfl⟩
  | some data =>
    dsimp only at h
    split_ifs at h
    · cases h
      exact ⟨_, _, _, rfl⟩
    · obtain ⟨rp, drop, hb⟩ := checkDrop_rBuf s.rBuf len
      obtain ⟨m, -, heq⟩ := Option.map_eq_some_iff.1 h
      cases heq
      rw [hb]
      exact ⟨_, _, _, rfl⟩

/-- The ring with a parameter counted. -/
def Ring.counted (s : Ring) : Ring :=
  { s with rBuf := { s.rBuf with rsvd := (i32 (s.rBuf.argc + 1), s.rBuf.rc) } }

/-- A put is a write of the parameter, a write of the NUL, and the count. -/
theorem put_some {s s' : Ring} {data : List UInt8} {len : Int} :
    adfCliPut s data len = some s' ↔ ∃ r1 r2, adfRingbufWrite s (some data) len = some r1 ∧
      adfRingbufWrite r1.2 (some [0, 0]) 1 = some r2 ∧ r2.2.counted = s' := by
  unfold adfCliPut
  rw [Option.bind_eq_some_iff]
  simp only [Option.map_eq_some_iff, Ring.counted]
  exact ⟨fun ⟨r1, h1, r2, h2, h3⟩ => ⟨r1, r2, h1, h2, h3⟩,
    fun ⟨r1, r2, h1, h2, h3⟩ => ⟨r1, h1, r2, h2, h3⟩⟩

theorem put_rBuf {s s' : Ring} {data : List UInt8} {len : Int}
    (h : adfCliPut s data len = some s') :
    s'.rBuf.dropunit = s.rBuf.dropunit ∧ s'.size = s.size ∧
      s'.rBuf.argc = i32 (s.rBuf.argc + 1) ∧ s'.rBuf.rc = s.rBuf.rc := by
  obtain ⟨⟨ret1, s1⟩, ⟨ret2, s2⟩, h1, h2, rfl⟩ := put_some.1 h
  obtain ⟨rp, wp, drop, hb1⟩ := write_rBuf h1
  obtain ⟨rp', wp', drop', hb2⟩ := write_rBuf h2
  dsimp only at hb2
  rw [hb1] at hb2
  unfold Ring.counted Ring.size
  dsimp only [AdfRingbuf.argc, AdfRingbuf.rc]
  rw [hb2]
  exact ⟨rfl, rfl, rfl, rfl⟩

theorem putAll_rBuf {ps : List Piece} {s s' : Ring} (h : putAll s ps = some s') :
    s'.rBuf.dropunit = s.rBuf.dropunit ∧ s'.size = s.size := by
  induction ps generalizing s with
  | nil =>
    cases h
    exact ⟨rfl, rfl⟩
  | cons p ps ih =>
    rw [putAll_cons, Option.bind_eq_some_iff] at h
    obtain ⟨s1, h1, h2⟩ := h
    obtain ⟨hd, hs, -⟩ := put_rBuf h1
    exact ⟨(ih h2).1.trans hd, (ih h2).2.trans hs⟩

/-- The parameters are counted. -/
theorem putAll_argc {ps : List Piece} {s s' : Ring} (h : putAll s ps = some s')
    (h0 : 0 ≤ s.rBuf.argc) (h31 : s.rBuf.argc + ps.length < 2 ^ 31) :
    s'.rBuf.argc = s.rBuf.argc + ps.length ∧ s'.rBuf.rc = s.rBuf.rc := by
  induction ps generalizing s with
  | nil =>
    cases h
    exact ⟨(Int.add_zero _).symm, rfl⟩
  | cons p ps ih =>
    rw [putAll_cons, Option.bind_eq_some_iff] at h
    obtain ⟨s1, h1, h2⟩ := h
    rw [List.length_cons] at h31 ⊢
    obtain ⟨-, -, hargc, hrc⟩ := put_rBuf h1
    rw [i32_eq (by unfold IsI32; omega)] at hargc
    obtain ⟨hargc', hrc'⟩ := ih h2 (by omega) (by omega)
    exact ⟨by omega, hrc'.trans hrc⟩

/-! ## Parameters that fit -/

/-- A ring of `N` bytes whose read pointer is at the start, and what it holds. -/
structure RingHolds (s : Ring) (N : Nat) (held : List UInt8) : Prop where
  slots : ∃ w, RingAt s.rBuf N 0 w
  content : s.content = held
  drop : IsI32 s.rBuf.drop

section
variable {s : Ring} {N : Nat} {held : List UInt8} (h : RingHolds s N held)
include h

theorem RingHolds.lt : held.length < N := by
  obtain ⟨w, hat⟩ := h.slots
  rw [← h.content, hat.content_length]
  exact hat.used_lt

theorem RingHolds.valid : s.Valid := by
  obtain ⟨w, hat⟩ := h.slots
  exact hat.valid h.drop

theorem RingHolds.counted : RingHolds s.counted N held := by
  obtain ⟨w, hat⟩ := h.slots
  exact ⟨⟨w, hat.base, hat.limit, hat.limitI32, hat.sizeI32, hat.rp, hat.wp, hat.r_lt, hat.w_lt⟩,
    h.content, h.drop⟩

/-- The ring after `j` bytes are stored, `_adfRingbuf_checkDrop` leaving the struct alone. -/
theorem RingHolds.stored (data : List UInt8) {len : Int} {j : Nat} (hj : j ≤ data.length)
    (hN : held.length + j < N) (h0 : len ≠ 0)
    (hdrop : adfRingbufCheckDrop s.rBuf len = ((j : Int), s.rBuf)) :
    ∃ s', adfRingbufWrite s (some data) len = some ((j : Int), s') ∧
      RingHolds s' N (held ++ data.take j) := by
  obtain ⟨w, hat⟩ := h.slots
  have hu := hat.content_length
  rw [h.content] at hu
  obtain ⟨m, hm, hat', hc, -⟩ := hat.put hj (by omega)
  refine ⟨⟨{ s.rBuf with wp := adfRingbufMovePtr s.rBuf.wp j s.rBuf.base s.rBuf.limit }, m⟩, ?_,
    ⟨_, hat'⟩, ?_, h.drop⟩
  · unfold adfRingbufWrite
    dsimp only
    rw [if_neg h0, hdrop]
    dsimp only
    rw [show (⟨s.rBuf, s.mem⟩ : Ring) = s from rfl, hm]
    rfl
  · rw [hc, h.content]

/-- A write that fits. -/
theorem RingHolds.write (data : List UInt8) {k : Nat} (hk : k ≤ data.length) (h0 : 0 < k)
    (hN : held.length + k < N) :
    ∃ s', adfRingbufWrite s (some data) k = some ((k : Int), s') ∧
      RingHolds s' N (held ++ data.take k) := by
  refine h.stored data hk hN (by omega) ?_
  obtain ⟨w, hat⟩ := h.slots
  have hfree := hat.freeSize
  rw [← hat.content_length, h.content] at hfree
  unfold adfRingbufCheckDrop
  dsimp only
  rw [show adfRingbufCalcWrSize s.rBuf.wp s.rBuf.rp s.rBuf.base s.rBuf.limit = _ from hfree,
    if_neg (by omega)]

theorem RingHolds.put (p : Piece) (hN : held.length + (p.len + 1) < N) :
    ∃ s', adfCliPut s p.data p.len = some s' ∧ RingHolds s' N (held ++ (p.text ++ [0])) := by
  obtain ⟨s1, h1, hs1⟩ := h.write p.data p.le p.pos (by omega)
  have hlen : (held ++ p.data.take p.len).length + 1 < N := by
    rw [List.length_append, List.length_take_of_le p.le]
    omega
  obtain ⟨s2, h2, hs2⟩ := hs1.write [0, 0] (by simp) Nat.one_pos hlen
  refine ⟨s2.counted, put_some.2 ⟨_, _, h1, h2, rfl⟩, ?_⟩
  rw [← List.append_assoc]
  exact hs2.counted

end

theorem stream_cons (t : List UInt8) (ts : List (List UInt8)) :
    stream (t :: ts) = t ++ [0] ++ stream ts := List.flatMap_cons

theorem stream_append (ts us : List (List UInt8)) : stream (ts ++ us) = stream ts ++ stream us :=
  List.flatMap_append

theorem stream_length (ts : List (List UInt8)) :
    (stream ts).length = ts.flatten.length + ts.length := by
  induction ts with
  | nil => rfl
  | cons t ts ih =>
    rw [stream_cons, List.length_append, List.length_append, List.length_singleton, ih,
      List.flatten_cons, List.length_append, List.length_cons]
    omega

/-- **Parameters that fit** are all held. -/
theorem RingHolds.puts {s : Ring} {N : Nat} {held : List UInt8} (h : RingHolds s N held)
    (ps : List Piece) (hN : held.length + (stream (ps.map Piece.text)).length < N) :
    ∃ s', putAll s ps = some s' ∧ RingHolds s' N (held ++ stream (ps.map Piece.text)) := by
  induction ps generalizing s held with
  | nil => exact ⟨s, rfl, by rwa [List.map_nil, stream, List.flatMap_nil, List.append_nil]⟩
  | cons p ps ih =>
    rw [List.map_cons, stream_cons] at hN ⊢
    rw [List.length_append, List.length_append, List.length_singleton, p.text_length] at hN
    obtain ⟨s1, h1, hs1⟩ := h.put p (by omega)
    obtain ⟨s2, h2, hs2⟩ := ih hs1 (by
      rw [List.length_append, List.length_append, List.length_singleton, p.text_length]
      omega)
    refine ⟨s2, ?_, ?_⟩
    · rw [putAll_cons, h1, Option.bind_some, h2]
    · rw [← List.append_assoc]
      exact hs2

/-! ## Parameters that are cut -/

/-- A parameter as the ring gets it without a drop unit. -/
def Cut (t t' : List UInt8) : Prop :=
  ∃ j, t' = t.take j ∧ (j = t.length ∨ j + 4 ≤ t.length)

section
variable {s : Ring} {N : Nat} {held : List UInt8} (h : RingHolds s N held)
  (hd : s.rBuf.dropunit ≤ 0)
include h hd

theorem RingHolds.cut {data : List UInt8} {k : Nat} {r : Int × Ring} (hk : k ≤ data.length)
    (h0 : 0 < k) (hw : adfRingbufWrite s (some data) k = some r) :
    ∃ j, RingHolds r.2 N (held ++ data.take j) ∧ (j = k ∨ j + 4 ≤ k) := by
  obtain ⟨w, hat⟩ := h.slots
  have hfree := checkDrop_noDrop hat hd k
  have hu := hat.content_length
  have hlt := h.lt
  rw [h.content] at hu
  rw [← hu] at hfree
  split_ifs at hfree with hge
  · by_cases h4 : held.length + 4 ≤ N
    · obtain ⟨j, hj⟩ : ∃ j, j + 4 = N - held.length := ⟨N - held.length - 4, by omega⟩
      rw [show ((N - held.length : Nat) : Int) - 4 = (j : Int) by omega] at hfree
      obtain ⟨s', hs', hh⟩ := h.stored data (by omega) (by omega) (by omega) hfree
      rw [hw] at hs'
      cases hs'
      exact ⟨j, hh, .inr (by omega)⟩
    · -- a negative length
      have hend : 0 < i32 (s.rBuf.limit - s.rBuf.wp) := by
        have := hat.w_lt
        rw [hat.wp, hat.lenToEnd (Nat.le_of_lt this)]
        omega
      unfold adfRingbufWrite at hw
      dsimp only at hw
      rw [if_neg (by omega), hfree] at hw
      dsimp only at hw
      unfold adfRingbufWriteCopy at hw
      dsimp only at hw
      rw [if_pos (by omega), Mem.memcpyTo_neg (by omega)] at hw
      cases hw
  · obtain ⟨s', hs', hh⟩ := h.stored data hk (by omega) (by omega) hfree
    rw [hw] at hs'
    cases hs'
    exact ⟨k, hh, .inl rfl⟩

theorem RingHolds.put_cut (p : Piece) {s' : Ring} (hput : adfCliPut s p.data p.len = some s') :
    ∃ t', Cut p.text t' ∧ RingHolds s' N (held ++ (t' ++ [0])) := by
  obtain ⟨⟨ret, s1⟩, r2, h1, h2, rfl⟩ := put_some.1 hput
  obtain ⟨j, hs1, hj⟩ := h.cut hd p.le p.pos h1
  obtain ⟨rp, wp, drop, hb⟩ := write_rBuf h1
  have hd1 : s1.rBuf.dropunit ≤ 0 := by
    rw [hb]
    exact hd
  obtain ⟨j1, hs2, hj1⟩ := hs1.cut hd1 (by simp) Nat.one_pos h2
  obtain rfl : j1 = 1 := by omega
  refine ⟨p.data.take j, ⟨j, ?_, ?_⟩, ?_⟩
  · unfold Piece.text
    rw [List.take_take, Nat.min_eq_left (by omega)]
  · rwa [p.text_length]
  · rw [← List.append_assoc]
    exact hs2.counted

/-- **Without a drop unit**, what is held are the parameters with those that do not fit cut. -/
theorem RingHolds.cuts {ps : List Piece} {s' : Ring} (hput : putAll s ps = some s') :
    ∃ cuts, List.Forall₂ Cut (ps.map Piece.text) cuts ∧ RingHolds s' N (held ++ stream cuts) := by
  induction ps generalizing s held with
  | nil =>
    cases hput
    refine ⟨[], List.Forall₂.nil, ?_⟩
    rwa [stream, List.flatMap_nil, List.append_nil]
  | cons p ps ih =>
    rw [putAll_cons, Option.bind_eq_some_iff] at hput
    obtain ⟨s1, h1, h2⟩ := hput
    obtain ⟨t', hcut, hs1⟩ := h.put_cut hd p h1
    obtain ⟨cuts, hcuts, hs2⟩ := ih hs1 (by rw [(put_rBuf h1).1]; exact hd) h2
    refine ⟨t' :: cuts, .cons hcut hcuts, ?_⟩
    rw [stream_cons, ← List.append_assoc]
    exact hs2

end

/-! ## The last bytes written -/

/-- A ring of `N` bytes with its write pointer in range, wherever its read pointer is, to which
`hist` was written: it has the last `N` bytes of it. -/
def TailAt (s : Ring) (N : Nat) (hist : List UInt8) : Prop :=
  ∃ r w, RingAt { s.rBuf with rp := s.rBuf.base } N 0 w ∧ r < N ∧
    w = Circ.wrap N (r + min hist.length N) ∧
    Circ.read (s.mem.cells s.rBuf.base) N r (min hist.length N) = hist.drop (hist.length - N)

section
variable {s : Ring} {N : Nat} {hist : List UInt8} (h : TailAt s N hist)
  (hd : 0 < s.rBuf.dropunit)
include h hd

/-- A write of at most `N` bytes stores over the oldest. -/
theorem TailAt.write {data : List UInt8} {k : Nat} {res : Int × Ring} (hk : k ≤ data.length)
    (h0 : 0 < k) (hN : k ≤ N) (hw : adfRingbufWrite s (some data) k = some res) :
    TailAt res.2 N (hist ++ data.take k) := by
  obtain ⟨r, w, hat, hr, hwr, hread⟩ := h
  obtain ⟨m', hm', hcells, -⟩ :=
    RingAt.writeCopy (s := ⟨{ s.rBuf with rp := s.rBuf.base }, s.mem⟩) hat hk hN
  have hat' := hat.move_wp hN
  unfold adfRingbufWrite at hw
  dsimp only at hw
  rw [if_neg (by omega), checkDrop_eq hd] at hw
  obtain ⟨m, hm, rfl⟩ := Option.map_eq_some_iff.1 hw
  obtain ⟨rp, drop, hb⟩ : ∃ rp drop, droppedBuf s.rBuf k = { s.rBuf with rp, drop } := by
    have := checkDrop_rBuf s.rBuf k
    rwa [checkDrop_eq hd] at this
  rw [hb] at hm
  -- the copy does not look at the read pointer
  obtain rfl : m = m' := Option.some.inj (hm.symm.trans hm')
  have hlen : (data.take k).length = k := List.length_take_of_le hk
  have hw' : Circ.wrap N (w + k) < N := Circ.wrap_lt (by have := hat.w_lt; omega)
  have hstore := Circ.read_write_overwrite (f := s.mem.cells s.rBuf.base) (data.take k) hr
    (Nat.min_le_right hist.length N)
    (show min hist.length N + k - N ≤ min hist.length N by omega) hwr (by rw [hlen]; omega)
  rw [hlen] at hstore
  refine ⟨Circ.wrap N (r + (min hist.length N + k - N)), Circ.wrap N (w + k), ?_,
    Circ.wrap_lt (by omega), ?_, ?_⟩
  · dsimp only
    rw [hb]
    exact ⟨hat'.base, hat'.limit, hat'.limitI32, hat'.sizeI32, hat'.rp, hat'.wp, hat'.r_lt,
      hat'.w_lt⟩
  · rw [List.length_append, hlen, hwr]
    unfold Circ.wrap
    split_ifs <;> omega
  · dsimp only
    rw [hb, List.length_append, hlen]
    dsimp only at hcells ⊢
    rw [hcells, show min (hist.length + k) N = min hist.length N - (min hist.length N + k - N) + k
      by omega, hstore, hread, List.drop_drop, List.drop_append_of_le_length (by omega)]
    congr 2
    omega

theorem TailAt.put (p : Piece) (hN : p.len ≤ N) {s' : Ring}
    (hput : adfCliPut s p.data p.len = some s') : TailAt s' N (hist ++ (p.text ++ [0])) := by
  obtain ⟨⟨ret, s1⟩, r2, h1, h2, rfl⟩ := put_some.1 hput
  have hs1 := h.write hd p.le p.pos hN h1
  obtain ⟨rp, wp, drop, hb⟩ := write_rBuf h1
  have hd1 : 0 < s1.rBuf.dropunit := by
    rw [hb]
    exact hd
  have hpos := p.pos
  obtain ⟨r, w, hat, hr, hw, hread⟩ :=
    hs1.write hd1 (by simp) Nat.one_pos (by omega) h2
  rw [List.append_assoc] at hw hread
  exact ⟨r, w, ⟨hat.base, hat.limit, hat.limitI32, hat.sizeI32, hat.rp, hat.wp, hat.r_lt,
    hat.w_lt⟩, hr, hw, hread⟩

/-- **With a drop unit**, the ring has the last of the bytes of all parameters. -/
theorem TailAt.puts {ps : List Piece} (hN : ∀ p ∈ ps, p.len ≤ N) {s' : Ring}
    (hput : putAll s ps = some s') : TailAt s' N (hist ++ stream (ps.map Piece.text)) := by
  induction ps generalizing s hist with
  | nil =>
    cases hput
    rwa [List.map_nil, stream, List.flatMap_nil, List.append_nil]
  | cons p ps ih =>
    rw [putAll_cons, Option.bind_eq_some_iff] at hput
    obtain ⟨s1, h1, h2⟩ := hput
    rw [List.forall_mem_cons] at hN
    have := ih (h.put hd p hN.1 h1) (by rw [(put_rBuf h1).1]; exact hd) hN.2 h2
    rwa [List.map_cons, stream_cons, ← List.append_assoc]

end

/-- Where more bytes were written than there are slots and both pointers are in range, the ring
holds the last ones. -/
theorem TailAt.content {s : Ring} {N : Nat} {hist : List UInt8} (h : TailAt s N hist)
    (hv : s.Valid) (hN : N ≤ hist.length) :
    s.content.length < N ∧ s.content = hist.drop (hist.length - s.content.length) := by
  obtain ⟨r, w, hat, hr, hw, hread⟩ := h
  rw [Nat.min_eq_right hN] at hw hread
  have hsize : s.size = N := RingAt.size_eq (s := ⟨{ s.rBuf with rp := s.rBuf.base }, s.mem⟩) hat
  have hslot : s.wslot = w := RingAt.wslot_eq (s := ⟨{ s.rBuf with rp := s.rBuf.base }, s.mem⟩) hat
  have hvat := hv.at
  rw [hsize, hslot] at hvat
  obtain rfl : w = r := by
    rw [hw, Circ.wrap_of_ge (by omega)]
    omega
  have hlen := hvat.content_length
  have hlt := hvat.used_lt
  refine ⟨by omega, ?_⟩
  have hr' := hvat.r_lt
  have hgo : Circ.wrap N (w + (N - Circ.dist N s.rslot w)) = s.rslot := by
    unfold Circ.wrap Circ.dist at *
    split_ifs at * <;> omega
  have hsub := Circ.read_drop (f := s.mem.cells s.rBuf.base) hr
    (Nat.sub_le N (Circ.dist N s.rslot w)) (Nat.le_refl N)
  rw [hread, hgo, List.drop_drop, Nat.sub_sub_self (Nat.le_of_lt hlt), ← hvat.content_eq] at hsub
  rw [hlen]
  exact hsub.symm.trans (by congr 1; omega)

/-- A parameter that fills the ring with its NUL makes it look empty. -/
theorem RingHolds.put_full {s s' : Ring} {N : Nat} {held : List UInt8} (h : RingHolds s N held)
    (hd : 0 < s.rBuf.dropunit) (hd32 : IsI32 s.rBuf.dropunit) (p : Piece)
    (hN : held.length + (p.len + 1) = N) (hput : adfCliPut s p.data p.len = some s') :
    s'.content = [] := by
  obtain ⟨s1, h1, hs1⟩ := h.write p.data p.le p.pos (by omega)
  obtain ⟨r1, ⟨ret, s2⟩, h1', h2, rfl⟩ := put_some.1 hput
  rw [h1] at h1'
  cases h1'
  have hd1 : s1.rBuf.dropunit = s.rBuf.dropunit := by
    obtain ⟨rp, wp, drop, hb⟩ := write_rBuf h1
    rw [hb]
  obtain ⟨w, hat⟩ := hs1.slots
  have hlen := hat.content_length
  rw [hs1.content, List.length_append, List.length_take_of_le p.le] at hlen
  have hfree : adfRingbufGetFreeSize s1.rBuf = 1 := by
    rw [hat.freeSize]
    omega
  have hdrop : dropLen s1.rBuf 1 = 0 := by
    unfold IsI32 at hd32
    unfold dropLen
    rw [hfree, hd1, i32_eq (by unfold IsI32; omega), Int.tmod_eq_of_lt (by omega) (by omega)]
    omega
  have hb : droppedBuf s1.rBuf 1 = { s1.rBuf with
      drop := i32 (s1.rBuf.drop + 0)
      rp := adfRingbufMovePtr s1.rBuf.rp 0 s1.rBuf.base s1.rBuf.limit } := by
    unfold droppedBuf
    rw [if_pos (by omega), hdrop]
  have hat2 := (hat.move_rp (Nat.zero_le N) (i32 (s1.rBuf.drop + 0))).move_wp
    (show 1 ≤ N by omega)
  unfold adfRingbufWrite at h2
  dsimp only at h2
  rw [if_neg (by decide), checkDrop_eq (by rw [hd1]; exact hd), hb] at h2
  obtain ⟨m, -, heq⟩ := Option.map_eq_some_iff.1 h2
  change s2.content = []
  cases heq
  refine List.eq_nil_of_length_eq_zero (Eq.trans (RingAt.content_length (s := ⟨_, m⟩) hat2) ?_)
  have hw := hat.w_lt
  unfold Circ.wrap Circ.dist at *
  split_ifs at * <;> omega

/-! ## Bytes lost -/

theorem plain_length (bs : List UInt8) :
    (plain bs).length + bs.countP isSeparator = bs.length := by
  have h := List.length_eq_countP_add_countP isSeparator (l := bs)
  have hf : (plain bs).length = bs.countP fun c => !isSeparator c :=
    List.countP_eq_length_filter.symm
  rw [hf, h, Nat.add_comm]
  simp

/-- The NULs are no separators. -/
theorem stream_countP (ts : List (List UInt8)) :
    (stream ts).countP isSeparator = ts.flatten.countP isSeparator := by
  induction ts with
  | nil => rfl
  | cons t ts ih =>
    rw [stream_cons, List.countP_append, List.countP_append, ih, List.flatten_cons,
      List.countP_append, show [(0 : UInt8)].countP isSeparator = 0 from rfl, Nat.add_zero]

theorem tokens_countP (cmd : List UInt8) : (stream (tokens cmd)).countP isSeparator = 0 := by
  rw [stream_countP, tokens_flatten, List.countP_eq_zero]
  intro c hc
  simpa [plain] using (List.mem_filter.1 hc).2

theorem params_plain_length (cmd : List UInt8) :
    (plain (params [] cmd).flatten).length + (plain (leftover [] cmd)).length =
      (tokens cmd).flatten.length := by
  rw [← List.length_append, params_plain, List.nil_append, tokens_flatten]

/-- The parameters have the bytes of the tokens, less those at the end, and the separators they
start with. -/
theorem params_balance (cmd : List UInt8) :
    (params [] cmd).flatten.length + (plain (leftover [] cmd)).length =
      (tokens cmd).flatten.length + (params [] cmd).flatten.countP isSeparator := by
  have h := params_plain_length cmd
  have := plain_length (params [] cmd).flatten
  omega

/-- Where no separator is in a parameter and no byte is lost, the command is separated. -/
theorem separated_of {cmd : List UInt8} (hq : (params [] cmd).flatten.countP isSeparator = 0)
    (hL : (plain (leftover [] cmd)).length = 0) : separated false cmd = true := by
  refine (@separated_iff [] (by simp) cmd).2 ⟨fun t ht b hb => ?_,
    List.eq_nil_of_length_eq_zero hL⟩
  have := List.countP_eq_zero.1 hq b (List.mem_flatten_of_mem ht hb)
  simpa using this

theorem tail_countP {t : List UInt8} (h : ∀ b ∈ t.tail, isSeparator b = false) :
    t.countP isSeparator ≤ 1 := by
  cases t with
  | nil => exact Nat.zero_le 1
  | cons b t =>
    have h0 : t.countP isSeparator = 0 := List.countP_eq_zero.2 fun b hb => by simp [h b hb]
    rw [List.countP_cons, h0]
    split_ifs <;> omega

/-- A cut loses more bytes than the parameter has separators. -/
theorem cuts_lost {ts cuts : List (List UInt8)} (h : List.Forall₂ Cut ts cuts)
    (htail : ∀ t ∈ ts, ∀ b ∈ t.tail, isSeparator b = false)
    (hq : cuts.flatten.countP isSeparator = 0) :
    4 * ts.flatten.countP isSeparator + cuts.flatten.length ≤ ts.flatten.length := by
  induction h with
  | nil => exact Nat.le_refl 0
  | @cons t t' ts cuts hcut hcuts ih =>
    rw [List.forall_mem_cons] at htail
    rw [List.flatten_cons, List.countP_append, Nat.add_eq_zero_iff] at hq
    have hrest := ih htail.2 hq.2
    obtain ⟨j, rfl, hj⟩ := hcut
    rw [List.flatten_cons, List.flatten_cons, List.countP_append, List.length_append,
      List.length_append, List.length_take]
    rcases hj with hj | hj
    · have hq1 := hq.1
      rw [hj, List.take_length] at hq1
      omega
    · have := tail_countP htail.1
      omega

/-- The second byte written is no separator. -/
theorem stream_second {ts : List (List UInt8)} (hne : ts ≠ [])
    (htail : ∀ t ∈ ts, t ≠ [] ∧ ∀ b ∈ t.tail, isSeparator b = false) :
    ∃ b c rest, stream ts = b :: c :: rest ∧ isSeparator c = false := by
  obtain ⟨t, ts, rfl⟩ := List.exists_cons_of_ne_nil hne
  obtain ⟨hnil, htl⟩ := htail t List.mem_cons_self
  obtain ⟨b, t, rfl⟩ := List.exists_cons_of_ne_nil hnil
  rw [stream_cons]
  cases t with
  | nil => exact ⟨b, 0, _, rfl, rfl⟩
  | cons c t => exact ⟨b, c, _, rfl, htl c List.mem_cons_self⟩

theorem piece_le {ts : List (List UInt8)}
    (htail : ∀ t ∈ ts, t ≠ [] ∧ ∀ b ∈ t.tail, isSeparator b = false) {t : List UInt8}
    (ht : t ∈ ts) : t.length ≤ (plain ts.flatten).length + 1 := by
  have hsub : (plain t).length ≤ (plain ts.flatten).length :=
    ((List.sublist_flatten_of_mem ht).filter _).length_le
  have := plain_length t
  have := tail_countP (htail t ht).2
  omega

/-! ## The command -/

/-- A ring that `adfRingbuf_reset` takes, with any pointers in it. -/
structure Ring.Ready (s : Ring) : Prop where
  base : IsI32 s.rBuf.base
  limit : IsI32 s.rBuf.limit
  lt : s.rBuf.base < s.rBuf.limit
  size : IsI32 (s.rBuf.limit - s.rBuf.base)
  dropunit : IsI32 s.rBuf.dropunit
  base_ne : s.rBuf.base ≠ 0
  limit_ne : s.rBuf.limit ≠ 0

/-- What a command is to leave: its tokens in the ring, each with a NUL, their number in `argc`, and
1 in `rc` if there are any. -/
def SendOk (s : Ring) (inBuf : List UInt8) (inBufLen : Int) : Prop :=
  ∃ s', adfCliSend s inBuf inBufLen = some (inBufLen, s') ∧ s'.Valid ∧
    s'.content = stream (tokens (inBuf.take inBufLen.toNat)) ∧
    s'.rBuf.argc = (tokens (inBuf.take inBufLen.toNat)).length ∧
    s'.rBuf.rc = if s'.rBuf.argc > 0 then 1 else 0

/-- The ring before the loop. -/
def Ring.cliStart (s : Ring) : Ring :=
  { s with rBuf := { s.rBuf with rp := s.rBuf.base, wp := s.rBuf.base, drop := 0, rsvd := (0, 0) } }

/-- The ring with `rc` set after the loop. -/
def Ring.cliEnd (s : Ring) : Ring :=
  if s.rBuf.argc > 0 then { s with rBuf := { s.rBuf with rsvd := (s.rBuf.argc, 1) } } else s

theorem cliEnd_content (s : Ring) : s.cliEnd.content = s.content := by
  unfold Ring.cliEnd
  split_ifs <;> rfl

theorem cliEnd_argc (s : Ring) : s.cliEnd.rBuf.argc = s.rBuf.argc := by
  unfold Ring.cliEnd
  split_ifs <;> rfl

theorem cliEnd_rc {s : Ring} (h : s.rBuf.rc = 0) :
    s.cliEnd.rBuf.rc = if s.cliEnd.rBuf.argc > 0 then 1 else 0 := by
  rw [cliEnd_argc]
  unfold Ring.cliEnd
  by_cases hpos : s.rBuf.argc > 0
  · rw [if_pos hpos, if_pos hpos]
    rfl
  · rw [if_neg hpos, if_neg hpos, h]

theorem cliEnd_valid (s : Ring) : s.cliEnd.Valid ↔ s.Valid := by
  unfold Ring.cliEnd
  split_ifs
  · exact ⟨fun h => ⟨h.base, h.limit, h.lt, h.size, h.rp, h.wp, h.drop⟩,
      fun h => ⟨h.base, h.limit, h.lt, h.size, h.rp, h.wp, h.drop⟩⟩
  · exact Iff.rfl

section
variable {s : Ring} (h : s.Ready)
include h

theorem Ring.Ready.at : RingAt s.cliStart.rBuf s.size 0 0 := by
  obtain ⟨hb, hl, hlt, hs, -, -, -⟩ := h
  unfold Ring.size
  have hn : ((s.rBuf.limit - s.rBuf.base).toNat : Int) = s.rBuf.limit - s.rBuf.base := by omega
  refine ⟨hb, ?_, hl, by rwa [hn], (Int.add_zero _).symm, (Int.add_zero _).symm, by omega,
    by omega⟩
  show s.rBuf.limit = s.rBuf.base + _
  omega

theorem Ring.Ready.holds : RingHolds s.cliStart s.size [] :=
  ⟨⟨0, h.at⟩, List.eq_nil_of_length_eq_zero h.at.content_length, show IsI32 0 by decide⟩

theorem Ring.Ready.tail : TailAt s.cliStart s.size [] :=
  ⟨0, 0, h.at, h.at.r_lt, by rw [Circ.wrap_of_lt] <;> simp [h.at.r_lt], by simp⟩

/-- A command in terms of its parameters. -/
theorem Ring.Ready.sendOk_iff {inBuf : List UInt8} {inBufLen : Int} (hi : IsI32 inBufLen)
    (hlen : inBufLen ≤ inBuf.length) :
    ∃ ps : List Piece, ps.map Piece.text = params [] (inBuf.take inBufLen.toNat) ∧
      (SendOk s inBuf inBufLen ↔ ∃ s', putAll s.cliStart ps = some s' ∧ s'.Valid ∧
        s'.content = stream (tokens (inBuf.take inBufLen.toNat)) ∧
        ps.length = (tokens (inBuf.take inBufLen.toNat)).length) := by
  unfold IsI32 at hi
  obtain ⟨ps, hps, hloop⟩ := @loop_pieces inBuf inBufLen.toNat 0 0 (Nat.le_refl 0) (by omega)
    (by omega)
  rw [List.drop_zero, Nat.sub_self, List.take_zero] at hps
  refine ⟨ps, hps, ?_⟩
  have hcount : ps.length ≤ inBufLen.toNat := by
    have := params_length [] (inBuf.take inBufLen.toNat)
    rw [← hps, List.length_map, List.length_take] at this
    omega
  have hsend : adfCliSend s inBuf inBufLen =
      (putAll s.cliStart ps).map fun s' => (inBufLen, s'.cliEnd) := by
    unfold adfCliSend adfRingbufReset
    rw [if_neg (by simp [h.base_ne, h.limit_ne]), ← hloop]
    rfl
  have hargc : ∀ s', putAll s.cliStart ps = some s' →
      s'.rBuf.argc = (ps.length : Int) ∧ s'.rBuf.rc = 0 := fun s' hs' => by
    have h0 : s.cliStart.rBuf.argc = 0 := rfl
    obtain ⟨ha, hr⟩ := putAll_argc hs' (by omega) (by omega)
    exact ⟨by omega, hr⟩
  unfold SendOk
  rw [hsend]
  constructor
  · rintro ⟨s', hs', hv, hc, ha, -⟩
    obtain ⟨s1, h1, heq⟩ := Option.map_eq_some_iff.1 hs'
    cases heq
    have ha1 := (hargc s1 h1).1
    rw [cliEnd_argc] at ha
    exact ⟨s1, h1, (cliEnd_valid s1).1 hv, (cliEnd_content s1).symm.trans hc, by omega⟩
  · rintro ⟨s1, h1, hv, hc, hn⟩
    obtain ⟨ha1, hr1⟩ := hargc s1 h1
    refine ⟨s1.cliEnd, by rw [h1, Option.map_some], (cliEnd_valid s1).2 hv,
      (cliEnd_content s1).trans hc, ?_, cliEnd_rc hr1⟩
    rw [cliEnd_argc]
    omega

/-- Parameters of which the last fills the ring leave it looking empty. -/
theorem Ring.Ready.full {ps : List Piece} (hd : 0 < s.rBuf.dropunit) (hne : ps ≠ [])
    (hN : (stream (ps.map Piece.text)).length = s.size) {s' : Ring}
    (hput : putAll s.cliStart ps = some s') : s'.content = [] ∧ 2 ≤ s.size := by
  obtain ⟨init, p, rfl⟩ := (List.eq_nil_or_concat ps).resolve_left hne
  rw [List.concat_eq_append] at hput hN
  rw [List.map_append, stream_append, List.length_append, List.map_singleton, stream_cons,
    List.length_append, List.length_append, p.text_length, List.length_singleton] at hN
  have hend : (stream []).length = 0 := rfl
  obtain ⟨s1, h1, hs1⟩ := h.holds.puts init (by
    rw [List.length_nil]
    omega)
  rw [putAll_append, h1, Option.bind_some, putAll_cons, Option.bind_eq_some_iff] at hput
  obtain ⟨s2, h2, h3⟩ := hput
  cases h3
  have hd1 : s1.rBuf.dropunit = s.rBuf.dropunit := (putAll_rBuf h1).1
  refine ⟨hs1.put_full (by rw [hd1]; exact hd) (by rw [hd1]; exact h.dropunit) p ?_ h2, ?_⟩
  · rw [List.nil_append]
    omega
  · have := p.pos
    omega

/-- Where the last bytes of the parameters are held and not all of them, they are not the tokens. -/
theorem Ring.Ready.overflow {cmd : List UInt8} {ps : List Piece}
    (hps : ps.map Piece.text = params [] cmd) (hd : 0 < s.rBuf.dropunit)
    (hT : s.size ≤ (stream (params [] cmd)).length) {s' : Ring}
    (hput : putAll s.cliStart ps = some s') (hv : s'.Valid)
    (hn : ps.length = (tokens cmd).length) : s'.content ≠ stream (tokens cmd) := by
  intro hc
  have htail := @params_tail [] (by simp) cmd
  have hcount : (params [] cmd).length = (tokens cmd).length := by
    rw [← hps, List.length_map, hn]
  have hbal := params_balance cmd
  have hTlen := stream_length (params [] cmd)
  have hSlen := stream_length (tokens cmd)
  have hpos : 0 < s.size := h.at.r_lt
  have hne : params [] cmd ≠ [] := fun hnil => by
    rw [hnil] at hT
    exact absurd hT (Nat.not_le.2 hpos)
  have hnpos := List.length_pos_iff.2 hne
  have hlt : (stream (tokens cmd)).length < s.size := by
    have hused := hv.at.used_lt
    rwa [← hv.at.content_length, hc, (putAll_rBuf hput).2] at hused
  -- each parameter is at most one byte longer than a token
  have hlen : ∀ p ∈ ps, p.len ≤ s.size := fun p hp => by
    have hle := piece_le htail (hps ▸ List.mem_map_of_mem hp)
    have hplain := params_plain_length cmd
    rw [p.text_length] at hle
    omega
  have hheld := (h.tail.puts hd hlen hput).content hv
  rw [hps, List.nil_append, hc] at hheld
  obtain ⟨-, hdrop⟩ := hheld hT
  -- the bytes lost have all separators, and are as many at most
  have hsplit := congrArg (List.countP isSeparator) (List.take_append_drop
    ((stream (params [] cmd)).length - (stream (tokens cmd)).length) (stream (params [] cmd)))
  rw [List.countP_append, ← hdrop, tokens_countP, Nat.add_zero, stream_countP] at hsplit
  have hle := List.countP_le_length (p := isSeparator) (l := (stream (params [] cmd)).take
    ((stream (params [] cmd)).length - (stream (tokens cmd)).length))
  rw [hsplit, List.length_take] at hle
  have hall : ∀ b ∈ (stream (params [] cmd)).take
      ((stream (params [] cmd)).length - (stream (tokens cmd)).length), isSeparator b = true :=
    List.countP_eq_length.1 (by rw [hsplit, List.length_take]; omega)
  by_cases htwo : 2 ≤ (stream (params [] cmd)).length - (stream (tokens cmd)).length
  · obtain ⟨b, c, rest, hstream, hcs⟩ := stream_second hne htail
    obtain ⟨k, hk⟩ : ∃ k, (stream (params [] cmd)).length - (stream (tokens cmd)).length = k + 2 :=
      ⟨_, (Nat.sub_add_cancel htwo).symm⟩
    rw [hk, hstream, List.take_succ_cons, List.take_succ_cons] at hall
    have := hall c (List.mem_cons_of_mem _ List.mem_cons_self)
    rw [hcs] at this
    cases this
  · obtain ⟨hnil, hsize⟩ := h.full hd (fun hnil => hne (by rw [← hps, hnil]; rfl))
      (by rw [hps]; omega) hput
    rw [hnil] at hc
    rw [← hc, List.length_nil] at htwo
    omega

/-- Parameters that give what the tokens do are the tokens of a separated command. -/
theorem Ring.Ready.separated {cmd : List UInt8} {ps : List Piece}
    (hps : ps.map Piece.text = params [] cmd) {s' : Ring} (hput : putAll s.cliStart ps = some s')
    (hv : s'.Valid) (hc : s'.content = stream (tokens cmd))
    (hn : ps.length = (tokens cmd).length) : separated false cmd = true := by
  have htail := @params_tail [] (by simp) cmd
  have hcount : (params [] cmd).length = (tokens cmd).length := by
    rw [← hps, List.length_map, hn]
  have hbal := params_balance cmd
  have hq := tokens_countP cmd
  have hT := stream_length (params [] cmd)
  have hS := stream_length (tokens cmd)
  by_cases hd : 0 < s.rBuf.dropunit
  · by_cases hfit : (stream (params [] cmd)).length < s.size
    · obtain ⟨s1, h1, hs1⟩ := h.holds.puts ps (by rwa [hps, List.length_nil, Nat.zero_add])
      rw [hput] at h1
      cases h1
      have heq : stream (params [] cmd) = stream (tokens cmd) := by
        rw [← hc, hs1.content, hps, List.nil_append]
      have hq' := stream_countP (params [] cmd)
      rw [heq, hq] at hq'
      rw [heq] at hT
      exact separated_of hq'.symm (by omega)
    · exact absurd hc (h.overflow hps hd (Nat.not_lt.1 hfit) hput hv hn)
  · obtain ⟨cuts, hcuts, hs1⟩ := h.holds.cuts (Int.not_lt.1 hd) hput
    rw [hps] at hcuts
    have heq : stream cuts = stream (tokens cmd) := by
      rw [← hc, hs1.content, List.nil_append]
    have hq' := stream_countP cuts
    rw [heq, hq] at hq'
    have hlost := cuts_lost hcuts (fun t ht => (htail t ht).2) hq'.symm
    have hlen := stream_length cuts
    rw [heq, ← hcuts.length_eq] at hlen
    exact separated_of (by omega) (by omega)

end

/-- **A command** leaves its tokens if and only if each is ended by one separator, with at most one
more at the end, and they fit the ring with their NULs. -/
theorem send_iff {s : Ring} (h : s.Ready) {inBuf : List UInt8} {inBufLen : Int}
    (hi : IsI32 inBufLen) (hlen : inBufLen ≤ inBuf.length) :
    SendOk s inBuf inBufLen ↔ separated false (inBuf.take inBufLen.toNat) = true ∧
      (stream (tokens (inBuf.take inBufLen.toNat))).length < s.size := by
  obtain ⟨ps, hps, hiff⟩ := h.sendOk_iff hi hlen
  generalize inBuf.take inBufLen.toNat = cmd at hps hiff ⊢
  rw [hiff]
  constructor
  · rintro ⟨s', hput, hv, hc, hn⟩
    refine ⟨h.separated hps hput hv hc hn, ?_⟩
    have hused := hv.at.used_lt
    rwa [← hv.at.content_length, hc, (putAll_rBuf hput).2] at hused
  · rintro ⟨hsep, hfit⟩
    have htok : ps.map Piece.text = tokens cmd :=
      hps.trans (@params_separated [] (by simp) cmd hsep)
    obtain ⟨s', hput, hs'⟩ := h.holds.puts ps (by
      rwa [htok, List.length_nil, Nat.zero_add])
    refine ⟨s', hput, hs'.valid, ?_, ?_⟩
    · rw [hs'.content, htok, List.nil_append]
    · rw [← htok, List.length_map]

/-- The ring of a command line with a buffer of 64 bytes behind its struct. -/
def cliRing : Ring := ⟨⟨32, 96, 32, 32, 0, 1, (0, 0)⟩, fun _ => 0⟩

theorem cliRing_ready : cliRing.Ready := by
  constructor <;> decide

theorem send_ctrl_power :
    SendOk cliRing (ascii "ctrl power 1 ") 13 ↔
      separated false (ascii "ctrl power 1 ") = true ∧
        (stream (tokens (ascii "ctrl power 1 "))).length < 64 :=
  send_iff cliRing_ready (by decide) (by decide)

theorem not_sendOk {s : Ring} {inBuf held : List UInt8} {inBufLen : Int}
    (h : (adfCliSend s inBuf inBufLen).map (fun r => r.2.content) = some held)
    (hne : held ≠ stream (tokens (inBuf.take inBufLen.toNat))) : ¬ SendOk s inBuf inBufLen := by
  rintro ⟨s', hs, -, hc, -⟩
  rw [hs] at h
  exact hne ((Option.some.inj h).symm.trans hc)

/-- A leading or a repeated separator becomes part of a parameter, and a token that no separator
ends is not written. -/
theorem send_spaces :
    (adfCliSend cliRing (ascii " a ") 3).map (fun r => r.2.content) = some (ascii " a" ++ [0]) ∧
      ¬ SendOk cliRing (ascii " a ") 3 ∧ ¬ SendOk cliRing (ascii "a  b ") 5 ∧
      ¬ SendOk cliRing (ascii "a b") 3 := by
  have hlead : (adfCliSend cliRing (ascii " a ") 3).map (fun r => r.2.content) =
      some (ascii " a" ++ [0]) := by decide
  have htwice : (adfCliSend cliRing (ascii "a  b ") 5).map (fun r => r.2.content) =
      some (ascii "a" ++ 0 :: ascii " b" ++ [0]) := by decide
  have hlast : (adfCliSend cliRing (ascii "a b") 3).map (fun r => r.2.content) =
      some (ascii "a" ++ [0]) := by decide
  exact ⟨hlead, not_sendOk hlead (by decide), not_sendOk htwice (by decide),
    not_sendOk hlast (by decide)⟩

end Adf
