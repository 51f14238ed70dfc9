import FireTablet.Adf.Proof.RingbufFacts
import FireTablet.Lib.Fifo

/-!
# A ring that never drops is a bounded queue

With `dropunit` 0, `adfRingbuf_init`, `_reset`, `_write`, `_read` and `_flush` in any order are the
operations of a queue of bytes (`ring_fifo`), as long as no write that does not fit finds one to
three bytes free: `_adfRingbuf_checkDrop` then computes a negative length (`checkDrop_neg`) and the
copy runs out of the buffer (`ring_fifo_overrun`). A write that fits may leave so few bytes free,
since the four bytes the comment there keeps are only kept from writes that do not fit.
-/

namespace Adf

open CInt

/-! ## The ring as a system -/

/-- A call of the ring buffer's interface: the data of a write are its `len` bytes. -/
inductive RingOp
  | init (buf : Option Int) (size : Int)
  | reset
  | write (data : List UInt8)
  | read (len : Nat)
  | flush (len : Nat)

/-- What a call gives back. -/
inductive RingOut
  | status (rc : AdfStatus)
  | count (n : Int)
  | bytes (bs : List UInt8)

/-- One call; `none` is a copy outside its objects. -/
def ringStep (s : Ring) : RingOp → Option (RingOut × Ring)
  | .init buf size => let (rc, s) := adfRingbufInit s buf size 0; some (.status rc, s)
  | .reset => let (rc, s) := adfRingbufReset s; some (.status rc, s)
  | .write data => (adfRingbufWrite s (some data) data.length).map fun q => (.count q.1, q.2)
  | .read len => (adfRingbufRead s (some len) len).map fun bs => (.bytes bs, s)
  | .flush len => let (n, s) := adfRingbufFlush s len; some (.count n, s)

/-- A buffer of at least 8 bytes that an `int32_t` offset reaches, before or behind the struct. -/
structure BufferAt (buf size : Int) : Prop where
  size_ge : 8 ≤ size
  sizeI32 : IsI32 size
  mod4 : size % 4 = 0
  base : IsI32 buf
  limit : IsI32 (buf + size)
  beside : sizeofAdfRingbuf ≤ buf ∨ buf + size < 0

/-- The condition on a call: a write fits or finds four bytes free, and a buffer given to
`adfRingbuf_init` that is not refused for its size is a buffer. -/
def RingOp.Fits (s : Ring) : RingOp → Prop
  | .write data =>
    data = [] ∨ data.length < adfRingbufGetFreeSize s.rBuf ∨ 4 ≤ adfRingbufGetFreeSize s.rBuf
  | .init (some buf) size => size = 0 ∨ size % 4 ≠ 0 ∨ BufferAt buf size
  | _ => True

/-- The queue event that a call and its result are. -/
def RingOp.event : RingOp → RingOut → Option (Fifo.Ev UInt8)
  | .init .., .status .ok => some .clear
  | .init .., .status .notSupported => some .skip
  | .reset, .status .ok => some .clear
  | .write data, .count k => if 0 ≤ k then some (.put data k.toNat) else none
  | .read len, .bytes bs => some (.peek len bs)
  | .flush len, .count k => if 0 ≤ k then some (.flush len k.toNat) else none
  | _, _ => none

/-- What a call does to a ring: a queue event on the bytes it holds, the pointers in range, no byte
outside the buffer changed, and a ring that holds bytes not taken for an empty one. -/
structure RingStepOk (s : Ring) (op : RingOp) (out : RingOut) (s' : Ring) : Prop where
  fifo : ∃ e, op.event out = some e ∧ Fifo.Step s.content e s'.content
  rp : adfRingbufInRange s'.rBuf.rp s'.rBuf.base s'.rBuf.limit = true
  wp : adfRingbufInRange s'.rBuf.wp s'.rBuf.base s'.rBuf.limit = true
  frame : ∀ a, a < s.rBuf.base ∨ s.rBuf.limit ≤ a → s'.mem a = s.mem a
  empty : adfRingbufGetUsedSize s'.rBuf = 0 ↔ s'.content = []

@[simp] theorem event_write (data : List UInt8) (k : Nat) :
    (RingOp.write data).event (.count k) = some (.put data k) := by
  simp [RingOp.event]

@[simp] theorem event_flush (len k : Nat) :
    (RingOp.flush len).event (.count k) = some (.flush len k) := by
  simp [RingOp.event]

/-! ## One call -/

/-- A valid ring that never drops, with a buffer that `adfRingbuf_reset` accepts. -/
structure Ring.NoDrop (s : Ring) : Prop where
  valid : s.Valid
  dropunit : s.rBuf.dropunit = 0
  base_ne : s.rBuf.base ≠ 0
  limit_ne : s.rBuf.limit ≠ 0

theorem Ring.Valid.empty_iff {s : Ring} (h : s.Valid) :
    adfRingbufGetUsedSize s.rBuf = 0 ↔ s.content = [] := by
  rw [h.at.usedSize, ← List.length_eq_zero_iff, h.at.content_length]
  omega

/-- The pointers of a valid ring and what it holds, for `RingStepOk`. -/
theorem Ring.Valid.stepOk {s s' : Ring} {op : RingOp} {out : RingOut} {e : Fifo.Ev UInt8}
    (h : s'.Valid) (he : op.event out = some e) (hf : Fifo.Step s.content e s'.content)
    (hm : ∀ a, a < s.rBuf.base ∨ s.rBuf.limit ≤ a → s'.mem a = s.mem a) :
    RingStepOk s op out s' :=
  ⟨⟨e, he, hf⟩, h.rp, h.wp, hm, h.empty_iff⟩

/-- The ring after `adfRingbuf_reset`. -/
theorem reset_spec {s : Ring} (hlt : s.rBuf.base < s.rBuf.limit) (hb : IsI32 s.rBuf.base)
    (hl : IsI32 s.rBuf.limit) (hs : IsI32 (s.rBuf.limit - s.rBuf.base))
    (hd : s.rBuf.dropunit = 0) (hb0 : s.rBuf.base ≠ 0) (hl0 : s.rBuf.limit ≠ 0) :
    ∃ s', adfRingbufReset s = (.ok, s') ∧ s'.NoDrop ∧ s'.content = [] ∧ s'.mem = s.mem := by
  have hv : Ring.Valid ⟨{ s.rBuf with rp := s.rBuf.base, wp := s.rBuf.base, drop := 0 }, s.mem⟩ :=
    ⟨hb, hl, hlt, hs, inRange_iff.2 ⟨Int.le_refl _, hlt⟩, inRange_iff.2 ⟨Int.le_refl _, hlt⟩,
      show IsI32 0 by decide⟩
  refine ⟨_, if_neg (by simp [hb0, hl0]), ⟨hv, hd, hb0, hl0⟩, ?_, rfl⟩
  rw [← List.length_eq_zero_iff, hv.at.content_length]
  simp [Ring.rslot, Ring.wslot, Circ.dist_self]

/-- The ring after an `adfRingbuf_init` with a buffer. -/
theorem init_spec (s : Ring) {buf size : Int} (h : BufferAt buf size) :
    ∃ s', adfRingbufInit s (some buf) size 0 = (.ok, s') ∧ s'.NoDrop ∧ s'.content = [] ∧
      s'.mem = s.mem := by
  obtain ⟨h8, hs, h4, hb, hl, hbes⟩ := h
  unfold sizeofAdfRingbuf at hbes
  have e1 : i32 buf = buf := i32_eq hb
  have e2 : i32 (i32 buf + size) = buf + size := by rw [e1, i32_eq hl]
  unfold adfRingbufInit
  dsimp only
  rw [if_neg (by omega), e2, e1]
  refine reset_spec (s := ⟨_, s.mem⟩) ?_ hb hl ?_ rfl ?_ ?_
  · dsimp only; omega
  · dsimp only; rwa [show buf + size - buf = size by omega]
  · dsimp only; omega
  · dsimp only; omega

/-- The length `_adfRingbuf_checkDrop` allows a ring that never drops. -/
theorem checkDrop_noDrop {b : AdfRingbuf} {N r w : Nat} (h : RingAt b N r w)
    (hd : b.dropunit ≤ 0) (len : Int) :
    adfRingbufCheckDrop b len =
      (if len ≥ ((N - Circ.dist N r w : Nat) : Int)
        then ((N - Circ.dist N r w : Nat) : Int) - 4 else len, b) := by
  have hN := h.sizeI32
  unfold IsI32 at hN
  unfold adfRingbufCheckDrop
  have hf : adfRingbufCalcWrSize b.wp b.rp b.base b.limit = (N - Circ.dist N r w : Nat) :=
    h.freeSize
  have he : i32 (((N - Circ.dist N r w : Nat) : Int) - 4) = ((N - Circ.dist N r w : Nat) : Int) - 4 :=
    i32_eq (by unfold IsI32; omega)
  simp only [hf, gt_iff_lt, Int.not_lt.2 hd, if_false, he]
  split <;> rfl

/-- A write that does not fit a ring with one to three bytes free gets a negative length. -/
theorem checkDrop_neg {s : Ring} (h : s.NoDrop) {len : Int}
    (hlen : adfRingbufGetFreeSize s.rBuf ≤ len) (hf : adfRingbufGetFreeSize s.rBuf < 4) :
    (adfRingbufCheckDrop s.rBuf len).1 < 0 := by
  rw [h.valid.at.freeSize] at hlen hf
  rw [checkDrop_noDrop h.valid.at (Int.le_of_eq h.dropunit)]
  dsimp only
  rw [if_pos hlen]
  omega

/-- **`adfRingbuf_write`** appends the first `k` bytes of the data. -/
theorem write_spec {s : Ring} (h : s.NoDrop) {data : List UInt8}
    (hf : RingOp.Fits s (.write data)) :
    ∃ (k : Nat) (s' : Ring), adfRingbufWrite s (some data) data.length = some ((k : Int), s') ∧
      s'.NoDrop ∧ k ≤ data.length ∧ s'.content = s.content ++ data.take k ∧
      ∀ a, a < s.rBuf.base ∨ s.rBuf.limit ≤ a → s'.mem a = s.mem a := by
  have hat := h.valid.at
  have hu := hat.used_lt
  unfold RingOp.Fits at hf
  rw [hat.freeSize] at hf
  unfold adfRingbufWrite
  by_cases h0 : (data.length : Int) = 0
  · have : data = [] := List.length_eq_zero_iff.1 (by omega)
    subst this
    exact ⟨0, s, by simp, h, Nat.le_refl _, by simp, fun _ _ => rfl⟩
  -- the length that is written: all of the data, or what leaves four bytes free
  obtain ⟨k, hk, hkd, hkN⟩ : ∃ k : Nat,
      adfRingbufCheckDrop s.rBuf data.length = ((k : Int), s.rBuf) ∧ k ≤ data.length ∧
      Circ.dist s.size s.rslot s.wslot + k < s.size := by
    rw [checkDrop_noDrop hat (Int.le_of_eq h.dropunit)]
    split_ifs with hge
    · have h4 : 4 ≤ s.size - Circ.dist s.size s.rslot s.wslot := by
        rcases hf with rfl | hf | hf <;> [simp at h0; omega; omega]
      exact ⟨s.size - Circ.dist s.size s.rslot s.wslot - 4, by congr 1; omega, by omega, by omega⟩
    · exact ⟨data.length, rfl, Nat.le_refl _, by omega⟩
  obtain ⟨m, hm, hat', hc, hframe⟩ := hat.put hkd hkN
  dsimp only
  rw [if_neg h0, hk]
  dsimp only
  rw [show (⟨s.rBuf, s.mem⟩ : Ring) = s from rfl, hm]
  exact ⟨k, _, rfl, ⟨RingAt.valid (s := ⟨_, m⟩) hat' h.valid.drop, h.dropunit, h.base_ne,
    h.limit_ne⟩, hkd, hc, hframe⟩

/-- A write that does not meet the condition runs out of the buffer. -/
theorem write_overrun {s : Ring} (h : s.NoDrop) {data : List UInt8}
    (hf : ¬ RingOp.Fits s (.write data)) : ringStep s (.write data) = none := by
  simp only [RingOp.Fits, not_or, Int.not_lt, Int.not_le] at hf
  obtain ⟨h0, hlen, h4⟩ := hf
  have hneg := checkDrop_neg h hlen h4
  have hl : (data.length : Int) ≠ 0 := by
    simpa using h0
  have hend : 0 < i32 (s.rBuf.limit - s.rBuf.wp) := by
    have := h.valid.at.w_lt
    rw [h.valid.at.wp, h.valid.at.lenToEnd (Nat.le_of_lt this)]
    omega
  have hb : (adfRingbufCheckDrop s.rBuf data.length).2 = s.rBuf := by
    rw [checkDrop_noDrop h.valid.at (Int.le_of_eq h.dropunit)]
  simp only [ringStep, adfRingbufWrite, if_neg hl, adfRingbufWriteCopy, hb]
  rw [if_pos (by omega), Mem.memcpyTo_neg hneg]
  rfl

/-- **One call** that meets the condition is a queue event and keeps the invariant. -/
theorem ring_step {s : Ring} {op : RingOp} (h : s.NoDrop) (hf : op.Fits s) :
    ∃ out s', ringStep s op = some (out, s') ∧ s'.NoDrop ∧ RingStepOk s op out s' := by
  have hat := h.valid.at
  cases op with
  | init buf size =>
    have refused : adfRingbufInit s buf size 0 = (.notSupported, s) →
        ∃ out s', ringStep s (.init buf size) = some (out, s') ∧ s'.NoDrop ∧
          RingStepOk s (.init buf size) out s' := fun he =>
      ⟨.status .notSupported, s, by simp [ringStep, he], h,
        h.valid.stepOk rfl rfl fun _ _ => rfl⟩
    cases buf with
    | none => exact refused rfl
    | some buf =>
      rcases hf with h0 | h4 | hb
      · exact refused (by simp [adfRingbufInit, h0])
      · exact refused (by simp [adfRingbufInit, h4])
      · obtain ⟨s', he, hn, hc, hm⟩ := init_spec s hb
        exact ⟨.status .ok, s', by simp [ringStep, he], hn,
          hn.valid.stepOk rfl hc fun _ _ => by rw [hm]⟩
  | reset =>
    obtain ⟨s', he, hn, hc, hm⟩ := reset_spec h.valid.lt h.valid.base h.valid.limit h.valid.size
      h.dropunit h.base_ne h.limit_ne
    exact ⟨.status .ok, s', by simp [ringStep, he], hn,
      hn.valid.stepOk rfl hc fun _ _ => by rw [hm]⟩
  | write data =>
    obtain ⟨k, s', he, hn, hk, hc, hm⟩ := write_spec h hf
    exact ⟨.count k, s', by simp [ringStep, he], hn,
      hn.valid.stepOk (event_write data k) ⟨hk, hc⟩ hm⟩
  | read len =>
    refine ⟨.bytes (s.content.take len), s, ?_, h, h.valid.stepOk rfl ⟨rfl, rfl⟩ fun _ _ => rfl⟩
    have hread : adfRingbufRead s (some len) len = some (s.content.take len) :=
      hat.read (Nat.min_le_left _ _)
    simp [ringStep, hread]
  | flush len =>
    obtain ⟨s', he, hat', hc, hm, hb, hdr, hdu⟩ := hat.flush len
    have hv : s'.Valid := hat'.valid (hdr ▸ h.valid.drop)
    refine ⟨.count (min len s.content.length : Nat), s', by simp only [ringStep, he],
      ⟨hv, by rw [hdu]; exact h.dropunit, by rw [hb]; exact h.base_ne, ?_⟩,
      hv.stepOk (event_flush len _) ⟨rfl, ?_⟩ fun _ _ => by rw [hm]⟩
    · rw [hat'.limit, hb, ← hat.limit]; exact h.limit_ne
    · rw [hc]
      rcases Nat.le_total len s.content.length with hle | hle
      · rw [Nat.min_eq_left hle]
      · rw [Nat.min_eq_right hle, List.drop_of_length_le hle, List.drop_length]

/-! ## Runs -/

/-- **A ring that never drops is a queue of bytes**: from `adfRingbuf_init` on, calls that meet the
condition all return, each is a queue event (`RingStepOk`), and the ring holds exactly the bytes
written and not flushed since the last `adfRingbuf_init` or `adfRingbuf_reset`. -/
theorem ring_fifo (raw : Ring) {buf size : Int} (hb : BufferAt buf size) (ops : List RingOp)
    (hf : Sys.Along ringStep (fun s op => op.Fits s) (adfRingbufInit raw (some buf) size 0).2 ops) :
    ∃ es s, Sys.run ringStep (adfRingbufInit raw (some buf) size 0).2 ops = some (es, s) ∧
      Sys.Trace RingStepOk (adfRingbufInit raw (some buf) size 0).2 es s ∧
      Fifo.Balanced ((es.filterMap fun e => e.1.event e.2).foldl Fifo.ledger ([], 0))
        s.content := by
  obtain ⟨s0, he, hn, hc, -⟩ := init_spec raw hb
  rw [he] at hf ⊢
  obtain ⟨es, s, hrun, -, ht⟩ := Sys.run_sim id (R := RingStepOk)
    (fun s op hi hp => ring_step hi hp) ops s0 hn hf
  refine ⟨es, s, hrun, ht, Fifo.trace_ledger Ring.content (fun _ _ _ _ h => h.fifo) ht ?_⟩
  exact ⟨Nat.zero_le _, hc⟩

/-- A ring of 8 bytes right behind its struct, just initialised. -/
def ring8 : Ring := (adfRingbufInit ⟨⟨0, 0, 0, 0, 0, 0, (0, 0)⟩, fun _ => 0⟩ (some 32) 8 0).2

theorem bufferAt_32_8 : BufferAt 32 8 := by constructor <;> decide

theorem ring_fifo_ring8 :
    ∃ es s, Sys.run ringStep ring8 [.write [1, 2, 3], .read 2, .flush 1] = some (es, s) ∧
      Sys.Trace RingStepOk ring8 es s ∧
      Fifo.Balanced ((es.filterMap fun e => e.1.event e.2).foldl Fifo.ledger ([], 0)) s.content :=
  ring_fifo _ bufferAt_32_8 [.write [1, 2, 3], .read 2, .flush 1]
    ⟨.inr (.inl (by decide)), fun _ _ _ => ⟨trivial, fun _ _ _ => ⟨trivial, fun _ _ _ => trivial⟩⟩⟩

/-- Seven bytes fit an empty ring of 8 and leave one free: the next byte gets the length -3. -/
theorem ring_fifo_overrun :
    (∃ s, ringStep ring8 (.write [1, 2, 3, 4, 5, 6, 7]) = some (.count 7, s) ∧
      adfRingbufGetFreeSize s.rBuf = 1 ∧ (adfRingbufCheckDrop s.rBuf 1).1 = -3 ∧
      ringStep s (.write [8]) = none) ∧
    ¬ ∀ ops : List RingOp, ∃ es s, Sys.run ringStep ring8 ops = some (es, s) ∧
      Sys.Trace RingStepOk ring8 es s := by
  refine ⟨⟨_, rfl, by decide, by decide, rfl⟩, fun hall => ?_⟩
  obtain ⟨es, s, hrun, -⟩ := hall [.write [1, 2, 3, 4, 5, 6, 7], .write [8]]
  have hnone : Sys.run ringStep ring8 [.write [1, 2, 3, 4, 5, 6, 7], .write [8]] = none := rfl
  rw [hnone] at hrun
  cases hrun

/-! ## Which runs are defined -/

/-- **Which calls stay in the buffer.** Without another `adfRingbuf_init`, all copies of a sequence
of calls are inside their objects exactly when every write fits or finds four bytes free. -/
theorem ring_defined_iff {s : Ring} (h : s.NoDrop) {ops : List RingOp}
    (hinit : ∀ buf size, .init buf size ∉ ops) :
    (Sys.run ringStep s ops).isSome ↔ Sys.Along ringStep (fun s op => op.Fits s) s ops := by
  induction ops generalizing s with
  | nil => exact iff_of_true rfl trivial
  | cons op ops ih =>
    have hops : ∀ buf size, .init buf size ∉ ops := fun buf size hm =>
      hinit buf size (List.mem_cons_of_mem _ hm)
    by_cases hf : op.Fits s
    · obtain ⟨out, s', hstep, h', -⟩ := ring_step h hf
      rw [Sys.run_cons_some ops hstep, Option.isSome_map, ih h' hops]
      exact ⟨fun hr => Sys.along_cons hf hstep hr, fun hr => hr.2 out s' hstep⟩
    · -- only a write has a condition
      have hstep : ringStep s op = none := by
        cases op with
        | init buf size => exact absurd List.mem_cons_self (hinit buf size)
        | write data => exact write_overrun h hf
        | reset | read | flush => exact absurd trivial hf
      rw [Sys.run_cons_none ops hstep]
      exact iff_of_false Bool.false_ne_true fun hr => hf hr.1

theorem ring8_noDrop : ring8.NoDrop := by
  obtain ⟨s, he, hn, -⟩ := init_spec ⟨⟨0, 0, 0, 0, 0, 0, (0, 0)⟩, fun _ => 0⟩ bufferAt_32_8
  rw [ring8, he]
  exact hn

theorem ring_defined_ring8 :
    (Sys.run ringStep ring8 [.write [1, 2, 3], .flush 1, .write [4]]).isSome ↔
      Sys.Along ringStep (fun s op => op.Fits s) ring8 [.write [1, 2, 3], .flush 1, .write [4]] :=
  ring_defined_iff ring8_noDrop (by simp)

end Adf
