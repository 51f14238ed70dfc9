import FireTablet.Btif.Dma
import FireTablet.Btif.Proof.BbsFacts
import FireTablet.Lib.Circ
import FireTablet.Lib.Run

/-!
# The virtual FIFO of the Rx channel

`Holds f W R q` counts positions from the last reset and never wraps them: the write pointer of the
FIFO is at `W`, the read pointer at `R`, and the memory between them holds `q`. What the Rx handler
hands to the callback is what the engine received, in order and once, however their steps are
interleaved (`rxDma_step`), and when the engine leaves the handler alone it returns with all of it
delivered (`rxDma_drain`). The wrap bit that the handler remembers from the last write pointer is
that of the read pointer, as it has read up to there.
-/

namespace Btif

open WrapPtr

/-! ## The pointers and the memory -/

section
variable {α : Type*} {f : Vfifo α} {W R : Nat} {q : List α}

/-- The FIFO holds `q` between the positions `R` and `W`. -/
structure Vfifo.Holds (f : Vfifo α) (W R : Nat) (q : List α) : Prop where
  pos : 0 < f.vfifoSize
  small : f.vfifoSize ≤ 2 ^ 16
  wpt : f.vffWpt = enc f.vfifoSize 16 W
  rpt : f.vffRpt = enc f.vfifoSize 16 R
  le : R ≤ W
  room : W ≤ R + f.vfifoSize
  mem : Circ.read f.mem f.vfifoSize (R % f.vfifoSize) (W - R) = q

theorem and_ptMask (h0 : 0 < f.vfifoSize) (hn : f.vfifoSize ≤ 2 ^ 16) (p : Nat) :
    enc f.vfifoSize 16 p &&& dmaPtMask = p % f.vfifoSize := enc_and_mask h0 hn p

theorem and_ptWrap (h0 : 0 < f.vfifoSize) (hn : f.vfifoSize ≤ 2 ^ 16) (p : Nat) :
    enc f.vfifoSize 16 p &&& dmaPtWrap = bit f.vfifoSize 16 p := enc_and_wrap h0 hn p

theorem vffNext_enc (h0 : 0 < f.vfifoSize) (hn : f.vfifoSize ≤ 2 ^ 16) (p : Nat) :
    vffNext f.vfifoSize (enc f.vfifoSize 16 p) = enc f.vfifoSize 16 (p + 1) := by
  rw [vffNext, and_ptMask h0 hn, and_ptWrap h0 hn]
  exact enc_add h0 hn h0

theorem Vfifo.Holds.validSize (h : f.Holds W R q) : f.validSize = W - R := by
  rw [Vfifo.validSize, h.wpt, h.rpt, and_ptMask h.pos h.small, and_ptMask h.pos h.small,
    and_ptWrap h.pos h.small, and_ptWrap h.pos h.small]
  exact dist_eq h.pos h.le h.room

theorem Vfifo.Holds.length (h : f.Holds W R q) : q.length = W - R := by
  rw [← h.mem, Circ.read_length]

/-- The engine appends a byte. -/
theorem Vfifo.Holds.append (h : f.Holds W R q) (b : α) (hlt : W - R < f.vfifoSize) :
    (f.append b).Holds (W + 1) R (q ++ [b]) := by
  have hR := h.le
  have hslot : Circ.wrap f.vfifoSize (R % f.vfifoSize + (W - R)) = W % f.vfifoSize := by
    rw [wrap_slot h.pos (by omega), show R + (W - R) = W by omega]
  refine ⟨h.pos, h.small, ?_, h.rpt, by omega, ?_, ?_⟩
  · rw [Vfifo.append, h.wpt]
    exact vffNext_enc h.pos h.small W
  · have := h.room
    show W + 1 ≤ R + f.vfifoSize
    omega
  · have hW : W % f.vfifoSize < f.vfifoSize := Nat.mod_lt _ h.pos
    have hlen : W + 1 - R = W - R + [b].length := by
      simp only [List.length_singleton]
      omega
    rw [hlen, Vfifo.append, h.wpt, and_ptMask h.pos h.small]
    simp only
    rw [Circ.copy_eq_write hW (by simp; omega),
      Circ.read_write_append (Nat.mod_lt _ h.pos) hslot.symm (by simp; omega), h.mem]

/-- The read pointer goes on over bytes that are held. -/
theorem Vfifo.Holds.consume (h : f.Holds W R q) {g : Vfifo α} {d : Nat} (hd : d ≤ W - R)
    (hs : g.vfifoSize = f.vfifoSize) (hm : g.mem = f.mem) (hw : g.vffWpt = f.vffWpt)
    (hr : g.vffRpt = enc f.vfifoSize 16 (R + d)) : g.Holds W (R + d) (q.drop d) := by
  have hroom := h.room
  have hle := h.le
  refine ⟨hs ▸ h.pos, hs ▸ h.small, by rw [hw, hs, h.wpt], by rw [hr, hs], by omega, by omega, ?_⟩
  rw [hm, hs, ← h.mem, Circ.read_drop (Nat.mod_lt _ h.pos) hd (by omega),
    wrap_slot h.pos (by omega), Nat.sub_sub]

/-- The engine fetches the first byte. -/
theorem Vfifo.Holds.fetched (h : f.Holds W R q) (hlt : 0 < f.validSize) :
    q = f.mem (f.vffRpt &&& dmaPtMask) :: q.drop 1 ∧ f.fetched.Holds W (R + 1) (q.drop 1) := by
  rw [h.validSize] at hlt
  have hlt' : R % f.vfifoSize < f.vfifoSize := Nat.mod_lt _ h.pos
  have hone : q.take 1 = [f.mem (f.vffRpt &&& dmaPtMask)] := by
    rw [← h.mem, Circ.read_take, Nat.min_eq_left hlt, h.rpt, and_ptMask h.pos h.small]
    simp [Circ.read, Circ.wrap_of_lt hlt']
  refine ⟨?_, h.consume hlt rfl rfl rfl ?_⟩
  · conv_lhs => rw [← List.take_append_drop 1 q, hone]
    rfl
  · rw [Vfifo.fetched, h.rpt]
    exact vffNext_enc h.pos h.small R

/-- A FIFO that is reset is empty. -/
theorem reset_holds (h0 : 0 < f.vfifoSize) (hn : f.vfifoSize ≤ 2 ^ 16) :
    f.reset.hwInit.Holds 0 0 [] :=
  ⟨h0, hn, (enc_zero _ _).symm, (enc_zero _ _).symm, Nat.le_refl _, Nat.zero_le _, rfl⟩

end

section
variable {α : Type*}

/-! ## Rx histories -/

/-- The byte that the engine took. -/
def rxTaken : RxDmaIn α × RxDmaOut α → List α
  | (.receive b, .taken) => [b]
  | _ => []

/-- The bytes that the callback got. -/
def rxCalled : RxDmaIn α × RxDmaOut α → List α
  | (_, .called data) => data
  | _ => []

/-- All bytes received, and all bytes delivered. -/
def rxReceived (es : List (RxDmaIn α × RxDmaOut α)) : List α := es.flatMap rxTaken
def rxDelivered (es : List (RxDmaIn α × RxDmaOut α)) : List α := es.flatMap rxCalled

/-- What an event says about the bytes received and delivered before it: the read pointer that the
handler writes is that of the next byte, and when the handler returns there is none. -/
def RxLast (N : Nat) (rcv dlv : List α) : RxDmaOut α → Prop
  | .wrote rpt => rpt = enc N 16 dlv.length
  | .returned _ => dlv = rcv
  | _ => True

@[simp] theorem rxReceived_snoc (es : List (RxDmaIn α × RxDmaOut α)) (e : RxDmaIn α × RxDmaOut α) :
    rxReceived (es ++ [e]) = rxReceived es ++ rxTaken e := by
  simp [rxReceived]

@[simp] theorem rxDelivered_snoc (es : List (RxDmaIn α × RxDmaOut α))
    (e : RxDmaIn α × RxDmaOut α) : rxDelivered (es ++ [e]) = rxDelivered es ++ rxCalled e := by
  simp [rxDelivered]

/-! ## The Rx handler -/

/-- What the handler knows where it is: it works on the bytes from `R` up to a write pointer that
it read, of which there is one at least, and has delivered those before. -/
def RxPcOk (rcv dlv : List α) (N R : Nat) : RxIrqPc → Prop
  | .idle | .stored => dlv = rcv.take R
  | .gotValid validLen => dlv = rcv.take R ∧ validLen ≤ rcv.length - R
  | .gotRpt validLen rpt => dlv = rcv.take R ∧ validLen ≤ rcv.length - R ∧ rpt = enc N 16 R
  | .body rpt wpt => dlv = rcv.take R ∧ rpt = enc N 16 R ∧
      ∃ w, wpt = enc N 16 w ∧ R < w ∧ w ≤ rcv.length
  | .second rpt wpt realLen tailLen => dlv = rcv.take (R + tailLen) ∧ rpt = enc N 16 R ∧
      ∃ w, wpt = enc N 16 w ∧ R < w ∧ w ≤ rcv.length ∧ realLen = w - R ∧
        tailLen = N - R % N ∧ tailLen < realLen
  | .update rpt wpt realLen => rpt = enc N 16 R ∧
      ∃ w, dlv = rcv.take w ∧ wpt = enc N 16 w ∧ R < w ∧ w ≤ rcv.length ∧ realLen = w - R

/-- The steps that the handler has left in a turn of its loop. -/
def RxIrqPc.stepsLeft : RxIrqPc → Nat
  | .idle => 7
  | .stored => 6
  | .gotValid _ => 5
  | .gotRpt .. => 4
  | .body .. => 3
  | .second .. => 2
  | .update .. => 1

/-- What falls while the handler is left alone: a turn of its loop takes a byte at least. -/
def rxMeasure (rcv : List α) (R : Nat) (pc : RxIrqPc) : Nat := 8 * (rcv.length - R) + pc.stepsLeft

/-- After a step of the handler it has returned, or its measure has fallen. -/
def RxCloser (rcv : List α) (R R' : Nat) (pc : RxIrqPc) (o : RxDmaOut α) (pc' : RxIrqPc) : Prop :=
  (∃ iRet, o = .returned iRet) ∨
    (∀ iRet, o ≠ .returned iRet) ∧ rxMeasure rcv R' pc' < rxMeasure rcv R pc

/-- A step within a turn of the loop. -/
theorem RxCloser.inTurn {rcv : List α} {R : Nat} {pc pc' : RxIrqPc} {o : RxDmaOut α}
    (ho : ∀ iRet, o ≠ .returned iRet) (h : pc'.stepsLeft < pc.stepsLeft) :
    RxCloser rcv R R pc o pc' :=
  .inr ⟨ho, Nat.add_lt_add_left h _⟩

/-- The Rx channel after `rcv` is received and `dlv` delivered; the read pointer is at `R`. -/
structure RxInv (N : Nat) (rcv dlv : List α) (R : Nat) (s : DmaRx α) : Prop where
  size : s.vfifo.vfifoSize = N
  holds : s.vfifo.Holds rcv.length R (rcv.drop R)
  last : s.vfifo.lastWptWrap = bit N 16 R
  cb : s.rxCb = true
  pc : RxPcOk rcv dlv N R s.pc

variable {N R : Nat} {rcv dlv : List α} {s : DmaRx α}

theorem RxPcOk.receive {pc : RxIrqPc} (b : α) (hR : R ≤ rcv.length)
    (h : RxPcOk rcv dlv N R pc) : RxPcOk (rcv ++ [b]) dlv N R pc := by
  have htake : ∀ n, n ≤ rcv.length → (rcv ++ [b]).take n = rcv.take n := fun n hn =>
    List.take_append_of_le_length hn
  have hlen : (rcv ++ [b]).length = rcv.length + 1 := by simp
  cases pc with
  | idle => exact h.trans (htake R hR).symm
  | stored => exact h.trans (htake R hR).symm
  | gotValid v => exact ⟨h.1.trans (htake R hR).symm, by have := h.2; omega⟩
  | gotRpt v rpt => exact ⟨h.1.trans (htake R hR).symm, by have := h.2.1; omega, h.2.2⟩
  | body rpt wpt =>
    obtain ⟨hd, hr, w, hw, hle, hwl⟩ := h
    exact ⟨hd.trans (htake R hR).symm, hr, w, hw, hle, by omega⟩
  | second rpt wpt realLen tailLen =>
    obtain ⟨hd, hr, w, hw, hle, hwl, hreal, htail, hlt⟩ := h
    exact ⟨hd.trans (htake _ (by omega)).symm, hr, w, hw, hle, by omega, hreal, htail, hlt⟩
  | update rpt wpt realLen =>
    obtain ⟨hr, w, hd, hw, hle, hwl, hreal⟩ := h
    exact ⟨hr, w, hd.trans (htake w hwl).symm, hw, hle, by omega, hreal⟩

theorem RxPcOk.delivered {pc : RxIrqPc} (h : RxPcOk rcv dlv N R pc) : ∃ k, dlv = rcv.take k := by
  cases pc with
  | idle => exact ⟨R, h⟩
  | stored => exact ⟨R, h⟩
  | gotValid v => exact ⟨R, h.1⟩
  | gotRpt v rpt => exact ⟨R, h.1⟩
  | body rpt wpt => exact ⟨R, h.1⟩
  | second rpt wpt realLen tailLen => exact ⟨R + tailLen, h.1⟩
  | update rpt wpt realLen =>
    obtain ⟨-, w, hd, -⟩ := h
    exact ⟨w, hd⟩

/-- The engine receives a byte, or has no room. -/
theorem rxDma_receive (h : RxInv N rcv dlv R s) (b : α) : ∃ o s',
    dmaRxStep s (.receive b) = some (o, s') ∧
      RxInv N (rcv ++ rxTaken (.receive b, o)) dlv R s' ∧ rxCalled (.receive b, o) = [] ∧
      RxLast N rcv dlv o := by
  by_cases hroom : s.vfifo.validSize < s.vfifo.vfifoSize
  · refine ⟨.taken, { s with vfifo := s.vfifo.append b }, by simp [dmaRxStep, hroom], ?_, rfl,
      trivial⟩
    have hR := h.holds.le
    have happ := h.holds.append b (by rw [← h.holds.validSize]; exact hroom)
    rw [← List.drop_append_of_le_length hR] at happ
    exact ⟨h.size, by simpa [rxTaken] using happ, h.last, h.cb, h.pc.receive b hR⟩
  · refine ⟨.full, s, by simp [dmaRxStep, hroom], ?_, rfl, trivial⟩
    simpa [rxTaken] using h

/-- The bytes from the read pointer on, up to the end of the FIFO. -/
theorem RxInv.slice (h : RxInv N rcv dlv R s) {k : Nat} (hk : k ≤ rcv.length - R)
    (hend : R % N + k ≤ N) : Circ.slice s.vfifo.mem (R % N) k = (rcv.drop R).take k := by
  rw [Circ.slice_eq_read hend, ← h.holds.mem, Circ.read_take, h.size, Nat.min_eq_left hk]

/-- The bytes that are behind the end of the FIFO. -/
theorem RxInv.slice_start (h : RxInv N rcv dlv R s) {k : Nat}
    (hk : N - R % N + k ≤ rcv.length - R) :
    Circ.slice s.vfifo.mem 0 k = (rcv.drop (R + (N - R % N))).take k := by
  have h0 : 0 < N := h.size ▸ h.holds.pos
  have hlt : R % N < N := Nat.mod_lt _ h0
  have hroom : rcv.length ≤ R + N := h.size ▸ h.holds.room
  have hwrap : Circ.wrap N (R % N + (N - R % N)) = 0 := by
    rw [Circ.wrap_of_ge (by omega)]
    omega
  have hmem : Circ.read s.vfifo.mem N (R % N) (rcv.length - R) = rcv.drop R := h.size ▸ h.holds.mem
  rw [Circ.slice_eq_read (N := N) (by omega), ← List.drop_drop, ← hmem,
    Circ.read_drop hlt (by omega) (by omega), hwrap, Circ.read_take, Nat.min_eq_left (by omega)]

/-- The length that the handler computes from the pointers and the bit it remembers. -/
theorem realLen_eq (h : RxInv N rcv dlv R s) {w : Nat} (hle : R ≤ w) (hw : w ≤ rcv.length) :
    (if enc N 16 w &&& dmaPtWrap ≠ s.vfifo.lastWptWrap then
      subU32 ((enc N 16 w &&& dmaPtMask) + N) (R % N)
    else subU32 (enc N 16 w &&& dmaPtMask) (R % N)) = w - R := by
  have hsz := h.size
  subst hsz
  have h0 := h.holds.pos
  have hn := h.holds.small
  have hroom := h.holds.room
  have hlt : R % s.vfifo.vfifoSize < s.vfifo.vfifoSize := Nat.mod_lt _ h0
  have hlt' : w % s.vfifo.vfifoSize < s.vfifo.vfifoSize := Nat.mod_lt _ h0
  rw [and_ptMask h0 hn, and_ptWrap h0 hn, h.last,
    subU32_eq (a := _ + _) (by omega) (by omega), ← dist_eq (k := 16) h0 hle (by omega)]
  split_ifs with hb
  · rfl
  · refine subU32_eq ?_ (by omega)
    have hd := dist_eq (k := 16) h0 hle (by omega)
    rw [if_neg hb] at hd
    by_contra hgt
    have hz : w = R := by omega
    rw [hz] at hgt
    omega

/-- In the loop: the first callback. -/
theorem rxDma_body (h : RxInv N rcv dlv R s) {rpt wpt : Nat} (hpc : s.pc = .body rpt wpt) : ∃ o s',
    halRxDmaIrqHandler s = some (o, s') ∧ RxInv N rcv (dlv ++ rxCalled (.irq, o)) R s' ∧
      RxLast N rcv dlv o ∧ RxCloser rcv R R s.pc o s'.pc := by
  obtain ⟨hd, rfl, w, rfl, hlt', hwl⟩ := hpc ▸ h.pc
  have hle : R ≤ w := Nat.le_of_lt hlt'
  have h0 : 0 < N := h.size ▸ h.holds.pos
  have hn : N ≤ 2 ^ 16 := h.size ▸ h.holds.small
  have hlt : R % N < N := Nat.mod_lt _ h0
  have hmask : enc N 16 R &&& dmaPtMask = R % N := enc_and_mask h0 hn R
  have hreal := realLen_eq h hle hwl
  have htail : subU32 N (R % N) = N - R % N := subU32_eq (by omega) (by omega)
  simp only [halRxDmaIrqHandler, hpc, hmask, h.size, hreal, htail, h.cb, if_true, dmaRxCb]
  by_cases hend : N - R % N ≥ w - R
  · rw [if_pos hend, if_pos (by omega : R % N + (w - R) ≤ N), h.slice (by omega) (by omega)]
    refine ⟨_, _, rfl, ⟨h.size, h.holds, h.last, rfl, rfl, w, ?_, rfl, hlt', hwl, rfl⟩, trivial,
      .inTurn (by simp) (by simp [RxIrqPc.stepsLeft])⟩
    rw [hd, rxCalled, ← List.take_add, show R + (w - R) = w by omega]
  · rw [if_neg hend, if_pos (by omega : R % N + (N - R % N) ≤ N), h.slice (by omega) (by omega)]
    refine ⟨_, _, rfl, ⟨h.size, h.holds, h.last, rfl, ?_, rfl, w, rfl, hlt', hwl, rfl, rfl,
      by omega⟩, trivial, .inTurn (by simp) (by simp [RxIrqPc.stepsLeft])⟩
    rw [hd, rxCalled, ← List.take_add]

/-- The read pointer that the handler writes. -/
theorem rptNext_eq (h0 : 0 < N) (hn : N ≤ 2 ^ 16) {w : Nat} (hle : R ≤ w) (hw : w ≤ R + N) :
    ((if R % N + (w - R) ≥ N then (R % N + (w - R)) % N else R % N + (w - R)) |||
      if R % N + (w - R) ≥ N then bit N 16 R ^^^ dmaPtWrap else bit N 16 R) = enc N 16 w := by
  have hlt : R % N < N := Nat.mod_lt _ h0
  have hadd := enc_add (r := R) h0 hn (by omega : w - R ≤ N)
  rw [show R + (w - R) = w by omega] at hadd
  rw [← hadd]
  split_ifs with hpast
  · rw [Nat.mod_eq_sub_mod hpast, Nat.mod_eq_of_lt (by omega)]
    rfl
  · rfl

/-- Behind the callbacks: the read pointer is written. -/
theorem rxDma_update (h : RxInv N rcv dlv R s) {rpt wpt realLen : Nat}
    (hpc : s.pc = .update rpt wpt realLen) : ∃ o s' R',
    halRxDmaIrqHandler s = some (o, s') ∧ RxInv N rcv (dlv ++ rxCalled (.irq, o)) R' s' ∧
      RxLast N rcv dlv o ∧ RxCloser rcv R R' s.pc o s'.pc := by
  obtain ⟨rfl, w, hd, rfl, hlt', hwl, rfl⟩ := hpc ▸ h.pc
  have hle : R ≤ w := Nat.le_of_lt hlt'
  have h0 : 0 < N := h.size ▸ h.holds.pos
  have hn : N ≤ 2 ^ 16 := h.size ▸ h.holds.small
  have hroom : rcv.length ≤ R + N := h.size ▸ h.holds.room
  have hmask : enc N 16 R &&& dmaPtMask = R % N := enc_and_mask h0 hn R
  have hwrap : enc N 16 R &&& dmaPtWrap = bit N 16 R := enc_and_wrap h0 hn R
  simp only [halRxDmaIrqHandler, hpc, hmask, hwrap, h.size, rptNext_eq h0 hn hle (by omega)]
  refine ⟨_, _, w, rfl, ⟨rfl, ?_, enc_and_wrap h0 hn w, h.cb, ?_⟩, ?_, .inr ⟨by simp, ?_⟩⟩
  · have hw : R + (w - R) = w := by omega
    have hc := h.holds.consume (d := w - R)
      (g := { s.vfifo with vfifoSize := N, vffRpt := enc N 16 w })
      (by omega) h.size.symm rfl rfl (by rw [h.size, hw])
    rw [List.drop_drop, hw] at hc
    exact ⟨hc.pos, hc.small, hc.wpt, hc.rpt, hc.le, hc.room, hc.mem⟩
  · exact (List.append_nil dlv).trans hd
  · show enc N 16 w = enc N 16 dlv.length
    rw [hd, List.length_take, Nat.min_eq_left hwl]
  · simp only [rxMeasure, RxIrqPc.stepsLeft]
    omega

/-- **A step of the Rx handler.** -/
theorem rxDma_irq (h : RxInv N rcv dlv R s) : ∃ o s' R',
    halRxDmaIrqHandler s = some (o, s') ∧ RxInv N rcv (dlv ++ rxCalled (.irq, o)) R' s' ∧
      RxLast N rcv dlv o ∧ RxCloser rcv R R' s.pc o s'.pc := by
  have h0 : 0 < N := h.size ▸ h.holds.pos
  have hn : N ≤ 2 ^ 16 := h.size ▸ h.holds.small
  have hlt : R % N < N := Nat.mod_lt _ h0
  have hvalid : s.vfifo.validSize ≤ rcv.length - R := h.holds.validSize.le
  have hpcOk := h.pc
  cases hpc : s.pc with
  | idle =>
    rw [hpc] at hpcOk
    simp only [halRxDmaIrqHandler, hpc]
    exact ⟨_, _, R, rfl, ⟨h.size, h.holds, h.last, h.cb, (List.append_nil dlv).trans hpcOk, hvalid⟩,
      trivial, .inTurn (by simp) (by simp [RxIrqPc.stepsLeft])⟩
  | stored =>
    rw [hpc] at hpcOk
    simp only [halRxDmaIrqHandler, hpc]
    exact ⟨_, _, R, rfl, ⟨h.size, h.holds, h.last, h.cb, (List.append_nil dlv).trans hpcOk, hvalid⟩,
      trivial, .inTurn (by simp) (by simp [RxIrqPc.stepsLeft])⟩
  | gotValid v =>
    obtain ⟨hd, hv⟩ := hpc ▸ hpcOk
    simp only [halRxDmaIrqHandler, hpc]
    exact ⟨_, _, R, rfl, ⟨h.size, h.holds, h.last, h.cb, (List.append_nil dlv).trans hd, hv,
      h.size ▸ h.holds.rpt⟩, trivial, .inTurn (by simp) (by simp [RxIrqPc.stepsLeft])⟩
  | gotRpt v rpt =>
    obtain ⟨hd, hv, rfl⟩ := hpc ▸ hpcOk
    have hwpt : s.vfifo.vffWpt = enc N 16 rcv.length := h.size ▸ h.holds.wpt
    have hle := h.holds.le
    simp only [halRxDmaIrqHandler, hpc]
    split_ifs with hmore
    · have hR : R < rcv.length := by
        rcases hmore with hpos | hne
        · omega
        · refine Nat.lt_of_le_of_ne hle fun heq => hne ?_
          rw [hwpt, heq]
      exact ⟨_, _, R, rfl, ⟨h.size, h.holds, h.last, h.cb, (List.append_nil dlv).trans hd, rfl, _,
        hwpt, hR, Nat.le_refl _⟩, trivial, .inTurn (by simp) (by simp [RxIrqPc.stepsLeft])⟩
    · refine ⟨_, _, R, rfl, ⟨h.size, h.holds, h.last, h.cb, (List.append_nil dlv).trans hd⟩, ?_,
        .inl ⟨_, rfl⟩⟩
      have heq : enc N 16 R = enc N 16 rcv.length := by
        rw [← hwpt]
        exact not_not.1 fun hne => hmore (.inr hne)
      have hR : R = rcv.length := enc_inj h0 hn hle (h.size ▸ h.holds.room) heq
      show dlv = rcv
      rw [hd, hR, List.take_length]
  | body rpt wpt =>
    obtain ⟨o, s', hs, hi, hl, hc⟩ := rxDma_body h hpc
    exact ⟨o, s', R, hs, hi, hl, hpc ▸ hc⟩
  | second rpt wpt realLen tailLen =>
    obtain ⟨hd, rfl, w, rfl, hlt', hwl, rfl, rfl, hgt⟩ := hpc ▸ hpcOk
    have hroom : rcv.length ≤ R + N := h.size ▸ h.holds.room
    have hsub : subU32 (w - R) (N - R % N) = w - R - (N - R % N) :=
      subU32_eq (by omega) (by omega)
    simp only [halRxDmaIrqHandler, hpc, hsub, dmaRxCb, h.size]
    rw [if_pos (by omega), h.slice_start (by omega)]
    refine ⟨_, _, R, rfl, ⟨h.size, h.holds, h.last, h.cb, rfl, w, ?_, rfl, hlt', hwl, rfl⟩, trivial,
      .inTurn (by simp) (by simp [RxIrqPc.stepsLeft])⟩
    rw [hd, rxCalled, ← List.take_add, show R + (N - R % N) + (w - R - (N - R % N)) = w by omega]
  | update rpt wpt realLen => exact hpc ▸ rxDma_update h hpc

/-- **The Rx handler alone** returns, and has then delivered all that was received. -/
theorem rxDma_drain (h : RxInv N rcv dlv R s) : ∃ n es iRet s',
    Sys.run dmaRxStep s (List.replicate (n + 1) .irq) =
      some (es ++ [(.irq, .returned iRet)], s') ∧
    (∀ e ∈ es, ∀ r, e.2 ≠ .returned r) ∧ dlv ++ rxDelivered es = rcv := by
  -- on the measure, which every step of the handler makes less until it returns
  induction hm : rxMeasure rcv R s.pc using Nat.strong_induction_on generalizing R s dlv with
  | _ k ih =>
    obtain ⟨o, s1, R1, hs, hi, hl, hcloser⟩ := rxDma_irq h
    have hstep : dmaRxStep s .irq = some (o, s1) := hs
    obtain ⟨iRet, rfl⟩ | ⟨ho, hlt⟩ := hcloser
    · have hdone : dlv = rcv := hl
      refine ⟨0, [], iRet, s1, ?_, fun e he => absurd he List.not_mem_nil, ?_⟩
      · rw [List.replicate_one, Sys.run_cons_some _ hstep]
        rfl
      · rw [hdone]
        exact List.append_nil rcv
    · obtain ⟨n, es, iRet, s', hrun, hquiet, hdel⟩ := ih _ (hm ▸ hlt) hi rfl
      refine ⟨n + 1, (.irq, o) :: es, iRet, s', ?_, ?_, ?_⟩
      · rw [List.replicate_succ, Sys.run_cons_some _ hstep, hrun]
        rfl
      · intro e he
        rcases List.mem_cons.1 he with rfl | he
        · exact ho
        · exact hquiet e he
      · rw [← hdel, List.append_assoc]
        rfl

/-- What the histories of the Rx channel keep true. -/
def RxHist (N : Nat) (es : List (RxDmaIn α × RxDmaOut α)) (s : DmaRx α) : Prop :=
  (∃ R, RxInv N (rxReceived es) (rxDelivered es) R s) ∧
    ∀ es' e, es = es' ++ [e] → RxLast N (rxReceived es') (rxDelivered es') e.2

theorem rxDma_step (es : List (RxDmaIn α × RxDmaOut α)) (s : DmaRx α) (i : RxDmaIn α)
    (h : RxHist N es s) : ∃ o s', dmaRxStep s i = some (o, s') ∧ RxHist N (es ++ [(i, o)]) s' := by
  obtain ⟨⟨R, hi⟩, -⟩ := h
  have hlast : ∀ {o}, RxLast N (rxReceived es) (rxDelivered es) o → ∀ es' e,
      es ++ [(i, o)] = es' ++ [e] → RxLast N (rxReceived es') (rxDelivered es') e.2 := by
    intro o hl es' e he
    obtain ⟨rfl, rfl⟩ := List.append_singleton_inj.1 he
    exact hl
  cases i with
  | receive b =>
    obtain ⟨o, s', hs, hi', hc, hl⟩ := rxDma_receive hi b
    refine ⟨o, s', hs, ⟨R, ?_⟩, hlast hl⟩
    rw [rxReceived_snoc, rxDelivered_snoc, hc, List.append_nil]
    exact hi'
  | irq =>
    obtain ⟨o, s', R', hs, hi', hl, -⟩ := rxDma_irq hi
    refine ⟨o, s', hs, ⟨R', ?_⟩, hlast hl⟩
    have ht : rxTaken ((.irq, o) : RxDmaIn α × RxDmaOut α) = [] := rfl
    rw [rxReceived_snoc, rxDelivered_snoc, ht, List.append_nil]
    exact hi'

theorem rxDma_setup (f : Vfifo α) (h0 : 0 < f.vfifoSize) (hn : f.vfifoSize ≤ 2 ^ 16) :
    RxHist f.vfifoSize [] (dmaRxSetup f) := by
  refine ⟨⟨0, rfl, reset_holds h0 hn, (bit_zero _ _).symm, rfl, rfl⟩, fun es' e he => ?_⟩
  exact absurd he (by simp)

end

end Btif
