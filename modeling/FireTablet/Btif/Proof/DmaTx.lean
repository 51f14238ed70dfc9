import FireTablet.Btif.Proof.DmaRx

/-!
# The virtual FIFO of the Tx channel along runs

What the engine fetches from the Tx FIFO is what `hal_dma_send_data` accepted, in order and once,
and what it has not yet fetched lies between the pointers. The bytes of a call are put behind those
before the write pointer goes over them. A call whose data fit is accepted in full whatever the
engine fetches in between (`txDma_accepts`). With the Rx channel: `dma_fifos`.
-/

namespace Btif

open WrapPtr

section
variable {α : Type*}

/-! ## Tx histories -/

/-- The bytes that a call of `hal_dma_send_data` accepted, as many as it returns. -/
def txSent : TxDmaIn α × TxDmaOut α → List α
  | (_, .returned data iRet) => data.take iRet.toNat
  | _ => []

/-- The byte that the engine fetched. -/
def txGot : TxDmaIn α × TxDmaOut α → List α
  | (_, .fetched b) => [b]
  | _ => []

/-- All bytes accepted, and all bytes fetched. -/
def txAccepted (es : List (TxDmaIn α × TxDmaOut α)) : List α := es.flatMap txSent
def txFetched (es : List (TxDmaIn α × TxDmaOut α)) : List α := es.flatMap txGot

/-- What is in the FIFO between the read pointer and the write pointer of the engine. -/
def Vfifo.pending (f : Vfifo α) : List α :=
  Circ.read f.mem f.vfifoSize (f.vffRpt &&& dmaPtMask) f.validSize

theorem Vfifo.Holds.pending {f : Vfifo α} {W R : Nat} {q : List α} (h : f.Holds W R q) :
    f.pending = q := by
  rw [Vfifo.pending, h.rpt, and_ptMask h.pos h.small, h.validSize, h.mem]

/-! ## Sending -/

/-- Behind what is held, `c` more bytes of `data` are in the FIFO. -/
def Copied (f : Vfifo α) (W R : Nat) (q data : List α) (c : Nat) : Prop :=
  Circ.read f.mem f.vfifoSize (R % f.vfifoSize) (W - R + c) = q ++ data.take c

/-- What `hal_dma_send_data` knows where it is. -/
def TxPcOk (f : Vfifo α) (W R : Nat) (q : List α) : TxPc α → Prop
  | .idle => True
  | .gotLeft _ avaLen => W - R + avaLen ≤ f.vfifoSize
  | .gotWpt data lenToSend wpt lastWptWrap => lenToSend ≤ data.length ∧
      W - R + lenToSend ≤ f.vfifoSize ∧ wpt = W % f.vfifoSize ∧
      lastWptWrap = bit f.vfifoSize 16 W
  | .second data lenToSend wpt lastWptWrap tailLen => lenToSend ≤ data.length ∧
      W - R + lenToSend ≤ f.vfifoSize ∧ wpt = W % f.vfifoSize ∧
      lastWptWrap = bit f.vfifoSize 16 W ∧ tailLen = f.vfifoSize - wpt ∧ tailLen ≤ lenToSend ∧
      Copied f W R q data tailLen
  | .copied data lenToSend wpt lastWptWrap => lenToSend ≤ data.length ∧
      W - R + lenToSend ≤ f.vfifoSize ∧
      wpt ||| lastWptWrap = enc f.vfifoSize 16 (W + lenToSend) ∧ Copied f W R q data lenToSend

/-- The Tx channel after `acc` is accepted and `got` fetched. -/
structure TxInv (acc got : List α) (s : DmaTx α) : Prop where
  holds : s.vfifo.Holds acc.length got.length (acc.drop got.length)
  pref : acc.take got.length = got
  pc : TxPcOk s.vfifo acc.length got.length (acc.drop got.length) s.pc

section
variable {f : Vfifo α} {W : Nat} {q data : List α}

/-- `memcpy` puts bytes behind those that are held and copied before. -/
theorem copied_memcpy (h : f.Holds W R q) {c k : Nat} {x d : List α}
    (hc : Circ.read f.mem f.vfifoSize (R % f.vfifoSize) (W - R + c) = q ++ x)
    (hlen : W - R + c + d.length ≤ f.vfifoSize) (hk : k = (W + c) % f.vfifoSize)
    (hend : k + d.length ≤ f.vfifoSize) :
    ∃ g, f.memcpy k d = some g ∧ g.Holds W R q ∧ g.vfifoSize = f.vfifoSize ∧
      Circ.read g.mem f.vfifoSize (R % f.vfifoSize) (W - R + c + d.length) = q ++ (x ++ d) := by
  have hlt : R % f.vfifoSize < f.vfifoSize := Nat.mod_lt _ h.pos
  have hklt : k < f.vfifoSize := hk ▸ Nat.mod_lt _ h.pos
  have hwrap : k = Circ.wrap f.vfifoSize (R % f.vfifoSize + (W - R + c)) := by
    have hle := h.le
    rw [wrap_slot h.pos (by omega), hk, show R + (W - R + c) = W + c by omega]
  have hread : Circ.read (Circ.copy f.mem k d) f.vfifoSize (R % f.vfifoSize)
      (W - R + c + d.length) = q ++ (x ++ d) := by
    rw [Circ.copy_eq_write hklt hend, Circ.read_write_append hlt hwrap hlen, hc,
      List.append_assoc]
  refine ⟨{ f with mem := Circ.copy f.mem k d }, by simp [Vfifo.memcpy, hend], ?_, rfl, hread⟩
  refine ⟨h.pos, h.small, h.wpt, h.rpt, h.le, h.room, ?_⟩
  have htake := congrArg (List.take (W - R)) hread
  rwa [Circ.read_take, Nat.min_eq_left (by omega), List.take_left' h.length] at htake

/-- What is copied stays while the engine fetches. -/
theorem copied_fetched (h : f.Holds W R q) (hlt : 0 < f.validSize) {c : Nat}
    (hroom : W - R + c ≤ f.vfifoSize) (hc : Copied f W R q data c) :
    Copied f.fetched W (R + 1) (q.drop 1) data c := by
  have hv := h.validSize ▸ hlt
  have hlen : 1 ≤ q.length := by
    rw [h.length]
    omega
  have hdrop := congrArg (List.drop 1) hc
  rw [Circ.read_drop (Nat.mod_lt _ h.pos) (by omega) hroom,
    wrap_slot h.pos (by have := h.pos; omega), List.drop_append_of_le_length hlen, show W - R + c - 1 = W - (R + 1) + c by omega] at hdrop
  exact hdrop

theorem TxPcOk.fetched (h : f.Holds W R q) (hlt : 0 < f.validSize) {pc : TxPc α}
    (hpc : TxPcOk f W R q pc) : TxPcOk f.fetched W (R + 1) (q.drop 1) pc := by
  have hroom : ∀ {n}, W - R + n ≤ f.vfifoSize → W - (R + 1) + n ≤ f.vfifoSize := fun hn => by
    omega
  cases pc with
  | idle => trivial
  | gotLeft data avaLen => exact hroom hpc
  | gotWpt data lenToSend wpt lastWptWrap =>
    obtain ⟨hl, hr, hw, hb⟩ := hpc
    exact ⟨hl, hroom hr, hw, hb⟩
  | second data lenToSend wpt lastWptWrap tailLen =>
    obtain ⟨hl, hr, hw, hb, ht, htl, hc⟩ := hpc
    exact ⟨hl, hroom hr, hw, hb, ht, htl, copied_fetched h hlt (by omega) hc⟩
  | copied data lenToSend wpt lastWptWrap =>
    obtain ⟨hl, hr, hw, hc⟩ := hpc
    exact ⟨hl, hroom hr, hw, copied_fetched h hlt hr hc⟩

end

variable {acc got : List α} {s : DmaTx α}

/-- The engine fetches a byte, or finds none. -/
theorem txDma_fetch (h : TxInv acc got s) : ∃ o s', dmaTxStep s .fetch = some (o, s') ∧
    TxInv acc (got ++ txGot (.fetch, o)) s' ∧ txSent (.fetch, o) = [] := by
  by_cases hlt : 0 < s.vfifo.validSize
  · obtain ⟨hcut, hf⟩ := h.holds.fetched hlt
    simp only [dmaTxStep, gt_iff_lt, hlt, if_true]
    refine ⟨_, _, rfl, ?_, rfl⟩
    have hpc := h.pc.fetched h.holds hlt
    rw [List.drop_drop] at hf hpc
    refine ⟨by simpa [txGot] using hf, ?_, by simpa [txGot] using hpc⟩
    rw [txGot, List.length_append, List.length_singleton, List.take_add, h.pref, hcut]
    rfl
  · refine ⟨.empty, s, by simp [dmaTxStep, hlt], ?_, rfl⟩
    simpa [txGot] using h

/-- The bytes are put into the FIFO, up to its end at first. -/
theorem txDma_gotWpt (h : TxInv acc got s) {data : List α} {lenToSend wpt lastWptWrap : Nat}
    (hpc : s.pc = .gotWpt data lenToSend wpt lastWptWrap) (data' : List α) (txAllow : Bool) :
    ∃ s', halDmaSendData s data' txAllow = some (.quiet, s') ∧ TxInv acc got s' := by
  obtain ⟨hl, hr, rfl, rfl⟩ := hpc ▸ h.pc
  have h0 := h.holds.pos
  have hn := h.holds.small
  have hlt : acc.length % s.vfifo.vfifoSize < s.vfifo.vfifoSize := Nat.mod_lt _ h0
  have hbase : Circ.read s.vfifo.mem s.vfifo.vfifoSize (got.length % s.vfifo.vfifoSize)
      (acc.length - got.length + 0) = acc.drop got.length ++ [] := by
    rw [Nat.add_zero, List.append_nil, h.holds.mem]
  simp only [halDmaSendData, hpc]
  split_ifs with hpast
  · have htail : subU32 s.vfifo.vfifoSize (acc.length % s.vfifo.vfifoSize) =
        s.vfifo.vfifoSize - acc.length % s.vfifo.vfifoSize := subU32_eq (by omega) (by omega)
    have hlen : (data.take (s.vfifo.vfifoSize - acc.length % s.vfifo.vfifoSize)).length =
        s.vfifo.vfifoSize - acc.length % s.vfifo.vfifoSize := by
      rw [List.length_take]
      omega
    obtain ⟨g, hg, hgh, hgs, hgc⟩ := copied_memcpy h.holds hbase (k := acc.length % _)
      (d := data.take (s.vfifo.vfifoSize - acc.length % s.vfifo.vfifoSize))
      (by rw [hlen]; omega) rfl (by rw [hlen]; omega)
    rw [htail, hg]
    refine ⟨_, rfl, hgh, h.pref, hl, by rw [hgs]; exact hr, by rw [hgs], by rw [hgs],
      by rw [hgs], by omega, ?_⟩
    rw [Copied, hgs]
    rwa [hlen, List.nil_append, Nat.add_zero] at hgc
  · have hlen : (data.take lenToSend).length = lenToSend := by
      rw [List.length_take]
      omega
    obtain ⟨g, hg, hgh, hgs, hgc⟩ := copied_memcpy h.holds hbase (k := acc.length % _)
      (d := data.take lenToSend) (by rw [hlen]; omega) rfl (by rw [hlen]; omega)
    rw [hg]
    refine ⟨_, rfl, hgh, h.pref, hl, by rw [hgs]; exact hr, ?_, ?_⟩
    · have hadd := enc_add (r := acc.length) (d := lenToSend) h0 hn (by omega)
      rw [hgs, ← hadd, if_neg (by omega)]
    · rw [Copied, hgs]
      rwa [hlen, List.nil_append, Nat.add_zero] at hgc

/-- The rest of the bytes is put at the start of the FIFO. -/
theorem txDma_second (h : TxInv acc got s) {data : List α}
    {lenToSend wpt lastWptWrap tailLen : Nat}
    (hpc : s.pc = .second data lenToSend wpt lastWptWrap tailLen) (data' : List α)
    (txAllow : Bool) :
    ∃ s', halDmaSendData s data' txAllow = some (.quiet, s') ∧ TxInv acc got s' := by
  obtain ⟨hl, hr, rfl, rfl, rfl, htl, hc⟩ := hpc ▸ h.pc
  have h0 := h.holds.pos
  have hn := h.holds.small
  have hlt : acc.length % s.vfifo.vfifoSize < s.vfifo.vfifoSize := Nat.mod_lt _ h0
  have hsub : subU32 lenToSend (s.vfifo.vfifoSize - acc.length % s.vfifo.vfifoSize) =
      lenToSend - (s.vfifo.vfifoSize - acc.length % s.vfifo.vfifoSize) :=
    subU32_eq htl (by omega)
  have hwpt : subU32 (acc.length % s.vfifo.vfifoSize + lenToSend) s.vfifo.vfifoSize =
      acc.length % s.vfifo.vfifoSize + lenToSend - s.vfifo.vfifoSize :=
    subU32_eq (by omega) (by omega)
  have hlen : ((data.drop (s.vfifo.vfifoSize - acc.length % s.vfifo.vfifoSize)).take
      (lenToSend - (s.vfifo.vfifoSize - acc.length % s.vfifo.vfifoSize))).length =
        lenToSend - (s.vfifo.vfifoSize - acc.length % s.vfifo.vfifoSize) := by
    rw [List.length_take, List.length_drop]
    omega
  have hzero : 0 = (acc.length + (s.vfifo.vfifoSize - acc.length % s.vfifo.vfifoSize)) %
      s.vfifo.vfifoSize := by
    rw [(add_of_ge h0 (by omega) (by omega)).1]
    omega
  obtain ⟨g, hg, hgh, hgs, hgc⟩ := copied_memcpy h.holds hc (k := 0)
    (d := (data.drop (s.vfifo.vfifoSize - acc.length % s.vfifo.vfifoSize)).take
      (lenToSend - (s.vfifo.vfifoSize - acc.length % s.vfifo.vfifoSize)))
    (by rw [hlen]; omega) hzero (by rw [hlen]; omega)
  simp only [halDmaSendData, hpc, hsub, hwpt, hg]
  refine ⟨_, rfl, hgh, h.pref, hl, by rw [hgs]; exact hr, ?_, ?_⟩
  · have hadd := enc_add (r := acc.length) (d := lenToSend) h0 hn (by omega)
    rw [hgs, ← hadd, if_pos (by omega)]
    rfl
  · rw [hlen, ← List.take_add, Nat.add_assoc] at hgc
    rw [show s.vfifo.vfifoSize - acc.length % s.vfifo.vfifoSize +
      (lenToSend - (s.vfifo.vfifoSize - acc.length % s.vfifo.vfifoSize)) = lenToSend by omega]
      at hgc
    rw [Copied, hgs]
    exact hgc

/-- The write pointer goes over the bytes, if the engine is not flushing. -/
theorem txDma_copied (h : TxInv acc got s) {data' : List α} {lenToSend wpt lastWptWrap : Nat}
    (hpc : s.pc = .copied data' lenToSend wpt lastWptWrap) (data : List α) (txAllow : Bool) :
    ∃ o s', halDmaSendData s data txAllow = some (o, s') ∧
      TxInv (acc ++ txSent (.send data txAllow, o)) got s' ∧
      txGot (.send data txAllow, o) = [] := by
  obtain ⟨hl, hr, hw, hc⟩ := hpc ▸ h.pc
  have hle := h.holds.le
  simp only [halDmaSendData, hpc]
  cases txAllow with
  | false =>
    refine ⟨_, _, rfl, ?_, rfl⟩
    have hnil : txSent ((.send data false, .returned data' 0) : TxDmaIn α × TxDmaOut α) = [] := rfl
    rw [hnil, List.append_nil]
    have hh := h.holds
    exact ⟨⟨hh.pos, hh.small, hh.wpt, hh.rpt, hh.le, hh.room, hh.mem⟩, h.pref, trivial⟩
  | true =>
    refine ⟨_, _, rfl, ?_, rfl⟩
    have hsent : txSent ((.send data true, .returned data' lenToSend) : TxDmaIn α × TxDmaOut α) =
        data'.take lenToSend := rfl
    have hlen : (acc ++ data'.take lenToSend).length = acc.length + lenToSend := by
      rw [List.length_append, List.length_take]
      omega
    rw [hsent]
    refine ⟨⟨h.holds.pos, h.holds.small, ?_, h.holds.rpt, by omega, ?_, ?_⟩, ?_, trivial⟩
    · rw [hlen]
      exact hw
    · rw [hlen]
      show acc.length + lenToSend ≤ got.length + s.vfifo.vfifoSize
      omega
    · rw [hlen, List.drop_append_of_le_length hle,
        show acc.length + lenToSend - got.length = acc.length - got.length + lenToSend by omega]
      exact hc
    · rw [List.take_append_of_le_length hle]
      exact h.pref

/-- **A step of `hal_dma_send_data`.** -/
theorem txDma_send (h : TxInv acc got s) (data : List α) (txAllow : Bool) : ∃ o s',
    halDmaSendData s data txAllow = some (o, s') ∧
      TxInv (acc ++ txSent (.send data txAllow, o)) got s' ∧ txGot (.send data txAllow, o) = [] := by
  have hpcOk := h.pc
  cases hpc : s.pc with
  | idle =>
    simp only [halDmaSendData, hpc]
    split_ifs with hlen
    · have hnil : data = [] := List.length_eq_zero_iff.1 hlen
      exact ⟨_, _, rfl, by simpa [txSent, hnil] using h, rfl⟩
    · refine ⟨_, _, rfl, ?_, rfl⟩
      have hroom : acc.length - got.length + s.vfifo.leftSize ≤ s.vfifo.vfifoSize := by
        rw [Vfifo.leftSize, h.holds.validSize]
        have := h.holds.room
        omega
      simpa [txSent] using (⟨h.holds, h.pref, hroom⟩ : TxInv acc got
        { s with pc := .gotLeft data s.vfifo.leftSize })
  | gotLeft data' avaLen =>
    rw [hpc] at hpcOk
    have hn := h.holds.small
    have hw : s.vfifo.vffWpt &&& dmaPtMask = acc.length % s.vfifo.vfifoSize := by
      rw [h.holds.wpt, and_ptMask h.holds.pos hn]
    have hb : s.vfifo.vffWpt &&& dmaPtWrap = bit s.vfifo.vfifoSize 16 acc.length := by
      rw [h.holds.wpt, and_ptWrap h.holds.pos hn]
    have hmin : (if data'.length < avaLen then data'.length else avaLen) =
        min data'.length avaLen := by
      split_ifs <;> omega
    simp only [halDmaSendData, hpc, hw, hb, hmin]
    refine ⟨_, _, rfl, ?_, rfl⟩
    have hroom : acc.length - got.length + min data'.length avaLen ≤ s.vfifo.vfifoSize :=
      Nat.le_trans (Nat.add_le_add_left (Nat.min_le_right _ _) _) hpcOk
    have hnil : txSent ((.send data txAllow, .quiet) : TxDmaIn α × TxDmaOut α) = [] := rfl
    rw [hnil, List.append_nil]
    exact ⟨h.holds, h.pref, Nat.min_le_left _ _, hroom, rfl, rfl⟩
  | gotWpt data' lenToSend wpt lastWptWrap =>
    obtain ⟨s', hs, hi⟩ := txDma_gotWpt h hpc data txAllow
    exact ⟨_, s', hs, by simpa [txSent] using hi, rfl⟩
  | second data' lenToSend wpt lastWptWrap tailLen =>
    obtain ⟨s', hs, hi⟩ := txDma_second h hpc data txAllow
    exact ⟨_, s', hs, by simpa [txSent] using hi, rfl⟩
  | copied data' lenToSend wpt lastWptWrap => exact txDma_copied h hpc data txAllow

/-- What the histories of the Tx channel keep true. -/
def TxHist (es : List (TxDmaIn α × TxDmaOut α)) (s : DmaTx α) : Prop :=
  TxInv (txAccepted es) (txFetched es) s

theorem txDma_step (es : List (TxDmaIn α × TxDmaOut α)) (s : DmaTx α) (i : TxDmaIn α)
    (h : TxHist es s) : ∃ o s', dmaTxStep s i = some (o, s') ∧ TxHist (es ++ [(i, o)]) s' := by
  have hacc : ∀ o, txAccepted (es ++ [(i, o)]) = txAccepted es ++ txSent (i, o) := fun o => by
    simp [txAccepted]
  have hgot : ∀ o, txFetched (es ++ [(i, o)]) = txFetched es ++ txGot (i, o) := fun o => by
    simp [txFetched]
  cases i with
  | fetch =>
    obtain ⟨o, s', hs, hi, hn⟩ := txDma_fetch h
    exact ⟨o, s', hs, by rw [TxHist, hacc, hgot, hn, List.append_nil]; exact hi⟩
  | send data txAllow =>
    obtain ⟨o, s', hs, hi, hn⟩ := txDma_send h data txAllow
    exact ⟨o, s', hs, by rw [TxHist, hacc, hgot, hn, List.append_nil]; exact hi⟩

theorem txDma_setup (f : Vfifo α) (h0 : 0 < f.vfifoSize) (hn : f.vfifoSize ≤ 2 ^ 16) :
    TxHist [] (dmaTxSetup f) := ⟨reset_holds h0 hn, rfl, trivial⟩

/-! ## A call whose data fit -/

/-- A call that is to send all of its data, with the steps that it has left at most. -/
def TxMid (data : List α) : TxPc α → Nat → Prop
  | .idle, _ => False
  | .gotLeft data' avaLen, k => data' = data ∧ data.length ≤ avaLen ∧ 4 ≤ k
  | .gotWpt data' lenToSend _ _, k => data' = data ∧ lenToSend = data.length ∧ 3 ≤ k
  | .second data' lenToSend _ _ _, k => data' = data ∧ lenToSend = data.length ∧ 2 ≤ k
  | .copied data' lenToSend _ _, k => data' = data ∧ lenToSend = data.length ∧ 1 ≤ k

/-- The engine fetches, or the call goes on and the engine is not flushing. -/
def TxDmaIn.Allowed : TxDmaIn α → Prop
  | .fetch => True
  | .send _ txAllow => txAllow = true

/-- A step of the call. -/
def TxDmaIn.isSend : TxDmaIn α → Bool
  | .fetch => false
  | .send .. => true

/-- A call that is not over has a step left. -/
theorem TxMid.pos {data : List α} {pc : TxPc α} {k : Nat} (h : TxMid data pc k) : 0 < k := by
  cases pc with
  | idle => exact absurd h id
  | gotLeft data' avaLen => exact Nat.lt_of_lt_of_le (by decide) h.2.2
  | gotWpt data' lenToSend wpt lastWptWrap => exact Nat.lt_of_lt_of_le (by decide) h.2.2
  | second data' lenToSend wpt lastWptWrap tailLen => exact Nat.lt_of_lt_of_le (by decide) h.2.2
  | copied data' lenToSend wpt lastWptWrap => exact h.2.2

theorem TxMid.send {data data' : List α} {o : TxDmaOut α} {s' : DmaTx α} {k : Nat}
    (h : TxMid data s.pc (k + 1)) (hs : halDmaSendData s data' true = some (o, s')) :
    o = .returned data data.length ∨ o = .quiet ∧ TxMid data s'.pc k := by
  cases hpc : s.pc with
  | idle =>
    rw [hpc] at h
    exact absurd h id
  | gotLeft d avaLen =>
    obtain ⟨rfl, hlen, hk⟩ := hpc ▸ h
    simp only [halDmaSendData, hpc, Option.some.injEq, Prod.mk.injEq] at hs
    obtain ⟨rfl, rfl⟩ := hs
    refine .inr ⟨rfl, rfl, ?_, by omega⟩
    split_ifs <;> omega
  | gotWpt d lenToSend wpt lastWptWrap =>
    obtain ⟨rfl, rfl, hk⟩ := hpc ▸ h
    simp only [halDmaSendData, hpc] at hs
    split_ifs at hs
    · obtain ⟨g, -, he⟩ := Option.map_eq_some_iff.1 hs
      cases he
      exact .inr ⟨rfl, rfl, rfl, by omega⟩
    · obtain ⟨g, -, he⟩ := Option.map_eq_some_iff.1 hs
      cases he
      exact .inr ⟨rfl, rfl, rfl, by omega⟩
  | second d lenToSend wpt lastWptWrap tailLen =>
    obtain ⟨rfl, rfl, hk⟩ := hpc ▸ h
    simp only [halDmaSendData, hpc] at hs
    obtain ⟨g, -, he⟩ := Option.map_eq_some_iff.1 hs
    cases he
    exact .inr ⟨rfl, rfl, rfl, by omega⟩
  | copied d lenToSend wpt lastWptWrap =>
    obtain ⟨rfl, rfl, -⟩ := hpc ▸ h
    simp only [halDmaSendData, hpc, if_true] at hs
    cases hs
    exact .inl rfl

/-- The engine does not touch the call. -/
theorem fetch_quiet {o : TxDmaOut α} {s' : DmaTx α} (hs : dmaTxStep s .fetch = some (o, s')) :
    s'.pc = s.pc ∧ ∀ data iRet, o ≠ .returned data iRet := by
  simp only [dmaTxStep] at hs
  split_ifs at hs
  · cases hs
    exact ⟨rfl, by simp⟩
  · cases hs
    exact ⟨rfl, by simp⟩

/-- The first return of a call says that all of its data are accepted. -/
def ReturnsAll (data : List α) (es : List (TxDmaIn α × TxDmaOut α)) : Prop :=
  ∃ es₁ i es₂, es = es₁ ++ (i, .returned data data.length) :: es₂ ∧
    ∀ e ∈ es₁, ∀ data' iRet, e.2 ≠ .returned data' iRet

theorem ReturnsAll.cons {data : List α} {es : List (TxDmaIn α × TxDmaOut α)}
    {e : TxDmaIn α × TxDmaOut α} (he : ∀ data' iRet, e.2 ≠ .returned data' iRet)
    (h : ReturnsAll data es) : ReturnsAll data (e :: es) := by
  obtain ⟨es₁, i, es₂, rfl, hes⟩ := h
  refine ⟨e :: es₁, i, es₂, rfl, fun e' he' => ?_⟩
  rcases List.mem_cons.1 he' with rfl | he'
  · exact he
  · exact hes e' he'

/-- A call that is to send all of its data does so. -/
theorem TxMid.run {data : List α} (is : List (TxDmaIn α)) :
    ∀ {hist : List (TxDmaIn α × TxDmaOut α)} {s : DmaTx α} {k : Nat}, TxHist hist s →
      TxMid data s.pc k → (∀ i ∈ is, i.Allowed) → k ≤ is.countP (·.isSend) →
      ∃ es s', Sys.run dmaTxStep s is = some (es, s') ∧ ReturnsAll data es := by
  induction is with
  | nil =>
    intro hist s k _ hmid _ hk
    exact absurd hmid.pos (Nat.not_lt.2 hk)
  | cons i is ih =>
    intro hist s k h hmid hall hk
    have hrest : ∀ i ∈ is, i.Allowed := fun i hi => hall i (List.mem_cons_of_mem _ hi)
    obtain ⟨o, s1, hs, hi⟩ := txDma_step hist s i h
    rw [Sys.run_cons_some _ hs]
    cases i with
    | fetch =>
      obtain ⟨hpc, ho⟩ := fetch_quiet hs
      rw [← hpc] at hmid
      obtain ⟨es, s', hrun, hes⟩ := ih hi hmid hrest (by simpa [TxDmaIn.isSend] using hk)
      exact ⟨_, s', by rw [hrun]; rfl, hes.cons ho⟩
    | send d txAllow =>
      obtain rfl : txAllow = true := hall _ List.mem_cons_self
      have hcount : k ≤ is.countP (·.isSend) + 1 := by simpa [TxDmaIn.isSend] using hk
      obtain ⟨k', rfl⟩ := Nat.exists_eq_succ_of_ne_zero hmid.pos.ne'
      obtain rfl | ⟨rfl, hmid'⟩ := hmid.send hs
      · obtain ⟨es, s', hrun, -⟩ := Sys.run_hist txDma_step is _ s1 hi
        exact ⟨_, s', by rw [hrun]; rfl, [], _, es, rfl, fun e he => absurd he List.not_mem_nil⟩
      · obtain ⟨es, s', hrun, hes⟩ := ih hi hmid' hrest (by omega)
        exact ⟨_, s', by rw [hrun]; rfl, hes.cons (by simp)⟩

/-- A call for which there is room is accepted in full after four more steps of its own, whatever
the engine fetches between them. -/
def TxAccepts (s : DmaTx α) : Prop :=
  ∀ data, s.pc = .idle → data ≠ [] → data.length ≤ s.vfifo.leftSize →
    ∀ is : List (TxDmaIn α), (∀ i ∈ is, i.Allowed) → 4 ≤ is.countP (·.isSend) →
      ∃ es s', Sys.run dmaTxStep s (.send data true :: is) = some (es, s') ∧ ReturnsAll data es

theorem txDma_accepts {es : List (TxDmaIn α × TxDmaOut α)} (h : TxHist es s) : TxAccepts s := by
  intro data hpc hne hlen is hall hk
  have hstep : dmaTxStep s (.send data true) =
      some (.quiet, { s with pc := .gotLeft data s.vfifo.leftSize }) := by
    simp [dmaTxStep, halDmaSendData, hpc, hne]
  obtain ⟨o, s1, hs, hi⟩ := txDma_step es s (.send data true) h
  rw [hstep] at hs
  cases hs
  obtain ⟨es', s', hrun, hes⟩ := TxMid.run is hi ⟨rfl, hlen, Nat.le_refl 4⟩ hall hk
  exact ⟨_, s', by rw [Sys.run_cons_some _ hstep, hrun]; rfl, hes.cons (by simp)⟩

/-! ## Both channels -/

/-- A FIFO of the size that the driver allocates, with any content and any pointers. -/
def dmaVfifo (mem : Nat → α) (vffWpt vffRpt wpt lastWptWrap rpt lastRptWrap : Nat) : Vfifo α :=
  ⟨dmaVffSize, mem, vffWpt, vffRpt, wpt, lastWptWrap, rpt, lastRptWrap⟩

/-- What the Rx channel promises of a history: the callback gets the received bytes in order, each
once; the read pointer that is written back is that of the next byte; and the handler returns only
when there is none. -/
structure RxDelivers (es : List (RxDmaIn α × RxDmaOut α)) : Prop where
  order : ∃ rest, rxReceived es = rxDelivered es ++ rest
  wrote : ∀ es' i rpt, es = es' ++ [(i, .wrote rpt)] →
    rpt = enc dmaVffSize 16 (rxDelivered es').length
  returned : ∀ es' i iRet, es = es' ++ [(i, .returned iRet)] → rxDelivered es' = rxReceived es'

/-- From here the handler, when the engine leaves it alone, returns, and the callback has then got
all that was received. -/
def RxDrains (es : List (RxDmaIn α × RxDmaOut α)) (s : DmaRx α) : Prop :=
  ∃ n es' iRet s', Sys.run dmaRxStep s (List.replicate (n + 1) .irq) =
      some (es' ++ [(.irq, .returned iRet)], s') ∧
    (∀ e ∈ es', ∀ r, e.2 ≠ .returned r) ∧ rxDelivered (es ++ es') = rxReceived es

/-- **The virtual FIFOs lose nothing.** Every interleaving of the engine and the driver on a FIFO
that is reset goes on for ever within the FIFO: the Rx channel delivers, and a handler that is left
alone delivers all; on the Tx channel what was accepted is what the engine fetched and then what is
between its pointers, and data for which there is room are accepted in full. -/
theorem dma_fifos (mem : Nat → α) (vffWpt vffRpt wpt lastWptWrap rpt lastRptWrap : Nat) :
    (∀ is : List (RxDmaIn α), ∃ es s, Sys.run dmaRxStep
      (dmaRxSetup (dmaVfifo mem vffWpt vffRpt wpt lastWptWrap rpt lastRptWrap)) is = some (es, s) ∧
        RxDelivers es ∧ RxDrains es s) ∧
    ∀ is : List (TxDmaIn α), ∃ es s, Sys.run dmaTxStep
      (dmaTxSetup (dmaVfifo mem vffWpt vffRpt wpt lastWptWrap rpt lastRptWrap)) is = some (es, s) ∧
        txAccepted es = txFetched es ++ s.vfifo.pending ∧ TxAccepts s := by
  have h0 : 0 < dmaVffSize := by decide
  have hn : dmaVffSize ≤ 2 ^ 16 := by decide
  refine ⟨fun is => ?_, fun is => ?_⟩
  · obtain ⟨es, s, hr, hi⟩ := Sys.run_hist rxDma_step is [] _
      (rxDma_setup (dmaVfifo mem vffWpt vffRpt wpt lastWptWrap rpt lastRptWrap) h0 hn)
    rw [List.nil_append] at hi
    obtain ⟨⟨R, hi⟩, hl⟩ := hi
    obtain ⟨k, hk⟩ := hi.pc.delivered
    refine ⟨es, s, hr, ⟨⟨(rxReceived es).drop k, ?_⟩, ?_, ?_⟩, ?_⟩
    · rw [hk, List.take_append_drop]
    · intro es' i rpt he
      exact hl es' (i, .wrote rpt) he
    · intro es' i iRet he
      exact hl es' (i, .returned iRet) he
    · obtain ⟨n, es', iRet, s', hrun, hquiet, hdel⟩ := rxDma_drain hi
      exact ⟨n, es', iRet, s', hrun, hquiet, List.flatMap_append.trans hdel⟩
  · obtain ⟨es, s, hr, hi⟩ := Sys.run_hist txDma_step is [] _
      (txDma_setup (dmaVfifo mem vffWpt vffRpt wpt lastWptWrap rpt lastRptWrap) h0 hn)
    rw [List.nil_append] at hi
    refine ⟨es, s, hr, ?_, txDma_accepts hi⟩
    rw [hi.holds.pending]
    conv_lhs => rw [← List.take_append_drop (txFetched es).length (txAccepted es), hi.pref]

end

end Btif
