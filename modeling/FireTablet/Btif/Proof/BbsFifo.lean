import FireTablet.Btif.Proof.BbsFacts
import FireTablet.Lib.Run

/-!
# The receive ring hands on what it takes

What the consumer sampled stays between the two indices while the interrupt handler writes, as long
as no reset comes before it has stored `rd_idx`. Then every byte that is taken is handed to the
callback once, in order, or is still pending, or is dropped by a reset (`rx_delivers`). After a
reset in between the consumer hands on bytes that were never received (`rx_stale`).
-/

namespace Btif

variable {α : Type*}

/-- The bytes that the ring takes in a run. -/
def accepted (outs : List (BtifIn α × BtifOut α)) : List α :=
  outs.flatMap fun
    | (.bbsWrite data, .written wrLen _) => data.take wrLen
    | _ => []

/-- The bytes that the callback gets in a run. -/
def delivered (outs : List (BtifIn α × BtifOut α)) : List α :=
  outs.flatMap fun
    | (_, .called data) => data
    | _ => []

/-- The output is a write that resets the ring. -/
def BtifOut.resets : BtifOut α → Bool
  | .written _ reset => reset
  | _ => false

/-- The condition on a step: while the consumer works with an index that it sampled, a write leaves
less than the limit pending (or finds no room and returns). -/
def RxFits (N m : Nat) (s : BtifRx α) : BtifIn α → Prop
  | .bbsWrite data => s.pc.working = true →
    s.bbs.count = N - 1 ∨ s.bbs.count + min data.length (N - 1 - s.bbs.count) < m
  | .consume => True

instance (N m : Nat) (s : BtifRx α) : DecidablePred (RxFits N m s)
  | .bbsWrite _ => inferInstanceAs (Decidable (_ → _ ∨ _))
  | .consume => inferInstanceAs (Decidable True)

/-! ## Runs -/

/-- A step of the consumer hands on the first bytes of what is pending, or none. -/
theorem delivered_cons {u v : List α} {o : BtifOut α} (h : RxTrans u .consume o v)
    {outs : List (BtifIn α × BtifOut α)} (ih : delivered outs = v) :
    delivered ((.consume, o) :: outs) = u := by
  cases o with
  | written wrLen reset => exact h.elim
  | called data =>
    show data ++ delivered outs = u
    rw [ih]
    exact Eq.symm h
  | quiet => exact ih.trans h

theorem BtifRx.Drained.pending {s : BtifRx α} {N : Nat} (h : s.Drained) : s.pending N = [] := by
  obtain ⟨hpc, hidx⟩ := h
  simp [BtifRx.pending, BtifBuf.content, hpc, hidx, Circ.dist_self]

section
variable {N : Nat} (hN : SizeOk N) (m : Nat)
include hN

/-- **One step** hands on the next bytes, or adds some, or drops all while the consumer waits. -/
theorem rx_step {s : BtifRx α} (h : s.Ok N) (i : BtifIn α) (hf : RxFits N m s i) :
    ∃ o s', btifRxStep N m s i = some (o, s') ∧ s'.Ok N ∧
      RxTrans (s.pending N) i o (s'.pending N) := by
  cases i with
  | consume =>
    obtain ⟨o, s', hc⟩ := h.consume hN
    exact ⟨o, s', hc.step, hc.ok, hc.trans⟩
  | bbsWrite data =>
    have hcount : s.bbs.count = Circ.dist N s.bbs.rdIdx s.bbs.wrIdx := h.bbs.countCur hN h.bbs.wr
    have hlt := h.bbs.count_lt
    have hk : s.bbs.taken N data =
        min data.length (N - 1 - Circ.dist N s.bbs.rdIdx s.bbs.wrIdx) := rfl
    have hle : s.bbs.taken N data ≤ data.length := by omega
    have hlen : (data.take (s.bbs.taken N data)).length = s.bbs.taken N data := by simp; omega
    have hroom : Circ.dist N s.bbs.rdIdx s.bbs.wrIdx +
        (data.take (s.bbs.taken N data)).length < N := by omega
    have hstep : ∀ q, btifBbsWrite N m s.bbs data = some q →
        btifRxStep N m s (.bbsWrite data) = some (.written q.1 q.2.1, ⟨q.2.2, s.pc⟩) := by
      intro q hq
      rw [btifRxStep, hq, Option.map_some]
    obtain ⟨-, hw⟩ | ⟨hne, hw⟩ := h.bbs.write hN m data
    · refine ⟨_, _, hstep _ hw, h, Nat.zero_le _, ?_⟩
      simp [BtifRx.pending]
    · by_cases hreset : Circ.dist N s.bbs.rdIdx s.bbs.wrIdx + s.bbs.taken N data ≥ m
      · rw [if_pos hreset] at hw
        have hidle : s.pc.working = false := by
          by_contra hwork
          obtain hfull | hfew := hf (by simpa using hwork)
          · omega
          · rw [hcount] at hfew
            omega
        have h0 : 0 < N := Nat.lt_of_le_of_lt (Nat.zero_le _) hlt
        refine ⟨_, _, hstep _ hw, ⟨⟨rfl, h0, h0⟩, ?_⟩, hle, ?_⟩
        · cases hpc : s.pc with
          | idle => trivial
          | sample => trivial
          | _ => rw [hpc] at hidle; cases hidle
        · simp [BtifRx.pending, BtifBuf.content, BtifBuf.init, Circ.dist_self]
      · rw [if_neg hreset] at hw
        have hcnt := h.bbs.appended_count hroom
        have hmono : Circ.dist N s.bbs.rdIdx s.bbs.wrIdx ≤ Circ.dist N s.bbs.rdIdx
            (s.bbs.appended N (data.take (s.bbs.taken N data))).wrIdx := by omega
        refine ⟨_, _, hstep _ hw, ⟨h.bbs.appended _, h.pc.mono hmono⟩, hle, ?_⟩
        have hhanded := h.pc.handed_le h.bbs.rd
        show ((s.bbs.appended N (data.take (s.bbs.taken N data))).content N).drop
            (s.pc.handed N s.bbs.rdIdx) =
          (s.bbs.content N).drop (s.pc.handed N s.bbs.rdIdx) ++ data.take (s.bbs.taken N data)
        rw [h.bbs.appended_content hroom]
        exact List.drop_append_of_le_length (by unfold BtifBuf.content; simpa using hhanded)

/-- **The consumer alone** hands on all that is pending and returns. -/
theorem rx_drain {s : BtifRx α} (h : s.Ok N) : ∃ n outs s',
    Sys.run (btifRxStep N m) s (List.replicate n .consume) = some (outs, s') ∧ s'.Drained ∧
      delivered outs = s.pending N := by
  -- on the measure, which every step of the consumer makes less until it is done
  induction hm : s.measure N using Nat.strong_induction_on generalizing s with
  | _ k ih =>
    by_cases hd : s.Drained
    · exact ⟨0, [], s, rfl, hd, hd.pending.symm⟩
    obtain ⟨o, s1, hstep, hok, htrans, hcloser⟩ := h.consume hN
    have hstep' : btifRxStep N m s .consume = some (o, s1) := hstep
    obtain hdone | hlt := hcloser hd
    · refine ⟨1, [(.consume, o)], s1, ?_, hdone, delivered_cons htrans hdone.pending.symm⟩
      rw [List.replicate_one, Sys.run_cons_some _ hstep']
      rfl
    · obtain ⟨n, outs, s', hrun, hdone, hdel⟩ := ih (s1.measure N) (hm ▸ hlt) hok rfl
      refine ⟨n + 1, (.consume, o) :: outs, s', ?_, hdone, delivered_cons htrans hdel⟩
      rw [List.replicate_succ, Sys.run_cons_some _ hstep', hrun]
      rfl

end

/-- What is handed on in a run is, in order, of what was pending and what was taken. -/
theorem trace_sublist {u u' : List α} {outs : List (BtifIn α × BtifOut α)}
    (h : Sys.Trace RxTrans u outs u') :
    (delivered outs ++ u').Sublist (u ++ accepted outs) := by
  induction h with
  | nil => simp [delivered, accepted]
  | @cons u v w i o es hr _ ih =>
    cases i with
    | bbsWrite data =>
      cases o with
      | written wrLen reset =>
        obtain ⟨-, rfl⟩ := hr
        refine ih.trans ?_
        show (_ ++ accepted es).Sublist (u ++ (data.take wrLen ++ accepted es))
        rw [← List.append_assoc]
        refine List.Sublist.append_right ?_ _
        split_ifs
        · exact List.nil_sublist _
        · exact List.Sublist.refl _
      | called data => exact hr.elim
      | quiet => exact hr.elim
    | consume =>
      cases o with
      | written wrLen reset => exact hr.elim
      | called data =>
        obtain rfl : u = data ++ v := hr
        show (data ++ delivered es ++ w).Sublist (data ++ v ++ accepted es)
        rw [List.append_assoc, List.append_assoc]
        exact List.Sublist.append_left ih data
      | quiet =>
        obtain rfl : v = u := hr
        exact ih

/-- Without a reset it is all of it. -/
theorem trace_all {u u' : List α} {outs : List (BtifIn α × BtifOut α)}
    (h : Sys.Trace RxTrans u outs u') (hno : ∀ e ∈ outs, e.2.resets = false) :
    delivered outs ++ u' = u ++ accepted outs := by
  induction h with
  | nil => simp [delivered, accepted]
  | @cons u v w i o es hr _ ih =>
    have ih := ih fun e he => hno e (List.mem_cons_of_mem _ he)
    cases i with
    | bbsWrite data =>
      cases o with
      | written wrLen reset =>
        have hreset : reset = false := hno _ List.mem_cons_self
        obtain ⟨-, rfl⟩ := hr
        rw [hreset, if_neg Bool.false_ne_true, List.append_assoc] at ih
        exact ih
      | called data => exact hr.elim
      | quiet => exact hr.elim
    | consume =>
      cases o with
      | written wrLen reset => exact hr.elim
      | called data =>
        obtain rfl : u = data ++ v := hr
        show data ++ delivered es ++ w = data ++ v ++ accepted es
        rw [List.append_assoc, List.append_assoc, ih]
      | quiet =>
        obtain rfl : v = u := hr
        exact ih

theorem btifRxInit_ok {N : Nat} (hN : SizeOk N) (f : Nat → α) : (btifRxInit N f).Ok N :=
  have h0 : 0 < N := Nat.lt_trans Nat.zero_lt_one hN.one_lt
  ⟨⟨rfl, h0, h0⟩, trivial⟩

/-- **The ring hands on what it takes**, in every interleaving that meets the condition, whatever
the memory held at first: in order and each byte at most once; without a reset all of it, once the
consumer has gone on to its return; and the indices are inside the buffer. -/
theorem rx_delivers (gmoRamOptimize : Bool) (maxPdingDataSize : Nat) (f : Nat → α)
    (is : List (BtifIn α))
    (hf : Sys.Along (btifRxStep (btifRxBufferSize gmoRamOptimize) maxPdingDataSize)
      (RxFits (btifRxBufferSize gmoRamOptimize) maxPdingDataSize)
      (btifRxInit (btifRxBufferSize gmoRamOptimize) f) is) :
    ∃ outs s', Sys.run (btifRxStep (btifRxBufferSize gmoRamOptimize) maxPdingDataSize)
        (btifRxInit (btifRxBufferSize gmoRamOptimize) f) is = some (outs, s') ∧
      (delivered outs).Sublist (accepted outs) ∧
      s'.bbs.rdIdx < btifRxBufferSize gmoRamOptimize ∧
      s'.bbs.wrIdx < btifRxBufferSize gmoRamOptimize ∧
      ∃ n outs' s'', Sys.run (btifRxStep (btifRxBufferSize gmoRamOptimize) maxPdingDataSize) s'
          (List.replicate n .consume) = some (outs', s'') ∧ s''.Drained ∧
        ((∀ e ∈ outs, e.2.resets = false) → delivered (outs ++ outs') = accepted outs) := by
  have hN := sizeOk_btifRxBufferSize gmoRamOptimize
  generalize btifRxBufferSize gmoRamOptimize = N at *
  obtain ⟨outs, s', hrun, hok, htrace⟩ := Sys.run_sim (BtifRx.pending N) (I := fun s => s.Ok N)
    (fun s i h hp => rx_step hN maxPdingDataSize h i hp) is _ (btifRxInit_ok hN f) hf
  have hinit : (btifRxInit N f).pending N = [] := by
    simp [btifRxInit, BtifRx.pending, BtifBuf.content, Circ.dist_self]
  rw [hinit] at htrace
  have hsub := trace_sublist htrace
  refine ⟨outs, s', hrun, (List.sublist_append_left _ _).trans hsub, hok.bbs.rd, hok.bbs.wr, ?_⟩
  obtain ⟨n, outs', s'', hrun', hdone, hdel⟩ := rx_drain hN maxPdingDataSize hok
  refine ⟨n, outs', s'', hrun', hdone, fun hno => ?_⟩
  have hall := trace_all htrace hno
  rw [delivered, List.flatMap_append]
  rw [← hdel] at hall
  exact hall

/-- Two writes with the consumer at work between them. -/
def rxOps : List (BtifIn UInt8) :=
  [.bbsWrite [1, 2], .consume, .consume, .bbsWrite [3], .consume, .consume, .consume]

theorem rx_delivers_rxOps : ∃ outs s',
    Sys.run (btifRxStep (btifRxBufferSize false) 49152)
        (btifRxInit (btifRxBufferSize false) fun _ => 0) rxOps = some (outs, s') ∧
      (delivered outs).Sublist (accepted outs) ∧
      s'.bbs.rdIdx < btifRxBufferSize false ∧ s'.bbs.wrIdx < btifRxBufferSize false ∧
      ∃ n outs' s'', Sys.run (btifRxStep (btifRxBufferSize false) 49152) s'
          (List.replicate n .consume) = some (outs', s'') ∧ s''.Drained ∧
        ((∀ e ∈ outs, e.2.resets = false) → delivered (outs ++ outs') = accepted outs) := by
  refine rx_delivers false 49152 _ _ ?_
  decide +kernel

/-! ## A reset while the consumer works -/

/-- With both indices reset the consumer stores the index that it sampled, and finds the rest of the
buffer before it. -/
theorem consume_after_reset {N : Nat} (hN : SizeOk N) (m : Nat) (f : Nat → α) {w : Nat} (hw : 0 < w)
    (hlt : w < N) : ∃ outs s',
      Sys.run (btifRxStep N m) ⟨⟨N, 0, 0, f⟩, .store w⟩ (List.replicate 6 .consume) =
        some (outs, s') ∧ delivered outs = Circ.slice f w (N - w) ∧ accepted outs = [] := by
  have h32 := hN.lt
  have hok : BtifBuf.Ok ⟨N, w, 0, f⟩ N := ⟨rfl, hlt, Nat.lt_trans hw hlt⟩
  have hcount : BtifBuf.countCur ⟨N, w, 0, f⟩ 0 = 0 + N - w := by
    rw [hok.countCur hN (Nat.lt_trans hw hlt), Circ.dist, if_neg (Nat.not_le.2 hw)]
  have hpos : BtifBuf.countCur ⟨N, w, 0, f⟩ 0 > 0 := by omega
  have htail : subU32 N w = N - w := subU32_eq (Nat.le_of_lt hlt) h32
  have h1 : btifRxStep N m ⟨⟨N, 0, 0, f⟩, .store w⟩ .consume =
      some (.quiet, ⟨⟨N, w, 0, f⟩, .sample⟩) := rfl
  have h2 : btifRxStep N m ⟨⟨N, w, 0, f⟩, .sample⟩ .consume =
      some (.quiet, ⟨⟨N, w, 0, f⟩, .count 0⟩) := rfl
  have h3 : btifRxStep N m ⟨⟨N, w, 0, f⟩, .count 0⟩ .consume =
      some (.quiet, ⟨⟨N, w, 0, f⟩, .branch 0⟩) := by
    rw [btifRxStep, btifRxDataConsummer]
    dsimp only
    rw [if_pos hpos]
  have h4 : btifRxStep N m ⟨⟨N, w, 0, f⟩, .branch 0⟩ .consume =
      some (.quiet, ⟨⟨N, w, 0, f⟩, .tail 0⟩) := by
    rw [btifRxStep, btifRxDataConsummer]
    dsimp only
    rw [if_neg (Nat.not_le.2 hw)]
  have h5 : btifRxStep N m ⟨⟨N, w, 0, f⟩, .tail 0⟩ .consume =
      some (.quiet, ⟨⟨N, w, 0, f⟩, .tailCall 0 w (N - w)⟩) := by
    rw [btifRxStep, btifRxDataConsummer]
    dsimp only
    rw [htail]
  have h6 : btifRxStep N m ⟨⟨N, w, 0, f⟩, .tailCall 0 w (N - w)⟩ .consume =
      some (.called (Circ.slice f w (N - w)), ⟨⟨N, w, 0, f⟩, .head 0 (N - w)⟩) := by
    rw [btifRxStep, btifRxDataConsummer]
    dsimp only
    rw [rxCb, if_pos (by dsimp only; omega)]
  refine ⟨[(.consume, .quiet), (.consume, .quiet), (.consume, .quiet), (.consume, .quiet),
    (.consume, .quiet), (.consume, .called (Circ.slice f w (N - w)))],
    ⟨⟨N, w, 0, f⟩, .head 0 (N - w)⟩, ?_, ?_, ?_⟩
  · rw [show List.replicate 6 BtifIn.consume = [.consume, .consume, .consume, .consume, .consume,
        (.consume : BtifIn α)] from rfl, Sys.run_cons_some _ h1, Sys.run_cons_some _ h2,
      Sys.run_cons_some _ h3, Sys.run_cons_some _ h4, Sys.run_cons_some _ h5,
      Sys.run_cons_some _ h6]
    rfl
  · simp [delivered]
  · simp [accepted]

/-- **After a reset** while the consumer is about to store an index other than 0 it hands on
everything from that index to the end of the buffer, though nothing is pending. -/
theorem rx_stale {N : Nat} (hN : SizeOk N) (m : Nat) {s : BtifRx α} (h : s.Ok N) {w : Nat}
    (hpc : s.pc = .store w) (hw : 0 < w) (data : List α)
    (hroom : Circ.dist N s.bbs.rdIdx s.bbs.wrIdx < N - 1)
    (hreset : Circ.dist N s.bbs.rdIdx s.bbs.wrIdx + s.bbs.taken N data ≥ m) :
    ∃ outs s', Sys.run (btifRxStep N m) s (.bbsWrite data :: List.replicate 6 .consume) =
        some (outs, s') ∧
      (delivered outs).length = N - w ∧ accepted outs = data.take (s.bbs.taken N data) := by
  have hwN : w < N := by
    have hok := h.pc
    rw [hpc] at hok
    exact hok.1.1
  obtain ⟨hfull, -⟩ | ⟨-, hwrite⟩ := h.bbs.write hN m data
  · omega
  rw [if_pos hreset] at hwrite
  have hstep : btifRxStep N m s (.bbsWrite data) = some (.written (s.bbs.taken N data) true,
      ⟨⟨N, 0, 0, Circ.write s.bbs.pBuf N s.bbs.wrIdx (data.take (s.bbs.taken N data))⟩,
        .store w⟩) := by
    rw [btifRxStep, hwrite, Option.map_some, hpc]
    rfl
  obtain ⟨outs, s', hrun, hdel, hacc⟩ := consume_after_reset hN m
    (Circ.write s.bbs.pBuf N s.bbs.wrIdx (data.take (s.bbs.taken N data))) hw hwN
  refine ⟨_, s', by rw [Sys.run_cons_some _ hstep, hrun]; rfl, ?_, ?_⟩
  · show ([] ++ delivered outs).length = N - w
    rw [hdel, List.nil_append, Circ.slice_length]
  · show data.take (s.bbs.taken N data) ++ accepted outs = _
    rw [hacc, List.append_nil]

/-- One byte, and the consumer up to where it stores the index behind it. -/
def oneByte : List (BtifIn UInt8) :=
  [.bbsWrite [1], .consume, .consume, .consume, .consume, .consume]

/-- A write that reaches the limit when the consumer has handed on one byte: of 49153 bytes that the
ring takes the callback gets 65536. -/
theorem rx_stale_oneByte : ∃ outs s',
    Sys.run (btifRxStep (btifRxBufferSize false) 49152)
        (btifRxInit (btifRxBufferSize false) fun _ => 0)
        (oneByte ++ .bbsWrite (List.replicate 49152 2) :: List.replicate 6 .consume) =
      some (outs, s') ∧ ¬ (delivered outs).Sublist (accepted outs) := by
  have hN := sizeOk_btifRxBufferSize false
  obtain ⟨outs, s, hrun, hok, -⟩ := Sys.run_sim (BtifRx.pending (btifRxBufferSize false))
    (I := fun s => s.Ok (btifRxBufferSize false)) (fun s i h hp => rx_step hN 49152 h i hp) oneByte
    (btifRxInit (btifRxBufferSize false) fun _ => 0) (btifRxInit_ok hN _) (by decide +kernel)
  have hmap : (Sys.run (btifRxStep (btifRxBufferSize false) 49152)
      (btifRxInit (btifRxBufferSize false) fun _ => 0) oneByte).map (fun q =>
        (q.2.pc, q.2.bbs.rdIdx, q.2.bbs.wrIdx, delivered q.1, accepted q.1)) =
      some (.store 1, 0, 1, [1], [1]) := by decide +kernel
  rw [hrun, Option.map_some, Option.some.injEq] at hmap
  simp only [Prod.mk.injEq] at hmap
  obtain ⟨hpc, hrd, hwr, hdel, hacc⟩ := hmap
  have hsize : btifRxBufferSize false = 65536 := rfl
  have hdist : Circ.dist (btifRxBufferSize false) s.bbs.rdIdx s.bbs.wrIdx = 1 := by
    rw [hrd, hwr]
    rfl
  have htaken : s.bbs.taken (btifRxBufferSize false) (List.replicate 49152 2) = 49152 := by
    rw [BtifBuf.taken, hdist, hsize, List.length_replicate]
    rfl
  obtain ⟨outs', s', hrun', hdel', hacc'⟩ := rx_stale hN 49152 hok hpc (by decide)
    (List.replicate 49152 2) (by omega) (by omega)
  refine ⟨outs ++ outs', s', by rw [Sys.run_append, hrun, Option.bind_some, hrun']; rfl, ?_⟩
  intro hsub
  have hle := hsub.length_le
  have hd : (delivered (outs ++ outs')).length = 65536 := by
    rw [delivered, List.flatMap_append, List.length_append]
    show (delivered outs).length + (delivered outs').length = 65536
    rw [hdel, hdel', hsize]
    rfl
  have ha : (accepted (outs ++ outs')).length = 49153 := by
    rw [accepted, List.flatMap_append, List.length_append]
    show (accepted outs).length + (accepted outs').length = 49153
    rw [hacc, hacc', htaken, List.length_take, List.length_replicate]
    rfl
  omega

end Btif
