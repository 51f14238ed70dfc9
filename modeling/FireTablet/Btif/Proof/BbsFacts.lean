import FireTablet.Btif.Bbs
import Mathlib.Data.Nat.Bitwise

/-!
# The steps of the receive ring

`btif_bbs_write` puts bytes behind those between the two indices (`BtifBuf.Ok.write`). What the
consumer sampled is between the indices too (`RxPc.Ok`), and a step of it hands on the next of these
bytes, or none (`BtifRx.Ok.consume`).
-/

namespace Btif

variable {α : Type*}

/-! ## Indices -/

theorem subU32_eq {a b : Nat} (h : b ≤ a) (ha : a < 2 ^ 32) : subU32 a b = a - b := by
  unfold subU32
  rw [Nat.sub_add_comm h, Nat.add_mod_right, Nat.mod_eq_of_lt (by omega)]

/-- A size that the mask works for. -/
structure SizeOk (N : Nat) : Prop where
  pow : ∃ k, N = 2 ^ k
  one_lt : 1 < N
  lt : N < 2 ^ 32

theorem sizeOk_btifRxBufferSize (gmoRamOptimize : Bool) : SizeOk (btifRxBufferSize gmoRamOptimize) := by
  cases gmoRamOptimize with
  | true => exact ⟨⟨15, rfl⟩, by decide, by decide⟩
  | false => exact ⟨⟨16, rfl⟩, by decide, by decide⟩

/-- The indices are inside the buffer. -/
structure BtifBuf.Ok (bbs : BtifBuf α) (N : Nat) : Prop where
  size : bbs.size = N
  rd : bbs.rdIdx < N
  wr : bbs.wrIdx < N

/-- The bytes between the indices. -/
def BtifBuf.content (bbs : BtifBuf α) (N : Nat) : List α :=
  Circ.read bbs.pBuf N bbs.rdIdx (Circ.dist N bbs.rdIdx bbs.wrIdx)

theorem BtifBuf.Ok.count_lt {bbs : BtifBuf α} {N : Nat} (h : bbs.Ok N) :
    Circ.dist N bbs.rdIdx bbs.wrIdx < N :=
  Circ.dist_lt h.rd h.wr

section
variable {bbs : BtifBuf α} {N : Nat} (hN : SizeOk N) (h : bbs.Ok N)
include hN h

theorem BtifBuf.Ok.countCur {w : Nat} (hw : w < N) :
    bbs.countCur w = Circ.dist N bbs.rdIdx w := by
  have hlt := hN.lt
  have hrd := h.rd
  unfold BtifBuf.countCur Circ.dist
  rw [h.size]
  by_cases hle : bbs.rdIdx ≤ w
  · rw [if_pos hle, if_pos hle, subU32_eq hle (by omega)]
  · have hback : subU32 bbs.rdIdx w = bbs.rdIdx - w := subU32_eq (by omega) (by omega)
    rw [if_neg hle, if_neg hle, hback, subU32_eq (by omega) hlt]
    omega

theorem BtifBuf.Ok.avaLen : subU32 bbs.left 1 = N - 1 - Circ.dist N bbs.rdIdx bbs.wrIdx := by
  have hlt := hN.lt
  have hc := h.count_lt
  unfold BtifBuf.left BtifBuf.count
  rw [h.countCur hN h.wr, h.size, subU32_eq (by omega) hlt, subU32_eq (by omega) (by omega)]
  omega

theorem BtifBuf.Ok.and_mask (x : Nat) : x &&& bbs.mask = x % N := by
  obtain ⟨k, hk⟩ := hN.pow
  unfold BtifBuf.mask
  rw [h.size, hk, Nat.and_two_pow_sub_one_eq_mod]

/-- **`btif_bbs_wr_direct`** puts the bytes behind the write index. -/
theorem BtifBuf.Ok.wrDirect {data : List α} (hlen : data.length ≤ N) :
    btifBbsWrDirect bbs data = some
      ⟨N, bbs.rdIdx, (bbs.wrIdx + data.length) % N, Circ.write bbs.pBuf N bbs.wrIdx data⟩ := by
  have hlt := hN.lt
  have hw := h.wr
  have hcopy := Circ.copy_copy (f := bbs.pBuf) (e := min (N - bbs.wrIdx) data.length) hw rfl hlen
  unfold btifBbsWrDirect
  rw [h.and_mask hN, Nat.mod_eq_of_lt hw, h.size, subU32_eq (by omega) hlt]
  dsimp only
  have he : min (N - bbs.wrIdx) data.length ≤ N - bbs.wrIdx := Nat.min_le_left _ _
  have he' : min (N - bbs.wrIdx) data.length ≤ data.length := Nat.min_le_right _ _
  generalize min (N - bbs.wrIdx) data.length = e at *
  have htake : (data.take e).length = e := by simp; omega
  have hdrop : (data.drop e).length = data.length - e := by simp
  have h1 : bbs.memcpy bbs.wrIdx (data.take e) =
      some { bbs with pBuf := Circ.copy bbs.pBuf bbs.wrIdx (data.take e) } := by
    rw [BtifBuf.memcpy, if_pos (by rw [h.size, htake]; omega)]
  rw [h1, Option.bind_some, BtifBuf.memcpy, if_pos (by rw [hdrop, h.size]; omega),
    Option.map_some]
  show some (BtifBuf.mk bbs.size bbs.rdIdx ((bbs.wrIdx + data.length) &&& bbs.mask)
    (Circ.copy (Circ.copy bbs.pBuf bbs.wrIdx (data.take e)) 0 (data.drop e))) = _
  rw [hcopy, h.and_mask hN, h.size]

end

/-- The ring with more bytes behind those that it holds. -/
def BtifBuf.appended (bbs : BtifBuf α) (N : Nat) (data : List α) : BtifBuf α :=
  ⟨N, bbs.rdIdx, (bbs.wrIdx + data.length) % N, Circ.write bbs.pBuf N bbs.wrIdx data⟩

/-- The number of bytes that are taken. -/
def BtifBuf.taken (bbs : BtifBuf α) (N : Nat) (data : List α) : Nat :=
  min data.length (N - 1 - Circ.dist N bbs.rdIdx bbs.wrIdx)

theorem BtifBuf.Ok.appended {bbs : BtifBuf α} {N : Nat} (h : bbs.Ok N) (data : List α) :
    (bbs.appended N data).Ok N :=
  ⟨rfl, h.rd, Nat.mod_lt _ (Nat.lt_of_le_of_lt (Nat.zero_le _) h.rd)⟩

section
variable {bbs : BtifBuf α} {N : Nat} (h : bbs.Ok N) {data : List α}
  (hlen : Circ.dist N bbs.rdIdx bbs.wrIdx + data.length < N)
include h hlen

theorem BtifBuf.Ok.wrap_count :
    (bbs.wrIdx + data.length) % N =
      Circ.wrap N (bbs.rdIdx + (Circ.dist N bbs.rdIdx bbs.wrIdx + data.length)) := by
  have hr := h.rd
  have hw := h.wr
  rw [← Circ.wrap_eq_mod (by omega), ← Circ.wrap_wrap_add hr (by omega),
    Circ.wrap_add_dist hr hw]

theorem BtifBuf.Ok.appended_count :
    Circ.dist N bbs.rdIdx (bbs.appended N data).wrIdx =
      Circ.dist N bbs.rdIdx bbs.wrIdx + data.length := by
  show Circ.dist N bbs.rdIdx ((bbs.wrIdx + data.length) % N) = _
  rw [h.wrap_count hlen, Circ.dist_wrap_add h.rd hlen]

theorem BtifBuf.Ok.appended_content :
    (bbs.appended N data).content N = bbs.content N ++ data := by
  have hcount := h.appended_count hlen
  unfold BtifBuf.content
  show Circ.read (Circ.write bbs.pBuf N bbs.wrIdx data) N bbs.rdIdx
    (Circ.dist N bbs.rdIdx (bbs.appended N data).wrIdx) = _
  rw [hcount, Circ.read_write_append h.rd (Circ.wrap_add_dist h.rd h.wr).symm (by omega)]

end

/-- **`btif_bbs_write`** takes what there is room for, and drops everything if too much is pending
then. -/
theorem BtifBuf.Ok.write {bbs : BtifBuf α} {N : Nat} (hN : SizeOk N) (h : bbs.Ok N) (m : Nat)
    (data : List α) :
    (Circ.dist N bbs.rdIdx bbs.wrIdx = N - 1 ∧
      btifBbsWrite N m bbs data = some (0, false, bbs)) ∨
    Circ.dist N bbs.rdIdx bbs.wrIdx < N - 1 ∧ btifBbsWrite N m bbs data = some (bbs.taken N data,
      if Circ.dist N bbs.rdIdx bbs.wrIdx + bbs.taken N data ≥ m then
        (true, (bbs.appended N (data.take (bbs.taken N data))).init N)
      else (false, bbs.appended N (data.take (bbs.taken N data)))) := by
  have hc := h.count_lt
  have hava := h.avaLen hN
  unfold btifBbsWrite
  rw [hava]
  dsimp only
  by_cases h0 : N - 1 - Circ.dist N bbs.rdIdx bbs.wrIdx = 0
  · rw [if_pos h0]
    exact .inl ⟨by omega, rfl⟩
  · rw [if_neg h0]
    refine .inr ⟨by omega, ?_⟩
    have hk : bbs.taken N data = min data.length (N - 1 - Circ.dist N bbs.rdIdx bbs.wrIdx) := rfl
    rw [← hk]
    have hle : (data.take (bbs.taken N data)).length = bbs.taken N data := by simp; omega
    have hroom : Circ.dist N bbs.rdIdx bbs.wrIdx + (data.take (bbs.taken N data)).length < N := by
      omega
    have hcount : (bbs.appended N (data.take (bbs.taken N data))).count =
        Circ.dist N bbs.rdIdx bbs.wrIdx + bbs.taken N data := by
      rw [BtifBuf.count, (h.appended _).countCur hN (h.appended _).wr]
      have happ := h.appended_count hroom
      rw [hle] at happ
      exact happ
    rw [h.wrDirect hN (by omega), Option.map_some]
    show some (if (bbs.appended N (data.take (bbs.taken N data))).count ≥ m then _ else _) = _
    rw [hcount]
    split_ifs
    · rfl
    · rfl

/-! ## The consumer between its steps -/

/-- How many of the bytes between the indices the callback has had. -/
def RxPc.handed (N rdIdx : Nat) : RxPc → Nat
  | .head _ lenTail => lenTail
  | .headCall _ lenTail _ => lenTail
  | .store wrIdx => Circ.dist N rdIdx wrIdx
  | _ => 0

/-- The index that was sampled is between the two. -/
def Sampled (N rdIdx wrIdx w : Nat) : Prop :=
  w < N ∧ Circ.dist N rdIdx w ≤ Circ.dist N rdIdx wrIdx

/-- What the local variables are. -/
def RxPc.Ok (N rdIdx wrIdx : Nat) : RxPc → Prop
  | .idle => True
  | .sample => True
  | .count w => Sampled N rdIdx wrIdx w
  | .branch w => Sampled N rdIdx wrIdx w ∧ w ≠ rdIdx
  | .flat w => Sampled N rdIdx wrIdx w ∧ rdIdx < w
  | .flatCall w pBuf length =>
    Sampled N rdIdx wrIdx w ∧ rdIdx < w ∧ pBuf = rdIdx ∧ length = w - rdIdx
  | .tail w => Sampled N rdIdx wrIdx w ∧ w < rdIdx
  | .tailCall w pBuf lenTail =>
    Sampled N rdIdx wrIdx w ∧ w < rdIdx ∧ pBuf = rdIdx ∧ lenTail = N - rdIdx
  | .head w lenTail => Sampled N rdIdx wrIdx w ∧ w < rdIdx ∧ lenTail = N - rdIdx
  | .headCall w lenTail length =>
    Sampled N rdIdx wrIdx w ∧ w < rdIdx ∧ lenTail = N - rdIdx ∧ length = w
  | .store w => Sampled N rdIdx wrIdx w ∧ w ≠ rdIdx

/-- The consumer works with an index that it sampled. -/
def RxPc.working : RxPc → Bool
  | .idle => false
  | .sample => false
  | _ => true

/-- The ring and the consumer agree. -/
structure BtifRx.Ok (s : BtifRx α) (N : Nat) : Prop where
  bbs : s.bbs.Ok N
  pc : s.pc.Ok N s.bbs.rdIdx s.bbs.wrIdx

/-- The bytes that the callback has still to get. -/
def BtifRx.pending (N : Nat) (s : BtifRx α) : List α :=
  (s.bbs.content N).drop (s.pc.handed N s.bbs.rdIdx)

/-- What a step means for the pending bytes. -/
def RxTrans (u : List α) : BtifIn α → BtifOut α → List α → Prop
  | .bbsWrite data, .written wrLen reset, u' =>
    wrLen ≤ data.length ∧ u' = if reset then [] else u ++ data.take wrLen
  | .consume, .called data, u' => u = data ++ u'
  | .consume, .quiet, u' => u' = u
  | _, _, _ => False

theorem RxPc.Ok.mono {N rd wr wr' : Nat} {pc : RxPc} (h : pc.Ok N rd wr)
    (hle : Circ.dist N rd wr ≤ Circ.dist N rd wr') : pc.Ok N rd wr' := by
  have hs : ∀ w, Sampled N rd wr w → Sampled N rd wr' w := fun w hw => ⟨hw.1, hw.2.trans hle⟩
  cases pc with
  | idle => trivial
  | sample => trivial
  | count w => exact hs w h
  | branch w => exact ⟨hs w h.1, h.2⟩
  | flat w => exact ⟨hs w h.1, h.2⟩
  | flatCall w pBuf length => exact ⟨hs w h.1, h.2⟩
  | tail w => exact ⟨hs w h.1, h.2⟩
  | tailCall w pBuf lenTail => exact ⟨hs w h.1, h.2⟩
  | head w lenTail => exact ⟨hs w h.1, h.2⟩
  | headCall w lenTail length => exact ⟨hs w h.1, h.2⟩
  | store w => exact ⟨hs w h.1, h.2⟩

/-- The callback has had no more than there is. -/
theorem RxPc.Ok.handed_le {N rd wr : Nat} {pc : RxPc} (h : pc.Ok N rd wr) (hrd : rd < N) :
    pc.handed N rd ≤ Circ.dist N rd wr := by
  have htail : ∀ w, Sampled N rd wr w → w < rd → N - rd ≤ Circ.dist N rd wr := by
    intro w hw hlt
    have hd : Circ.dist N rd w = w + N - rd := by unfold Circ.dist; rw [if_neg (by omega)]
    have := hw.2
    omega
  cases pc with
  | head w lenTail =>
    obtain ⟨hw, hlt, rfl⟩ := h
    exact htail w hw hlt
  | headCall w lenTail length =>
    obtain ⟨hw, hlt, rfl, -⟩ := h
    exact htail w hw hlt
  | store w => exact h.1.2
  | _ => exact Nat.zero_le _

section
variable {s : BtifRx α} {N : Nat} (h : s.Ok N)
include h

/-- A part of the content that does not wrap. -/
theorem BtifRx.Ok.slice {off len d : Nat} (hoff : off = Circ.wrap N (s.bbs.rdIdx + d))
    (hend : off + len ≤ N) (hd : d + len ≤ Circ.dist N s.bbs.rdIdx s.bbs.wrIdx) :
    (s.bbs.content N).drop d =
      Circ.slice s.bbs.pBuf off len ++ (s.bbs.content N).drop (d + len) := by
  have hlt := h.bbs.count_lt
  unfold BtifBuf.content
  rw [← List.drop_drop, Circ.slice_eq_read hend, hoff, Circ.read_drop h.bbs.rd (by omega) (by omega)]
  conv_lhs => rw [← List.take_append_drop len (Circ.read s.bbs.pBuf N _ _)]
  rw [Circ.read_take, Nat.min_eq_left (by omega)]

/-- A step that changes the local variables only. -/
theorem BtifRx.Ok.quiet (pc : RxPc) (hpc : pc.Ok N s.bbs.rdIdx s.bbs.wrIdx)
    (hh : pc.handed N s.bbs.rdIdx = s.pc.handed N s.bbs.rdIdx) :
    BtifRx.Ok ⟨s.bbs, pc⟩ N ∧
      RxTrans (s.pending N) .consume .quiet (BtifRx.pending N ⟨s.bbs, pc⟩) := by
  refine ⟨⟨h.bbs, hpc⟩, ?_⟩
  show (s.bbs.content N).drop _ = (s.bbs.content N).drop _
  rw [hh]

/-- A call of the callback with the next bytes. -/
theorem BtifRx.Ok.call {pc : RxPc} {off len : Nat} (hpc : pc.Ok N s.bbs.rdIdx s.bbs.wrIdx)
    (hoff : off = Circ.wrap N (s.bbs.rdIdx + s.pc.handed N s.bbs.rdIdx)) (hend : off + len ≤ N)
    (hh : pc.handed N s.bbs.rdIdx = s.pc.handed N s.bbs.rdIdx + len) :
    rxCb s.bbs off len pc = some (.called (Circ.slice s.bbs.pBuf off len), ⟨s.bbs, pc⟩) ∧
      BtifRx.Ok ⟨s.bbs, pc⟩ N ∧
      RxTrans (s.pending N) .consume (.called (Circ.slice s.bbs.pBuf off len))
        (BtifRx.pending N ⟨s.bbs, pc⟩) := by
  have hle := hpc.handed_le h.bbs.rd
  refine ⟨?_, ⟨h.bbs, hpc⟩, ?_⟩
  · rw [rxCb, if_pos (by rw [h.bbs.size]; exact hend)]
  · show (s.bbs.content N).drop _ = _ ++ (s.bbs.content N).drop (pc.handed N s.bbs.rdIdx)
    rw [hh]
    exact h.slice hoff hend (by omega)

end

/-- How far the consumer is from its return. -/
def RxPc.rank (rdIdx wrIdx : Nat) : RxPc → Nat
  | .idle => 9
  | .sample => 9
  | .count w => if w = rdIdx ∧ wrIdx ≠ rdIdx then 20 else 8
  | .branch _ => 7
  | .flat _ => 6
  | .flatCall .. => 5
  | .tail _ => 6
  | .tailCall .. => 5
  | .head .. => 4
  | .headCall .. => 3
  | .store _ => 2

/-- The rank and the number of bytes between the indices. -/
def BtifRx.measure (N : Nat) (s : BtifRx α) : Nat :=
  40 * Circ.dist N s.bbs.rdIdx s.bbs.wrIdx + s.pc.rank s.bbs.rdIdx s.bbs.wrIdx

/-- The consumer has returned with nothing pending. -/
def BtifRx.Drained (s : BtifRx α) : Prop := s.pc = .idle ∧ s.bbs.rdIdx = s.bbs.wrIdx

/-- What a step of the consumer does. -/
structure Consumes (N : Nat) (s : BtifRx α) (o : BtifOut α) (s' : BtifRx α) : Prop where
  step : btifRxDataConsummer s = some (o, s')
  ok : s'.Ok N
  trans : RxTrans (s.pending N) .consume o (s'.pending N)
  closer : ¬ s.Drained → s'.Drained ∨ s'.measure N < s.measure N

section
variable {s : BtifRx α} {N : Nat} (h : s.Ok N)
include h

theorem BtifRx.Ok.consumesQuiet (pc : RxPc)
    (hstep : btifRxDataConsummer s = some (.quiet, ⟨s.bbs, pc⟩))
    (hpc : pc.Ok N s.bbs.rdIdx s.bbs.wrIdx)
    (hh : pc.handed N s.bbs.rdIdx = s.pc.handed N s.bbs.rdIdx)
    (hr : ¬ s.Drained → pc.rank s.bbs.rdIdx s.bbs.wrIdx < s.pc.rank s.bbs.rdIdx s.bbs.wrIdx) :
    ∃ o s', Consumes N s o s' := by
  obtain ⟨hok, htrans⟩ := h.quiet pc hpc hh
  exact ⟨_, _, hstep, hok, htrans, fun hd => .inr (Nat.add_lt_add_left (hr hd) _)⟩

theorem BtifRx.Ok.consumesCall (pc : RxPc) {off len : Nat}
    (hstep : btifRxDataConsummer s = rxCb s.bbs off len pc)
    (hpc : pc.Ok N s.bbs.rdIdx s.bbs.wrIdx)
    (hoff : off = Circ.wrap N (s.bbs.rdIdx + s.pc.handed N s.bbs.rdIdx)) (hend : off + len ≤ N)
    (hh : pc.handed N s.bbs.rdIdx = s.pc.handed N s.bbs.rdIdx + len)
    (hr : pc.rank s.bbs.rdIdx s.bbs.wrIdx < s.pc.rank s.bbs.rdIdx s.bbs.wrIdx) :
    ∃ o s', Consumes N s o s' := by
  obtain ⟨hcall, hok, htrans⟩ := h.call hpc hoff hend hh
  exact ⟨_, _, hstep.trans hcall, hok, htrans, fun _ => .inr (Nat.add_lt_add_left hr _)⟩

/-- **A step of the consumer** hands on the next bytes or none, and comes closer to the return. -/
theorem BtifRx.Ok.consume (hN : SizeOk N) : ∃ o s', Consumes N s o s' := by
  have hrd := h.bbs.rd
  have hwr := h.bbs.wr
  have hpc := h.pc
  cases heq : s.pc with
  | idle =>
    refine h.consumesQuiet (.count s.bbs.wrIdx) ?_ ⟨hwr, Nat.le_refl _⟩ ?_ fun hd => ?_
    · rw [btifRxDataConsummer, heq]
    · rw [heq]; rfl
    · have hne : s.bbs.rdIdx ≠ s.bbs.wrIdx := fun he => hd ⟨heq, he⟩
      rw [heq]
      simp only [RxPc.rank]
      rw [if_neg (by omega)]
      omega
  | sample =>
    refine h.consumesQuiet (.count s.bbs.wrIdx) ?_ ⟨hwr, Nat.le_refl _⟩ ?_ fun _ => ?_
    · rw [btifRxDataConsummer, heq]
    · rw [heq]; rfl
    · rw [heq]
      simp only [RxPc.rank]
      rw [if_neg (by omega)]
      omega
  | count w =>
    rw [heq] at hpc
    have hcount := h.bbs.countCur hN hpc.1
    by_cases hw : w = s.bbs.rdIdx
    · have hzero : s.bbs.countCur w = 0 := by rw [hcount, hw, Circ.dist_self]
      have hstep : btifRxDataConsummer s = some (.quiet, ⟨s.bbs, .idle⟩) := by
        rw [btifRxDataConsummer, heq]
        simp [hzero]
      obtain ⟨hok, htrans⟩ := h.quiet .idle trivial (by rw [heq]; rfl)
      refine ⟨_, _, hstep, hok, htrans, fun _ => ?_⟩
      by_cases hwe : s.bbs.rdIdx = s.bbs.wrIdx
      · exact .inl ⟨rfl, hwe⟩
      · refine .inr (Nat.add_lt_add_left ?_ _)
        rw [heq]
        simp only [RxPc.rank]
        rw [if_pos ⟨hw, Ne.symm hwe⟩]
        omega
    · have hpos : s.bbs.countCur w > 0 := by
        rw [hcount]
        unfold Circ.dist
        split_ifs <;> omega
      refine h.consumesQuiet (.branch w) ?_ ⟨hpc, hw⟩ ?_ fun _ => ?_
      · rw [btifRxDataConsummer, heq]
        simp [hpos]
      · rw [heq]; rfl
      · rw [heq]
        simp only [RxPc.rank]
        split_ifs <;> omega
  | branch w =>
    rw [heq] at hpc
    by_cases hle : s.bbs.rdIdx ≤ w
    · refine h.consumesQuiet (.flat w) ?_ ⟨hpc.1, by have := hpc.2; omega⟩ ?_ fun _ => ?_
      · rw [btifRxDataConsummer, heq]
        simp [hle]
      · rw [heq]; rfl
      · rw [heq]; simp [RxPc.rank]
    · refine h.consumesQuiet (.tail w) ?_ ⟨hpc.1, by omega⟩ ?_ fun _ => ?_
      · rw [btifRxDataConsummer, heq]
        simp [hle]
      · rw [heq]; rfl
      · rw [heq]; simp [RxPc.rank]
  | flat w =>
    rw [heq] at hpc
    have hcount := h.bbs.countCur hN hpc.1.1
    refine h.consumesQuiet (.flatCall w s.bbs.rdIdx (s.bbs.countCur w)) ?_ ?_ ?_ fun _ => ?_
    · rw [btifRxDataConsummer, heq]
    · refine ⟨hpc.1, hpc.2, rfl, ?_⟩
      rw [hcount, Circ.dist, if_pos (Nat.le_of_lt hpc.2)]
    · rw [heq]; rfl
    · rw [heq]; simp [RxPc.rank]
  | flatCall w pBuf length =>
    rw [heq] at hpc
    obtain ⟨hw, hlt, rfl, rfl⟩ := hpc
    refine h.consumesCall (.store w) (by rw [btifRxDataConsummer, heq]) ⟨hw, by omega⟩ ?_ ?_
      ?_ ?_
    · rw [heq]; exact (Circ.wrap_of_lt hrd).symm
    · have := hw.1; omega
    · rw [heq]
      simp only [RxPc.handed, Circ.dist]
      rw [if_pos (Nat.le_of_lt hlt)]
      omega
    · rw [heq]; simp [RxPc.rank]
  | tail w =>
    rw [heq] at hpc
    have hlt := hN.lt
    refine h.consumesQuiet (.tailCall w s.bbs.rdIdx (N - s.bbs.rdIdx)) ?_
      ⟨hpc.1, hpc.2, rfl, rfl⟩ ?_ fun _ => ?_
    · rw [btifRxDataConsummer, heq]
      simp only
      rw [h.bbs.size, subU32_eq (by omega) hlt]
    · rw [heq]; rfl
    · rw [heq]; simp [RxPc.rank]
  | tailCall w pBuf lenTail =>
    rw [heq] at hpc
    obtain ⟨hw, hlt, rfl, rfl⟩ := hpc
    refine h.consumesCall (.head w (N - s.bbs.rdIdx)) (by rw [btifRxDataConsummer, heq])
      ⟨hw, hlt, rfl⟩ ?_ (by omega) ?_ ?_
    · rw [heq]; exact (Circ.wrap_of_lt hrd).symm
    · rw [heq]; simp [RxPc.handed]
    · rw [heq]; simp [RxPc.rank]
  | head w lenTail =>
    rw [heq] at hpc
    obtain ⟨hw, hlt, rfl⟩ := hpc
    have hcount := h.bbs.countCur hN hw.1
    have hlt32 := hN.lt
    have hdist : Circ.dist N s.bbs.rdIdx w = w + N - s.bbs.rdIdx := by
      rw [Circ.dist, if_neg (by omega)]
    refine h.consumesQuiet (.headCall w (N - s.bbs.rdIdx) w) ?_ ⟨hw, hlt, rfl, rfl⟩ ?_ fun _ => ?_
    · rw [btifRxDataConsummer, heq]
      simp only
      rw [hcount, hdist, subU32_eq (by omega) (by omega)]
      congr 4
      omega
    · rw [heq]; rfl
    · rw [heq]; simp [RxPc.rank]
  | headCall w lenTail length =>
    rw [heq] at hpc
    obtain ⟨hw, hlt, rfl, rfl⟩ := hpc
    refine h.consumesCall (.store length) (by rw [btifRxDataConsummer, heq]) ⟨hw, by omega⟩ ?_
      ?_ ?_ ?_
    · rw [heq]
      show 0 = Circ.wrap N (s.bbs.rdIdx + (N - s.bbs.rdIdx))
      rw [Circ.wrap_of_ge (by omega)]
      omega
    · have := hw.1; omega
    · rw [heq]
      simp only [RxPc.handed, Circ.dist]
      rw [if_neg (by omega)]
      omega
    · rw [heq]; simp [RxPc.rank]
  | store w =>
    rw [heq] at hpc
    obtain ⟨⟨hw, hle⟩, hne⟩ := hpc
    have hsplit : Circ.dist N w s.bbs.wrIdx =
        Circ.dist N s.bbs.rdIdx s.bbs.wrIdx - Circ.dist N s.bbs.rdIdx w := by
      unfold Circ.dist at *
      split_ifs at * <;> omega
    have hpos : 0 < Circ.dist N s.bbs.rdIdx w := by
      unfold Circ.dist
      split_ifs <;> omega
    have hok : BtifRx.Ok ⟨{ s.bbs with rdIdx := w }, .sample⟩ N := ⟨⟨h.bbs.size, hw, hwr⟩, trivial⟩
    refine ⟨.quiet, _, by rw [btifRxDataConsummer, heq], hok, ?_, fun _ => .inr ?_⟩
    · show Circ.read s.bbs.pBuf N w (Circ.dist N w s.bbs.wrIdx) =
        (s.bbs.content N).drop (s.pc.handed N s.bbs.rdIdx)
      rw [heq]
      unfold BtifBuf.content
      show _ = List.drop (Circ.dist N s.bbs.rdIdx w) _
      rw [Circ.read_drop hrd hle (Nat.le_of_lt h.bbs.count_lt), Circ.wrap_add_dist hrd hw, hsplit]
    · show 40 * Circ.dist N w s.bbs.wrIdx + 9 < 40 * _ + s.pc.rank s.bbs.rdIdx s.bbs.wrIdx
      rw [heq, hsplit]
      simp only [RxPc.rank]
      omega

end

end Btif
