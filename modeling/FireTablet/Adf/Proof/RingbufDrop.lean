import FireTablet.Adf.Proof.RingbufFacts

/-!
# Overwrite mode: what a write discards

With a positive `dropunit`, data that does not fit makes `_adfRingbuf_checkDrop` move the read
pointer on by the excess rounded up to whole units. A write by copy (`adfRingbuf_write`) and in
place (`adfRingbuf_add`, `adfRingbuf_apply`: the hardware has stored the bytes before the write
pointer moves) then keeps a suffix of the old content and all of the data, exactly when the data
fits or the excess is not a whole number of units (then at least one slot stays free) and rounds up
to no more than the bytes stored (`overwrite_iff`). An excess of whole units, zero included, makes
the write pointer catch up with the read pointer, so that a full ring looks empty
(`overwrite_full_looks_empty`).
-/

namespace Adf

open CInt

/-! ## The three ways to write -/

/-- The ring whose hardware has stored `data` from the write pointer on. -/
def Ring.hwStore (s : Ring) (data : List UInt8) : Ring :=
  { s with mem := fun a =>
      if s.rBuf.base ≤ a ∧ a < s.rBuf.limit then
        Circ.write (s.mem.cells s.rBuf.base) s.size s.wslot data (a - s.rBuf.base).toNat
      else s.mem a }

/-- The ways data gets into a ring. -/
inductive WritePath
  | write
  | add
  | apply

/-- The ring after `data` came in; the hardware hands `adfRingbuf_apply` the pointer behind it. -/
def WritePath.run (s : Ring) (data : List UInt8) : WritePath → Option Ring
  | .write => (adfRingbufWrite s (some data) data.length).map (·.2)
  | .add => some (adfRingbufAdd (s.hwStore data) data.length).2
  | .apply => some (adfRingbufApply (s.hwStore data)
      (adfRingbufMovePtr s.rBuf.wp data.length s.rBuf.base s.rBuf.limit)).2

/-- What a write in overwrite mode does: `d` bytes are discarded, whole units and no more than were
stored, the rest of the old content and all of the data are kept, and `drop` counts them. -/
structure OverwriteOk (s : Ring) (data : List UInt8) (s' : Ring) (d : Nat) : Prop where
  suffix : s'.content = (s.content ++ data).drop d
  all : data <:+ s'.content
  nonempty : data ≠ [] → s'.content ≠ []
  stored : d ≤ s.content.length
  unit : s.rBuf.dropunit ∣ d
  drop : s'.rBuf.drop = s.rBuf.drop + d

/-- The condition on a length: it is less than the free size, or the excess is not a whole number of
units, rounds up to no more than the used size, and the `int32_t` sums do not overflow. -/
def DropFits (b : AdfRingbuf) (len : Int) : Prop :=
  len < adfRingbufGetFreeSize b ∨
    (len - adfRingbufGetFreeSize b) % b.dropunit ≠ 0 ∧
    roundUp (len - adfRingbufGetFreeSize b) b.dropunit ≤ adfRingbufGetUsedSize b ∧
    len - adfRingbufGetFreeSize b + b.dropunit - 1 ≤ 2147483647 ∧
    b.drop + roundUp (len - adfRingbufGetFreeSize b) b.dropunit ≤ 2147483647

/-! ## The length dropped -/

/-- The length `_adfRingbuf_checkDrop` drops. -/
def dropLen (b : AdfRingbuf) (len : Int) : Int :=
  i32 (len - adfRingbufGetFreeSize b + b.dropunit - 1) -
    (i32 (len - adfRingbufGetFreeSize b + b.dropunit - 1)).tmod b.dropunit

theorem dropLen_eq {b : AdfRingbuf} {len : Int} (hd : 0 < b.dropunit)
    (h0 : adfRingbufGetFreeSize b ≤ len)
    (h : len - adfRingbufGetFreeSize b + b.dropunit - 1 ≤ 2147483647) :
    dropLen b len = roundUp (len - adfRingbufGetFreeSize b) b.dropunit := by
  unfold dropLen
  rw [i32_eq (by unfold IsI32; omega), Int.tmod_eq_emod_of_nonneg (by omega)]
  rfl

/-- The struct after `_adfRingbuf_checkDrop`. -/
def droppedBuf (b : AdfRingbuf) (len : Int) : AdfRingbuf :=
  if len ≥ adfRingbufGetFreeSize b then
    { b with
      drop := i32 (b.drop + dropLen b len)
      rp := adfRingbufMovePtr b.rp (dropLen b len) b.base b.limit }
  else b

theorem checkDrop_eq {b : AdfRingbuf} (hd : 0 < b.dropunit) (len : Int) :
    adfRingbufCheckDrop b len = (len, droppedBuf b len) := by
  unfold adfRingbufCheckDrop droppedBuf dropLen adfRingbufGetFreeSize
  dsimp only
  rw [if_pos hd]
  split_ifs <;> rfl

@[simp] theorem droppedBuf_base (b : AdfRingbuf) (len : Int) :
    (droppedBuf b len).base = b.base := by
  unfold droppedBuf; split <;> rfl

/-- The struct after the data came in. -/
def writtenBuf (b : AdfRingbuf) (len : Int) : AdfRingbuf :=
  { droppedBuf b len with
    wp := adfRingbufMovePtr (droppedBuf b len).wp len (droppedBuf b len).base
      (droppedBuf b len).limit }

/-! ## The three ways agree -/

section
variable {s : Ring} (h : s.Valid) (hd : 0 < s.rBuf.dropunit) {data : List UInt8}
include h

/-- The hardware's store is the circular write of the data. -/
theorem Ring.Valid.hwStore_cells :
    (s.hwStore data).mem.cells s.rBuf.base =
      Circ.write (s.mem.cells s.rBuf.base) s.size s.wslot data := by
  funext p
  have hl := h.at.limit
  simp only [Ring.hwStore, Mem.cells]
  split_ifs with hp
  · rw [show (s.rBuf.base + (p : Int) - s.rBuf.base).toNat = p by omega]
  · unfold Circ.write
    rw [if_neg (by omega)]
    rfl

include hd

/-- Each way of writing ends with the same struct. -/
theorem WritePath.run_rBuf {path : WritePath} {s' : Ring} (h0 : data ≠ [])
    (hlen : data.length < s.size) (hs : path.run s data = some s') :
    s'.rBuf = writtenBuf s.rBuf data.length := by
  have hl0 : (data.length : Int) ≠ 0 := by simpa using h0
  cases path with
  | write =>
    simp only [WritePath.run, adfRingbufWrite, if_neg hl0, checkDrop_eq hd, Option.map_map,
      Option.map_eq_some_iff] at hs
    obtain ⟨m, -, rfl⟩ := hs
    simp [writtenBuf]
  | add =>
    simp only [WritePath.run, adfRingbufAdd, if_neg hl0, Option.some.injEq] at hs
    subst hs
    simp [Ring.hwStore, checkDrop_eq hd, writtenBuf]
  | apply =>
    have hat := h.at
    have hw := hat.w_lt
    have hmove := hat.move_wp (k := data.length) (by omega)
    have hnew := hat.movePtr (k := data.length) hw (by omega)
    rw [← hat.wp] at hnew
    have hwrap : Circ.wrap s.size (s.wslot + data.length) < s.size := Circ.wrap_lt (by omega)
    have hne : s.wslot ≠ Circ.wrap s.size (s.wslot + data.length) := by
      have : data.length ≠ 0 := by omega
      unfold Circ.wrap; split_ifs <;> omega
    -- the length that `adfRingbuf_apply` computes from the pointers
    have hrw : adfRingbufCalcRwSize s.rBuf.wp (adfRingbufMovePtr s.rBuf.wp data.length s.rBuf.base
        s.rBuf.limit) s.rBuf.base s.rBuf.limit = data.length := by
      have hat2 : RingAt { s.rBuf with
          rp := s.rBuf.wp
          wp := adfRingbufMovePtr s.rBuf.wp data.length s.rBuf.base s.rBuf.limit } s.size s.wslot
          (Circ.wrap s.size (s.wslot + data.length)) :=
        ⟨hat.base, hat.limit, hat.limitI32, hat.sizeI32, hat.wp, hnew, hw, hwrap⟩
      exact hat2.usedSize.trans (by rw [Circ.dist_wrap_add hw hlen])
    have hin : adfRingbufInRange (adfRingbufMovePtr s.rBuf.wp data.length s.rBuf.base s.rBuf.limit)
        s.rBuf.base s.rBuf.limit = true := by
      rw [inRange_iff, hnew, hat.limit]; omega
    have hwp : adfRingbufMovePtr s.rBuf.wp data.length s.rBuf.base s.rBuf.limit ≠ s.rBuf.wp := by
      rw [hnew, hat.wp]; omega
    simp only [WritePath.run, adfRingbufApply, Ring.hwStore, hwp, hin, hrw, checkDrop_eq hd,
      Option.some.injEq] at hs
    subst hs
    simp [writtenBuf]

end

/-! ## The condition -/

section
variable {s : Ring} (h : s.Valid)
include h

/-- The struct a `d`-byte drop leaves. -/
theorem Ring.Valid.droppedAt {len : Int} {d : Nat} (hdu : d ≤ s.used)
    (he : adfRingbufGetFreeSize s.rBuf ≤ len → dropLen s.rBuf len = d)
    (hlt : len < adfRingbufGetFreeSize s.rBuf → d = 0) :
    RingAt (droppedBuf s.rBuf len) s.size (Circ.wrap s.size (s.rslot + d)) s.wslot := by
  have hu : s.used < s.size := h.at.used_lt
  unfold droppedBuf
  split_ifs with hle
  · rw [he hle]
    exact h.at.move_rp (by omega) _
  · rw [hlt (by omega), Nat.add_zero, Circ.wrap_of_lt h.at.r_lt]
    exact h.at

/-- The content of a ring whose read pointer has moved over its `d` oldest bytes. -/
theorem Ring.Valid.dropped_content {b : AdfRingbuf} {d : Nat} (hdu : d ≤ s.used)
    (hb : b.base = s.rBuf.base)
    (hat : RingAt b s.size (Circ.wrap s.size (s.rslot + d)) s.wslot) :
    Ring.content ⟨b, s.mem⟩ = s.content.drop d ∧
      Circ.dist s.size (Circ.wrap s.size (s.rslot + d)) s.wslot = s.used - d := by
  have hr := h.at.r_lt
  have hw := h.at.w_lt
  have hdist : Circ.dist s.size (Circ.wrap s.size (s.rslot + d)) s.wslot = s.used - d := by
    unfold Ring.used Circ.wrap Circ.dist at *; split_ifs at * <;> omega
  have hu : s.used < s.size := h.at.used_lt
  refine ⟨?_, hdist⟩
  rw [RingAt.content_eq (s := ⟨b, s.mem⟩) hat, hdist, h.at.content_eq, ← h.at.used_eq,
    Circ.read_drop hr hdu (Nat.le_of_lt hu)]
  dsimp only
  rw [hb]

/-- Where the condition holds, the number of bytes dropped. -/
theorem Ring.Valid.drops (hd : 0 < s.rBuf.dropunit) {len : Nat} (hf : DropFits s.rBuf len) :
    ∃ d : Nat, d ≤ s.used ∧ s.used - d + len < s.size ∧ s.rBuf.dropunit ∣ d ∧
      (adfRingbufGetFreeSize s.rBuf ≤ len → dropLen s.rBuf len = d) ∧
      (len < adfRingbufGetFreeSize s.rBuf → d = 0) ∧
      (droppedBuf s.rBuf len).drop = s.rBuf.drop + d := by
  have hfree := h.at.freeSize
  have hused := h.at.usedSize
  have hu := h.at.used_lt
  have hdrop := h.drop
  rw [← h.at.used_eq] at hfree hused hu
  rcases Int.lt_or_le len (adfRingbufGetFreeSize s.rBuf) with hlt | hge
  · refine ⟨0, Nat.zero_le _, by omega, by simp, fun hge => absurd hlt (by omega), fun _ => rfl, ?_⟩
    rw [droppedBuf, if_neg (by omega)]; simp
  · obtain ⟨hmod, hru, hov, hdr⟩ := hf.resolve_left (by omega)
    have hdl := dropLen_eq hd hge hov
    have hup := (lt_roundUp_iff hd).2 hmod
    have hnn : 0 ≤ roundUp (len - adfRingbufGetFreeSize s.rBuf) s.rBuf.dropunit := by omega
    obtain ⟨d, hdd⟩ := Int.eq_ofNat_of_zero_le hnn
    have hdvd := dvd_roundUp (len - adfRingbufGetFreeSize s.rBuf) s.rBuf.dropunit
    rw [hdd] at hdl hup hru hdr hdvd
    refine ⟨d, by omega, by omega, hdvd, fun _ => hdl, fun hlt => absurd hge (by omega), ?_⟩
    rw [droppedBuf, if_pos hge, hdl]
    dsimp only
    unfold IsI32 at hdrop
    exact i32_eq (by unfold IsI32; omega)

/-- The ring after the data came in over the `d` oldest bytes. -/
theorem Ring.Valid.written {data : List UInt8} {d : Nat} {m : Mem} (hdu : d ≤ s.used)
    (hN : s.used - d + data.length < s.size)
    (hat : RingAt (droppedBuf s.rBuf data.length) s.size (Circ.wrap s.size (s.rslot + d)) s.wslot)
    (hm : m.cells s.rBuf.base = Circ.write (s.mem.cells s.rBuf.base) s.size s.wslot data) :
    Ring.content ⟨writtenBuf s.rBuf data.length, m⟩ = s.content.drop d ++ data := by
  obtain ⟨hc, hdist⟩ := h.dropped_content hdu (droppedBuf_base _ _) hat
  have hat' := hat.move_wp (k := data.length) (by omega)
  change RingAt (writtenBuf s.rBuf data.length) _ _ _ at hat'
  have hbase : (writtenBuf s.rBuf data.length).base = s.rBuf.base := droppedBuf_base _ _
  rw [RingAt.content_eq (s := ⟨writtenBuf s.rBuf data.length, m⟩) hat', ← hc,
    RingAt.content_eq (s := ⟨droppedBuf s.rBuf data.length, s.mem⟩) hat, hdist]
  dsimp only
  rw [hbase, hm, droppedBuf_base]
  have hw := hat.w_lt
  have hr := hat.r_lt
  have hlast : Circ.dist s.size (Circ.wrap s.size (s.rslot + d))
      (Circ.wrap s.size (s.wslot + data.length)) = s.used - d + data.length := by
    generalize Circ.wrap s.size (s.rslot + d) = r at *
    unfold Circ.wrap Circ.dist at *; split_ifs at * <;> omega
  rw [hlast]
  exact Circ.read_write_append hr (by rw [← hdist, Circ.wrap_add_dist hr hw]) (by omega)

end

theorem apply_mem (s : Ring) (new : Int) : (adfRingbufApply s new).2.mem = s.mem := by
  unfold adfRingbufApply
  split <;> rfl

theorem add_mem (s : Ring) (len : Int) : (adfRingbufAdd s len).2.mem = s.mem := by
  unfold adfRingbufAdd
  split <;> rfl

/-- Each way of writing returns and stores the data from the write pointer on. -/
theorem WritePath.run_some {s : Ring} (h : s.Valid) (hd : 0 < s.rBuf.dropunit)
    {data : List UInt8} (path : WritePath) (h0 : data ≠ []) (hlen : data.length < s.size) {r : Nat}
    (hat : RingAt (droppedBuf s.rBuf data.length) s.size r s.wslot) :
    ∃ m, path.run s data = some ⟨writtenBuf s.rBuf data.length, m⟩ ∧
      m.cells s.rBuf.base = Circ.write (s.mem.cells s.rBuf.base) s.size s.wslot data := by
  have key : ∀ s', path.run s data = some s' →
      path.run s data = some ⟨writtenBuf s.rBuf data.length, s'.mem⟩ := fun s' hs => by
    rw [hs, ← WritePath.run_rBuf h hd h0 hlen hs]
  cases path with
  | write =>
    obtain ⟨m, hm, hcells, -⟩ :=
      RingAt.writeCopy (s := ⟨droppedBuf s.rBuf data.length, s.mem⟩) hat (Nat.le_refl _)
        (Nat.le_of_lt hlen)
    rw [List.take_length] at hcells
    have hl0 : (data.length : Int) ≠ 0 := by simpa using h0
    refine ⟨m, key ⟨writtenBuf s.rBuf data.length, m⟩ ?_, by simpa using hcells⟩
    simp only [WritePath.run, adfRingbufWrite, if_neg hl0, checkDrop_eq hd]
    rw [hm]
    rfl
  | add =>
    refine ⟨_, key _ rfl, ?_⟩
    rw [add_mem]
    exact h.hwStore_cells
  | apply =>
    refine ⟨_, key _ rfl, ?_⟩
    rw [apply_mem]
    exact h.hwStore_cells

/-- Writing nothing. -/
theorem WritePath.run_nil {s : Ring} (h : s.Valid) (path : WritePath) :
    ∃ s', path.run s [] = some s' ∧ s'.rBuf = s.rBuf ∧ s'.content = s.content := by
  have hcells : (s.hwStore []).mem.cells s.rBuf.base = s.mem.cells s.rBuf.base := by
    rw [h.hwStore_cells]
    funext p
    exact Circ.write_other (Nat.zero_le _)
  have hc : (s.hwStore []).content = s.content := by
    rw [h.at.content_eq, RingAt.content_eq (s := s.hwStore []) h.at]
    exact congrArg (fun f => Circ.read f _ _ _) hcells
  have hmove : adfRingbufMovePtr s.rBuf.wp 0 s.rBuf.base s.rBuf.limit = s.rBuf.wp := by
    have := h.at.movePtr (k := 0) h.at.w_lt (Nat.zero_le _)
    rwa [← h.at.wp, Nat.add_zero, Circ.wrap_of_lt h.at.w_lt, ← h.at.wp] at this
  cases path with
  | write => exact ⟨s, by simp [WritePath.run, adfRingbufWrite], rfl, rfl⟩
  | add => exact ⟨s.hwStore [], by simp [WritePath.run, adfRingbufAdd], rfl, hc⟩
  | apply =>
    refine ⟨s.hwStore [], ?_, rfl, hc⟩
    have hwp : (s.hwStore []).rBuf.wp = s.rBuf.wp := rfl
    simp [WritePath.run, adfRingbufApply, hmove, hwp]

/-- The condition is enough. -/
theorem overwrite_of_fits {s : Ring} (h : s.Valid) (hd : 0 < s.rBuf.dropunit) (path : WritePath)
    {data : List UInt8} (hlen : data.length < s.size) (hf : DropFits s.rBuf data.length) :
    ∃ s' d, path.run s data = some s' ∧ OverwriteOk s data s' d := by
  by_cases h0 : data = []
  · subst h0
    obtain ⟨s', hs, hb, hc⟩ := WritePath.run_nil h path
    refine ⟨s', 0, hs, ⟨by simp [hc], List.nil_suffix, fun hne => absurd rfl hne, Nat.zero_le _,
      by simp, by simp [hb]⟩⟩
  obtain ⟨d, hdu, hN, hdvd, he, hlt, hdrop⟩ := h.drops hd hf
  have hat := h.droppedAt hdu he hlt
  obtain ⟨m, hs, hm⟩ := WritePath.run_some h hd path h0 hlen hat
  have hc := h.written hdu hN hat hm
  have hle : d ≤ s.content.length := by rw [h.at.content_length, ← h.at.used_eq]; exact hdu
  refine ⟨_, d, hs, ⟨?_, ⟨_, hc.symm⟩, fun _ he => ?_, hle, hdvd, hdrop⟩⟩
  · rw [hc, List.drop_append_of_le_length hle]
  · rw [hc] at he
    exact h0 (List.append_eq_nil_iff.1 he).2

/-- The condition is needed. -/
theorem fits_of_overwrite {s s' : Ring} (h : s.Valid) (hd : 0 < s.rBuf.dropunit)
    (hdI : IsI32 s.rBuf.dropunit) (path : WritePath) {data : List UInt8} {d : Nat}
    (hlen : data.length < s.size) (hs : path.run s data = some s') (ho : OverwriteOk s data s' d) :
    DropFits s.rBuf data.length := by
  have hfree := h.at.freeSize
  have hused := h.at.usedSize
  have hu := h.at.used_lt
  have hcl := h.at.content_length
  rw [← h.at.used_eq] at hfree hused hu hcl
  rcases Int.lt_or_le data.length (adfRingbufGetFreeSize s.rBuf) with hlt | hge
  · exact .inl hlt
  have h0 : data ≠ [] := fun h0 => by simp [h0] at hge; omega
  have hb := WritePath.run_rBuf h hd h0 hlen hs
  have hN := h.at.sizeI32
  have hdrI := h.drop
  unfold IsI32 at hN hdrI hdI
  have hdu := ho.stored
  rw [hcl] at hdu
  -- the drop counter shows that the read pointer moved by `d`
  have hdl : dropLen s.rBuf data.length = d := by
    have h1 := ho.drop
    rw [hb, show (writtenBuf s.rBuf data.length).drop = (droppedBuf s.rBuf data.length).drop from
      rfl, droppedBuf, if_pos hge] at h1
    have h2 := isI32_i32 (data.length - adfRingbufGetFreeSize s.rBuf + s.rBuf.dropunit - 1)
    have h3 := tmod_between
      (i32 (data.length - adfRingbufGetFreeSize s.rBuf + s.rBuf.dropunit - 1)) hd
    change i32 (s.rBuf.drop + dropLen s.rBuf data.length) = _ at h1
    unfold dropLen at h1 ⊢
    unfold IsI32 at h2
    generalize i32 (data.length - adfRingbufGetFreeSize s.rBuf + s.rBuf.dropunit - 1) = x at *
    unfold i32 at h1
    omega
  have hat := h.droppedAt hdu (fun _ => hdl) (fun hlt => absurd hge (by omega))
  have hat' := hat.move_wp (k := data.length) (by omega)
  change RingAt (writtenBuf s.rBuf data.length) _ _ _ at hat'
  rw [← hb] at hat'
  -- what is kept leaves a slot free, so more than the excess was dropped
  have hkept : (data.length : Int) - adfRingbufGetFreeSize s.rBuf < d := by
    have h1 := congrArg List.length ho.suffix
    rw [hat'.content_length, List.length_drop, List.length_append, hcl] at h1
    have h2 := hat'.used_lt
    omega
  have hov : data.length - adfRingbufGetFreeSize s.rBuf + s.rBuf.dropunit - 1 ≤ 2147483647 := by
    have h3 := tmod_between
      (i32 (data.length - adfRingbufGetFreeSize s.rBuf + s.rBuf.dropunit - 1)) hd
    unfold dropLen at hdl
    by_contra hc
    have h4 : i32 (data.length - adfRingbufGetFreeSize s.rBuf + s.rBuf.dropunit - 1) < 0 := by
      unfold i32; omega
    omega
  rw [dropLen_eq hd hge hov] at hdl
  refine .inr ⟨(lt_roundUp_iff hd).1 (by omega), by omega, hov, ?_⟩
  have h1 := isI32_i32 (s.rBuf.drop + d)
  have h2 : s'.rBuf.drop = i32 (s.rBuf.drop + d) := by
    rw [hb, show (writtenBuf s.rBuf data.length).drop = (droppedBuf s.rBuf data.length).drop from
      rfl, droppedBuf, if_pos hge]
    dsimp only
    rw [dropLen_eq hd hge hov, hdl]
  rw [← h2, ho.drop] at h1
  unfold IsI32 at h1
  omega

/-- **Overwrite mode**: data shorter than the ring is taken in, by copy or in place, with only whole
units of the oldest bytes discarded and counted, exactly when the condition holds. -/
theorem overwrite_iff {s : Ring} (h : s.Valid) (hd : 0 < s.rBuf.dropunit)
    (hdI : IsI32 s.rBuf.dropunit) (path : WritePath) {data : List UInt8}
    (hlen : data.length < s.size) :
    (∃ s' d, path.run s data = some s' ∧ OverwriteOk s data s' d) ↔
      DropFits s.rBuf data.length :=
  ⟨fun ⟨_, _, hs, ho⟩ => fits_of_overwrite h hd hdI path hlen hs ho,
    overwrite_of_fits h hd path hlen⟩

/-- A ring of 8 bytes with units of 4 that holds 5 bytes. -/
def drop8 : Ring := ⟨⟨32, 40, 37, 32, 0, 4, (0, 0)⟩, fun a => UInt8.ofNat (a - 31).toNat⟩

theorem drop8_valid : drop8.Valid := by constructor <;> decide

theorem overwrite_drop8 :
    (∃ s' d, WritePath.write.run drop8 [6, 7, 8, 9] = some s' ∧
      OverwriteOk drop8 [6, 7, 8, 9] s' d) ↔ DropFits drop8.rBuf 4 :=
  overwrite_iff drop8_valid (by decide) (by decide) .write (by decide)

/-- Three bytes that just fill the ring: nothing is dropped and the ring looks empty. -/
theorem overwrite_full_looks_empty :
    (∃ s', WritePath.write.run drop8 [6, 7, 8] = some s' ∧ s'.content = [] ∧
      s'.rBuf.drop = 0) ∧
    drop8.content = [1, 2, 3, 4, 5] ∧
    ¬ ∃ s' d, WritePath.write.run drop8 [6, 7, 8] = some s' ∧ OverwriteOk drop8 [6, 7, 8] s' d := by
  refine ⟨⟨_, rfl, by decide, rfl⟩, by decide, ?_⟩
  rintro ⟨s', d, hs, ho⟩
  cases hs
  exact ho.nonempty (by decide) (by decide)

end Adf
