import FireTablet.Adf.Load

/-!
# The loop of `adfLoad_init`

Whether the loop goes on after a section depends on the section's name and size, on the answers of
the surroundings and on the buffers held before it (`secOk`). So the number of sections that the
loop gets through is a function of the image and its surroundings (`okCount`); the section after
them, if there is one, is the last that it looks at. `loadSec_fst`, `loadSec_held` and
`loadSec_data` say what one section does, `loadSecs_fst` and the later modules what the loop does.

`adfLoad_init` checks the size of the image only after it has read everything. So a load stays
inside the image exactly when the image fits: it has the bytes of the version and the platform, its
header with the section array (whose size must not wrap round `2 ^ 32`), and each `BIN` section up
to the first section that fails (`load_safe_iff`).
-/

namespace Adf

/-- The kinds whose buffer is held. -/
def heldOf (data : SecKind → Ptr) : SecKind → Bool := fun k => data k ≠ .null

/-- Section `i` is gone through: it is a `BIN` section that is copied, its buffer is held, or there
is memory for it. -/
def secOk (e : LoadEnv) (held : SecKind → Bool) (i : Nat) (info : SecInfo) : Bool :=
  match info.kind with
  | .bin => match e.binCpy with
    | none => false
    | some binCpy => binCpy i
  | .data k => held k || info.size == 0 || e.kmalloc i
  | .other => true

/-- The kinds whose buffer is held after a section. -/
def heldAfter (held : SecKind → Bool) (info : SecInfo) : SecKind → Bool :=
  match info.kind with
  | .data k => Function.update held k true
  | _ => held

/-- The number of sections, from section `i` on, before the first that fails. -/
def okCount (e : LoadEnv) : (SecKind → Bool) → Nat → List SecInfo → Nat
  | _, _, [] => 0
  | held, i, info :: rest =>
    if secOk e held i info then okCount e (heldAfter held info) (i + 1) rest + 1 else 0

/-! ## `kmalloc` -/

theorem kmalloc_null {ok : Bool} {size next : Nat} :
    (kmalloc ok size next).1 = .null ↔ size ≠ 0 ∧ ok = false := by
  unfold kmalloc
  split_ifs <;> simp_all [Ptr.null, Ptr.zeroSize]

/-- The pointer of section `i` after `loadSec`. -/
def secPtr (e : LoadEnv) (i : Nat) (info : SecInfo) (st : LoadSt) (k : SecKind) : Ptr :=
  if st.data k = .null then (kmalloc (e.kmalloc i) info.size st.next).1 else st.data k

theorem secPtr_null {e : LoadEnv} {i : Nat} {info : SecInfo} {st : LoadSt} {k : SecKind} :
    secPtr e i info st k = .null ↔ (heldOf st.data k || info.size == 0 || e.kmalloc i) = false := by
  unfold secPtr heldOf
  split_ifs with h
  · rw [kmalloc_null]; simp [h]
  · simp [h]

/-! ## One section -/

section
variable (e : LoadEnv) (i : Nat) (info : SecInfo) (st : LoadSt)

/-- A `BIN` section. -/
theorem loadSec_bin (hk : info.kind = .bin) : ∃ dstAddr st',
    loadSec e i info st = (secOk e (heldOf st.data) i info, info, st') ∧
      st'.data = st.data ∧ st'.next = st.next ∧
      st'.binSize = (st.binSize + info.size) % 2 ^ 32 ∧
      st'.evs = st.evs ++ .readSec i e.headerSize ::
        if e.binCpy = none then [] else [.binCpy dstAddr info.offset info.size] := by
  unfold loadSec secOk
  rw [hk]
  cases e.binCpy with
  | none => exact ⟨0, _, rfl, rfl, rfl, rfl, by simp⟩
  | some binCpy => exact ⟨_, _, rfl, rfl, rfl, rfl, by simp; rfl⟩

/-- A section with a buffer. -/
theorem loadSec_data {k : SecKind} (hk : info.kind = .data k) : ∃ st',
    loadSec e i info st =
        (secOk e (heldOf st.data) i info, { info with data := secPtr e i info st k }, st') ∧
      st'.data = Function.update st.data k (secPtr e i info st k) ∧
      st'.next = (if st.data k = .null then (kmalloc (e.kmalloc i) info.size st.next).2
        else st.next) ∧
      st'.binSize = st.binSize ∧
      st'.evs = st.evs ++ (.readSec i e.headerSize ::
        (if st.data k = .null then kmallocEv (secPtr e i info st k) else []) ++
        if secPtr e i info st k = .null then [] else [.memset (secPtr e i info st k) info.size]) := by
  have hp : secPtr e i info st k = .null ↔ _ := secPtr_null
  have hok : secOk e (heldOf st.data) i info = !decide (secPtr e i info st k = .null) := by
    unfold secOk
    rw [hk]
    dsimp only
    by_cases h0 : secPtr e i info st k = .null
    · rw [hp.1 h0]; simp [h0]
    · rw [Bool.of_not_eq_false fun hf => h0 (hp.2 hf)]; simp [h0]
  rw [hok]
  unfold loadSec
  rw [hk]
  have hpair : (if st.data k = .null then kmalloc (e.kmalloc i) info.size st.next
      else (st.data k, st.next)) = (secPtr e i info st k,
        if st.data k = .null then (kmalloc (e.kmalloc i) info.size st.next).2 else st.next) := by
    unfold secPtr; split_ifs <;> rfl
  simp only [hpair]
  by_cases h0 : secPtr e i info st k = .null
  · rw [decide_eq_true h0, if_pos h0, if_pos h0]
    exact ⟨_, rfl, rfl, rfl, rfl, by simp⟩
  · rw [decide_eq_false h0, if_neg h0, if_neg h0]
    exact ⟨_, rfl, rfl, rfl, rfl, by simp⟩

variable {e i info st} in
/-- Another section. -/
theorem loadSec_other (hk : info.kind = .other) :
    loadSec e i info st = (true, info, { st with evs := st.evs ++ [.readSec i e.headerSize] }) := by
  unfold loadSec
  rw [hk]

/-- **Whether the loop goes on**, and the buffers held then. -/
theorem loadSec_ok : (loadSec e i info st).1 = secOk e (heldOf st.data) i info ∧
    (secOk e (heldOf st.data) i info = true →
      heldOf (loadSec e i info st).2.2.data = heldAfter (heldOf st.data) info) := by
  cases hk : info.kind with
  | bin =>
    obtain ⟨_, st', h, hd, -⟩ := loadSec_bin e i _ st hk
    exact ⟨by rw [h], fun _ => by rw [h, heldAfter, hk]; exact congrArg heldOf hd⟩
  | data k =>
    obtain ⟨st', h, hd, -⟩ := loadSec_data e i _ st hk
    refine ⟨by rw [h], fun hok => ?_⟩
    have hne : secPtr e i info st k ≠ .null := fun h0 => by
      rw [secPtr_null] at h0
      unfold secOk at hok
      rw [hk] at hok
      dsimp only at hok
      rw [h0] at hok
      cases hok
    rw [h, heldAfter, hk]
    dsimp only
    rw [hd]
    funext j
    unfold heldOf
    by_cases hj : j = k
    · subst hj; simp [hne]
    · simp [Function.update_of_ne hj]
  | other =>
    rw [loadSec_other hk]
    exact ⟨by simp [secOk, hk], fun _ => by simp [heldAfter, hk]⟩

end

/-! ## The loop -/

theorem loadSecs_cons (e : LoadEnv) (i : Nat) (info : SecInfo) (rest : List SecInfo) (st : LoadSt) :
    loadSecs e i (info :: rest) st =
      if secOk e (heldOf st.data) i info then
        ((loadSecs e (i + 1) rest (loadSec e i info st).2.2).1,
          (loadSec e i info st).2.1 ::
            (loadSecs e (i + 1) rest (loadSec e i info st).2.2).2.1,
          (loadSecs e (i + 1) rest (loadSec e i info st).2.2).2.2)
      else (false, (loadSec e i info st).2.1 :: rest, (loadSec e i info st).2.2) := by
  rw [← (loadSec_ok e i info st).1]
  rfl

/-- **The loop ends well** when every section is gone through. -/
theorem loadSecs_fst (e : LoadEnv) (i : Nat) (secs : List SecInfo) (st : LoadSt) :
    (loadSecs e i secs st).1 = true ↔ okCount e (heldOf st.data) i secs = secs.length := by
  induction secs generalizing i st with
  | nil => simp [loadSecs, okCount]
  | cons info rest ih =>
    rw [loadSecs_cons, okCount]
    have hheld := (loadSec_ok e i info st).2
    split_ifs with hok
    · rw [ih, hheld hok, List.length_cons, Nat.add_right_cancel_iff]
    · simp

/-! ## The buffer for the header -/

section
variable (e : LoadEnv)

/-- Header sizes are multiples of 32. -/
theorem headerSize_mod : e.headerSize % 32 = 0 := by
  unfold LoadEnv.headerSize adfFwHdrlen sizeofSecInfo; omega

/-- The size that is allocated for a header is its size. -/
theorem headerSize_alloc : (e.headerSize + 7) / 8 * 8 % 2 ^ 32 = e.headerSize := by
  have h1 := headerSize_mod e
  have h2 : e.headerSize < 2 ^ 32 := Nat.mod_lt _ (by decide)
  omega

end

/-- A buffer for the header: the one held, or a new one, which is none for the size 0. -/
inductive HeaderBuf (e : LoadEnv) (priv : DspPriv) : Ptr → Nat → List LoadEv → Prop
  | held : priv.dspHeader ≠ .null → HeaderBuf e priv priv.dspHeader priv.next []
  | empty : priv.dspHeader = .null → e.headerSize = 0 →
      HeaderBuf e priv .zeroSize priv.next []
  | fresh : priv.dspHeader = .null → e.headerSize ≠ 0 → e.kmallocHdr = true →
      HeaderBuf e priv (.buf priv.next e.headerSize) (priv.next + 1)
        [.kmalloc (.buf priv.next e.headerSize)]

/-- **`adfLoad_init`** gives up before it loads, or loads with a buffer for the header. -/
theorem adfLoadInit_cases (e : LoadEnv) (priv : DspPriv) :
    (dspCoreNum ≤ e.dspId ∨
        priv.dspHeader = .null ∧ e.headerSize ≠ 0 ∧ e.kmallocHdr = false) ∧
      adfLoadInit e priv = (.generalError, descReads, priv) ∨
    e.dspId < dspCoreNum ∧ ∃ hdr next evs, HeaderBuf e priv hdr next evs ∧
      adfLoadInit e priv = loadFrom e priv.data hdr next (descReads ++ evs) := by
  unfold adfLoadInit
  rw [headerSize_alloc]
  by_cases hid : e.dspId ≥ dspCoreNum
  · exact .inl ⟨.inl hid, if_pos hid⟩
  rw [if_neg hid]
  by_cases hh : priv.dspHeader = .null
  · simp only [if_pos hh]
    unfold kmalloc
    by_cases h0 : e.headerSize = 0
    · rw [if_pos h0]
      exact .inr ⟨by omega, _, _, _, .empty hh h0, if_neg (by simp [Ptr.zeroSize, Ptr.null])⟩
    · rw [if_neg h0]
      cases hk : e.kmallocHdr with
      | false => exact .inl ⟨.inr ⟨hh, h0, rfl⟩, if_pos rfl⟩
      | true => exact .inr ⟨by omega, _, _, _, .fresh hh h0 hk, if_neg (by simp [Ptr.null])⟩
  · simp only [if_neg hh]
    refine .inr ⟨by omega, _, _, _, .held hh, ?_⟩
    rw [List.append_nil]

/-- What a load that has a buffer for the header gives back. -/
theorem loadFrom_out (e : LoadEnv) (data : SecKind → Ptr) (hdr : Ptr) (next : Nat)
    (evs : List LoadEv) : ∃ secs st,
      loadSecs e 0 e.secarray (loadStart e data hdr next evs) =
        (decide (okCount e (heldOf data) 0 e.secarray = e.secarray.length), secs, st) ∧
      (okCount e (heldOf data) 0 e.secarray = e.secarray.length ∧
          e.size = (e.headerSize + st.binSize) % 2 ^ 32 ∧
          loadFrom e data hdr next evs = (.ok, st.evs, ⟨hdr, secs, st.data, st.next⟩) ∨
        ¬(okCount e (heldOf data) 0 e.secarray = e.secarray.length ∧
          e.size = (e.headerSize + st.binSize) % 2 ^ 32) ∧
          loadFrom e data hdr next evs = (.generalError, st.evs ++ loadError hdr secs,
            ⟨.null, [], fun _ => .null, st.next⟩)) := by
  have hfst := loadSecs_fst e 0 e.secarray (loadStart e data hdr next evs)
  change _ ↔ okCount e (heldOf data) 0 e.secarray = e.secarray.length at hfst
  unfold loadFrom
  generalize loadSecs e 0 e.secarray (loadStart e data hdr next evs) = r at *
  obtain ⟨ok, secs, st⟩ := r
  dsimp only at hfst ⊢
  refine ⟨secs, st, ?_, ?_⟩
  · rw [show ok = decide (okCount e (heldOf data) 0 e.secarray = e.secarray.length) by
      rw [Bool.eq_iff_iff, hfst, decide_eq_true_iff]]
  · rw [← hfst]
    by_cases hc : ok = true ∧ e.size = (e.headerSize + st.binSize) % 2 ^ 32
    · exact .inl ⟨hc.1, hc.2, if_pos hc⟩
    · exact .inr ⟨hc, if_neg hc⟩

/-- The error path frees. -/
theorem mem_loadError {hdr : Ptr} {secs : List SecInfo} {ev : LoadEv}
    (h : ev ∈ loadError hdr secs) : ∃ p, ev = .kfree p := by
  have hfree : ∀ p, ev ∈ kfree p → ∃ p, ev = .kfree p := fun p hev => by
    unfold kfree at hev
    split_ifs at hev
    · cases hev
    · exact ⟨p, List.mem_singleton.1 hev⟩
  rcases List.mem_append.1 h with h | h
  · obtain ⟨info, -, h⟩ := List.mem_flatMap.1 h
    split_ifs at h
    · exact hfree _ h
    · cases h
  · exact hfree _ h

/-! ## Reads of a firmware image -/

/-- The bytes `[off, off + len)` are below `size`, if there are any. -/
def Inside (off len size : Nat) : Prop := len = 0 ∨ off + len ≤ size

/-- An access reads bytes of the image only, directly or in the header's copy. -/
def LoadEv.InImage (size : Nat) : LoadEv → Prop
  | .readImage off len => Inside off len size
  | .readCnt copied => 8 ≤ copied
  | .readSec i copied => adfFwHdrlen + (i + 1) * sizeofSecInfo ≤ copied
  | .binCpy _ off len => Inside off len size
  | _ => True

/-- A load reads bytes of the image only, and where it succeeds the header and the `BIN` sections
lie inside the image. -/
structure LoadSafe (e : LoadEnv) (out : AdfStatus × List LoadEv × DspPriv) : Prop where
  reads : ∀ ev ∈ out.2.1, ev.InImage e.size
  header : out.1 = .ok → adfFwHdrlen + e.seccnt * sizeofSecInfo ≤ e.size
  bins : out.1 = .ok → ∀ info ∈ e.secarray, info.kind = .bin → Inside info.offset info.size e.size

/-- Entry `i` of the section array is in the copied header, and its section, if it is to be copied,
in the image. -/
def SecFits (e : LoadEnv) (i : Nat) (info : SecInfo) : Prop :=
  adfFwHdrlen + (i + 1) * sizeofSecInfo ≤ e.headerSize ∧
    (info.kind = .bin → e.binCpy ≠ none → Inside info.offset info.size e.size)

/-- The condition on an image: it has 31 bytes; and, for the DSP there is and with memory for the
header, it has the header, with every section up to the first that fails. -/
structure ImageFits (e : LoadEnv) (priv : DspPriv) : Prop where
  desc : 31 ≤ e.size
  nonempty : e.dspId < dspCoreNum → e.headerSize ≠ 0
  header : e.dspId < dspCoreNum → priv.dspHeader ≠ .null ∨ e.kmallocHdr = true →
    e.headerSize ≤ e.size
  secs : e.dspId < dspCoreNum → priv.dspHeader ≠ .null ∨ e.kmallocHdr = true →
    ∀ i info, e.secarray[i]? = some info → i ≤ okCount e (heldOf priv.data) 0 e.secarray →
      SecFits e i info

/-! ## The loop -/

theorem kmallocEv_inImage (p : Ptr) (size : Nat) : ∀ ev ∈ kmallocEv p, ev.InImage size := by
  cases p <;> simp [kmallocEv, LoadEv.InImage]

theorem loadError_inImage (hdr : Ptr) (secs : List SecInfo) (size : Nat) :
    ∀ ev ∈ loadError hdr secs, ev.InImage size := by
  intro ev hev
  obtain ⟨p, rfl⟩ := mem_loadError hev
  trivial

/-- The reads of one section. -/
theorem loadSec_reads {e : LoadEnv} {i : Nat} {info : SecInfo} {st : LoadSt} :
    (∀ ev ∈ (loadSec e i info st).2.2.evs, ev.InImage e.size) ↔
      (∀ ev ∈ st.evs, ev.InImage e.size) ∧ SecFits e i info := by
  unfold SecFits
  cases hk : info.kind with
  | bin =>
    obtain ⟨dstAddr, st', h, -, -, -, hev⟩ := loadSec_bin e i _ st hk
    rw [h, hev]
    cases hc : e.binCpy <;>
      simp only [List.forall_mem_append, List.forall_mem_cons, LoadEv.InImage] <;> simp
  | data k =>
    obtain ⟨st', h, -, -, -, hev⟩ := loadSec_data e i _ st hk
    rw [h, hev]
    have hkm : ∀ ev ∈ (if st.data k = .null then kmallocEv (secPtr e i info st k) else []),
        ev.InImage e.size := by
      split_ifs
      · exact kmallocEv_inImage _ _
      · simp
    have hms : ∀ ev ∈ (if secPtr e i info st k = .null then ([] : List LoadEv)
        else [.memset (secPtr e i info st k) info.size]), ev.InImage e.size := by
      split_ifs <;> simp [LoadEv.InImage]
    rw [List.forall_mem_append, List.forall_mem_append, List.forall_mem_cons]
    exact ⟨fun ⟨h1, ⟨h2, _⟩, _⟩ => ⟨h1, h2, nofun⟩, fun ⟨h1, h2, _⟩ => ⟨h1, ⟨h2, hkm⟩, hms⟩⟩
  | other =>
    rw [loadSec_other hk]
    simp only [List.forall_mem_append, List.forall_mem_cons, LoadEv.InImage]
    simp

/-- **The reads of the loop**: all sections that it looks at fit. -/
theorem loadSecs_reads (e : LoadEnv) (i : Nat) (secs : List SecInfo) (st : LoadSt) :
    (∀ ev ∈ (loadSecs e i secs st).2.2.evs, ev.InImage e.size) ↔
      (∀ ev ∈ st.evs, ev.InImage e.size) ∧ ∀ j info, secs[j]? = some info →
        j ≤ okCount e (heldOf st.data) i secs → SecFits e (i + j) info := by
  induction secs generalizing i st with
  | nil => simp [loadSecs]
  | cons info rest ih =>
    have hheld := (loadSec_ok e i info st).2
    rw [loadSecs_cons, okCount]
    split_ifs with hok
    · rw [ih, loadSec_reads, hheld hok, and_assoc]
      refine and_congr_right fun _ => ⟨fun ⟨h0, hj⟩ j x hx hle => ?_, fun h => ⟨?_, fun j x hx hle => ?_⟩⟩
      · cases j with
        | zero => cases hx; exact h0
        | succ j =>
          have := hj j x hx (by omega)
          rwa [show i + 1 + j = i + (j + 1) by omega] at this
      · exact h 0 info rfl (Nat.zero_le _)
      · have := h (j + 1) x hx (by omega)
        rwa [show i + (j + 1) = i + 1 + j by omega] at this
    · dsimp only
      rw [loadSec_reads]
      refine and_congr_right fun _ => ⟨fun h0 j x hx hle => ?_, fun h => h 0 info rfl (Nat.le_refl _)⟩
      obtain rfl : j = 0 := by omega
      cases hx
      exact h0

/-! ## The load -/

theorem descReads_inImage {size : Nat} :
    (∀ ev ∈ descReads, ev.InImage size) ↔ 31 ≤ size := by
  simp only [descReads, List.forall_mem_cons, LoadEv.InImage, Inside]
  simp
  omega

/-- The section array that is copied from the image. -/
theorem secarray_length {e : LoadEnv} (h : e.headerSize ≠ 0) : e.secarray.length = e.seccnt := by
  have hmod := headerSize_mod e
  have hcopy : ∀ i ∈ List.range 4, e.copy (4 + i) = e.src (4 + i) := fun i hi =>
    if_pos (by have := List.mem_range.1 hi; omega)
  rw [LoadEnv.secarray, List.length_map, List.length_range, num, List.map_congr_left hcopy]
  rfl

/-- The accesses of a load before its loop. -/
theorem headerReads_inImage {e : LoadEnv} {data : SecKind → Ptr} {hdr : Ptr} {next : Nat}
    {evs : List LoadEv} :
    (∀ ev ∈ (loadStart e data hdr next evs).evs, ev.InImage e.size) ↔
      (∀ ev ∈ evs, ev.InImage e.size) ∧ e.headerSize ≠ 0 ∧ e.headerSize ≤ e.size := by
  have hmod := headerSize_mod e
  unfold loadStart
  rw [List.forall_mem_append]
  simp only [List.forall_mem_cons, LoadEv.InImage, Inside]
  refine and_congr_right fun _ => ?_
  simp
  omega

/-- A `BIN` section that is gone through was copied. -/
theorem binCpy_of_lt_okCount {e : LoadEnv} {held : SecKind → Bool} {i j : Nat}
    {secs : List SecInfo} {info : SecInfo} (hj : secs[j]? = some info)
    (hlt : j < okCount e held i secs) (hk : info.kind = .bin) : e.binCpy ≠ none := by
  induction secs generalizing held i j with
  | nil => cases hj
  | cons x rest ih =>
    unfold okCount at hlt
    split_ifs at hlt with hok
    · cases j with
      | zero =>
        cases hj
        intro hnone
        simp [secOk, hk, hnone] at hok
      | succ j => exact ih hj (Nat.lt_of_succ_lt_succ hlt)
    · omega

/-- **The reads of a load** that has a buffer for the header. -/
theorem loadFrom_safe {e : LoadEnv} {data : SecKind → Ptr} {hdr : Ptr} {next : Nat}
    {evs : List LoadEv} :
    LoadSafe e (loadFrom e data hdr next evs) ↔ (∀ ev ∈ evs, ev.InImage e.size) ∧
      (e.headerSize ≠ 0 ∧ e.headerSize ≤ e.size) ∧
      ∀ i info, e.secarray[i]? = some info → i ≤ okCount e (heldOf data) 0 e.secarray →
        SecFits e i info := by
  obtain ⟨secs, st, hloop, hout⟩ := loadFrom_out e data hdr next evs
  have hreads := loadSecs_reads e 0 e.secarray (loadStart e data hdr next evs)
  rw [hloop, headerReads_inImage, and_assoc] at hreads
  simp only [Nat.zero_add] at hreads
  have hall : (∀ ev ∈ (loadFrom e data hdr next evs).2.1, ev.InImage e.size) ↔
      ∀ ev ∈ st.evs, ev.InImage e.size := by
    rcases hout with ⟨-, -, h⟩ | ⟨-, h⟩
    · rw [h]
    · rw [h, List.forall_mem_append]
      exact ⟨And.left, fun h => ⟨h, loadError_inImage hdr secs e.size⟩⟩
  refine ⟨fun h => hreads.1 (hall.1 h.reads), fun h => ?_⟩
  have hsafe := hall.2 (hreads.2 h)
  obtain ⟨-, ⟨h0, hsz⟩, hsecs⟩ := h
  have hlen := secarray_length h0
  have hcnt : (loadFrom e data hdr next evs).1 = .ok →
      okCount e (heldOf data) 0 e.secarray = e.secarray.length := fun hok => by
    rcases hout with ⟨hcnt, -, -⟩ | ⟨-, hgen⟩
    · exact hcnt
    · rw [hgen] at hok; cases hok
  refine ⟨hsafe, fun hok => ?_, fun hok info hmem hk => ?_⟩
  · -- the last entry of the section array is in the copied header
    have := hcnt hok
    rcases Nat.eq_zero_or_pos e.seccnt with hc | hc
    · have : e.headerSize = 128 := by
        simp [LoadEnv.headerSize, adfFwHdrlen, hc]
      rw [hc]; unfold adfFwHdrlen; omega
    · have hlt : e.seccnt - 1 < e.secarray.length := by omega
      have := (hsecs (e.seccnt - 1) _ (List.getElem?_eq_getElem hlt) (by omega)).1
      rw [show e.seccnt - 1 + 1 = e.seccnt by omega] at this
      omega
  · have := hcnt hok
    obtain ⟨i, hi, rfl⟩ := List.getElem_of_mem hmem
    exact (hsecs i _ (List.getElem?_eq_getElem hi) (by omega)).2 hk
      (binCpy_of_lt_okCount (List.getElem?_eq_getElem hi)
        (show i < okCount e (heldOf data) 0 e.secarray by omega) hk)

/-- The driver before the first load. -/
def noPriv : DspPriv := ⟨.null, [], fun _ => .null, 0⟩

/-- An image of 164 bytes with a section array of one `BIN` section of 4 bytes, at offset 65536. -/
def farBin : LoadEnv where
  src a := match a with
    | 4 => 1
    | 128 => 66 | 129 => 73 | 130 => 78
    | 136 => 4
    | 142 => 1
    | _ => 0
  dst := 0
  size := 164
  binCpy := some fun _ => true
  dspId := 0
  kmallocHdr := true
  kmalloc _ := true
  stale _ := 0

end Adf
