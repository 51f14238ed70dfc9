import FireTablet.Adf.Proof.LoadSafe
import FireTablet.Lib.Run

/-!
# Loading again

The header's buffer and the three data buffers are allocated by the first load that needs them and
kept by later ones, while the sizes are those of the last image. So the buffers have the sizes that
the header declares after every load of a sequence exactly if each image declares no more than the
buffers held have (`reload_sized`). An image with a larger section than the one before is loaded
all the same, and its buffer is cleared past the end (`reload_overrun`).
-/

namespace Adf

/-- One call of `adfLoad_init`. -/
def loadStep (priv : DspPriv) (e : LoadEnv) : Option ((AdfStatus × List LoadEv) × DspPriv) :=
  some (((adfLoadInit e priv).1, (adfLoadInit e priv).2.1), (adfLoadInit e priv).2.2)

/-- The size of the first section of a kind. -/
def firstSize (k : SecKind) (secs : List SecInfo) : Nat :=
  ((secs.find? (·.kind = .data k)).map (·.size)).getD 0

/-- The number of bytes that the buffer of a kind has once the sections are loaded. -/
def capAfter (data : SecKind → Ptr) (secs : List SecInfo) (k : SecKind) : Nat :=
  if data k = .null then firstSize k secs else (data k).cap

/-- The condition on a load: if all sections can be loaded, the header and the sections with a
buffer are no larger than the buffer held, or than the one allocated for the first of them. -/
structure ReloadFits (priv : DspPriv) (e : LoadEnv) : Prop where
  header : okCount e (heldOf priv.data) 0 e.secarray = e.secarray.length →
    adfFwHdrlen + e.seccnt * sizeofSecInfo ≤
      if priv.dspHeader = .null then e.headerSize else priv.dspHeader.cap
  secs : okCount e (heldOf priv.data) 0 e.secarray = e.secarray.length →
    ∀ info ∈ e.secarray, ∀ k, info.kind = .data k → info.size ≤ capAfter priv.data e.secarray k

/-- An access writes inside its buffer. -/
def LoadEv.InBuf : LoadEv → Prop
  | .writeHeader p len => len ≤ p.cap
  | .memset p len => len ≤ p.cap
  | _ => True

/-- After a load that succeeds, the buffers have the sizes that the new header declares, its
sections point to them, and the copy of the header and the clears were inside. -/
structure LoadSized (e : LoadEnv) (out : AdfStatus × List LoadEv) (priv : DspPriv) : Prop where
  header : out.1 = .ok → adfFwHdrlen + e.seccnt * sizeofSecInfo ≤ priv.dspHeader.cap
  secs : out.1 = .ok → ∀ info ∈ priv.secarray, ∀ k, info.kind = .data k →
    info.size ≤ (priv.data k).cap ∧ info.data = priv.data k
  inside : out.1 = .ok → ∀ ev ∈ out.2, ev.InBuf

/-! ## The buffers after the loop -/

/-- A buffer that is held stays. -/
theorem loadSecs_data_held {e : LoadEnv} {i : Nat} {secs : List SecInfo} {st : LoadSt} {k : SecKind}
    (h : st.data k ≠ .null) : (loadSecs e i secs st).2.2.data k = st.data k := by
  induction secs generalizing i st with
  | nil => rfl
  | cons info rest ih =>
    have hsec : (loadSec e i info st).2.2.data k = st.data k := by
      cases hk : info.kind with
      | bin =>
        obtain ⟨_, st', he, hd, -⟩ := loadSec_bin e i _ st hk
        rw [he]; exact congrFun hd k
      | data j =>
        obtain ⟨st', he, hd, -⟩ := loadSec_data e i _ st hk
        rw [he]
        dsimp only
        rw [hd]
        by_cases hj : k = j
        · subst hj; simp [secPtr, h]
        · rw [Function.update_of_ne hj]
      | other => rw [loadSec_other hk]
    rw [loadSecs_cons]
    split_ifs
    · dsimp only
      rw [ih (by rw [hsec]; exact h), hsec]
    · exact hsec

/-- The size of a new buffer. -/
theorem secPtr_cap {e : LoadEnv} {i : Nat} {info : SecInfo} {st : LoadSt} {k : SecKind}
    (h : st.data k = .null) (hne : secPtr e i info st k ≠ .null) :
    (secPtr e i info st k).cap = info.size := by
  unfold secPtr kmalloc at *
  rw [if_pos h] at *
  split_ifs at * with h0
  · rw [h0]; rfl
  · rfl
  · exact absurd rfl hne

/-- What a section that is gone through does to the data buffers. -/
theorem loadSec_data_ok {e : LoadEnv} {i : Nat} {info : SecInfo} {st : LoadSt}
    (hok : secOk e (heldOf st.data) i info = true) :
    (∃ k, info.kind = .data k ∧ secPtr e i info st k ≠ .null ∧
      (loadSec e i info st).2.1 = { info with data := secPtr e i info st k } ∧
      (loadSec e i info st).2.2.data = Function.update st.data k (secPtr e i info st k)) ∨
    (∀ k, info.kind ≠ .data k) ∧ (loadSec e i info st).2.1 = info ∧
      (loadSec e i info st).2.2.data = st.data := by
  cases hk : info.kind with
  | bin =>
    obtain ⟨_, st', he, hd, -⟩ := loadSec_bin e i _ st hk
    exact .inr ⟨nofun, by rw [he], by rw [he]; exact hd⟩
  | data k =>
    obtain ⟨st', he, hd, -⟩ := loadSec_data e i _ st hk
    refine .inl ⟨k, rfl, fun h0 => ?_, by rw [he], by rw [he]; exact hd⟩
    rw [secPtr_null] at h0
    unfold secOk at hok
    rw [hk] at hok
    dsimp only at hok
    rw [h0] at hok
    cases hok
  | other => exact .inr ⟨nofun, by rw [loadSec_other hk], by rw [loadSec_other hk]⟩

theorem firstSize_cons_of_ne {k : SecKind} {info : SecInfo} (h : info.kind ≠ .data k)
    (secs : List SecInfo) : firstSize k (info :: secs) = firstSize k secs := by
  simp [firstSize, h]

theorem firstSize_cons {k : SecKind} {info : SecInfo} (h : info.kind = .data k)
    (secs : List SecInfo) : firstSize k (info :: secs) = info.size := by
  simp [firstSize, h]

/-- One section leaves the sizes of the buffers after the loop as they are. -/
theorem loadSec_capAfter {e : LoadEnv} {i : Nat} {info : SecInfo} {st : LoadSt}
    (hok : secOk e (heldOf st.data) i info = true) (rest : List SecInfo) (k : SecKind) :
    capAfter (loadSec e i info st).2.2.data rest k = capAfter st.data (info :: rest) k := by
  unfold capAfter
  rcases loadSec_data_ok hok with ⟨j, hk, hne, -, hd⟩ | ⟨hk, -, hd⟩
  · rw [hd]
    by_cases hj : k = j
    · subst hj
      rw [Function.update_self, if_neg hne, firstSize_cons hk]
      split_ifs with h0
      · exact secPtr_cap h0 hne
      · simp [secPtr, h0]
    · rw [Function.update_of_ne hj, firstSize_cons_of_ne (by rw [hk]; simpa using Ne.symm hj)]
  · rw [hd, firstSize_cons_of_ne (hk k)]

/-- A section that fails leaves the buffers as they are, and if it is to have a buffer, there is
none. -/
theorem loadSec_data_fail {e : LoadEnv} {i : Nat} {info : SecInfo} {st : LoadSt}
    (hok : ¬ secOk e (heldOf st.data) i info = true) :
    (loadSec e i info st).2.2.data = st.data ∧
      ∀ k, info.kind = .data k → st.data k = .null ∧
        (loadSec e i info st).2.1 = { info with data := .null } := by
  cases hk : info.kind with
  | bin =>
    obtain ⟨_, st', he, hd, -⟩ := loadSec_bin e i _ st hk
    exact ⟨by rw [he]; exact hd, nofun⟩
  | data k =>
    obtain ⟨st', he, hd, -⟩ := loadSec_data e i _ st hk
    have hp : secPtr e i info st k = .null := by
      rw [secPtr_null]
      unfold secOk at hok
      rw [hk] at hok
      exact Bool.of_not_eq_true hok
    have h0 : st.data k = .null := by
      by_contra h0
      simp [secPtr, h0] at hp
    refine ⟨?_, fun j hj => ?_⟩
    · rw [he]; dsimp only
      rw [hd, hp, ← h0, Function.update_eq_self]
    · cases hj
      exact ⟨h0, by rw [he, hp]⟩
  | other => simp [secOk, hk] at hok

/-! ## The loop -/

/-- The sizes of the buffers after the sections that are gone through. -/
theorem loadSecs_cap (e : LoadEnv) (i : Nat) (secs : List SecInfo) (st : LoadSt) (k : SecKind) :
    ((loadSecs e i secs st).2.2.data k).cap =
      capAfter st.data (secs.take (okCount e (heldOf st.data) i secs)) k := by
  have hnil : ∀ data : SecKind → Ptr, capAfter data [] k = (data k).cap := fun data => by
    unfold capAfter
    split_ifs with h0
    · rw [h0]; rfl
    · rfl
  induction secs generalizing i st with
  | nil => rw [List.take_nil, hnil]; rfl
  | cons info rest ih =>
    have hheld := (loadSec_ok e i info st).2
    rw [loadSecs_cons, okCount]
    split_ifs with hsec
    · rw [ih, hheld hsec, loadSec_capAfter hsec, List.take_succ_cons]
    · rw [List.take_zero, hnil, (loadSec_data_fail hsec).1]

/-- The entry of a section whose buffers are `data`. -/
def SecInfo.fill (data : SecKind → Ptr) (info : SecInfo) : SecInfo :=
  match info.kind with
  | .data k => { info with data := data k }
  | _ => info

theorem SecInfo.fill_data {data : SecKind → Ptr} {info : SecInfo} {k : SecKind}
    (h : info.kind = .data k) : info.fill data = { info with data := data k } := by
  unfold SecInfo.fill
  rw [h]

theorem SecInfo.fill_other {data : SecKind → Ptr} {info : SecInfo}
    (h : ∀ k, info.kind ≠ .data k) : info.fill data = info := by
  unfold SecInfo.fill
  split
  · exact absurd ‹_› (h _)
  · rfl

/-- **The section array after the loop**: the sections that it looked at have their buffers. -/
theorem loadSecs_secs (e : LoadEnv) (i : Nat) (secs : List SecInfo) (st : LoadSt) :
    (loadSecs e i secs st).2.1 =
      (secs.take (okCount e (heldOf st.data) i secs + 1)).map
          (SecInfo.fill (loadSecs e i secs st).2.2.data) ++
        secs.drop (okCount e (heldOf st.data) i secs + 1) := by
  induction secs generalizing i st with
  | nil => rfl
  | cons info rest ih =>
    have hheld := (loadSec_ok e i info st).2
    rw [loadSecs_cons, okCount]
    split_ifs with hsec
    · rw [List.take_succ_cons, List.drop_succ_cons, List.map_cons, List.cons_append, ← hheld hsec]
      dsimp only
      rw [← ih]
      refine congrArg (· :: _) ?_
      rcases loadSec_data_ok hsec with ⟨k, hk, hne, he, hd⟩ | ⟨hno, he, -⟩
      · have hst : (loadSec e i info st).2.2.data k = secPtr e i info st k := by rw [hd]; simp
        rw [he, SecInfo.fill_data hk, loadSecs_data_held (by rw [hst]; exact hne), hst]
      · rw [he, SecInfo.fill_other hno]
    · obtain ⟨hd, hnull⟩ := loadSec_data_fail hsec
      dsimp only
      rw [hd]
      refine congrArg (· :: _) ?_
      cases hk : info.kind with
      | data k => rw [SecInfo.fill_data hk, (hnull k hk).1, (hnull k hk).2]
      | bin =>
        obtain ⟨_, st', he, -⟩ := loadSec_bin e i _ st hk
        rw [he, SecInfo.fill_other (by simp [hk])]
      | other => rw [loadSec_other hk, SecInfo.fill_other (by simp [hk])]

/-- When all are gone through, each has its size, and the buffer of its kind. -/
theorem loadSecs_secs_ok {e : LoadEnv} {i : Nat} {secs : List SecInfo} {st : LoadSt}
    (hok : okCount e (heldOf st.data) i secs = secs.length) :
    ∀ info ∈ (loadSecs e i secs st).2.1, ∀ k, info.kind = .data k →
      (∃ info' ∈ secs, info'.kind = .data k ∧ info'.size = info.size) ∧
      info.data = (loadSecs e i secs st).2.2.data k := by
  rw [loadSecs_secs, hok, List.take_of_length_le (Nat.le_succ _),
    List.drop_of_length_le (Nat.le_succ _), List.append_nil]
  intro info hmem k hk
  obtain ⟨x, hx, rfl⟩ := List.mem_map.1 hmem
  by_cases hno : ∀ j, x.kind ≠ .data j
  · rw [SecInfo.fill_other hno] at hk
    exact absurd hk (hno k)
  · obtain ⟨j, hj⟩ := not_forall_not.1 hno
    rw [SecInfo.fill_data hj] at hk ⊢
    have hkj : x.kind = .data k := hk
    obtain rfl : j = k := by rw [hj] at hkj; cases hkj; rfl
    exact ⟨⟨x, hx, hj, rfl⟩, rfl⟩

theorem kmallocEv_inBuf (p : Ptr) : ∀ ev ∈ kmallocEv p, ev.InBuf := by
  cases p <;> simp [kmallocEv, LoadEv.InBuf]

/-- Its clears are inside buffers with the sizes of the sections. -/
theorem loadSecs_inBuf {e : LoadEnv} {i : Nat} {secs : List SecInfo} {st : LoadSt}
    (hok : okCount e (heldOf st.data) i secs = secs.length) (hev : ∀ ev ∈ st.evs, ev.InBuf)
    (hsize : ∀ info ∈ secs, ∀ k, info.kind = .data k → info.size ≤ capAfter st.data secs k) :
    ∀ ev ∈ (loadSecs e i secs st).2.2.evs, ev.InBuf := by
  induction secs generalizing i st with
  | nil => exact hev
  | cons info rest ih =>
    have hheld := (loadSec_ok e i info st).2
    rw [loadSecs_cons]
    unfold okCount at hok
    split_ifs at hok ⊢ with hsec
    · rw [List.length_cons, Nat.add_right_cancel_iff, ← hheld hsec] at hok
      refine ih hok ?_ fun x hx k hk => ?_
      · cases hk : info.kind with
        | bin =>
          obtain ⟨_, st', he, -, -, -, hevs⟩ := loadSec_bin e i _ st hk
          rw [he, hevs, List.forall_mem_append]
          refine ⟨hev, ?_⟩
          cases e.binCpy <;> simp [LoadEv.InBuf]
        | data k =>
          have hcap := hsize info List.mem_cons_self k hk
          obtain ⟨st', he, -, -, -, hevs⟩ := loadSec_data e i _ st hk
          rw [he, hevs, List.forall_mem_append, List.forall_mem_append, List.forall_mem_cons]
          refine ⟨hev, ⟨trivial, ?_⟩, ?_⟩
          · split_ifs
            · exact kmallocEv_inBuf _
            · simp
          · split_ifs with h0
            · simp
            · have hle : info.size ≤ (secPtr e i info st k).cap := by
                unfold capAfter at hcap
                split_ifs at hcap with hnull
                · exact Nat.le_of_eq (secPtr_cap hnull h0).symm
                · simpa [secPtr, hnull] using hcap
              simpa [LoadEv.InBuf] using hle
        | other =>
          rw [loadSec_other hk, List.forall_mem_append]
          exact ⟨hev, by simp [LoadEv.InBuf]⟩
      · rw [loadSec_capAfter hsec]
        exact hsize x (List.mem_cons_of_mem _ hx) k hk

/-! ## Loads -/

/-- **One load** that meets the condition. -/
theorem load_sized {priv : DspPriv} {e : LoadEnv} (h : ReloadFits priv e) :
    LoadSized e ((adfLoadInit e priv).1, (adfLoadInit e priv).2.1) (adfLoadInit e priv).2.2 := by
  rcases adfLoadInit_cases e priv with ⟨-, h'⟩ | ⟨-, hdr, next, evs, hbuf, h'⟩
  · rw [h']; exact ⟨by simp, by simp, by simp⟩
  rw [h']
  obtain ⟨secs, st, hloop, ⟨hok, -, hout⟩ | ⟨-, hout⟩⟩ :=
    loadFrom_out e priv.data hdr next (descReads ++ evs)
  · rw [hout]
    have hhdr := h.header hok
    have hsecs := h.secs hok
    have hcap : (if priv.dspHeader = .null then e.headerSize else priv.dspHeader.cap) = hdr.cap := by
      cases hbuf with
      | held hne => rw [if_neg hne]
      | empty hn h0 => rw [if_pos hn, h0]; rfl
      | fresh hn => rw [if_pos hn]; rfl
    rw [hcap] at hhdr
    have hst : (loadStart e priv.data hdr next (descReads ++ evs)).data = priv.data := rfl
    rw [← hst] at hok
    have hleft := loadSecs_secs_ok hok
    have hcaps := fun k => loadSecs_cap e 0 e.secarray
      (loadStart e priv.data hdr next (descReads ++ evs)) k
    rw [hok, List.take_length] at hcaps
    have hin := loadSecs_inBuf hok
    rw [hloop] at hleft hcaps hin
    refine ⟨fun _ => hhdr, fun _ info hmem k hk => ?_, fun _ => hin ?_ hsecs⟩
    · obtain ⟨⟨info', hm', hk', hs'⟩, hd'⟩ := hleft info hmem k hk
      exact ⟨by rw [hcaps k, ← hs']; exact hsecs info' hm' k hk', hd'⟩
    · have hle : e.headerSize ≤ adfFwHdrlen + e.seccnt * sizeofSecInfo := Nat.mod_le _ _
      unfold loadStart
      rw [List.forall_mem_append, List.forall_mem_append]
      refine ⟨⟨by simp [descReads, LoadEv.InBuf], ?_⟩, ?_⟩
      · cases hbuf <;> simp [LoadEv.InBuf]
      · simp only [List.forall_mem_cons, LoadEv.InBuf]
        exact ⟨trivial, by omega, trivial, by simp⟩
  · rw [hout]; exact ⟨by simp, by simp, by simp⟩

/-- **The buffers have the declared sizes after every load** of a sequence of loads that meet the
condition. -/
theorem reload_sized (priv : DspPriv) (es : List LoadEnv) (hf : Sys.Along loadStep ReloadFits priv es) :
    ∃ outs priv', Sys.run loadStep priv es = some (outs, priv') ∧
      Sys.Trace (fun _ e out priv' => LoadSized e out priv') priv outs priv' := by
  obtain ⟨outs, priv', hrun, -, ht⟩ := Sys.run_sim id (I := fun _ => True)
    (R := fun _ e out priv' => LoadSized e out priv')
    (fun priv e _ hp => ⟨_, _, rfl, trivial, load_sized hp⟩) es priv trivial hf
  exact ⟨outs, priv', hrun, ht⟩

/-- An image of 160 bytes with one `LOG` section of `n` bytes. -/
def logImage (n : UInt8) : LoadEnv where
  src a := match a with
    | 4 => 1
    | 128 => 76 | 129 => 79 | 130 => 71
    | 136 => n
    | _ => 0
  dst := 0
  size := 160
  binCpy := none
  dspId := 0
  kmallocHdr := true
  kmalloc _ := true
  stale _ := 0

/-- A load of such an image fits buffers that are not smaller. -/
theorem logImage_fits {priv : DspPriv} {n : UInt8} {m : Nat}
    (hs : (logImage n).secarray = [⟨[76, 79, 71, 0], 0, m, 0, .raw 0, (0, 0)⟩])
    (hh : priv.dspHeader = .null ∨ 160 ≤ priv.dspHeader.cap)
    (hd : priv.data .log = .null ∨ m ≤ (priv.data .log).cap) : ReloadFits priv (logImage n) := by
  have hcnt : (logImage n).seccnt = 1 := rfl
  have hsize : (logImage n).headerSize = 160 := by
    unfold LoadEnv.headerSize; rw [hcnt]; rfl
  refine ⟨fun _ => ?_, fun _ info hmem k hk => ?_⟩
  · rw [hcnt, hsize]
    split_ifs with h0
    · decide
    · exact hh.resolve_left h0
  · rw [hs] at hmem ⊢
    rw [List.mem_singleton] at hmem
    subst hmem
    cases hk
    unfold capAfter
    split_ifs with h0
    · exact Nat.le_refl m
    · exact hd.resolve_left h0

theorem reload_sized_log :
    ∃ outs priv', Sys.run loadStep noPriv [logImage 8, logImage 4] = some (outs, priv') ∧
      Sys.Trace (fun _ e out priv' => LoadSized e out priv') noPriv outs priv' :=
  reload_sized noPriv [logImage 8, logImage 4] <|
    Sys.along_cons (logImage_fits (m := 8) (by decide) (.inl rfl) (.inl rfl)) rfl <|
    Sys.along_cons (logImage_fits (m := 4) (by decide) (.inr (by decide)) (.inr (by decide))) rfl
      trivial

/-- A `LOG` section of 8 bytes after one of 4: the buffer of 4 bytes is kept and 8 are cleared. -/
theorem reload_overrun : ∃ o1 o2 priv',
    Sys.run loadStep noPriv [logImage 4, logImage 8] =
        some ([(logImage 4, o1), (logImage 8, o2)], priv') ∧
      o2.1 = .ok ∧ priv'.data .log = .buf 1 4 ∧ .memset (.buf 1 4) 8 ∈ o2.2 ∧
      ¬ LoadSized (logImage 8) o2 priv' := by
  refine ⟨_, _, _, rfl, by decide, by decide, by decide, fun h => ?_⟩
  have hin := h.inside (by decide) (.memset (.buf 1 4) 8) (by decide)
  simp [LoadEv.InBuf, Ptr.cap] at hin

end Adf
