import FireTablet.Adf.Proof.LoadReload
import Mathlib.Data.List.Count

/-!
# Loads that fail

The error path frees the `data` of every entry of the section array and then the header. For an
entry that the loop did not come to, `data` is what the image has there; a buffer of an earlier load
that no section of the new image names is not in the array; and two sections of one name share a
buffer. So a load that fails gives back what the driver holds, each buffer once and nothing else,
exactly if none of this is the case (`load_fail_iff`).
-/

namespace Adf

/-- The pointer is a buffer from `kmalloc`. -/
def Ptr.isBuf : Ptr → Bool
  | .raw _ => false
  | .buf .. => true

/-- The pointers that a load frees. -/
def freed (evs : List LoadEv) : List Ptr := evs.filterMap fun
  | .kfree p => some p
  | _ => none

/-- The buffers that a load allocates. -/
def allocd (evs : List LoadEv) : List Ptr := evs.filterMap fun
  | .kmalloc p => some p
  | _ => none

/-- The pointers that the driver keeps for its DSP. -/
def DspPriv.Keeps (priv : DspPriv) (p : Ptr) : Prop := p = priv.dspHeader ∨ ∃ k, p = priv.data k

/-- The buffer was allocated by this driver and not given back: it is kept for the DSP, or new. -/
def Owns (e : LoadEnv) (priv : DspPriv) (evs : List LoadEv) (p : Ptr) : Prop :=
  e.dspId < dspCoreNum ∧ p.isBuf = true ∧ priv.Keeps p ∨ p ∈ allocd evs

/-- Every buffer is freed, once, nothing else is, and no pointer to what was freed is kept. -/
structure FreedOnce (e : LoadEnv) (priv : DspPriv) (out : AdfStatus × List LoadEv × DspPriv) :
    Prop where
  once : ∀ p, Owns e priv out.2.1 p → (freed out.2.1).count p = 1
  only : ∀ p ∈ freed out.2.1, Owns e priv out.2.1 p
  gone : ∀ p, out.2.2.Keeps p → p ∉ freed out.2.1

/-- The number of sections that the loop gets through. -/
def LoadEnv.gone (e : LoadEnv) (priv : DspPriv) : Nat := okCount e (heldOf priv.data) 0 e.secarray

/-- There is the DSP, and a buffer for its header. -/
def HasHeader (e : LoadEnv) (priv : DspPriv) : Prop :=
  e.dspId < dspCoreNum ∧ (priv.dspHeader ≠ .null ∨ e.headerSize = 0 ∨ e.kmallocHdr = true)

/-- The condition on an image, when there is a header: an entry with a pointer in `data` is that of
a section with a buffer, and the loop comes to it; and each buffer, held or allocated, is that of
exactly one section that the loop gets through. -/
structure FreeFits (e : LoadEnv) (priv : DspPriv) : Prop where
  seen : HasHeader e priv → ∀ info ∈ e.secarray.take (e.gone priv + 1),
    (∀ k, info.kind ≠ .data k) → info.data.zeroOrNull = true
  unseen : HasHeader e priv → ∀ info ∈ e.secarray.drop (e.gone priv + 1),
    info.data.zeroOrNull = true
  bufs : HasHeader e priv → ∀ k, capAfter priv.data (e.secarray.take (e.gone priv)) k ≠ 0 →
    (e.secarray.take (e.gone priv)).countP (·.kind = .data k) = 1

/-! ## What the driver keeps -/

/-- A pointer that `kmalloc` has given before buffer `next`. -/
inductive Ptr.Given (next : Nat) : Ptr → Prop
  | null : Given next .null
  | zeroSize : Given next .zeroSize
  | buf {id size : Nat} : id < next → size ≠ 0 → Given next (.buf id size)

/-- The pointers kept are from `kmalloc`, and no buffer is kept twice. -/
structure Kept (hdr : Ptr) (data : SecKind → Ptr) (next : Nat) : Prop where
  hdr_given : hdr.Given next
  data_given : ∀ k, (data k).Given next
  data_inj : ∀ {j k}, (data k).isBuf = true → data j = data k → j = k
  data_ne_hdr : ∀ {k}, hdr.isBuf = true → data k ≠ hdr

/-- The pointers of the driver between loads: without a header there are no buffers. -/
structure PrivOk (priv : DspPriv) : Prop where
  kept : Kept priv.dspHeader priv.data priv.next
  null : priv.dspHeader = .null → ∀ k, priv.data k = .null

theorem Ptr.Given.mono {p : Ptr} {next next' : Nat} (h : p.Given next) (hle : next ≤ next') :
    p.Given next' := by
  cases h with
  | null => exact .null
  | zeroSize => exact .zeroSize
  | buf hid hs => exact .buf (Nat.lt_of_lt_of_le hid hle) hs

/-- Of the pointers from `kmalloc`, the buffers are those with bytes, and those `kfree` frees. -/
theorem Ptr.Given.isBuf_iff {p : Ptr} {next : Nat} (h : p.Given next) :
    p.isBuf = true ↔ p.cap ≠ 0 := by
  cases h with
  | null => simp [Ptr.isBuf, Ptr.null, Ptr.cap]
  | zeroSize => simp [Ptr.isBuf, Ptr.zeroSize, Ptr.cap]
  | buf hid hs => simp [Ptr.isBuf, Ptr.cap, hs]

theorem Ptr.Given.zeroOrNull_eq {p : Ptr} {next : Nat} (h : p.Given next) :
    p.zeroOrNull = !p.isBuf := by
  cases h <;> rfl

/-- What `kmalloc` gives is no buffer that it gave before. -/
theorem kmalloc_given (ok : Bool) (size next : Nat) :
    next ≤ (kmalloc ok size next).2 ∧
      (kmalloc ok size next).1.Given (kmalloc ok size next).2 ∧
      ∀ q : Ptr, q.Given next → q.isBuf = true → q ≠ (kmalloc ok size next).1 := by
  unfold kmalloc
  split_ifs with h0 hok
  · exact ⟨Nat.le_refl _, .zeroSize, fun q _ hb he => by rw [he] at hb; cases hb⟩
  · refine ⟨Nat.le_succ _, .buf (Nat.lt_succ_self _) h0, fun q hq _ he => ?_⟩
    rw [he] at hq
    cases hq with
    | buf hlt => exact absurd hlt (Nat.lt_irrefl _)
  · exact ⟨Nat.le_refl _, .null, fun q _ hb he => by rw [he] at hb; cases hb⟩

/-- A buffer may be allocated for a kind. -/
theorem Kept.kmalloc {hdr : Ptr} {data : SecKind → Ptr} {next : Nat} (h : Kept hdr data next)
    (k : SecKind) (ok : Bool) (size : Nat) :
    Kept hdr (Function.update data k (kmalloc ok size next).1) (kmalloc ok size next).2 := by
  obtain ⟨hle, hnew, hne⟩ := kmalloc_given ok size next
  have hother : ∀ j, j ≠ k → Function.update data k (Adf.kmalloc ok size next).1 j = data j :=
    fun j hj => Function.update_of_ne hj _ _
  refine ⟨h.hdr_given.mono hle, fun j => ?_, fun {j i} hb he => ?_, fun {j} hb he => ?_⟩
  · by_cases hj : j = k
    · subst hj; rwa [Function.update_self]
    · rw [hother j hj]; exact (h.data_given j).mono hle
  · by_cases hi : i = k <;> by_cases hj : j = k
    · rw [hi, hj]
    · subst hi
      rw [← he, hother j hj] at hb
      rw [hother j hj, Function.update_self] at he
      exact absurd he (hne _ (h.data_given j) hb)
    · subst hj
      rw [hother i hi] at hb he
      rw [Function.update_self] at he
      exact absurd he.symm (hne _ (h.data_given i) hb)
    · rw [hother i hi] at hb he
      rw [hother j hj] at he
      exact h.data_inj hb he
  · by_cases hj : j = k
    · subst hj
      rw [Function.update_self] at he
      exact hne _ h.hdr_given hb he.symm
    · rw [hother j hj] at he
      exact h.data_ne_hdr hb he

/-! ## The loop -/

section
variable {e : LoadEnv} {hdr : Ptr}

theorem loadSec_kept {i : Nat} {info : SecInfo} {st : LoadSt} (h : Kept hdr st.data st.next) :
    Kept hdr (loadSec e i info st).2.2.data (loadSec e i info st).2.2.next := by
  cases hk : info.kind with
  | bin =>
    obtain ⟨_, st', he, hd, hn, -⟩ := loadSec_bin e i _ st hk
    rw [he]; dsimp only
    rwa [hd, hn]
  | data k =>
    obtain ⟨st', he, hd, hn, -⟩ := loadSec_data e i _ st hk
    rw [he]; dsimp only
    rw [hd, hn]
    unfold secPtr
    split_ifs with h0
    · exact h.kmalloc k _ _
    · rwa [Function.update_eq_self]
  | other => rwa [loadSec_other hk]

theorem loadSecs_kept (i : Nat) (secs : List SecInfo) (st : LoadSt)
    (h : Kept hdr st.data st.next) :
    Kept hdr (loadSecs e i secs st).2.2.data (loadSecs e i secs st).2.2.next := by
  induction secs generalizing i st with
  | nil => exact h
  | cons info rest ih =>
    rw [loadSecs_cons]
    split_ifs
    · exact ih _ _ (loadSec_kept h)
    · exact loadSec_kept h

@[simp] theorem freed_append (l m : List LoadEv) : freed (l ++ m) = freed l ++ freed m :=
  List.filterMap_append

@[simp] theorem allocd_append (l m : List LoadEv) : allocd (l ++ m) = allocd l ++ allocd m :=
  List.filterMap_append

theorem freed_kmallocEv (p : Ptr) : freed (kmallocEv p) = [] := by cases p <;> rfl

theorem mem_allocd_kmallocEv {p q : Ptr} : p ∈ allocd (kmallocEv q) ↔ p.isBuf = true ∧ q = p := by
  cases q with
  | raw v =>
    exact ⟨nofun, fun ⟨hb, he⟩ => by rw [← he] at hb; cases hb⟩
  | buf id size =>
    change p ∈ [Ptr.buf id size] ↔ _
    rw [List.mem_singleton]
    exact ⟨fun h => ⟨by rw [h]; rfl, h.symm⟩, fun h => h.2.symm⟩

/-- A section frees nothing, and allocates the buffers that were not held before. -/
theorem loadSec_bufs (i : Nat) (info : SecInfo) (st : LoadSt) :
    freed (loadSec e i info st).2.2.evs = freed st.evs ∧
      ∀ p, p ∈ allocd (loadSec e i info st).2.2.evs ↔ p ∈ allocd st.evs ∨ p.isBuf = true ∧
        ∃ k, st.data k = .null ∧ (loadSec e i info st).2.2.data k = p := by
  have hsame : ∀ p : Ptr, ¬(p.isBuf = true ∧ ∃ k, st.data k = .null ∧ st.data k = p) := by
    rintro p ⟨hb, k, h0, rfl⟩
    rw [h0] at hb; cases hb
  cases hk : info.kind with
  | bin =>
    obtain ⟨_, st', he, hd, -, -, hev⟩ := loadSec_bin e i _ st hk
    rw [he]; dsimp only
    rw [hd, hev]
    refine ⟨?_, fun p => ?_⟩
    · cases e.binCpy <;> simp [freed]
    · rw [or_iff_left (hsame p)]
      cases e.binCpy <;> simp [allocd]
  | data k =>
    obtain ⟨st', he, hd, -, -, hev⟩ := loadSec_data e i _ st hk
    rw [he]; dsimp only
    rw [hd, hev]
    refine ⟨?_, fun p => ?_⟩
    · have h1 : ∀ q : Ptr, freed (if q = .null then [] else [.memset q info.size]) = [] :=
        fun q => by split_ifs <;> rfl
      have h2 : freed (if st.data k = .null then kmallocEv (secPtr e i info st k) else []) = [] := by
        split_ifs
        · exact freed_kmallocEv _
        · rfl
      rw [freed_append, List.cons_append, ← List.singleton_append, freed_append, freed_append, h1,
        h2]
      simp [freed]
    · have h1 : ∀ q : Ptr, allocd (if q = .null then [] else [.memset q info.size]) = [] :=
        fun q => by split_ifs <;> rfl
      rw [allocd_append, List.cons_append, ← List.singleton_append, allocd_append, allocd_append, h1,
        List.append_nil, List.mem_append]
      refine or_congr_right ?_
      change p ∈ allocd _ ↔ _
      split_ifs with h0
      · rw [mem_allocd_kmallocEv]
        refine and_congr_right fun hb => ⟨fun h => ⟨k, h0, by rwa [Function.update_self]⟩, ?_⟩
        rintro ⟨j, hj, he⟩
        by_cases hjk : j = k
        · subst hjk; rwa [Function.update_self] at he
        · rw [Function.update_of_ne hjk] at he
          exact absurd ⟨hb, j, hj, he⟩ (hsame p)
      · have hself : secPtr e i info st k = st.data k := if_neg h0
        rw [hself, Function.update_eq_self]
        exact ⟨nofun, fun h => absurd h (hsame p)⟩
  | other =>
    rw [loadSec_other hk]
    exact ⟨by simp [freed], fun p => by rw [or_iff_left (hsame p)]; simp [allocd]⟩

/-- **The loop** frees nothing, and allocates the buffers that were not held before. -/
theorem loadSecs_bufs (i : Nat) (secs : List SecInfo) (st : LoadSt) :
    freed (loadSecs e i secs st).2.2.evs = freed st.evs ∧
      ∀ p, p ∈ allocd (loadSecs e i secs st).2.2.evs ↔ p ∈ allocd st.evs ∨ p.isBuf = true ∧
        ∃ k, st.data k = .null ∧ (loadSecs e i secs st).2.2.data k = p := by
  induction secs generalizing i st with
  | nil =>
    refine ⟨rfl, fun p => (or_iff_left ?_).symm⟩
    rintro ⟨hb, k, h0, he⟩
    rw [← he] at hb
    change (st.data k).isBuf = true at hb
    rw [h0] at hb; cases hb
  | cons info rest ih =>
    rw [loadSecs_cons]
    have hsec := loadSec_bufs (e := e) i info st
    split_ifs with hok
    · dsimp only
      refine ⟨(ih _ _).1.trans hsec.1, fun p => ?_⟩
      rw [(ih _ _).2, hsec.2, or_assoc, ← and_or_left]
      refine or_congr_right (and_congr_right fun hb => ?_)
      have hkeep : ∀ k, st.data k ≠ .null → (loadSec e i info st).2.2.data k ≠ .null :=
        fun k hk => by
          have : (loadSecs e i [info] st).2.2.data k = st.data k := loadSecs_data_held hk
          rw [loadSecs_cons, if_pos hok] at this
          exact fun h0 => hk (this.symm.trans h0)
      constructor
      · rintro (⟨k, h0, rfl⟩ | ⟨k, h0, rfl⟩)
        · refine ⟨k, h0, loadSecs_data_held fun h => ?_⟩
          rw [h] at hb; cases hb
        · exact ⟨k, by_contra fun h => hkeep k h h0, rfl⟩
      · rintro ⟨k, h0, rfl⟩
        by_cases h1 : (loadSec e i info st).2.2.data k = .null
        · exact .inr ⟨k, h1, rfl⟩
        · exact .inl ⟨k, h0, (loadSecs_data_held h1).symm⟩
    · exact hsec

end

/-- The section that fails has no buffer. -/
theorem loadSecs_fail {e : LoadEnv} {i : Nat} {secs : List SecInfo} {st : LoadSt} {info : SecInfo}
    {k : SecKind} (h : secs[okCount e (heldOf st.data) i secs]? = some info)
    (hk : info.kind = .data k) : (loadSecs e i secs st).2.2.data k = .null := by
  induction secs generalizing i st with
  | nil => cases h
  | cons x rest ih =>
    have hheld := (loadSec_ok e i x st).2
    rw [loadSecs_cons]
    unfold okCount at h
    split_ifs at h ⊢ with hok
    · rw [← hheld hok] at h
      exact ih h
    · cases h
      obtain ⟨hd, hnull⟩ := loadSec_data_fail hok
      dsimp only
      rw [hd]
      exact (hnull k hk).1

/-! ## The frees -/

section
variable {hdr : Ptr} {secs : List SecInfo} {p : Ptr}

theorem freed_kfree (p : Ptr) : freed (kfree p) = if p.zeroOrNull then [] else [p] := by
  unfold kfree
  split_ifs <;> rfl

theorem allocd_loadError : allocd (loadError hdr secs) = [] := by
  refine List.filterMap_eq_nil_iff.2 fun ev hev => ?_
  obtain ⟨p, rfl⟩ := mem_loadError hev
  rfl

/-- The pointers that the error path frees. -/
theorem freed_loadError : freed (loadError hdr secs) =
    (secs.map (·.data)).filter (!·.zeroOrNull) ++ if hdr.zeroOrNull then [] else [hdr] := by
  unfold loadError
  rw [freed_append, freed_kfree]
  refine congrArg (· ++ _) ?_
  induction secs with
  | nil => rfl
  | cons info rest ih =>
    have hself : freed (if info.data ≠ .null then kfree info.data else []) =
        if info.data.zeroOrNull then [] else [info.data] := by
      rw [← freed_kfree]
      split_ifs with h
      · rfl
      · rw [not_not.1 h]; rfl
    rw [List.flatMap_cons, freed_append, ih, hself, List.map_cons, List.filter_cons]
    cases info.data.zeroOrNull <;> simp

theorem mem_freed_loadError : p ∈ freed (loadError hdr secs) ↔
    p.zeroOrNull = false ∧ ((∃ info ∈ secs, info.data = p) ∨ p = hdr) := by
  rw [freed_loadError, List.mem_append, List.mem_filter, List.mem_map]
  cases hz : hdr.zeroOrNull <;> simp <;> grind

theorem zeroOrNull_of_isBuf (h : p.isBuf = true) : p.zeroOrNull = false := by
  cases p with
  | raw v => cases h
  | buf id size => rfl

/-- How often a buffer is freed. -/
theorem count_freed_loadError (h : p.isBuf = true) : (freed (loadError hdr secs)).count p =
    secs.countP (·.data = p) + if hdr = p then 1 else 0 := by
  rw [freed_loadError, List.count_append, List.count_filter (by simp [zeroOrNull_of_isBuf h])]
  congr 1
  · rw [List.count_eq_countP, List.countP_map]
    rfl
  · by_cases he : hdr = p
    · rw [he, zeroOrNull_of_isBuf h]; simp
    · rw [if_neg he]
      split_ifs <;> simp [he]

end

section
variable {hdr : Ptr} {data : SecKind → Ptr} {next n : Nat} {secs : List SecInfo}
variable (hkept : Kept hdr data next) (hraw : ∀ info ∈ secs, ∃ v, info.data = .raw v)
include hkept hraw

/-- The entries with the buffer of a kind are the sections of that kind. -/
theorem countP_fill {k : SecKind} (hb : (data k).isBuf = true) :
    (secs.map (SecInfo.fill data)).countP (·.data = data k) = secs.countP (·.kind = .data k) := by
  rw [List.countP_map]
  refine List.countP_congr fun info hmem => ?_
  simp only [Function.comp_apply, decide_eq_true_eq]
  by_cases hno : ∀ j, info.kind ≠ .data j
  · obtain ⟨v, hv⟩ := hraw info hmem
    rw [SecInfo.fill_other hno, hv]
    refine ⟨fun he => ?_, fun hk => absurd hk (hno k)⟩
    rw [← he] at hb; cases hb
  · obtain ⟨j, hj⟩ := not_forall_not.1 hno
    rw [SecInfo.fill_data hj, hj]
    dsimp only
    exact ⟨fun he => by rw [hkept.data_inj hb he], fun he => by cases he; rfl⟩

/-- No entry has the header. -/
theorem countP_hdr (hb : hdr.isBuf = true) :
    (secs.map (SecInfo.fill data)).countP (·.data = hdr) = 0 := by
  rw [List.countP_eq_zero, List.forall_mem_map]
  intro info hmem
  rw [decide_eq_true_eq]
  by_cases hno : ∀ j, info.kind ≠ .data j
  · obtain ⟨v, hv⟩ := hraw info hmem
    rw [SecInfo.fill_other hno, hv]
    rintro rfl
    cases hb
  · obtain ⟨j, hj⟩ := not_forall_not.1 hno
    rw [SecInfo.fill_data hj]
    exact hkept.data_ne_hdr hb

omit hkept in
theorem countP_raw {p : Ptr} (hb : p.isBuf = true) : secs.countP (·.data = p) = 0 := by
  rw [List.countP_eq_zero]
  intro info hmem
  obtain ⟨v, hv⟩ := hraw info hmem
  rw [hv, decide_eq_true_eq]
  rintro rfl
  cases hb

/-- The error path frees only buffers of the driver. -/
theorem loadError_only : (∀ p ∈ freed (loadError hdr
      ((secs.take (n + 1)).map (SecInfo.fill data) ++ secs.drop (n + 1))),
        p.isBuf = true ∧ (p = hdr ∨ ∃ k, p = data k)) ↔
    (∀ info ∈ secs.take (n + 1), (∀ k, info.kind ≠ .data k) → info.data.zeroOrNull = true) ∧
      ∀ info ∈ secs.drop (n + 1), info.data.zeroOrNull = true := by
  have hnot : ∀ info ∈ secs, ¬ info.data.isBuf = true := fun info hmem hb => by
    obtain ⟨v, hv⟩ := hraw info hmem
    rw [hv] at hb; cases hb
  constructor
  · refine fun h => ⟨fun info hmem hno => ?_, fun info hmem => ?_⟩ <;> by_contra hz <;>
      rw [Bool.not_eq_true] at hz
    · refine hnot info (List.mem_of_mem_take hmem) (h info.data ?_).1
      refine mem_freed_loadError.2 ⟨hz, .inl ⟨info, List.mem_append_left _ ?_, rfl⟩⟩
      exact List.mem_map.2 ⟨info, hmem, SecInfo.fill_other hno⟩
    · refine hnot info (List.mem_of_mem_drop hmem) (h info.data ?_).1
      exact mem_freed_loadError.2 ⟨hz, .inl ⟨info, List.mem_append_right _ hmem, rfl⟩⟩
  · rintro ⟨hseen, hunseen⟩ p hp
    obtain ⟨hz, ⟨info, hmem, rfl⟩ | rfl⟩ := mem_freed_loadError.1 hp
    · rcases List.mem_append.1 hmem with hmem | hmem
      · obtain ⟨x, hx, rfl⟩ := List.mem_map.1 hmem
        by_cases hno : ∀ j, x.kind ≠ .data j
        · rw [SecInfo.fill_other hno, hseen x hx hno] at hz; cases hz
        · obtain ⟨j, hj⟩ := not_forall_not.1 hno
          rw [SecInfo.fill_data hj] at hz ⊢
          dsimp only at hz ⊢
          rw [(hkept.data_given j).zeroOrNull_eq] at hz
          exact ⟨by simpa using hz, .inr ⟨j, rfl⟩⟩
      · rw [hunseen info hmem] at hz; cases hz
    · rw [hkept.hdr_given.zeroOrNull_eq] at hz
      exact ⟨by simpa using hz, .inl rfl⟩

/-- The error path frees each buffer of the driver once. -/
theorem loadError_once
    (hfail : ∀ info k, secs[n]? = some info → info.kind = .data k → data k = .null) :
    (∀ p, p.isBuf = true ∧ (p = hdr ∨ ∃ k, p = data k) → (freed (loadError hdr
      ((secs.take (n + 1)).map (SecInfo.fill data) ++ secs.drop (n + 1)))).count p = 1) ↔
    ∀ k, (data k).cap ≠ 0 → (secs.take n).countP (·.kind = .data k) = 1 := by
  have htake : ∀ info ∈ secs.take (n + 1), ∃ v, info.data = .raw v :=
    fun info hmem => hraw info (List.mem_of_mem_take hmem)
  have hdrop : ∀ info ∈ secs.drop (n + 1), ∃ v, info.data = .raw v :=
    fun info hmem => hraw info (List.mem_of_mem_drop hmem)
  have hdata : ∀ k, (data k).isBuf = true → (freed (loadError hdr
      ((secs.take (n + 1)).map (SecInfo.fill data) ++ secs.drop (n + 1)))).count (data k) =
        (secs.take n).countP (·.kind = .data k) := fun k hb => by
    have hne : hdr ≠ data k := fun he => hkept.data_ne_hdr (by rwa [he]) he.symm
    rw [count_freed_loadError hb, if_neg hne, List.countP_append, countP_fill hkept htake hb,
      countP_raw hdrop hb, List.take_add_one, List.countP_append]
    cases hn : secs[n]? with
    | none => rfl
    | some info =>
      have hk : info.kind ≠ .data k := fun hk => by
        rw [hfail info k hn hk] at hb; cases hb
      simp [hk]
  have hhdr : hdr.isBuf = true → (freed (loadError hdr
      ((secs.take (n + 1)).map (SecInfo.fill data) ++ secs.drop (n + 1)))).count hdr = 1 :=
    fun hb => by
      rw [count_freed_loadError hb, if_pos rfl, List.countP_append, countP_hdr hkept htake hb,
        countP_raw hdrop hb]
  constructor
  · intro h k hcap
    have hb := (hkept.data_given k).isBuf_iff.2 hcap
    rw [← hdata k hb, h _ ⟨hb, .inr ⟨k, rfl⟩⟩]
  · rintro h p ⟨hb, rfl | ⟨k, rfl⟩⟩
    · exact hhdr hb
    · rw [hdata k hb, h k ((hkept.data_given k).isBuf_iff.1 hb)]

end

/-! ## The load -/

/-- The entries of a section array have numbers as pointers. -/
theorem secarray_raw (e : LoadEnv) : ∀ info ∈ e.secarray, ∃ v, info.data = .raw v := by
  intro info hmem
  obtain ⟨i, -, rfl⟩ := List.mem_map.1 hmem
  exact ⟨_, rfl⟩

/-- The pointers while a load runs. -/
theorem HeaderBuf.kept {e : LoadEnv} {priv : DspPriv} {hdr : Ptr} {next : Nat} {evs : List LoadEv}
    (h : HeaderBuf e priv hdr next evs) (hp : PrivOk priv) :
    hdr ≠ .null ∧ Kept hdr priv.data next := by
  cases h with
  | held hne => exact ⟨hne, hp.kept⟩
  | empty hnull _ =>
    exact ⟨by simp [Ptr.zeroSize, Ptr.null], .zeroSize, hp.kept.data_given, hp.kept.data_inj,
      fun h => by cases h⟩
  | fresh hnull h0 _ =>
    refine ⟨(fun h => by cases h), .buf (Nat.lt_succ_self _) h0,
      fun k => (hp.kept.data_given k).mono (Nat.le_succ _), hp.kept.data_inj, fun {k} _ => ?_⟩
    rw [hp.null hnull k]
    exact fun h => by cases h

/-- **The pointers between loads** are buffers of the driver, each kept once. -/
theorem load_privOk {e : LoadEnv} {priv : DspPriv} (hp : PrivOk priv) :
    PrivOk (adfLoadInit e priv).2.2 := by
  rcases adfLoadInit_cases e priv with ⟨-, h⟩ | ⟨-, hdr, next, evs, hbuf, h⟩
  · rw [h]; exact hp
  rw [h]
  obtain ⟨hne, hkept⟩ := hbuf.kept hp
  obtain ⟨secs, st, hloop, ⟨-, -, hout⟩ | ⟨-, hout⟩⟩ :=
    loadFrom_out e priv.data hdr next (descReads ++ evs)
  · have hk := loadSecs_kept (e := e) 0 e.secarray
      (loadStart e priv.data hdr next (descReads ++ evs)) hkept
    rw [hloop] at hk
    rw [hout]
    exact ⟨hk, fun h0 => absurd h0 hne⟩
  · rw [hout]
    exact ⟨⟨.null, fun _ => .null, nofun, nofun⟩, fun _ _ => rfl⟩

/-- The pointers after any sequence of loads. -/
theorem run_privOk {es : List LoadEnv} {outs : List (LoadEnv × AdfStatus × List LoadEv)}
    {priv : DspPriv} (hrun : Sys.run loadStep noPriv es = some (outs, priv)) : PrivOk priv := by
  refine Sys.run_inv (P := fun _ _ => True) (fun s e o s' hs _ h => ?_) es noPriv priv outs
    ⟨⟨.null, fun _ => .null, nofun, nofun⟩, fun _ _ => rfl⟩
    (Sys.along_of_forall (fun _ _ => trivial) es noPriv) hrun
  simp only [loadStep, Option.some.injEq, Prod.mk.injEq] at h
  rw [← h.2]
  exact load_privOk hs

/-- A load that fails before it has a header gives nothing back and has nothing to. -/
theorem freedOnce_early {e : LoadEnv} {priv : DspPriv} (hp : PrivOk priv)
    (hc : dspCoreNum ≤ e.dspId ∨
      priv.dspHeader = .null ∧ e.headerSize ≠ 0 ∧ e.kmallocHdr = false) :
    FreedOnce e priv (.generalError, descReads, priv) ∧ FreeFits e priv := by
  have hno : ¬ HasHeader e priv := by
    rintro ⟨hid, h⟩
    rcases hc with hc | ⟨hnull, h0, hk⟩
    · omega
    · rcases h with h | h | h
      · exact h hnull
      · exact h0 h
      · rw [hk] at h; cases h
  refine ⟨⟨fun p hown => ?_, nofun, fun p _ => nofun⟩, fun h => absurd h hno, fun h => absurd h hno,
    fun h => absurd h hno⟩
  rcases hown with ⟨hid, hb, hkeep⟩ | hmem
  · rcases hc with hc | ⟨hnull, -⟩
    · omega
    · have : p = .null := by
        rcases hkeep with rfl | ⟨k, rfl⟩
        · exact hnull
        · exact hp.null hnull k
      rw [this] at hb; cases hb
  · cases hmem

/-- The header is the one kept or a new one. -/
theorem HeaderBuf.eq_iff {e : LoadEnv} {priv : DspPriv} {hdr : Ptr} {next : Nat}
    {evs : List LoadEv} (h : HeaderBuf e priv hdr next evs) (p : Ptr) :
    p.isBuf = true ∧ p = priv.dspHeader ∨ p ∈ allocd evs ↔ p.isBuf = true ∧ p = hdr := by
  have hnull : ¬(p.isBuf = true ∧ p = .null) := by rintro ⟨hb, rfl⟩; cases hb
  cases h with
  | held => simp [allocd]
  | empty h0 =>
    rw [h0]
    refine ⟨fun h => ?_, fun ⟨hb, hz⟩ => by rw [hz] at hb; cases hb⟩
    rcases h with h | h
    · exact absurd h hnull
    · cases h
  | fresh h0 =>
    rw [h0, or_iff_right hnull]
    change p ∈ [Ptr.buf priv.next e.headerSize] ↔ _
    rw [List.mem_singleton]
    exact ⟨fun hp => ⟨by rw [hp]; rfl, hp⟩, And.right⟩

/-- The buffers that a load owns at its end are the header and the data buffers. -/
theorem owns_iff {e : LoadEnv} {priv : DspPriv} {hdr : Ptr} {next : Nat} {evs evs' : List LoadEv}
    {data : SecKind → Ptr} (hbuf : HeaderBuf e priv hdr next evs) (hid : e.dspId < dspCoreNum)
    (hheld : ∀ k, priv.data k ≠ .null → data k = priv.data k)
    (hnew : ∀ p, p ∈ allocd evs' ↔
      p ∈ allocd evs ∨ p.isBuf = true ∧ ∃ k, priv.data k = .null ∧ data k = p) (p : Ptr) :
    Owns e priv evs' p ↔ p.isBuf = true ∧ (p = hdr ∨ ∃ k, p = data k) := by
  unfold Owns DspPriv.Keeps
  have hdata : p.isBuf = true ∧ (∃ k, p = data k) ↔ p.isBuf = true ∧ (∃ k, p = priv.data k) ∨
      p.isBuf = true ∧ ∃ k, priv.data k = .null ∧ data k = p := by
    rw [← and_or_left]
    refine and_congr_right fun hb => ⟨?_, ?_⟩
    · rintro ⟨k, rfl⟩
      by_cases h0 : priv.data k = .null
      · exact .inr ⟨k, h0, rfl⟩
      · exact .inl ⟨k, hheld k h0⟩
    · rintro (⟨k, rfl⟩ | ⟨k, -, rfl⟩)
      · exact ⟨k, (hheld k fun h0 => by rw [h0] at hb; cases hb).symm⟩
      · exact ⟨k, rfl⟩
  rw [hnew, and_iff_right hid, and_or_left, and_or_left, hdata, ← hbuf.eq_iff p]
  tauto

/-- **The error path** of a load that has a header. -/
theorem loadFrom_freed {e : LoadEnv} {priv : DspPriv} {hdr : Ptr} {next : Nat} {evs : List LoadEv}
    (hp : PrivOk priv) (hid : e.dspId < dspCoreNum) (hbuf : HeaderBuf e priv hdr next evs)
    (hfail : (loadFrom e priv.data hdr next (descReads ++ evs)).1 = .generalError) :
    FreedOnce e priv (loadFrom e priv.data hdr next (descReads ++ evs)) ↔ FreeFits e priv := by
  have hhas : HasHeader e priv := by
    refine ⟨hid, ?_⟩
    cases hbuf with
    | held h => exact .inl h
    | empty _ h => exact .inr (.inl h)
    | fresh _ _ h => exact .inr (.inr h)
  obtain ⟨secs, st, hloop, ⟨-, -, hout⟩ | ⟨-, hout⟩⟩ :=
    loadFrom_out e priv.data hdr next (descReads ++ evs)
  · rw [hout] at hfail; cases hfail
  rw [hout]
  set st0 := loadStart e priv.data hdr next (descReads ++ evs) with hst0
  have hgone : okCount e (heldOf st0.data) 0 e.secarray = e.gone priv := rfl
  have hkept := loadSecs_kept (e := e) 0 e.secarray st0 (hbuf.kept hp).2
  have hbufs := loadSecs_bufs (e := e) 0 e.secarray st0
  have hsecs := loadSecs_secs e 0 e.secarray st0
  have hcap := loadSecs_cap e 0 e.secarray st0
  have hnone : ∀ info k, e.secarray[e.gone priv]? = some info → info.kind = .data k →
      (loadSecs e 0 e.secarray st0).2.2.data k = .null := fun info k h hk => loadSecs_fail h hk
  have hheld : ∀ k, priv.data k ≠ .null →
      (loadSecs e 0 e.secarray st0).2.2.data k = priv.data k := fun k hk => loadSecs_data_held hk
  rw [hgone] at hsecs hcap
  rw [hloop] at hkept hbufs hsecs hcap hnone hheld
  dsimp only at hkept hbufs hsecs hcap hnone hheld
  have hfreed : freed (st.evs ++ loadError hdr secs) = freed (loadError hdr secs) := by
    rw [freed_append, hbufs.1, hst0]
    cases hbuf <;> rfl
  have hnew : ∀ p, p ∈ allocd (st.evs ++ loadError hdr secs) ↔ p ∈ allocd evs ∨
      p.isBuf = true ∧ ∃ k, priv.data k = .null ∧ st.data k = p := fun p => by
    rw [allocd_append, allocd_loadError, List.append_nil, hbufs.2 p, hst0]
    cases hbuf <;> rfl
  have howns := owns_iff hbuf hid hheld hnew
  have honly := loadError_only (n := e.gone priv) hkept (secarray_raw e)
  have honce := loadError_once (n := e.gone priv) hkept (secarray_raw e) hnone
  rw [← hsecs] at honly honce
  simp only [hcap] at honce
  constructor
  · rintro ⟨h1, h2, -⟩
    dsimp only at h1 h2
    rw [hfreed] at h1 h2
    simp only [howns] at h1 h2
    obtain ⟨hseen, hunseen⟩ := honly.1 h2
    exact ⟨fun _ => hseen, fun _ => hunseen, fun _ => honce.1 h1⟩
  · rintro ⟨hseen, hunseen, hdata⟩
    refine ⟨fun p hown => ?_, fun p hfree => ?_, fun p hkeep hfree => ?_⟩ <;> dsimp only at *
    · rw [hfreed]
      exact honce.2 (hdata hhas) p ((howns p).1 hown)
    · rw [hfreed] at hfree
      exact (howns p).2 (honly.2 ⟨hseen hhas, hunseen hhas⟩ p hfree)
    · rw [hfreed] at hfree
      have hnull : p = .null := by rcases hkeep with h | ⟨_, h⟩ <;> exact h
      rw [hnull] at hfree
      exact absurd (mem_freed_loadError.1 hfree).1 (by decide)

/-- **A load that fails** after any sequence of loads frees what the driver holds, once, and
nothing else, exactly when the image meets the condition. -/
theorem load_fail_iff {es : List LoadEnv} {outs : List (LoadEnv × AdfStatus × List LoadEv)}
    {priv : DspPriv} (hrun : Sys.run loadStep noPriv es = some (outs, priv)) {e : LoadEnv}
    (hfail : (adfLoadInit e priv).1 = .generalError) :
    FreedOnce e priv (adfLoadInit e priv) ↔ FreeFits e priv := by
  have hp := run_privOk hrun
  rcases adfLoadInit_cases e priv with ⟨hc, h⟩ | ⟨hid, hdr, next, evs, hbuf, h⟩
  · rw [h]
    have := freedOnce_early hp hc
    exact iff_of_true this.1 this.2
  · rw [h] at hfail ⊢
    exact loadFrom_freed hp hid hbuf hfail

/-- An image that declares a byte more than its header and its section. -/
def longLog : LoadEnv := { logImage 8 with size := 161 }

/-- A load, and one that fails because of the size. -/
theorem load_fail_longLog : ∃ outs priv,
    Sys.run loadStep noPriv [logImage 8] = some (outs, priv) ∧
      (adfLoadInit longLog priv).1 = .generalError ∧
      FreedOnce longLog priv (adfLoadInit longLog priv) := by
  have hrun : Sys.run loadStep noPriv [logImage 8] =
      some ([(logImage 8, (adfLoadInit (logImage 8) noPriv).1,
        (adfLoadInit (logImage 8) noPriv).2.1)], (adfLoadInit (logImage 8) noPriv).2.2) := rfl
  have hfail : (adfLoadInit longLog (adfLoadInit (logImage 8) noPriv).2.2).1 = .generalError := by
    decide
  have hsecs : longLog.secarray = [⟨[76, 79, 71, 0], 0, 8, 0, .raw 0, (0, 0)⟩] := by decide
  refine ⟨_, _, hrun, hfail, (load_fail_iff hrun hfail).2 ⟨fun _ info hmem _ => ?_,
    fun _ => by decide, fun _ k => ?_⟩⟩
  · rw [hsecs] at hmem
    rw [List.mem_singleton.1 (List.mem_of_mem_take hmem)]
    rfl
  · cases k <;> decide

/-- An image with one `BIN` section, whose entry has the number 4096 as its pointer. -/
def wildBin : LoadEnv where
  src a := match a with
    | 4 => 1
    | 128 => 66 | 129 => 73 | 130 => 78
    | 145 => 16
    | _ => 0
  dst := 0
  size := 160
  binCpy := none
  dspId := 0
  kmallocHdr := true
  kmalloc _ := true
  stale _ := 0

/-- The section is not copied, and its pointer, which is from the image, is freed. -/
theorem load_fail_wild :
    (adfLoadInit wildBin noPriv).1 = .generalError ∧
    .kfree (.raw 4096) ∈ (adfLoadInit wildBin noPriv).2.1 ∧
    ¬ FreedOnce wildBin noPriv (adfLoadInit wildBin noPriv) := by
  refine ⟨by decide, by decide, fun h => ?_⟩
  have hown := h.only (.raw 4096) (by decide)
  rcases hown with ⟨-, hb, -⟩ | hmem
  · cases hb
  · exact absurd hmem (by decide)

end Adf
