import FireTablet.Adf.Proof.LoadSafe

/-!
# Loading and checking

`adfLoad_init` copies the `BIN` sections and `adfLoad_initCheck` reads them back; each finds the
address of a section on its own, relative to the first one, with 0 for "no section yet". So the two
agree with each other, and with where the sections belong unless the first section's address is 0
and a later one's is not (`placed_iff`). The check passes over a read that fails, and takes a buffer
that it does not get for a mismatch (`load_check_iff`).
-/

namespace Adf

/-! ## Where the sections belong -/

/-- The `BIN` sections from section `i` on, with their numbers. -/
def binSecs : Nat → List SecInfo → List (Nat × SecInfo)
  | _, [] => []
  | i, info :: rest =>
    if info.kind = .bin then (i, info) :: binSecs (i + 1) rest else binSecs (i + 1) rest

/-- The address of the first `BIN` section. -/
def firstAddr (bins : List (Nat × SecInfo)) : Nat := (bins.head?.map (·.2.addr)).getD 0

/-- Where a section belongs: as far behind the destination as its address is behind the first
section's. Without a destination the sections stay at their addresses. -/
def placeOf (dst first : Nat) (info : SecInfo) : Nat :=
  ((if dst = 0 then first else dst) + (info.addr + 2 ^ 64 - first)) % 2 ^ 64

/-- The sections are where they belong: there is no destination, or the first section's address
is not 0, or all addresses are. -/
def PlacesOk (dst : Nat) (bins : List (Nat × SecInfo)) : Prop :=
  dst = 0 ∨ firstAddr bins ≠ 0 ∨ ∀ p ∈ bins, p.2.addr = 0

theorem mem_binSecs {i : Nat} {secs : List SecInfo} {p : Nat × SecInfo} (h : p ∈ binSecs i secs) :
    p.2 ∈ secs := by
  induction secs generalizing i with
  | nil => cases h
  | cons info rest ih =>
    unfold binSecs at h
    split_ifs at h
    · cases h with
      | head => exact List.mem_cons_self
      | tail _ h => exact List.mem_cons_of_mem _ (ih h)
    · exact List.mem_cons_of_mem _ (ih h)

/-! ## Where the loops put them -/

/-- The `BIN` sections with the addresses that both loops compute, from their variables. -/
def placed : Nat → Nat → List (Nat × SecInfo) → List ((Nat × SecInfo) × Nat)
  | _, _, [] => []
  | baseAddr, hostDst, p :: rest =>
    let baseAddr := if baseAddr = 0 then p.2.addr else baseAddr
    let hostDst := if hostDst = 0 then p.2.addr else hostDst
    (p, (hostDst + (p.2.addr + 2 ^ 64 - baseAddr)) % 2 ^ 64) :: placed baseAddr hostDst rest

/-- With both variables set, the addresses go by them. -/
theorem placed_set {base host : Nat} (hb : base ≠ 0) (hh : host ≠ 0) (bins : List (Nat × SecInfo)) :
    placed base host bins =
      bins.map fun p => (p, (host + (p.2.addr + 2 ^ 64 - base)) % 2 ^ 64) := by
  induction bins with
  | nil => rfl
  | cons p rest ih =>
    unfold placed
    dsimp only
    rw [if_neg hb, if_neg hh, ih]
    rfl

/-- Without a destination, each section goes to its address. -/
theorem placed_null (bins : List (Nat × SecInfo)) (hlt : ∀ p ∈ bins, p.2.addr < 2 ^ 32) :
    placed 0 0 bins = bins.map fun p => (p, p.2.addr) := by
  have hmod : ∀ base addr : Nat, base < 2 ^ 32 → addr < 2 ^ 32 →
      (base + (addr + 2 ^ 64 - base)) % 2 ^ 64 = addr := fun base addr hb ha => by omega
  induction bins with
  | nil => rfl
  | cons p rest ih =>
    have hp := hlt p List.mem_cons_self
    have hrest : ∀ q ∈ rest, q.2.addr < 2 ^ 32 := fun q hq => hlt q (List.mem_cons_of_mem _ hq)
    unfold placed
    dsimp only
    rw [if_pos rfl, hmod _ _ hp hp]
    by_cases h0 : p.2.addr = 0
    · rw [h0, ih hrest, List.map_cons, h0]
    · rw [placed_set h0 h0, List.map_cons]
      exact congrArg _ (List.map_congr_left fun q hq => by rw [hmod _ _ hp (hrest q hq)])

/-- From the base 0 on, the addresses are right only as long as the sections are at 0. -/
theorem placed_base_zero {dst : Nat} (hd : dst ≠ 0) (bins : List (Nat × SecInfo))
    (hlt : ∀ p ∈ bins, p.2.addr < 2 ^ 32) :
    (placed 0 dst bins).map (·.2) = bins.map (fun p => (dst + (p.2.addr + 2 ^ 64)) % 2 ^ 64) ↔
      ∀ p ∈ bins, p.2.addr = 0 := by
  induction bins with
  | nil => simp [placed]
  | cons p rest ih =>
    have hp := hlt p List.mem_cons_self
    have hrest := ih fun q hq => hlt q (List.mem_cons_of_mem _ hq)
    unfold placed
    dsimp only
    rw [if_pos rfl, if_neg hd, List.map_cons, List.map_cons, List.cons.injEq, List.forall_mem_cons]
    constructor
    · rintro ⟨hhead, htail⟩
      have h0 : p.2.addr = 0 := by omega
      rw [h0] at htail
      exact ⟨h0, hrest.1 htail⟩
    · rintro ⟨h0, hall⟩
      rw [h0]
      exact ⟨by omega, hrest.2 hall⟩

/-- **The loops' addresses** are those where the sections belong. -/
theorem placed_iff (dst : Nat) (bins : List (Nat × SecInfo))
    (hlt : ∀ p ∈ bins, p.2.addr < 2 ^ 32) :
    (placed 0 dst bins).map (·.2) = bins.map (fun p => placeOf dst (firstAddr bins) p.2) ↔
      PlacesOk dst bins := by
  unfold PlacesOk
  cases bins with
  | nil => simp [placed]
  | cons p rest =>
    have hp := hlt p List.mem_cons_self
    have hfirst : firstAddr (p :: rest) = p.2.addr := rfl
    by_cases hd : dst = 0
    · subst hd
      refine iff_of_true ?_ (.inl rfl)
      rw [placed_null _ hlt, List.map_map]
      refine List.map_congr_left fun q hq => ?_
      have hq := hlt q hq
      unfold placeOf
      rw [if_pos rfl, hfirst]
      show q.2.addr = _
      omega
    · by_cases h0 : p.2.addr = 0
      · -- the base is 0, as if no section had been seen
        have hiff := placed_base_zero hd _ hlt
        have hplace : (fun q : Nat × SecInfo => placeOf dst (firstAddr (p :: rest)) q.2) =
            fun q => (dst + (q.2.addr + 2 ^ 64)) % 2 ^ 64 := by
          funext q
          rw [hfirst, h0, placeOf, if_neg hd, Nat.sub_zero]
        rw [hplace, hiff, hfirst, h0]
        exact ⟨fun h => .inr (.inr h), fun h =>
          (h.resolve_left hd).resolve_left fun hne => hne rfl⟩
      · refine iff_of_true ?_ (.inr (.inl (by rw [hfirst]; exact h0)))
        unfold placed
        dsimp only
        rw [if_pos rfl, if_neg hd, placed_set h0 hd, List.map_cons, List.map_cons, List.map_map,
          hfirst]
        unfold placeOf
        rw [if_neg hd]
        rfl

theorem placed_fst (base host : Nat) (bins : List (Nat × SecInfo)) :
    (placed base host bins).map (·.1) = bins := by
  induction bins generalizing base host with
  | nil => rfl
  | cons p rest ih =>
    unfold placed
    rw [List.map_cons, ih]

/-- The list of the loops, by its addresses. -/
theorem placed_eq {base host : Nat} {bins : List (Nat × SecInfo)} {f : Nat × SecInfo → Nat}
    (h : (placed base host bins).map (·.2) = bins.map f) :
    placed base host bins = bins.map fun p => (p, f p) := by
  have hfst := placed_fst base host bins
  generalize placed base host bins = ps at h hfst
  rw [← hfst, List.map_map, List.map_inj_left] at h
  rw [← hfst, List.map_map]
  refine (List.map_id ps).symm.trans (List.map_congr_left fun p hp => ?_)
  exact Prod.ext rfl (h p hp)

/-! ## The load -/

/-- The copies among the accesses: to where, from where, how many bytes. -/
def copies (evs : List LoadEv) : List (Nat × Nat × Nat) :=
  evs.filterMap fun
    | .binCpy dstAddr off len => some (dstAddr, off, len)
    | _ => none

theorem copies_append (xs ys : List LoadEv) : copies (xs ++ ys) = copies xs ++ copies ys :=
  List.filterMap_append

theorem copies_kmallocEv (p : Ptr) : copies (kmallocEv p) = [] := by cases p <;> rfl

/-- What one section that is gone through does to the variables of the addresses. -/
theorem loadSec_copies {e : LoadEnv} {i : Nat} {info : SecInfo} {st : LoadSt}
    (h : (loadSec e i info st).1 = true) :
    if info.kind = .bin then
      (loadSec e i info st).2.2.baseAddr = (if st.baseAddr = 0 then info.addr else st.baseAddr) ∧
      (loadSec e i info st).2.2.hostDst = (if st.hostDst = 0 then info.addr else st.hostDst) ∧
      copies (loadSec e i info st).2.2.evs = copies st.evs ++
        [(((if st.hostDst = 0 then info.addr else st.hostDst) +
          (info.addr + 2 ^ 64 - if st.baseAddr = 0 then info.addr else st.baseAddr)) % 2 ^ 64,
          info.offset, info.size)]
    else
      (loadSec e i info st).2.2.baseAddr = st.baseAddr ∧
      (loadSec e i info st).2.2.hostDst = st.hostDst ∧
      copies (loadSec e i info st).2.2.evs = copies st.evs := by
  unfold loadSec at h ⊢
  cases hk : info.kind with
  | bin =>
    rw [hk] at h
    rw [if_pos rfl]
    dsimp only at h ⊢
    cases hb : e.binCpy with
    | none =>
      rw [hb] at h
      cases h
    | some binCpy => exact ⟨rfl, rfl, by simp [copies]⟩
  | data k =>
    rw [if_neg (by simp)]
    dsimp only
    have hnew : ∀ p, copies (if st.data k = .null then kmallocEv p else []) = [] := fun p => by
      split_ifs
      · exact copies_kmallocEv p
      · rfl
    split_ifs <;>
      exact ⟨rfl, rfl, by simp only [copies_append, copies_kmallocEv]; simp [copies]⟩
  | other => exact ⟨rfl, rfl, by simp [copies]⟩

/-- **The copies of the loop**, when it goes through all sections. -/
theorem loadSecs_copies {e : LoadEnv} {i : Nat} {secs : List SecInfo} {st : LoadSt}
    (h : (loadSecs e i secs st).1 = true) :
    copies (loadSecs e i secs st).2.2.evs = copies st.evs ++
      (placed st.baseAddr st.hostDst (binSecs i secs)).map
        fun p => (p.2, p.1.2.offset, p.1.2.size) := by
  induction secs generalizing i st with
  | nil => simp [loadSecs, binSecs, placed]
  | cons info rest ih =>
    rw [loadSecs_cons] at h ⊢
    split_ifs at h ⊢ with hok
    dsimp only at h ⊢
    have hstep := loadSec_copies ((loadSec_ok e i info st).1.trans hok)
    rw [ih h]
    by_cases hk : info.kind = .bin
    · rw [if_pos hk] at hstep
      obtain ⟨hb, hh, hev⟩ := hstep
      rw [show binSecs i (info :: rest) = (i, info) :: binSecs (i + 1) rest from if_pos hk, hb, hh,
        hev, List.append_assoc]
      rfl
    · rw [if_neg hk] at hstep
      obtain ⟨hb, hh, hev⟩ := hstep
      rw [show binSecs i (info :: rest) = binSecs (i + 1) rest from if_neg hk, hb, hh, hev]

/-! ## The check -/

/-- **The check** passes over the reads that fail. -/
theorem checkSecs_iff (src : Nat → UInt8) (c : CheckEnv) (i : Nat) (secs : List SecInfo)
    (base host : Nat) :
    checkSecs src c i secs base host = true ↔
      ∀ p ∈ placed base host (binSecs i secs), (p.1.2.bufSize ≠ 0 ∧ c.vmalloc p.1.1 = true) ∧
        (c.binRead p.1.1 = true → sameBytes src c.mem p.1.2 p.2 = true) := by
  induction secs generalizing i base host with
  | nil => simp [checkSecs, binSecs, placed]
  | cons info rest ih =>
    unfold checkSecs binSecs
    by_cases hk : info.kind = .bin
    · rw [if_pos hk, if_pos hk]
      unfold placed
      dsimp only
      rw [List.forall_mem_cons, ← ih]
      dsimp only
      generalize (if base = 0 then info.addr else base) = base
      generalize (if host = 0 then info.addr else host) = host
      by_cases hm : info.bufSize ≠ 0 ∧ c.vmalloc i = true
      · rw [if_pos hm]
        split_ifs with hbad
        · refine iff_of_false id fun hall => ?_
          rw [hall.1.2 hbad.1] at hbad
          exact Bool.noConfusion hbad.2
        · refine ⟨fun h => ⟨⟨hm, fun hr => ?_⟩, h⟩, fun h => h.2⟩
          exact Bool.of_not_eq_false fun hs => hbad ⟨hr, hs⟩
      · rw [if_neg hm]
        exact iff_of_false Bool.false_ne_true fun hall => hm hall.1.1
    · rw [if_neg hk, if_neg hk, ih]

/-! ## The image -/

theorem num_lt (m : Nat → UInt8) (off n : Nat) : num m off n < 256 ^ n := by
  have h := Bytes.le_lt ((List.range n).map fun i => m (off + i))
  rwa [List.length_map, List.length_range] at h

theorem num_congr {m m' : Nat → UInt8} {off n : Nat} (h : ∀ i < n, m (off + i) = m' (off + i)) :
    num m off n = num m' off n := by
  unfold num
  exact congrArg Bytes.le (List.map_congr_left fun i hi => h i (List.mem_range.1 hi))

theorem secInfoAt_congr {m m' : Nat → UInt8} {off : Nat}
    (h : ∀ i < 32, m (off + i) = m' (off + i)) : secInfoAt m off = secInfoAt m' off := by
  have hnum : ∀ o n, o + n ≤ 32 → num m (off + o) n = num m' (off + o) n := fun o n ho =>
    num_congr fun i hi => by rw [Nat.add_assoc]; exact h _ (by omega)
  have hname : (List.range 4).map (fun i => m (off + i)) =
      (List.range 4).map fun i => m' (off + i) :=
    List.map_congr_left fun i hi => h i (by have := List.mem_range.1 hi; omega)
  unfold secInfoAt
  rw [hname, hnum 4 4 (by omega), hnum 8 4 (by omega), hnum 12 4 (by omega), hnum 16 8 (by omega),
    hnum 24 4 (by omega), hnum 28 4 (by omega)]

/-- The load reads the sections that the check reads, if the header's size does not wrap. -/
theorem secarray_eq {e : LoadEnv} (h : adfFwHdrlen + e.seccnt * sizeofSecInfo < 2 ^ 32) :
    e.secarray = imageSecs e.src := by
  have hsize : e.headerSize = adfFwHdrlen + e.seccnt * sizeofSecInfo := Nat.mod_eq_of_lt h
  have hcopy : ∀ a, a < e.headerSize → e.copy a = e.src a := fun a ha => if_pos ha
  unfold adfFwHdrlen sizeofSecInfo at hsize
  have hcnt : num e.copy 4 4 = num e.src 4 4 := num_congr fun i hi => hcopy _ (by omega)
  unfold LoadEnv.secarray imageSecs
  rw [hcnt]
  refine List.map_congr_left fun i hi => ?_
  have hlt : i < e.seccnt := List.mem_range.1 hi
  refine secInfoAt_congr fun j hj => hcopy _ ?_
  unfold adfFwHdrlen sizeofSecInfo
  omega

theorem imageSecs_addr {src : Nat → UInt8} {i : Nat} {p : Nat × SecInfo}
    (h : p ∈ binSecs i (imageSecs src)) : p.2.addr < 2 ^ 32 := by
  obtain ⟨j, -, hj⟩ := List.mem_map.1 (mem_binSecs h)
  rw [← hj]
  exact num_lt _ _ _

/-! ## Both -/

/-- The `BIN` sections of the image that is loaded. -/
def LoadEnv.bins (e : LoadEnv) : List (Nat × SecInfo) := binSecs 0 (imageSecs e.src)

/-- Section `p` is where it belongs. -/
def LoadEnv.loaded (e : LoadEnv) (c : CheckEnv) (p : Nat × SecInfo) : Bool :=
  sameBytes e.src c.mem p.2 (placeOf e.dst (firstAddr e.bins) p.2)

/-- The load copies each section to where it belongs, and the check succeeds if and only if every
section can be read and is there. -/
structure LoadCheckOk (e : LoadEnv) (priv : DspPriv) (c : CheckEnv) : Prop where
  copied : copies (adfLoadInit e priv).2.1 =
    e.bins.map fun p => (placeOf e.dst (firstAddr e.bins) p.2, p.2.offset, p.2.size)
  checked : adfLoadInitCheck e.src e.dst c = true ↔
    ∀ p ∈ e.bins, c.binRead p.1 = true ∧ e.loaded c p = true

/-- A section that can be read differs, or all of them can be read exactly if there is a buffer for
each, a section of no bytes having none. -/
def ReadsSettle (e : LoadEnv) (c : CheckEnv) : Prop :=
  (∃ p ∈ e.bins, c.binRead p.1 = true ∧ e.loaded c p = false) ∨
    ((∀ p ∈ e.bins, c.binRead p.1 = true) ↔
      ∀ p ∈ e.bins, p.2.bufSize ≠ 0 ∧ c.vmalloc p.1 = true)

theorem loadInit_copies {e : LoadEnv} {priv : DspPriv}
    (hhdr : adfFwHdrlen + e.seccnt * sizeofSecInfo < 2 ^ 32)
    (hok : (adfLoadInit e priv).1 = .ok) :
    copies (adfLoadInit e priv).2.1 =
      (placed 0 e.dst e.bins).map fun p => (p.2, p.1.2.offset, p.1.2.size) := by
  rcases adfLoadInit_cases e priv with ⟨-, h⟩ | ⟨-, hdr, next, evs, hbuf, h⟩
  · rw [h] at hok
    cases hok
  rw [h] at hok ⊢
  obtain ⟨secs, st, hloop, hout⟩ := loadFrom_out e priv.data hdr next (descReads ++ evs)
  rcases hout with ⟨hcnt, -, hfrom⟩ | ⟨-, hfrom⟩
  · have hfst : (loadSecs e 0 e.secarray (loadStart e priv.data hdr next (descReads ++ evs))).1 =
        true := by rw [hloop, decide_eq_true hcnt]
    have hcopies := loadSecs_copies hfst
    rw [hloop] at hcopies
    have hstart : copies (loadStart e priv.data hdr next (descReads ++ evs)).evs = [] := by
      unfold loadStart
      cases hbuf <;> rfl
    rw [hstart, List.nil_append, secarray_eq hhdr] at hcopies
    rw [hfrom]
    exact hcopies
  · rw [hfrom] at hok
    cases hok

/-- The answers about a list of sections: `r` read, `s` the same, `a` a buffer. -/
theorem settle_iff {α : Type*} (bins : List α) (r s : α → Bool) (a : α → Prop) :
    ((∀ p ∈ bins, a p ∧ (r p = true → s p = true)) ↔ ∀ p ∈ bins, r p = true ∧ s p = true) ↔
      (∃ p ∈ bins, r p = true ∧ s p = false) ∨ ((∀ p ∈ bins, r p = true) ↔ ∀ p ∈ bins, a p) := by
  by_cases hd : ∃ p ∈ bins, r p = true ∧ s p = false
  · refine iff_of_true ?_ (.inl hd)
    obtain ⟨p, hp, hr, hs⟩ := hd
    refine iff_of_false (fun h => ?_) fun h => ?_
    · rw [(h p hp).2 hr] at hs
      cases hs
    · rw [(h p hp).2] at hs
      cases hs
  · have hsame : ∀ p ∈ bins, r p = true → s p = true := fun p hp hr =>
      Bool.of_not_eq_false fun hs => hd ⟨p, hp, hr, hs⟩
    have hall : (∀ p ∈ bins, a p ∧ (r p = true → s p = true)) ↔ ∀ p ∈ bins, a p :=
      forall₂_congr fun p hp => and_iff_left (hsame p hp)
    have hread : (∀ p ∈ bins, r p = true ∧ s p = true) ↔ ∀ p ∈ bins, r p = true :=
      forall₂_congr fun p hp => and_iff_left_of_imp (hsame p hp)
    rw [hall, hread, or_iff_right hd]
    exact iff_comm

/-- **Loading and checking** agree with where the sections belong if and only if the first section's
address is told apart from "none" and the failing reads and allocations do not matter. -/
theorem load_check_iff (e : LoadEnv) (priv : DspPriv) (c : CheckEnv)
    (hhdr : adfFwHdrlen + e.seccnt * sizeofSecInfo < 2 ^ 32)
    (hok : (adfLoadInit e priv).1 = .ok) :
    LoadCheckOk e priv c ↔ PlacesOk e.dst e.bins ∧ ReadsSettle e c := by
  have hcopies := loadInit_copies hhdr hok
  have hplaces := placed_iff e.dst e.bins fun p hp => imageSecs_addr hp
  have hcheck : PlacesOk e.dst e.bins → (adfLoadInitCheck e.src e.dst c = true ↔
      ∀ p ∈ e.bins, (p.2.bufSize ≠ 0 ∧ c.vmalloc p.1 = true) ∧
        (c.binRead p.1 = true → e.loaded c p = true)) := fun hp => by
    unfold adfLoadInitCheck
    rw [checkSecs_iff, show binSecs 0 (imageSecs e.src) = e.bins from rfl,
      placed_eq (hplaces.2 hp), List.forall_mem_map]
    rfl
  constructor
  · rintro ⟨hcopied, hchecked⟩
    have haddrs := congrArg (List.map (·.1)) (hcopies.symm.trans hcopied)
    rw [List.map_map, List.map_map] at haddrs
    have hp : PlacesOk e.dst e.bins := hplaces.1 haddrs
    rw [hcheck hp] at hchecked
    exact ⟨hp, (settle_iff _ _ _ _).1 hchecked⟩
  · rintro ⟨hp, hsettle⟩
    refine ⟨?_, (hcheck hp).trans ((settle_iff _ _ _ _).2 hsettle)⟩
    rw [hcopies, placed_eq (hplaces.2 hp), List.map_map]
    rfl

/-- An image of 200 bytes with a section array of two `BIN` sections of 4 bytes, for the addresses
`first` and `first + 8`, to be loaded to address 4096. -/
def twoBins (first : UInt8) : LoadEnv where
  src a := match a with
    | 4 => 2
    | 128 => 66 | 129 => 73 | 130 => 78 | 132 => first | 136 => 4 | 140 => 192
    | 160 => 66 | 161 => 73 | 162 => 78 | 164 => first + 8 | 168 => 4 | 172 => 196
    | 192 => 1 | 196 => 2
    | _ => 0
  dst := 4096
  size := 200
  binCpy := some fun _ => true
  dspId := 0
  kmallocHdr := true
  kmalloc _ := true
  stale _ := 0

/-- Memory after the sections of `twoBins` are loaded to where they belong. -/
def twoLoaded : Nat → UInt8
  | 4096 => 1
  | 4104 => 2
  | _ => 0

theorem load_check_two :
    LoadCheckOk (twoBins 8) noPriv ⟨fun _ => true, fun _ => true, twoLoaded⟩ ↔
      PlacesOk 4096 (twoBins 8).bins ∧
        ReadsSettle (twoBins 8) ⟨fun _ => true, fun _ => true, twoLoaded⟩ :=
  load_check_iff (twoBins 8) noPriv _ (by decide) (by decide)

/-- **An image for address 0**: both sections are copied to the destination, and a check of which no
read succeeds finds no mismatch. -/
theorem load_check_zero :
    (adfLoadInit (twoBins 0) noPriv).1 = .ok ∧
      copies (adfLoadInit (twoBins 0) noPriv).2.1 = [(4096, 192, 4), (4096, 196, 4)] ∧
      (twoBins 0).bins.map (fun p => placeOf 4096 (firstAddr (twoBins 0).bins) p.2) =
        [4096, 4104] ∧
      adfLoadInitCheck (twoBins 0).src 4096 ⟨fun _ => true, fun _ => false, twoLoaded⟩ = true ∧
      ¬ LoadCheckOk (twoBins 0) noPriv ⟨fun _ => true, fun _ => false, twoLoaded⟩ ∧
      ¬ LoadCheckOk (twoBins 8) noPriv ⟨fun _ => true, fun _ => false, twoLoaded⟩ := by
  refine ⟨by decide, by decide, by decide, by decide, fun h => ?_, fun h => ?_⟩
  · exact absurd h.copied (by decide)
  · exact absurd (h.checked.1 (by decide)) (by decide)

end Adf
