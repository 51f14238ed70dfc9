import FireTablet.LogStore.Expdb
import FireTablet.Lib.Run

/-!
# Reading and writing the header

The header that was written is read again, and writes elsewhere leave it. `Fits` says that the
header and its table lie between the log text and the end of the partition.

`next` is what a call means for the header alone, and `run_header` says that the partition follows
it. Where the header and its table fit behind the log text, no two kinds of writes overlap.
-/

namespace LogStore

theorem LogEmmcHeader.encode_length (h : LogEmmcHeader) : h.encode.length = sizeofHeader := by
  simp [encode, sizeofHeader]

theorem LogEmmcHeader.decode_encode (h : LogEmmcHeader) : decode h.encode = h := by
  obtain ⟨sig, offset, flags⟩ := h
  have hflag : ∀ i : Fin 11, (i : Nat) + 2 < (sig :: offset :: List.ofFn flags).length := by
    intro i
    have := i.isLt
    simp only [List.length_cons, List.length_ofFn]
    omega
  simp only [decode, encode]
  congr 1
  · exact Bytes.word_ofWords (by simp)
  · exact Bytes.word_ofWords (by simp)
  · funext i
    rw [Bytes.word_ofWords (hflag i), List.getElem_cons_succ, List.getElem_cons_succ,
      List.getElem_ofFn]

/-- The table of 16 entries follows the header. -/
def sizeofTable : Nat := 16 * sizeofEmmcLog

/-- The header and its table lie behind the log text and before the end of the partition. -/
structure Expdb.Fits (p : Expdb) : Prop where
  table : sizeofHeader + sizeofTable ≤ p.reserve1
  text : p.reserve1 ≤ logBlockSize

section
variable {p : Expdb}

/-- The position of the header as a natural number. -/
def Expdb.base (p : Expdb) : Nat := p.fileSize - p.reserve1

theorem headerPos_eq (p : Expdb) : headerPos p = p.base := by
  have h1 := p.le
  have h2 := p.log_le
  unfold headerPos Expdb.base
  omega

theorem base_add (p : Expdb) : p.base + p.reserve1 = p.fileSize := by
  have h1 := p.le
  have h2 := p.log_le
  unfold Expdb.base
  omega

theorem llseek_eq {f : Filp} {n : Nat} (h : n ≤ p.fileSize) :
    llseek p f n = { f with pos := n } := by
  unfold llseek
  rw [if_pos ⟨Int.natCast_nonneg n, by omega⟩, Int.toNat_natCast]

/-- A write inside of the partition. -/
theorem write_eq {f : Filp} {area : Area} {bs : List UInt8}
    (h : f.pos + bs.length ≤ p.fileSize) :
    write p f area bs = ((bs.length : Int), ⟨f.disk.store f.pos bs, f.pos + bs.length,
      f.writes ++ [⟨area, f.pos, bs.length⟩]⟩) := by
  unfold write
  have hcond : ¬ (p.fileSize ≤ f.pos ∧ bs ≠ []) := by
    rintro ⟨h1, h2⟩
    have := List.length_pos_iff.2 h2
    omega
  rw [if_neg hcond, Nat.min_eq_left (by omega)]
  dsimp only
  rw [List.take_length]

variable (hfit : p.Fits)
include hfit

theorem fits_header : p.base + sizeofHeader ≤ p.fileSize := by
  have h1 := base_add p
  have h2 := hfit.table
  omega

theorem readHeader_eq (disk : Mem) :
    readHeader p disk = .decode (disk.load p.base sizeofHeader) := by
  have h1 := fits_header hfit
  rw [readHeader, headerPos_eq, llseek_eq (by omega), read, Nat.min_eq_left (by simp only; omega)]

theorem writeHeader_eq (f : Filp) (h : LogEmmcHeader) :
    writeHeader p f (headerPos p) h = ⟨f.disk.store p.base h.encode, p.base + sizeofHeader,
      f.writes ++ [⟨.header, p.base, sizeofHeader⟩]⟩ := by
  have h1 := fits_header hfit
  rw [writeHeader, headerPos_eq, llseek_eq (by omega), write_eq]
  · rw [h.encode_length]
  · simp only [h.encode_length]
    exact h1

/-- The header that was written is read. -/
theorem readHeader_store (disk : Mem) (h : LogEmmcHeader) :
    readHeader p (disk.store p.base h.encode) = h := by
  rw [readHeader_eq hfit, ← h.encode_length, Mem.load_store_same, h.decode_encode]

/-- A write that misses the header leaves it. -/
theorem readHeader_other {disk : Mem} {pos : Nat} {bs : List UInt8}
    (h : pos + bs.length ≤ p.base ∨ p.base + sizeofHeader ≤ pos) :
    readHeader p (disk.store pos bs) = readHeader p disk := by
  rw [readHeader_eq hfit, readHeader_eq hfit, Mem.load_store_other (by omega)]

end

/-! ## Where the writes go -/

/-- The write goes to the place of its area. -/
def Write.Inside (p : Expdb) (w : Write) : Prop :=
  match w.area with
  | .header => w.pos = p.base ∧ w.len = sizeofHeader
  | .index => p.base + sizeofHeader ≤ w.pos ∧ w.pos + w.len ≤ p.base + sizeofHeader + sizeofTable
  | .text => p.fileSize - expdbLogSize ≤ w.pos ∧ w.pos + w.len ≤ p.fileSize - logBlockSize

/-- Writes to the places of different areas do not overlap. -/
theorem inside_disjoint {p : Expdb} (hfit : p.Fits) {w w' : Write} (hw : w.Inside p)
    (hw' : w'.Inside p) (hne : w.area ≠ w'.area) :
    w.pos + w.len ≤ w'.pos ∨ w'.pos + w'.len ≤ w.pos := by
  have h1 := base_add p
  have h2 := hfit.text
  unfold Write.Inside at hw hw'
  cases ha : w.area <;> cases ha' : w'.area <;> simp only [ha, ha'] at hw hw' hne <;>
    first | exact absurd rfl hne | omega

/-! ## The text -/

/-- The offset behind a line. -/
def lineEnd (offset : Nat) (line : Line) : Nat := lineStart offset line + line.val.length

theorem lineEnd_le (offset : Nat) (line : Line) :
    lineEnd offset line ≤ expdbLogSize - logBlockSize := by
  have := line.property
  unfold lineEnd lineStart
  unfold expdbLogSize logBlockSize at *
  split_ifs <;> omega

section
variable {p : Expdb}

theorem storeLine_eq (offset : Nat) (f : Filp) (line : Line) :
    storeLine p (offset, f) line = (lineEnd offset line,
      ⟨f.disk.store (p.fileSize - expdbLogSize + lineStart offset line : Nat) line.val,
        p.fileSize - expdbLogSize + lineStart offset line + line.val.length,
        f.writes ++ [⟨.text, p.fileSize - expdbLogSize + lineStart offset line,
          line.val.length⟩]⟩) := by
  have hle := lineEnd_le offset line
  have h1 := p.log_le
  have h2 := p.lt
  have hpos : (p.fileSize - expdbLogSize + lineStart offset line : Int) =
      (p.fileSize - expdbLogSize + lineStart offset line : Nat) := by omega
  unfold lineEnd at hle
  unfold expdbLogSize logBlockSize at hle
  unfold expdbLogSize at h1
  have hseek : p.fileSize - expdbLogSize + lineStart offset line ≤ p.fileSize := by
    unfold expdbLogSize
    omega
  simp only [storeLine]
  rw [hpos, llseek_eq hseek, write_eq (by simp only; unfold expdbLogSize; omega)]
  simp only
  rw [if_neg (by omega), Int.toNat_natCast, Nat.mod_eq_of_lt (by omega), lineEnd]

/-- **The loop** writes text to the place of the text, and nothing else. -/
theorem storeLines (hfit : p.Fits) (lines : List Line) (offset : Nat) (f : Filp)
    (hw : ∀ w ∈ f.writes, w.Inside p) :
    (lines.foldl (storeLine p) (offset, f)).1 = lines.foldl lineEnd offset ∧
    readHeader p (lines.foldl (storeLine p) (offset, f)).2.disk = readHeader p f.disk ∧
    ∀ w ∈ (lines.foldl (storeLine p) (offset, f)).2.writes, w.Inside p := by
  induction lines generalizing offset f with
  | nil => exact ⟨rfl, rfl, hw⟩
  | cons line lines ih =>
    have h1 := p.log_le
    have h2 := base_add p
    have h3 := hfit.text
    have hle := lineEnd_le offset line
    unfold lineEnd at hle
    unfold expdbLogSize logBlockSize at *
    simp only [List.foldl_cons, storeLine_eq]
    obtain ⟨i1, i2, i3⟩ := ih (lineEnd offset line)
      ⟨f.disk.store (p.fileSize - expdbLogSize + lineStart offset line : Nat) line.val,
        p.fileSize - expdbLogSize + lineStart offset line + line.val.length,
        f.writes ++ [⟨.text, p.fileSize - expdbLogSize + lineStart offset line,
          line.val.length⟩]⟩ (by
        intro w hmem
        obtain hmem | hmem := List.mem_append.1 hmem
        · exact hw w hmem
        · obtain rfl := List.mem_singleton.1 hmem
          refine ⟨by simp only; omega, ?_⟩
          simp only
          unfold expdbLogSize logBlockSize
          omega)
    refine ⟨i1, i2.trans ?_, i3⟩
    exact readHeader_other hfit (.inl (by unfold expdbLogSize; omega))

end

/-! ## The header over a run -/

/-- The header of the partition, if its signature is right. -/
def header? (p : Expdb) (disk : Mem) : Option LogEmmcHeader :=
  if (readHeader p disk).sig = logEmmcSig then some (readHeader p disk) else none

/-- The header after lines have been stored. -/
def LogEmmcHeader.stored (h : LogEmmcHeader) (lines : List Line) : LogEmmcHeader :=
  { h with offset := UInt32.ofNat (lines.foldl lineEnd h.offset.toNat) }.setFlag logIndex
    ((h.reserveFlag logIndex + 1) % headerIndexMax)

local instance neZero_flagTypeNr : NeZero 11 := ⟨by decide⟩

/-- What a call makes of the header. -/
def next (h : Option LogEmmcHeader) : Op → Option LogEmmcHeader
  | .setBootPhase phase needSave opened =>
    if needSave ∨ ¬ opened then h else some ((h.getD .fresh).setBootStep phase)
  | .logStoreToEmmc lines opened => if ¬ opened then h else some ((h.getD .fresh).stored lines)
  | .setEmmcConfig type value opened =>
    if emmcStoreFlagTypeNr ≤ type ∨ type < 0 ∨ ¬ opened then h
    else h.map fun h =>
      h.setFlag (Fin.ofNat 11 type.toNat) (configValue (Fin.ofNat 11 type.toNat) value)

/-- The offset lies in the log area and the index in the table. -/
structure LogEmmcHeader.Well (h : LogEmmcHeader) : Prop where
  offset : h.offset.toNat ≤ expdbLogSize - logBlockSize
  index : (h.reserveFlag logIndex).toNat < 16

theorem LogEmmcHeader.fresh_well : fresh.Well := ⟨by decide, by decide⟩

/-- `set_emmc_config` is called where it writes the header to its place, with an index of the table.
-/
def OpOk (p : Expdb) : Op → Prop
  | .setEmmcConfig type value _ =>
    p.reserve1 = logBlockSize ∧ (type = 1 → 0 ≤ value ∧ value < 16)
  | _ => True

section
variable {p : Expdb}

theorem header?_sig {disk : Mem} {h : LogEmmcHeader} (hd : header? p disk = some h) :
    h.sig = logEmmcSig := by
  unfold header? at hd
  split_ifs at hd with hs
  exact Option.some.inj hd ▸ hs

/-- Formatting gives the header of the partition, or a fresh one. -/
theorem format_eq (disk : Mem) : (readHeader p disk).format = (header? p disk).getD .fresh := by
  unfold LogEmmcHeader.format header?
  by_cases hs : (readHeader p disk).sig = logEmmcSig
  · rw [if_neg (not_not_intro hs), if_pos hs, Option.getD_some]
  · rw [if_pos hs, if_neg hs, Option.getD_none]

theorem getD_sig (disk : Mem) : ((header? p disk).getD .fresh).sig = logEmmcSig := by
  cases hd : header? p disk with
  | none => rfl
  | some h => exact header?_sig hd

theorem getD_well {disk : Mem} (hw : ∀ h ∈ header? p disk, h.Well) :
    ((header? p disk).getD .fresh).Well := by
  cases hd : header? p disk with
  | none => exact LogEmmcHeader.fresh_well
  | some h => exact hw h hd

theorem inside_header (p : Expdb) : (⟨.header, p.base, sizeofHeader⟩ : Write).Inside p :=
  ⟨rfl, rfl⟩

/-- An index that `set_emmc_config` stores is an index of the table. -/
theorem setFlag_well {h : LogEmmcHeader} {type value : Int} (hw : h.Well) (h0 : 0 ≤ type)
    (h5 : type < emmcStoreFlagTypeNr) (hindex : type = 1 → 0 ≤ value ∧ value < 16) :
    (h.setFlag (Fin.ofNat 11 type.toNat) (configValue (Fin.ofNat 11 type.toNat) value)).Well := by
  refine ⟨hw.offset, ?_⟩
  unfold LogEmmcHeader.setFlag
  by_cases ht : type = 1
  · subst ht
    obtain ⟨hv0, hv⟩ := hindex rfl
    obtain ⟨n, rfl⟩ := Int.eq_ofNat_of_zero_le hv0
    have hn : n < 16 := by omega
    have hval : configValue logIndex n = UInt32.ofNat n := by
      rw [configValue, if_neg (by decide), CInt.u32_eq hv0 (by omega), Int.toNat_natCast]
    show (Function.update h.reserveFlag logIndex (configValue logIndex n) logIndex).toNat < 16
    rw [Function.update_self, hval, UInt32.toNat_ofNat', Nat.mod_eq_of_lt (by omega)]
    exact hn
  · have hne : logIndex ≠ Fin.ofNat 11 type.toNat := by
      intro he
      have hv := congrArg Fin.val he
      unfold emmcStoreFlagTypeNr at h5
      simp only [logIndex, Fin.ofNat] at hv
      rw [Nat.mod_eq_of_lt (by omega)] at hv
      exact ht (by
        have : ((1 : Fin 11) : Nat) = 1 := rfl
        omega)
    show (Function.update h.reserveFlag (Fin.ofNat 11 type.toNat) _ logIndex).toNat < 16
    rw [Function.update_of_ne hne]
    exact hw.index

theorem stored_well {h : LogEmmcHeader} (hw : h.Well) (lines : List Line) :
    (h.stored lines).Well := by
  constructor
  · have hend : ∀ (ls : List Line) (o : Nat), o ≤ expdbLogSize - logBlockSize →
        ls.foldl lineEnd o ≤ expdbLogSize - logBlockSize := by
      intro ls
      induction ls with
      | nil => exact fun _ ho => ho
      | cons l ls ih => exact fun o _ => ih _ (lineEnd_le o l)
    have hle := hend lines _ hw.offset
    show (UInt32.ofNat (lines.foldl lineEnd h.offset.toNat)).toNat ≤ _
    rw [UInt32.toNat_ofNat']
    exact Nat.le_trans (Nat.mod_le _ _) hle
  · show (Function.update h.reserveFlag logIndex
      ((h.reserveFlag logIndex + 1) % headerIndexMax) logIndex).toNat < 16
    rw [Function.update_self, UInt32.toNat_mod]
    exact Nat.mod_lt _ (by decide)

variable (hfit : p.Fits)
include hfit

/-- The header of the partition after it was written. -/
theorem header?_store (disk : Mem) {h : LogEmmcHeader} (hs : h.sig = logEmmcSig) :
    header? p (disk.store p.base h.encode) = some h := by
  unfold header?
  rw [readHeader_store hfit, if_pos hs]

/-! ## One call -/

theorem setBootPhase_spec (s : State) (phase : UInt32) (needSave opened : Bool)
    (hw : ∀ h ∈ header? p s.disk, h.Well) :
    header? p (setBootPhase p s phase needSave opened).1.disk =
      next (header? p s.disk) (.setBootPhase phase needSave opened) ∧
    (∀ w ∈ (setBootPhase p s phase needSave opened).2, w.Inside p) ∧
    ∀ h ∈ header? p (setBootPhase p s phase needSave opened).1.disk, h.Well := by
  by_cases hskip : needSave = true ∨ ¬ opened = true
  · simp only [setBootPhase, next, if_pos hskip]
    exact ⟨trivial, by simp, hw⟩
  · have hwell := getD_well hw
    have hsig := getD_sig (p := p) s.disk
    simp only [setBootPhase, next, if_neg hskip, writeHeader_eq hfit, format_eq]
    have hs : (((header? p s.disk).getD .fresh).setBootStep phase).sig = logEmmcSig := hsig
    rw [header?_store hfit s.disk hs]
    refine ⟨rfl, by simpa using inside_header p, ?_⟩
    rintro h ⟨⟩
    exact ⟨hwell.offset, hwell.index⟩

theorem setEmmcConfig_spec (s : State) (type value : Int) (opened : Bool)
    (hok : OpOk p (.setEmmcConfig type value opened)) (hw : ∀ h ∈ header? p s.disk, h.Well) :
    header? p (setEmmcConfig p s type value opened).2.1.disk =
      next (header? p s.disk) (.setEmmcConfig type value opened) ∧
    (∀ w ∈ (setEmmcConfig p s type value opened).2.2, w.Inside p) ∧
    ∀ h ∈ header? p (setEmmcConfig p s type value opened).2.1.disk, h.Well := by
  obtain ⟨hres, hindex⟩ := hok
  have hpos : (p.fileSize - logBlockSize : Int) = headerPos p := by
    unfold headerPos
    rw [hres]
  by_cases hbad : emmcStoreFlagTypeNr ≤ type ∨ type < 0 ∨ ¬ opened = true
  · simp only [setEmmcConfig, next, if_pos hbad]
    exact ⟨trivial, by simp, hw⟩
  · simp only [not_or, Int.not_le, Int.not_lt] at hbad
    by_cases hs : (readHeader p s.disk).sig = logEmmcSig
    · have hd : header? p s.disk = some (readHeader p s.disk) := if_pos hs
      simp only [setEmmcConfig, next, if_neg (not_or.2 ⟨Int.not_le.2 hbad.1, not_or.2
        ⟨Int.not_lt.2 hbad.2.1, hbad.2.2⟩⟩), if_neg (not_not_intro hs), hpos,
        writeHeader_eq hfit, hd, Option.map_some]
      rw [header?_store hfit s.disk (by exact hs)]
      refine ⟨rfl, by simpa using inside_header p, ?_⟩
      rintro h ⟨⟩
      exact setFlag_well (hw _ hd) hbad.2.1 hbad.1 hindex
    · have hd : header? p s.disk = none := if_neg hs
      simp only [setEmmcConfig, next, if_neg (not_or.2 ⟨Int.not_le.2 hbad.1, not_or.2
        ⟨Int.not_lt.2 hbad.2.1, hbad.2.2⟩⟩), if_pos hs, hd, Option.map_none]
      exact ⟨trivial, by simp, by simp⟩

theorem logStoreToEmmc_spec (s : State) (lines : List Line) (opened : Bool)
    (hw : ∀ h ∈ header? p s.disk, h.Well) :
    header? p (logStoreToEmmc p s lines opened).1.disk =
      next (header? p s.disk) (.logStoreToEmmc lines opened) ∧
    (∀ w ∈ (logStoreToEmmc p s lines opened).2, w.Inside p) ∧
    ∀ h ∈ header? p (logStoreToEmmc p s lines opened).1.disk, h.Well := by
  by_cases hskip : opened = true
  · have hwell := getD_well hw
    have hsig := getD_sig (p := p) s.disk
    simp only [logStoreToEmmc, next, if_neg (not_not_intro hskip), format_eq]
    generalize (header? p s.disk).getD .fresh = h at hwell hsig
    obtain ⟨l1, -, l3⟩ := storeLines hfit lines h.offset.toNat ⟨s.disk, 0, []⟩ (by simp)
    rw [l1]
    generalize (lines.foldl (storeLine p) (h.offset.toNat, ⟨s.disk, 0, []⟩)).2 = f at l3
    -- the table entry has its place behind the header
    have h1 := base_add p
    have h2 := hfit.table
    have h3 := p.lt
    have hidx := hwell.index
    unfold sizeofTable sizeofHeader sizeofEmmcLog at h2
    have hpos : CInt.i32 (headerPos p + sizeofHeader +
        (h.reserveFlag logIndex).toNat * sizeofEmmcLog) =
          (p.base + sizeofHeader + (h.reserveFlag logIndex).toNat * sizeofEmmcLog : Nat) := by
      rw [headerPos_eq, CInt.i32_eq]
      · simp
      · unfold CInt.IsI32 sizeofHeader sizeofEmmcLog
        omega
    rw [hpos, llseek_eq (by unfold sizeofHeader sizeofEmmcLog; omega), write_eq (by
      simp only [Bytes.length_ofWords, List.length_cons, List.length_nil]
      unfold sizeofHeader sizeofEmmcLog
      omega)]
    rw [writeHeader_eq hfit]
    have hs : (h.stored lines).sig = logEmmcSig := hsig
    have hd := fun disk => header?_store hfit disk hs
    refine ⟨hd _, ?_, ?_⟩
    · intro w hmem
      obtain hmem | hmem := List.mem_append.1 hmem
      · obtain hmem | hmem := List.mem_append.1 hmem
        · exact l3 w hmem
        · obtain rfl := List.mem_singleton.1 hmem
          refine ⟨by simp only; omega, ?_⟩
          simp only [Bytes.length_ofWords, List.length_cons, List.length_nil]
          unfold sizeofTable sizeofEmmcLog
          omega
      · obtain rfl := List.mem_singleton.1 hmem
        exact inside_header p
    · intro h' hh'
      obtain rfl : h.stored lines = h' := Option.some.inj ((hd _).symm.trans hh')
      exact stored_well hwell lines
  · simp only [logStoreToEmmc, next, if_pos hskip]
    exact ⟨trivial, by simp, hw⟩

theorem step_spec (s : State) (op : Op) (hok : OpOk p op)
    (hw : ∀ h ∈ header? p s.disk, h.Well) :
    ∃ o s', step p s op = some (o, s') ∧ (∀ h ∈ header? p s'.disk, h.Well) ∧
      header? p s'.disk = next (header? p s.disk) op ∧ ∀ w ∈ o.2, w.Inside p := by
  cases op with
  | setBootPhase phase needSave opened =>
    obtain ⟨h1, h2, h3⟩ := setBootPhase_spec hfit s phase needSave opened hw
    exact ⟨_, _, rfl, h3, h1, h2⟩
  | logStoreToEmmc lines opened =>
    obtain ⟨h1, h2, h3⟩ := logStoreToEmmc_spec hfit s lines opened hw
    exact ⟨_, _, rfl, h3, h1, h2⟩
  | setEmmcConfig type value opened =>
    obtain ⟨h1, h2, h3⟩ := setEmmcConfig_spec hfit s type value opened hok hw
    exact ⟨_, _, rfl, h3, h1, h2⟩

end

/-! ## Runs -/

/-- The value that `set_emmc_config` was last called with for a flag. -/
def lastSet (type : Fin 11) (ops : List Op) : Option Int :=
  ops.foldl (fun v op =>
    match op with
    | .setEmmcConfig t value true =>
      if 0 ≤ t ∧ t < emmcStoreFlagTypeNr ∧ t.toNat = type then some value else v
    | _ => v) none

/-- A flag that only `set_emmc_config` changes. -/
def IsConfig (type : Fin 11) : Prop := type = uartLog ∨ type = printkRatelimit ∨ type = kedumpCtl

/-- What reading a flag gives: what was last set, or what was there. -/
def flagAfter (type : Fin 11) (start : UInt32) (ops : List Op) : UInt32 :=
  ((lastSet type ops).map (configValue type)).getD start

/-- One more call. -/
theorem lastSet_append (type : Fin 11) (ops : List Op) (op : Op) :
    lastSet type (ops ++ [op]) = match op with
      | .setEmmcConfig t value true =>
        if 0 ≤ t ∧ t < emmcStoreFlagTypeNr ∧ t.toNat = type then some value else lastSet type ops
      | _ => lastSet type ops := by
  rw [lastSet, List.foldl_append]
  rfl

/-- **The flags over a run** that starts with a header. -/
theorem foldl_next (h : LogEmmcHeader) (ops : List Op) :
    ∃ h', ops.foldl next (some h) = some h' ∧
      ∀ type, IsConfig type → h'.reserveFlag type = flagAfter type (h.reserveFlag type) ops := by
  induction ops using List.reverseRecOn with
  | nil => exact ⟨h, rfl, fun _ _ => rfl⟩
  | append_singleton ops op ih =>
    obtain ⟨h', hh', hflag⟩ := ih
    have hne : ∀ type, IsConfig type → type ≠ bootStep ∧ type ≠ logIndex := by
      intro type htype
      obtain rfl | rfl | rfl := htype <;> exact ⟨by decide, by decide⟩
    rw [List.foldl_append, hh']
    cases op with
    | setBootPhase phase needSave opened =>
      simp only [List.foldl_cons, List.foldl_nil, next, Option.getD_some]
      split_ifs
      · refine ⟨h', rfl, ?_⟩
        intro type htype
        rw [hflag type htype, flagAfter, flagAfter, lastSet_append]
      · refine ⟨_, rfl, ?_⟩
        intro type htype
        rw [flagAfter, lastSet_append]
        exact (Function.update_of_ne (hne type htype).1 _ _).trans (hflag type htype)
    | logStoreToEmmc lines opened =>
      simp only [List.foldl_cons, List.foldl_nil, next, Option.getD_some]
      cases opened with
      | false =>
        refine ⟨h', rfl, ?_⟩
        intro type htype
        rw [hflag type htype, flagAfter, flagAfter, lastSet_append]
      | true =>
        refine ⟨_, rfl, ?_⟩
        intro type htype
        rw [flagAfter, lastSet_append]
        exact (Function.update_of_ne (hne type htype).2 _ _).trans (hflag type htype)
    | setEmmcConfig t value opened =>
      simp only [List.foldl_cons, List.foldl_nil, next]
      split_ifs with hbad
      · refine ⟨h', rfl, ?_⟩
        intro type htype
        rw [hflag type htype, flagAfter, flagAfter, lastSet_append]
        cases opened with
        | false => rfl
        | true =>
          simp only
          rw [if_neg]
          rintro ⟨h0, h5, -⟩
          obtain hb | hb | hb := hbad
          · omega
          · omega
          · exact hb rfl
      · simp only [not_or, Int.not_le, Int.not_lt, Bool.not_eq_true, Bool.not_eq_false] at hbad
        obtain ⟨h5, h0, rfl⟩ := hbad
        refine ⟨_, rfl, ?_⟩
        intro type htype
        rw [flagAfter, lastSet_append]
        simp only
        have hmod : ((Fin.ofNat 11 t.toNat : Fin 11) : Nat) = t.toNat := by
          unfold emmcStoreFlagTypeNr at h5
          exact Nat.mod_eq_of_lt (by omega)
        by_cases he : t.toNat = type
        · have hf : Fin.ofNat 11 t.toNat = type := Fin.ext (hmod.trans he)
          rw [if_pos ⟨h0, h5, he⟩, hf]
          exact Function.update_self _ _ _
        · have hf : type ≠ Fin.ofNat 11 t.toNat := by
            intro hf
            exact he (hmod.symm.trans (congrArg Fin.val hf).symm)
          rw [if_neg (fun hc => he hc.2.2)]
          exact (Function.update_of_ne hf _ _).trans (hflag type htype)

section
variable {p : Expdb} (hfit : p.Fits)
include hfit

/-- **Runs** never get stuck, and the partition follows `next`. -/
theorem run_header (ops : List Op) (s : State) (hok : ∀ op ∈ ops, OpOk p op)
    (hw : ∀ h ∈ header? p s.disk, h.Well) :
    ∃ es s', Sys.run (step p) s ops = some (es, s') ∧
      header? p s'.disk = ops.foldl next (header? p s.disk) ∧
      (∀ h ∈ header? p s'.disk, h.Well) ∧ ∀ e ∈ es, ∀ w ∈ e.2.2, w.Inside p := by
  induction ops generalizing s with
  | nil => exact ⟨[], s, rfl, rfl, hw, by simp⟩
  | cons op ops ih =>
    obtain ⟨o, s1, hs1, hw1, hn1, hin1⟩ := step_spec hfit s op (hok op (by simp)) hw
    obtain ⟨es, s', hrun, hn, hw', hin⟩ := ih s1 (fun op' hm => hok op' (by simp [hm])) hw1
    refine ⟨(op, o) :: es, s', ?_, ?_, hw', ?_⟩
    · rw [Sys.run_cons_some ops hs1, hrun]
      rfl
    · rw [hn, hn1]
      rfl
    · intro e hm
      obtain rfl | hm := List.mem_cons.1 hm
      · exact hin1
      · exact hin e hm

end

/-- What `read_emmc_config` reads. -/
theorem readEmmcConfig_eq {p : Expdb} {s : State} {h : LogEmmcHeader}
    (hd : header? p s.disk = some h) : readEmmcConfig p s true = (0, some h) := by
  unfold header? at hd
  split_ifs at hd with hs
  obtain rfl := Option.some.inj hd
  simp only [readEmmcConfig, if_neg (not_not_intro trivial), if_neg (not_not_intro hs)]

/-- **The log header.** Where the header and its table fit behind the log text, and the header is
written to its place: a valid header stays valid, a configured flag reads as it was last set, the
offset stays in the log area, and writes of different kinds never overlap. -/
theorem expdb_kept (p : Expdb) (hfit : p.Fits) (s : State)
    (hw : ∀ h ∈ header? p s.disk, h.Well) (ops : List Op) (hok : ∀ op ∈ ops, OpOk p op) :
    ∃ es s', Sys.run (step p) s ops = some (es, s') ∧
      header? p s'.disk = ops.foldl next (header? p s.disk) ∧
      (∀ h ∈ header? p s'.disk, h.offset.toNat ≤ expdbLogSize - logBlockSize) ∧
      (∀ h, header? p s.disk = some h → ∃ h', readEmmcConfig p s' true = (0, some h') ∧
        ∀ type, IsConfig type → h'.reserveFlag type = flagAfter type (h.reserveFlag type) ops) ∧
      (∀ e ∈ es, ∀ w ∈ e.2.2, w.Inside p) ∧
      ∀ e ∈ es, ∀ e' ∈ es, ∀ w ∈ e.2.2, ∀ w' ∈ e'.2.2, w.area ≠ w'.area →
        w.pos + w.len ≤ w'.pos ∨ w'.pos + w'.len ≤ w.pos := by
  obtain ⟨es, s', hrun, hn, hw', hin⟩ := run_header hfit ops s hok hw
  refine ⟨es, s', hrun, hn, fun h hh => (hw' h hh).offset, ?_, hin,
    fun e he e' he' w hm w' hm' hne => inside_disjoint hfit (hin e he w hm) (hin e' he' w' hm') hne⟩
  intro h hd
  obtain ⟨h', hh', hflag⟩ := foldl_next h ops
  rw [hd, hh'] at hn
  exact ⟨h', readEmmcConfig_eq hn, hflag⟩

/-- A partition of 4 MB with the header in its last block. -/
def expdb4 : Expdb := ⟨4194304, 512, by decide, by decide, by decide, by decide⟩

theorem expdb4_fits : expdb4.Fits := ⟨by decide, by decide⟩

/-- There is no header in an erased partition. -/
theorem header?_erased {p : Expdb} (hfit : p.Fits) : header? p (fun _ => 0) = none := by
  have hsig : (readHeader p fun _ => 0).sig = 0 := by
    rw [readHeader_eq hfit]
    rfl
  unfold header?
  rw [hsig, if_neg (by decide)]

theorem expdb_kept_erased :
    ∃ es s', Sys.run (step expdb4) ⟨fun _ => 0, 0⟩ [.setBootPhase 1 false true,
        .setEmmcConfig 0 1 true, .logStoreToEmmc [⟨[76, 10], by decide⟩] true] = some (es, s') ∧
      (header? expdb4 s'.disk).isSome ∧ ∀ h ∈ header? expdb4 s'.disk, h.offset.toNat ≤ 2096640 := by
  obtain ⟨es, s', hrun, hn, hoff, -⟩ := expdb_kept expdb4 expdb4_fits ⟨fun _ => 0, 0⟩
    (by simp [header?_erased expdb4_fits]) [.setBootPhase 1 false true, .setEmmcConfig 0 1 true,
      .logStoreToEmmc [⟨[76, 10], by decide⟩] true] (by
      intro op hop
      obtain rfl | rfl | rfl : op = .setBootPhase 1 false true ∨ op = .setEmmcConfig 0 1 true ∨
          op = .logStoreToEmmc [⟨[76, 10], by decide⟩] true := by simpa using hop
      · trivial
      · exact ⟨rfl, fun h => absurd h (by decide)⟩
      · trivial)
  refine ⟨es, s', hrun, ?_, hoff⟩
  rw [hn, header?_erased expdb4_fits]
  rfl

/-- A log that is stored moves the index that was configured. -/
theorem expdb_kept_index :
    ∃ es s' h, Sys.run (step expdb4) ⟨fun _ => 0, 0⟩ [.setBootPhase 1 false true,
        .setEmmcConfig 1 5 true, .logStoreToEmmc [] true] = some (es, s') ∧
      lastSet logIndex [.setBootPhase 1 false true, .setEmmcConfig 1 5 true,
        .logStoreToEmmc [] true] = some 5 ∧
      readEmmcConfig expdb4 s' true = (0, some h) ∧ h.reserveFlag logIndex = 6 := by
  obtain ⟨es, s', hrun, hn, -⟩ := run_header expdb4_fits [.setBootPhase 1 false true,
      .setEmmcConfig 1 5 true, .logStoreToEmmc [] true] ⟨fun _ => 0, 0⟩ (by
      intro op hop
      obtain rfl | rfl | rfl : op = .setBootPhase 1 false true ∨ op = .setEmmcConfig 1 5 true ∨
          op = .logStoreToEmmc [] true := by simpa using hop
      · trivial
      · exact ⟨rfl, fun _ => by decide⟩
      · trivial) (by simp [header?_erased expdb4_fits])
  rw [header?_erased expdb4_fits] at hn
  exact ⟨es, s', _, hrun, by decide, readEmmcConfig_eq hn, by decide⟩

end LogStore
