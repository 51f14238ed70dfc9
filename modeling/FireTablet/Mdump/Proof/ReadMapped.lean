import FireTablet.Mdump.Compdump
import FireTablet.Lib.Run

/-!
# Reading the dump

What is mapped is the chunk whose address is kept, or nothing after a mapping has failed. A read
takes the right bytes when that is its own chunk or when it maps its own chunk, which it does only
when going forward (`compdump_reads`).
-/

namespace Mdump

/-! ## Mapped chunks -/

/-- The pages are the chunk at a physical address. -/
structure Vmap.IsChunk (m : Vmap) (base : Nat) : Prop where
  phys : ∀ k, m.phys k = base + k
  covers : ∀ k count, m.Covers k count ↔ k + count ≤ chunk

theorem isChunk_remapLowmem {ok : Bool} {base : Nat} {m : Vmap} (hbase : base % pageSize = 0)
    (h : remapLowmem ok base chunk = some m) : ok = true ∧ m.IsChunk base := by
  unfold remapLowmem at h
  dsimp only at h
  cases ok with
  | false => cases h
  | true =>
    rw [if_pos rfl, Option.some.injEq] at h
    subst h
    refine ⟨rfl, fun k => ?_, fun k count => ?_⟩
    · unfold pageSize at hbase
      simp only [Vmap.phys, pageSize, hbase]
      omega
    · unfold pageSize at hbase
      simp only [Vmap.Covers, hbase, pageSize, chunk]
      omega

/-- The attribute of a dump: nothing else than the chunk at `paddr` is mapped. -/
structure Compdump.Ok (d : Compdump) : Prop where
  mapped : ∀ m, d.vaddr = some m → m.IsChunk d.paddr
  size_lt : d.size < 4294967296

theorem expbase_eq {off : Nat} (h : off < 4294967296) :
    expbase off = off - off % chunk + start ∧ expbase off % pageSize = 0 ∧
      off - (expbase off - start) = off % chunk := by
  have he : expbase off = off - off % chunk + start := by
    unfold expbase chunk start
    omega
  refine ⟨he, ?_, ?_⟩
  · rw [he]
    unfold chunk start pageSize
    omega
  · rw [he]
    have := Nat.mod_le off chunk
    omega

/-! ## One read -/

/-- The answer to a read: the bytes at the offset, as they stand, or an error, also for a mapping
that fails. -/
structure Right (s : State) (r : Read) (a : Answer) : Prop where
  source : a.source = (List.range a.source.length).map fun i => start + r.uoff + i
  bytes : a.bytes = a.source.map s.mem
  ret : a.ret = a.bytes.length ∨ a.ret < 0 ∧ a.bytes = []
  mapping : r.uoff ≤ s.dump.size → s.dump.Remaps r.uoff → r.ok = false → a.ret < 0

/-- A read stays within the mapping and its answer is right. -/
def Good (s : State) : Event → Prop
  | .read r => ∃ a s', mdumpCompdumpBinaryRead s r = some (a, s') ∧ Right s r a
  | .memory _ => True

/-- A read is behind the end, or its count does not wrap and it maps its chunk successfully, finds
it mapped or has nothing to copy. -/
def Meets (s : State) : Event → Prop
  | .read r => s.dump.size < r.uoff ∨
    r.uoff % chunk + r.count < 18446744073709551616 ∧
      if s.dump.Remaps r.uoff then r.ok = true
      else s.dump.vaddr.isSome ∧ s.dump.paddr = expbase r.uoff ∨ r.count = 0 ∨
        r.uoff = s.dump.size ∧ r.uoff + r.count < 18446744073709551616
  | .memory _ => True

/-- How much there is to copy before the end. -/
def toEnd (size off count : Nat) : Nat :=
  if (off + count) % 18446744073709551616 > size then size - off else count

/-- How much is copied of a chunk. -/
def inChunk (off count : Nat) : Nat :=
  if (off % chunk + count) % 18446744073709551616 > chunk then chunk - off % chunk else count

section
variable {s : State} {off count : Nat} (hoff : off < 4294967296)
include hoff

theorem readMapped_eq : readMapped s off count =
    if inChunk off count = 0 then some (⟨0, [], []⟩, s)
    else s.dump.vaddr.bind fun m => m.take s (off % chunk) (inChunk off count) := by
  unfold readMapped
  rw [(expbase_eq hoff).2.2]
  change (if inChunk off count ≠ 0 then _ else _) = _
  rw [ite_not]
  congr 1
  cases s.dump.vaddr <;> rfl

/-- A read from the chunk at `paddr`: there is nothing to read, nothing is mapped, or the read
leaves the mapping, or it takes what is there. -/
theorem readMapped_cases (hok : s.dump.Ok) (count : Nat) :
    inChunk off count = 0 ∧ readMapped s off count = some (⟨0, [], []⟩, s) ∨
    inChunk off count ≠ 0 ∧ readMapped s off count = none ∧
      (s.dump.vaddr = none ∨ chunk < off % chunk + inChunk off count) ∨
    inChunk off count ≠ 0 ∧ s.dump.vaddr.isSome ∧ off % chunk + inChunk off count ≤ chunk ∧
      ∃ source, source = (List.range (inChunk off count)).map
          (fun i => s.dump.paddr + off % chunk + i) ∧
        readMapped s off count =
          some (⟨inChunk off count, source, source.map s.mem⟩, s.clear source) := by
  rw [readMapped_eq hoff]
  by_cases hne : inChunk off count = 0
  · exact .inl ⟨hne, if_pos hne⟩
  rw [if_neg hne]
  refine .inr ?_
  cases hm : s.dump.vaddr with
  | none => exact .inl ⟨hne, rfl, .inl rfl⟩
  | some m =>
    have hc := hok.mapped m hm
    rw [Option.bind_some, Vmap.take]
    by_cases hfit : off % chunk + inChunk off count ≤ chunk
    · refine .inr ⟨hne, rfl, hfit, _, rfl, ?_⟩
      rw [if_pos ((hc.covers _ _).2 hfit)]
      simp only [hc.phys, Nat.add_assoc]
    · exact .inl ⟨hne, if_neg (mt (hc.covers _ _).1 hfit), .inr (by omega)⟩

end

/-- What the two limits of a count come to. -/
theorem inChunk_toEnd {size off count : Nat} (h : off ≤ size) (hsize : size < 4294967296)
    (hcount : count < 18446744073709551616) :
    (inChunk off (toEnd size off count) = 0 ↔
      count = 0 ∨ off = size ∧ off + count < 18446744073709551616) ∧
    (off % chunk + inChunk off (toEnd size off count) ≤ chunk ↔
      off % chunk + count < 18446744073709551616) := by
  have hmod : off % chunk < chunk := Nat.mod_lt _ (by decide)
  have hle := Nat.mod_le off chunk
  have hto : toEnd size off count < 18446744073709551616 ∧ (toEnd size off count = 0 ↔
      count = 0 ∨ off = size ∧ off + count < 18446744073709551616) ∧
      (off % chunk + toEnd size off count < 18446744073709551616 ↔
        off % chunk + count < 18446744073709551616) := by
    unfold toEnd
    split <;> omega
  rw [← hto.2.1, ← hto.2.2]
  generalize toEnd size off count = c at hto
  unfold inChunk
  unfold chunk at *
  split <;> omega

theorem right_nothing {s : State} {r : Read} (h : ¬ (s.dump.Remaps r.uoff ∧ r.ok = false)) :
    Right s r ⟨0, [], []⟩ :=
  ⟨rfl, rfl, .inl rfl, fun _ h1 h2 => absurd ⟨h1, h2⟩ h⟩

theorem right_source {s : State} {r : Read} {n : Nat} {source : List Nat}
    (hs : source = (List.range n).map fun i => start + r.uoff + i)
    (h : ¬ (s.dump.Remaps r.uoff ∧ r.ok = false)) :
    Right s r ⟨n, source, source.map s.mem⟩ := by
  have hn : source.length = n := by rw [hs, List.length_map, List.length_range]
  refine ⟨by rw [hn]; exact hs, rfl, .inl ?_, fun _ h1 h2 => absurd ⟨h1, h2⟩ h⟩
  rw [List.length_map, hn]

theorem ok_remap {d : Compdump} (h : d.Ok) {off : Nat} (hoff : off < 4294967296) {ok : Bool}
    {m : Vmap} (hm : remapLowmem ok (expbase off) chunk = some m) :
    ok = true ∧ Compdump.Ok { d with vaddr := some m, paddr := expbase off } := by
  obtain ⟨hok, hc⟩ := isChunk_remapLowmem (expbase_eq hoff).2.1 hm
  exact ⟨hok, fun m' hm' => Option.some.inj hm' ▸ hc, h.size_lt⟩

/-- **A read is right exactly when it meets the condition.** -/
theorem good_iff {s : State} (hok : s.dump.Ok) (e : Event) : Good s e ↔ Meets s e := by
  cases e with
  | memory mem => exact Iff.rfl
  | read r =>
    by_cases hend : s.dump.size < r.uoff
    · refine iff_of_true ⟨⟨-erange, [], []⟩, s, if_pos hend, rfl, rfl, .inr ⟨by decide, rfl⟩, ?_⟩
        (.inl hend)
      intro hle
      omega
    have hsize := hok.size_lt
    have hoff : r.uoff < 4294967296 := by omega
    have hsrc : ∀ i, expbase r.uoff + r.uoff % chunk + i = start + r.uoff + i := fun i => by
      rw [(expbase_eq hoff).1]
      have := Nat.mod_le r.uoff chunk
      omega
    obtain ⟨hzero, hfits⟩ := inChunk_toEnd (Nat.le_of_not_lt hend) hsize r.count_lt
    have hmeets : Meets s (.read r) ↔ r.uoff % chunk + r.count < 18446744073709551616 ∧
        if s.dump.Remaps r.uoff then r.ok = true
        else s.dump.vaddr.isSome ∧ s.dump.paddr = expbase r.uoff ∨ r.count = 0 ∨
          r.uoff = s.dump.size ∧ r.uoff + r.count < 18446744073709551616 := or_iff_right hend
    rw [hmeets, ← hzero, ← hfits, Good, mdumpCompdumpBinaryRead, if_neg hend]
    by_cases hmap : s.dump.Remaps r.uoff
    · rw [if_pos hmap, if_pos hmap]
      cases hm : remapLowmem r.ok (expbase r.uoff) chunk with
      | none =>
        have hno : r.ok = false := by
          unfold remapLowmem at hm
          cases hr : r.ok with
          | false => rfl
          | true => rw [hr] at hm; cases hm
        refine iff_of_false ?_ fun h => by simp [hno] at h
        rintro ⟨a, s', he, hright⟩
        cases he
        exact absurd (hright.mapping (by omega) hmap hno) (by decide)
      | some m =>
        obtain ⟨hyes, hok'⟩ := ok_remap hok hoff hm
        have hnot : ¬ (s.dump.Remaps r.uoff ∧ r.ok = false) := fun h => by simp [hyes] at h
        dsimp only
        rcases readMapped_cases (s := ⟨⟨some m, expbase r.uoff, s.dump.size⟩, s.mem⟩) hoff hok'
            (toEnd s.dump.size r.uoff r.count) with
          ⟨h0, he⟩ | ⟨hne, he, hout⟩ | ⟨hne, -, hfit, source, hs, he⟩
        · refine iff_of_true ⟨_, _, he, right_nothing hnot⟩ ⟨?_, hyes⟩
          rw [h0]
          exact Nat.le_of_lt (Nat.mod_lt _ (by decide))
        · refine iff_of_false ?_ fun h => ?_
          · rintro ⟨a, s', he', -⟩
            cases he.symm.trans he'
          · rcases hout with hout | hout
            · cases hout
            · omega
        · simp only [hsrc] at hs
          exact iff_of_true ⟨_, _, he, right_source hs hnot⟩ ⟨hfit, hyes⟩
    · rw [if_neg hmap, if_neg hmap]
      have hnot : ¬ (s.dump.Remaps r.uoff ∧ r.ok = false) := fun h => hmap h.1
      rcases readMapped_cases hoff hok (toEnd s.dump.size r.uoff r.count) with
        ⟨h0, he⟩ | ⟨hne, he, hout⟩ | ⟨hne, hsome, hfit, source, hs, he⟩
      · refine iff_of_true ⟨_, _, he, right_nothing hnot⟩ ⟨?_, .inr h0⟩
        rw [h0]
        exact Nat.le_of_lt (Nat.mod_lt _ (by decide))
      · refine iff_of_false ?_ fun h => ?_
        · rintro ⟨a, s', he', -⟩
          cases he.symm.trans he'
        · obtain ⟨h1, h2⟩ := h
          rcases hout with hout | hout
          · rcases h2 with h2 | h2
            · simp [hout] at h2
            · exact hne h2
          · omega
      · constructor
        · rintro ⟨a, s', he', hright⟩
          cases he.symm.trans he'
          refine ⟨hfit, .inl ⟨hsome, ?_⟩⟩
          -- the first byte
          have hfirst := congrArg (·[0]?) hright.source
          obtain ⟨n, hn⟩ := Nat.exists_eq_succ_of_ne_zero hne
          have h0 := hsrc 0
          simp [hs, hn, List.range_succ_eq_map] at hfirst
          omega
        · rintro ⟨-, ⟨-, hp⟩ | h0⟩
          · rw [hp] at hs
            simp only [hsrc] at hs
            exact ⟨_, _, he, right_source hs hnot⟩
          · exact absurd h0 hne

/-! ## Runs -/

theorem readMapped_dump {s s' : State} {off count : Nat} (hoff : off < 4294967296) {a : Answer}
    (h : readMapped s off count = some (a, s')) : s'.dump = s.dump := by
  rw [readMapped_eq hoff] at h
  split at h
  · cases h
    rfl
  · obtain ⟨m, -, hm⟩ := Option.bind_eq_some_iff.1 h
    unfold Vmap.take at hm
    split at hm <;> cases hm
    rfl

theorem ok_step {s s' : State} {e : Event} {a : Answer} (hok : s.dump.Ok)
    (h : step s e = some (a, s')) : s'.dump.Ok := by
  cases e with
  | memory mem =>
    cases h
    exact hok
  | read r =>
    rw [step, mdumpCompdumpBinaryRead] at h
    dsimp only at h
    split at h
    · cases h
      exact hok
    next hend =>
      have hoff : r.uoff < 4294967296 := Nat.lt_of_le_of_lt (Nat.le_of_not_lt hend) hok.size_lt
      split at h
      · split at h
        · cases h
          exact ⟨nofun, hok.size_lt⟩
        next m hm =>
          rw [readMapped_dump hoff h]
          exact (ok_remap hok hoff hm).2
      · rw [readMapped_dump hoff h]
        exact hok

theorem Vmap.word_lt (m : Vmap) (mem : Nat → UInt8) (k : Nat) : m.word mem k < 4294967296 := by
  have hb := fun i => (mem (m.phys (k + i))).toNat_lt
  have := hb 0
  have := hb 1
  have := hb 2
  have := hb 3
  simp only [Vmap.word, Vmap.bytes, show List.range 4 = [0, 1, 2, 3] from rfl, List.map_cons,
    List.map_nil, List.foldr_cons, List.foldr_nil]
  omega

/-- The attribute of a dump that is found. -/
theorem ok_checkCompressDump {enableFlags backupReason : Nat} {mapOk createOk : Bool}
    {mem : Nat → UInt8} {d : Compdump}
    (h : checkCompressDump enableFlags backupReason mapOk createOk mem = some d) : d.Ok := by
  unfold checkCompressDump at h
  split at h
  · cases h
  split at h
  · cases h
  next m hm =>
    split at h
    · cases h
    split at h
    · cases h
    split at h
    · cases h
      exact ⟨fun m' hm' => Option.some.inj hm' ▸ (isChunk_remapLowmem (by decide) hm).2,
        m.word_lt mem 20⟩
    · cases h

/-- **Reading a dump.** All reads of a sequence, between which the memory may change, are right
exactly when they all meet the condition. -/
theorem compdump_reads {enableFlags backupReason : Nat} {mapOk createOk : Bool}
    {mem : Nat → UInt8} {d : Compdump}
    (h : checkCompressDump enableFlags backupReason mapOk createOk mem = some d)
    (es : List Event) : Sys.Along step Good ⟨d, mem⟩ es ↔ Sys.Along step Meets ⟨d, mem⟩ es :=
  Sys.along_iff (I := fun s => s.dump.Ok) (fun _ e hok => good_iff hok e)
    (fun _ _ _ _ hok _ hs => ok_step hok hs) es _ (ok_checkCompressDump h)

/-- A memory with the header of a dump of two chunks. -/
def headerMem (a : Nat) : UInt8 :=
  if a < start then 0 else ((compHeadSignature ++ [1, 0, 0, 0, 0, 0, 0, 4])[a - start]?).getD 0

/-- The attribute of this dump. -/
def twoChunks : Compdump :=
  ⟨remapLowmem true start chunk, start, 0x4000000⟩

/-- A read of one byte. -/
def readAt (off : Int) (ok : Bool) (h : -9223372036854775808 ≤ off)
    (h' : off < 9223372036854775808) : Event :=
  .read ⟨off, 1, ok, h, h', by decide⟩

/-- Both chunks, one after the other. -/
theorem compdump_reads_two : Sys.Along step Good ⟨twoChunks, headerMem⟩
    [readAt 0 true (by decide) (by decide), readAt 0x2000000 true (by decide) (by decide)] := by
  have h : checkCompressDump 1 0x3C true true headerMem = some twoChunks := rfl
  exact (compdump_reads h _).2 ⟨.inr (by decide), fun a s' hs =>
    ⟨.inr ⟨by decide, by cases hs; decide⟩, fun _ _ _ => trivial⟩⟩

/-- Back in the first chunk, a read takes the byte from the second. A mapping that fails is answered
with 0, as the end of the file is, and the next read in the chunk before goes through a null
pointer. -/
theorem compdump_reads_otherwise :
    (Sys.run step ⟨twoChunks, headerMem⟩
      [readAt 0x2000000 true (by decide) (by decide), readAt 0 true (by decide) (by decide)]).map
        (fun q => q.1.map fun e => e.2.source) = some [[start + chunk], [start + chunk]] ∧
    (Sys.run step ⟨twoChunks, headerMem⟩
      [readAt 0x2000000 false (by decide) (by decide)]).map
        (fun q => q.1.map fun e => e.2.ret) = some [0] ∧
    (Sys.run step ⟨twoChunks, headerMem⟩
      [readAt 0x2000000 false (by decide) (by decide),
        readAt 0 true (by decide) (by decide)]).isSome = false :=
  ⟨by decide +kernel, by decide +kernel, by decide +kernel⟩

end Mdump
