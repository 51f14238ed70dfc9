import FireTablet.Cmdq.Proof.PktChain

/-!
# Buffers that are allocated ahead

`cmdq_pkt_realloc_cmd_buffer` adds buffers with `cmdq_pkt_add_cmd_buffer`, which is made for a
packet whose last buffer is full: it plants its jump in the last slot, moves the write position to
the new buffer by what is left of the old one, and takes the word in the last slot for an
instruction. `realloc_invisible_iff`: the call does not show in what the engine runs iff it adds no
buffer, or a single one to a packet with at most one free slot. Otherwise the next instruction is
written before the new buffer.
-/

namespace Cmdq

/-- The allocators give a page. -/
def BufAlloc.gives (a : BufAlloc) : Bool := a.kzalloc && (a.pool.isSome || a.direct.isSome)

section
variable (g : Nat)

/-- An append whose allocations are fresh. -/
def AppendOk (pkt : CmdqPkt) (x : CmdqArgs × BufAlloc) : Prop := x.2.Fresh g pkt.buf

/-- An append that has memory for a buffer when it needs one. -/
def Serves (pkt : CmdqPkt) (x : CmdqArgs × BufAlloc) : Prop :=
  x.2.Fresh g pkt.buf ∧ (pkt.availBufSize = 0 → x.2.gives = true)

/-- There are answers for all allocations of `cmdq_pkt_realloc_cmd_buffer`, and they are fresh. -/
def ReallocOk (size : Nat) : List BufAlloc → CmdqPkt → Prop
  | [], pkt => size ≤ pkt.bufSize
  | a :: as, pkt => pkt.bufSize < size → a.Fresh g pkt.buf ∧
      ((cmdqPktAddCmdBuffer g a pkt).1 = 0 → ReallocOk size as (cmdqPktAddCmdBuffer g a pkt).2)

/-- The instructions `log` are run: the engine goes from buffer to buffer and meets exactly these,
whatever they are. If none of them is a jump to an absolute address, they are what it runs. -/
structure Runs (pkt : CmdqPkt) (log : List (BitVec 64)) : Prop where
  meets : ∃ fuel, Code.follow pkt.cell (linkTarget g) cmdqInstSize pkt.endPa fuel pkt.startPa =
    some (log.map (Prod.mk false))
  engine : (∀ inst ∈ log, jumpTarget g inst = none) → ∃ fuel,
    Code.follow pkt.word (jumpTarget g) cmdqInstSize pkt.endPa fuel pkt.startPa = some log

/-- **The call is invisible**: whatever is appended afterwards, the packet runs what it would run
without the call. -/
def Invisible (size : Nat) (as : List BufAlloc) (pkt : CmdqPkt) : Prop :=
  ∃ r p, cmdqPktReallocCmdBuffer g size as pkt = some (r, p) ∧
    ∀ xs ys : List (CmdqArgs × BufAlloc), xs.map Prod.fst = ys.map Prod.fst →
      Sys.Along (appendStep g) (Serves g) p xs → Sys.Along (appendStep g) (Serves g) pkt ys →
      ∃ es q es' q' log, Sys.run (appendStep g) p xs = some (es, q) ∧
        Sys.run (appendStep g) pkt ys = some (es', q') ∧ Runs g q log ∧ Runs g q' log

end

/-- How many buffers the call adds: as long as it needs one and gets it. -/
def buffersAdded (size : Nat) : List BufAlloc → Nat → Nat
  | [], _ => 0
  | a :: as, bufSize =>
    if bufSize < size ∧ a.gives = true then buffersAdded size as (bufSize + cmdqCmdBufferSize) + 1
    else 0

section
variable {g size : Nat} {log : List (BitVec 64)} {pkt p : CmdqPkt} {a : BufAlloc}
  {as : List BufAlloc} {r : Int}

/-! ## Adding a buffer -/

/-- The packet with the buffer `nb` added. -/
def CmdqPkt.grown (g : Nat) (pkt : CmdqPkt) (nb : CmdqPktBuffer) : CmdqPkt :=
  match pkt.buf.getLast? with
  | none => { pkt with
      buf := pkt.buf ++ [nb]
      availBufSize := pkt.availBufSize + cmdqCmdBufferSize
      bufSize := pkt.bufSize + cmdqCmdBufferSize }
  | some b => { pkt with
      buf := pkt.buf.dropLast ++
        [b.put lastSlot (jumpToAbs g nb.paBase), nb.put 0 (b.va lastSlot)]
      availBufSize := pkt.availBufSize + cmdqCmdBufferSize - cmdqInstSize
      bufSize := pkt.bufSize + cmdqCmdBufferSize
      cmdBufSize := pkt.cmdBufSize + cmdqInstSize }

@[simp] theorem bufSize_grown (g : Nat) (pkt : CmdqPkt) (nb : CmdqPktBuffer) :
    (pkt.grown g nb).bufSize = pkt.bufSize + cmdqCmdBufferSize := by
  rw [CmdqPkt.grown]
  split <;> rfl

theorem availBufSize_grown (g : Nat) (pkt : CmdqPkt) (nb : CmdqPktBuffer) :
    (pkt.grown g nb).availBufSize = if pkt.buf = [] then pkt.availBufSize + cmdqCmdBufferSize
      else pkt.availBufSize + cmdqCmdBufferSize - cmdqInstSize := by
  rw [CmdqPkt.grown]
  cases hl : pkt.buf.getLast? with
  | none => simp [List.getLast?_eq_none_iff.1 hl]
  | some b =>
    obtain ⟨pre, hb⟩ := List.getLast?_eq_some_iff.1 hl
    simp [hb]

theorem buf_grown_ne (g : Nat) (pkt : CmdqPkt) (nb : CmdqPktBuffer) :
    (pkt.grown g nb).buf ≠ [] := by
  rw [CmdqPkt.grown]
  split <;> simp

/-- **`cmdq_pkt_add_cmd_buffer`**. -/
theorem addCmdBuffer_eq (g : Nat) (a : BufAlloc) (pkt : CmdqPkt) :
    (a.gives = false ∧ cmdqPktAddCmdBuffer g a pkt = (-enomem, pkt)) ∨
      (a.gives = true ∧ ∃ nb, cmdqPktAddCmdBuffer g a pkt = (0, pkt.grown g nb) ∧
        (a.Fresh g pkt.buf →
          PageOk g nb.paBase ∧ nb.paBase ∉ pkt.buf.map CmdqPktBuffer.paBase)) := by
  rcases allocBuf_eq a pkt with ⟨hn, hw⟩ | ⟨nb, hn, hw⟩
  · exact .inl ⟨hw, by rw [cmdqPktAddCmdBuffer, hn]⟩
  · refine .inr ⟨hw, nb, ?_, ?_⟩
    · rw [cmdqPktAddCmdBuffer, hn, CmdqPkt.grown]
      cases pkt.buf.getLast? <;> rfl
    · intro ha
      rcases allocBuf_cases ha with hn' | ⟨nb', hn', hpage⟩
      · simp [hn] at hn'
      · rw [hn, Option.some.injEq, Prod.mk.injEq] at hn'
        exact hn'.1 ▸ hpage

/-- With at most one free slot the instructions stay the same. -/
theorem grown_chained (h : Chained g log pkt) {nb : CmdqPktBuffer} (hpage : PageOk g nb.paBase)
    (hnew : nb.paBase ∉ pkt.buf.map CmdqPktBuffer.paBase) (hu : pkt.availBufSize ≤ cmdqInstSize) :
    Chained g log (pkt.grown g nb) := by
  rw [CmdqPkt.grown]
  cases hl : pkt.buf.getLast? with
  | none => exact addCmdBuffer_first h (List.getLast?_eq_none_iff.1 hl) hpage
  | some b =>
    obtain ⟨pre, hb⟩ := List.getLast?_eq_some_iff.1 hl
    simp only [hb, List.dropLast_concat]
    exact addCmdBuffer_next h hu hb hpage hnew

/-! ## Appending -/

/-- An append that is served stores its instruction. -/
theorem appendStep_ok (h : Chained g log pkt) {x : CmdqArgs × BufAlloc} (hs : Serves g pkt x) :
    ∃ q, appendStep g pkt x = some (0, q) ∧
      Chained g (log ++ [cmdqPktInstrEncoder x.1]) q := by
  have hav : ¬cmdqCmdBufferSize < pkt.availBufSize := Nat.not_lt.2 h.avail
  rcases append_chained h hs.1 x.1 with he | ⟨q, he, -, -, hq⟩
  · exfalso
    have hroom : ¬(makeRoom g x.2 pkt).1 < 0 := by
      rw [makeRoom]
      split_ifs with h0
      · rcases addCmdBuffer_eq g x.2 pkt with ⟨hg, -⟩ | ⟨-, nb, hadd, -⟩
        · simp [hs.2 h0] at hg
        · simp [hadd]
      · simp
    rw [cmdqPktAppendCommand, if_neg hroom] at he
    obtain ⟨b, -, hb⟩ := Option.map_eq_some_iff.1 he
    simp [enomem] at hb
  · exact ⟨q, by rw [appendStep, if_neg hav, he], hq⟩

/-- **Appends that are served** never go out of bounds and store their instructions in order. -/
theorem appends_ok (h : Chained g log pkt) {xs : List (CmdqArgs × BufAlloc)}
    (hs : Sys.Along (appendStep g) (Serves g) pkt xs) :
    ∃ es q, Sys.run (appendStep g) pkt xs = some (es, q) ∧
      Chained g (log ++ xs.map fun x => cmdqPktInstrEncoder x.1) q := by
  obtain ⟨es, q, hrun, hq⟩ := Sys.run_hist_along
    (I := fun es q => Chained g (log ++ es.map fun e => cmdqPktInstrEncoder e.1.1) q)
    (fun es q x hq hx => by
      obtain ⟨q', hstep, hq'⟩ := appendStep_ok hq hx
      exact ⟨0, q', hstep, by simpa using hq'⟩) xs [] pkt (by simpa using h) hs
  refine ⟨es, q, hrun, ?_⟩
  rw [← Sys.run_inputs hrun, List.map_map]
  exact hq

/-- Appends that may fail keep a packet a chain of instructions. -/
theorem appends_chained {xs : List (CmdqArgs × BufAlloc)} {es : List ((CmdqArgs × BufAlloc) × Int)}
    (hxs : Sys.Along (appendStep g) (AppendOk g) .create xs)
    (hrun : Sys.run (appendStep g) .create xs = some (es, pkt)) : ∃ log, Chained g log pkt := by
  refine Sys.run_inv (I := fun q => ∃ log, Chained g log q) ?_ xs .create pkt es
    ⟨[], chained_create g⟩ hxs hrun
  intro q x o q' ⟨log, hq⟩ hx hstep
  rw [appendStep, if_neg (Nat.not_lt.2 hq.avail)] at hstep
  rcases append_chained hq hx x.1 with he | ⟨p, he, -, -, hp⟩
  · rw [he, Option.some.injEq, Prod.mk.injEq] at hstep
    exact ⟨log, hstep.2 ▸ hq⟩
  · rw [he, Option.some.injEq, Prod.mk.injEq] at hstep
    exact ⟨_, hstep.2 ▸ hp⟩

theorem Chained.runs (h : Chained g log pkt) (hg : g ≤ 12) : Runs g pkt log where
  meets := ⟨_, follow_chained h hg (Nat.le_refl _)⟩
  engine hplain := ⟨_, follow_plain (follow_chained h hg (Nat.le_refl _)) hplain⟩

/-- A call that leaves the instructions as they are is invisible. -/
theorem invisible_of_chained (hg : g ≤ 12) (h : Chained g log pkt)
    (hr : cmdqPktReallocCmdBuffer g size as pkt = some (r, p)) (hp : Chained g log p) :
    Invisible g size as pkt := by
  refine ⟨r, p, hr, ?_⟩
  intro xs ys hxy hxs hys
  obtain ⟨es, q, hrun, hq⟩ := appends_ok hp hxs
  obtain ⟨es', q', hrun', hq'⟩ := appends_ok h hys
  have hinsts : (ys.map fun y => cmdqPktInstrEncoder y.1) =
      xs.map fun x => cmdqPktInstrEncoder x.1 := by
    have hmap := congrArg (List.map cmdqPktInstrEncoder) hxy
    rw [List.map_map, List.map_map] at hmap
    exact hmap.symm
  rw [hinsts] at hq'
  exact ⟨es, q, es', q', _, hrun, hrun', hq.runs hg, hq'.runs hg⟩

/-! ## The call -/

/-- No buffer is added: the packet is not touched. -/
theorem realloc_none (hok : ReallocOk g size as pkt) (hn : buffersAdded size as pkt.bufSize = 0) :
    ∃ r, cmdqPktReallocCmdBuffer g size as pkt = some (r, pkt) := by
  cases as with
  | nil => exact ⟨0, by rw [cmdqPktReallocCmdBuffer, if_neg (Nat.not_lt.2 hok)]⟩
  | cons a as =>
    by_cases hneed : pkt.bufSize < size
    · rcases addCmdBuffer_eq g a pkt with ⟨-, hadd⟩ | ⟨hgives, -⟩
      · exact ⟨-enomem, by simp [cmdqPktReallocCmdBuffer, hneed, hadd, enomem]⟩
      · simp [buffersAdded, hneed, hgives] at hn
    · exact ⟨0, by rw [cmdqPktReallocCmdBuffer, if_neg hneed]⟩

/-- The first buffer that is added. -/
theorem realloc_first (hok : ReallocOk g size as pkt) (hn : buffersAdded size as pkt.bufSize ≠ 0) :
    ∃ a as' nb, as = a :: as' ∧ a.gives = true ∧ a.Fresh g pkt.buf ∧ PageOk g nb.paBase ∧
      nb.paBase ∉ pkt.buf.map CmdqPktBuffer.paBase ∧ ReallocOk g size as' (pkt.grown g nb) ∧
      cmdqPktReallocCmdBuffer g size as pkt =
        cmdqPktReallocCmdBuffer g size as' (pkt.grown g nb) ∧
      buffersAdded size as pkt.bufSize = buffersAdded size as' (pkt.grown g nb).bufSize + 1 := by
  cases as with
  | nil => exact absurd rfl hn
  | cons a as =>
    obtain ⟨hneed, hgives⟩ : pkt.bufSize < size ∧ a.gives = true := by
      by_contra hc
      exact hn (if_neg hc)
    obtain ⟨hfresh, hrest⟩ := hok hneed
    rcases addCmdBuffer_eq g a pkt with ⟨hg, -⟩ | ⟨-, nb, hadd, hpage⟩
    · simp [hgives] at hg
    · rw [hadd] at hrest
      refine ⟨a, as, nb, rfl, hgives, hfresh, (hpage hfresh).1, (hpage hfresh).2, hrest rfl, ?_, ?_⟩
      · simp [cmdqPktReallocCmdBuffer, hneed, hadd]
      · rw [buffersAdded, if_pos ⟨hneed, hgives⟩, bufSize_grown]

/-- The free part of the last buffer never gets smaller. -/
theorem realloc_avail : ∀ {as : List BufAlloc} {pkt : CmdqPkt},
    cmdqPktReallocCmdBuffer g size as pkt = some (r, p) → pkt.availBufSize ≤ p.availBufSize
  | [], pkt, h => by
    simp only [cmdqPktReallocCmdBuffer] at h
    split_ifs at h
    simp only [Option.some.injEq, Prod.mk.injEq] at h
    rw [h.2]
  | a :: as, pkt, h => by
    have hsize : cmdqInstSize ≤ cmdqCmdBufferSize := by decide
    simp only [cmdqPktReallocCmdBuffer] at h
    rcases addCmdBuffer_eq g a pkt with ⟨-, hadd⟩ | ⟨-, nb, hadd, -⟩
    · rw [hadd] at h
      split_ifs at h with hneed herr
      · simp only [Option.some.injEq, Prod.mk.injEq] at h
        rw [h.2]
      · simp [enomem] at herr
      · simp only [Option.some.injEq, Prod.mk.injEq] at h
        rw [h.2]
    · rw [hadd] at h
      split_ifs at h with hneed herr
      · simp at herr
      · have hrec := realloc_avail h
        rw [availBufSize_grown] at hrec
        split_ifs at hrec <;> omega
      · simp only [Option.some.injEq, Prod.mk.injEq] at h
        rw [h.2]

/-- More than one buffer, or one that is added to a packet with two free slots: the next
instruction has no place. -/
theorem realloc_past (h : Chained g log pkt) (hok : ReallocOk g size as pkt)
    (hr : cmdqPktReallocCmdBuffer g size as pkt = some (r, p))
    (hn : buffersAdded size as pkt.bufSize ≠ 0)
    (hmany : buffersAdded size as pkt.bufSize = 1 → cmdqInstSize < pkt.availBufSize) :
    cmdqCmdBufferSize < p.availBufSize := by
  have hsize : cmdqCmdBufferSize = 3840 ∧ cmdqInstSize = 8 := ⟨rfl, rfl⟩
  obtain ⟨a, as', nb, -, -, -, -, -, hok', he, hadd⟩ := realloc_first hok hn
  rw [he] at hr
  rw [hadd] at hmany
  by_cases hone : buffersAdded size as' (pkt.grown g nb).bufSize = 0
  · have hu := hmany (by rw [hone])
    obtain ⟨pre, b, hb⟩ := getLast_of_room h (by omega)
    have hav := realloc_avail hr
    rw [availBufSize_grown, if_neg (by simp [hb])] at hav
    omega
  · obtain ⟨a', as'', nb', -, -, -, -, -, -, he', -⟩ := realloc_first hok' hone
    rw [he'] at hr
    have hav := realloc_avail hr
    rw [availBufSize_grown, if_neg (buf_grown_ne g pkt nb), availBufSize_grown] at hav
    split_ifs at hav <;> omega

/-- An instruction appended afterwards tells the difference. -/
theorem not_invisible (h : Chained g log pkt) (hok : ReallocOk g size as pkt)
    (hn : buffersAdded size as pkt.bufSize ≠ 0)
    (hmany : buffersAdded size as pkt.bufSize = 1 → cmdqInstSize < pkt.availBufSize) :
    ¬Invisible g size as pkt := by
  rintro ⟨r, p, hr, hinv⟩
  have hpast := realloc_past h hok hr hn hmany
  obtain ⟨a, -, -, -, hgives, hfresh, -⟩ := realloc_first hok hn
  have hnone : Sys.Along (appendStep g) (Serves g) p [(maskArgs 1, noBuf)] := by
    refine ⟨⟨fun page hp => by simp [noBuf] at hp, fun h0 => ?_⟩, fun _ _ _ => trivial⟩
    rw [h0] at hpast
    exact absurd hpast (Nat.not_lt_zero _)
  have hone : Sys.Along (appendStep g) (Serves g) pkt [(maskArgs 1, a)] :=
    ⟨⟨hfresh, fun _ => hgives⟩, fun _ _ _ => trivial⟩
  obtain ⟨_, _, _, _, _, hstuck, -⟩ := hinv [(maskArgs 1, noBuf)] [(maskArgs 1, a)] rfl hnone hone
  simp [Sys.run, appendStep, hpast] at hstuck

end

/-- **Buffers allocated ahead do not show** iff the call adds none, or a single one to a packet
with at most one free slot. -/
theorem realloc_invisible_iff (plat : GcePlat) (xs : List (CmdqArgs × BufAlloc))
    (es : List ((CmdqArgs × BufAlloc) × Int)) (pkt : CmdqPkt) (size : Nat) (as : List BufAlloc)
    (hxs : Sys.Along (appendStep plat.shift) (AppendOk plat.shift) .create xs)
    (hrun : Sys.run (appendStep plat.shift) .create xs = some (es, pkt))
    (has : ReallocOk plat.shift size as pkt) :
    Invisible plat.shift size as pkt ↔ buffersAdded size as pkt.bufSize ≤ 1 ∧
      (buffersAdded size as pkt.bufSize = 1 → pkt.availBufSize ≤ cmdqInstSize) := by
  obtain ⟨log, h⟩ := appends_chained hxs hrun
  constructor
  · intro hinv
    by_contra hc
    have hn : buffersAdded size as pkt.bufSize ≠ 0 := fun h0 => hc ⟨by omega, fun h1 => by omega⟩
    have hmany : buffersAdded size as pkt.bufSize = 1 → cmdqInstSize < pkt.availBufSize :=
      fun h1 => Nat.lt_of_not_le fun hle => hc ⟨by omega, fun _ => hle⟩
    exact not_invisible h has hn hmany hinv
  · rintro ⟨hle, hone⟩
    obtain h0 | h1 : buffersAdded size as pkt.bufSize = 0 ∨
        buffersAdded size as pkt.bufSize = 1 := by omega
    · obtain ⟨r, hr⟩ := realloc_none has h0
      exact invisible_of_chained plat.shift_le h hr h
    · obtain ⟨a, as', nb, -, -, -, hpage, hnew, hok', he, hadd⟩ := realloc_first has (by omega)
      obtain ⟨r, hr⟩ := realloc_none hok' (by omega)
      exact invisible_of_chained plat.shift_le h (he.trans hr)
        (grown_chained h hpage hnew (hone h1))

/-- A buffer for a new packet. -/
theorem realloc_invisible_new : Invisible GcePlat.v4.shift 100 [poolPage 4096] .create :=
  (realloc_invisible_iff .v4 [] [] .create 100 [poolPage 4096] trivial rfl
    (fun _ => ⟨poolPage_fresh (by decide) (by simp [CmdqPkt.create]),
      fun _ => show (100 : Nat) ≤ 3840 by decide⟩)).2 ⟨by decide, fun _ => by decide⟩

/-- One instruction, and a second buffer before the first one is full. -/
theorem realloc_invisible_fails : ∃ es pkt,
    Sys.Along (appendStep GcePlat.v4.shift) (AppendOk GcePlat.v4.shift) .create
      [(maskArgs 1, poolPage 4096)] ∧
    Sys.run (appendStep GcePlat.v4.shift) .create [(maskArgs 1, poolPage 4096)] = some (es, pkt) ∧
    ReallocOk GcePlat.v4.shift 4096 [poolPage 8192] pkt ∧
    ¬Invisible GcePlat.v4.shift 4096 [poolPage 8192] pkt := by
  have hal : Sys.Along (appendStep GcePlat.v4.shift) (AppendOk GcePlat.v4.shift) .create
      [(maskArgs 1, poolPage 4096)] :=
    ⟨poolPage_fresh (by decide) (by simp [CmdqPkt.create]), fun _ _ _ => trivial⟩
  obtain ⟨es, pkt, hrun, hbuf, hav, hsize⟩ : ∃ es pkt, Sys.run (appendStep GcePlat.v4.shift)
      .create [(maskArgs 1, poolPage 4096)] = some (es, pkt) ∧
      pkt.buf.map CmdqPktBuffer.paBase = [4096] ∧ pkt.availBufSize = 3832 ∧
      pkt.bufSize = 3840 := ⟨_, _, rfl, rfl, rfl, rfl⟩
  obtain ⟨log, h⟩ := appends_chained hal hrun
  have hok : ReallocOk GcePlat.v4.shift 4096 [poolPage 8192] pkt := by
    refine fun _ => ⟨poolPage_fresh (by decide) (by simp [hbuf]), fun _ => ?_⟩
    rcases addCmdBuffer_eq GcePlat.v4.shift (poolPage 8192) pkt with ⟨hg, -⟩ | ⟨-, nb, hadd, -⟩
    · simp [BufAlloc.gives, poolPage] at hg
    · rw [hadd, ReallocOk, bufSize_grown, hsize]
      decide
  have hone : buffersAdded 4096 [poolPage 8192] pkt.bufSize = 1 := by
    rw [hsize]
    decide
  refine ⟨es, pkt, hal, hrun, hok, not_invisible h hok (by rw [hone]; decide) fun _ => ?_⟩
  rw [hav]
  decide

end Cmdq
