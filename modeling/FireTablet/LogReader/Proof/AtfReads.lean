import FireTablet.LogReader.Readers

/-!
# The readers of the firmware logs against the firmware

Between its two looks at the indices and the update of the read index a reader holds a count that
the unread bytes reach (`AtfPc.Ok`, `SspmPc.Ok`), and what it has copied are the oldest of them. The
firmware keeps this, since it stores beside the unread bytes. A call whose copies do not fault
therefore hands out the oldest bytes and gives up exactly these, and one that the firmware leaves
alone hands out as many as are asked for (`log_readers`). A failing allocation and a faulting copy
are where the readers go wrong: the length of the copy is returned although nothing (or less) has
been stored, the read index moves on over the bytes that were not stored, and `atf_log_read` adds
the error to the file position.
-/

namespace LogReader

open Spsc

variable {len : Nat}

/-! ## `atf_log_read` -/

/-- The narrowed count never exceeds what is unread, also when the sum of the indices does not fit
32 bits. -/
theorem copyLen_le {w r : Nat} (hlen : len < 2 ^ 32) (hw : w < len) (hr : r < len) :
    copyLen len w r ≤ Circ.dist len r w := by
  unfold copyLen Circ.dist
  by_cases hrw : r ≤ w
  · rw [if_pos hrw]
    by_cases hv : w + len - r < 2 ^ 32
    · rw [show w + len + (2 ^ 32 - r) = w + len - r + 2 ^ 32 by omega, Nat.add_mod_right,
        Nat.mod_eq_of_lt hv, show w + len - r = w - r + len by omega, Nat.add_mod_right]
      exact Nat.mod_le ..
    · rw [show w + len + (2 ^ 32 - r) = w + len - r - 2 ^ 32 + 2 ^ 32 + 2 ^ 32 by omega,
        Nat.add_mod_right, Nat.add_mod_right, Nat.mod_eq_of_lt (by omega : _ < 2 ^ 32)]
      have := Nat.mod_le (w + len - r - 2 ^ 32) len
      omega
  · rw [if_neg hrw, show w + len + (2 ^ 32 - r) = w + len - r + 2 ^ 32 by omega,
      Nat.add_mod_right, Nat.mod_eq_of_lt (by omega : _ < 2 ^ 32)]
    exact Nat.mod_le ..

/-- What the reader knows at each point of a call. -/
def AtfPc.Ok (len : Nat) (q : Spsc.Ring UInt8) : AtfPc → Prop
  | .idle => True
  | .waiting _ _ => True
  | .entered _ => True
  | .copying w r count => r = q.r ∧ w < len ∧ count ≤ Circ.dist len r w ∧
      Circ.dist len r w ≤ q.used len
  | .wrapping r count buf => r = q.r ∧ len - r < count ∧ count ≤ q.used len ∧
      buf = Circ.read q.mem len r (len - r)
  | .storing r count buf => r = q.r ∧ count ≤ q.used len ∧ buf = Circ.read q.mem len r count

theorem AtfPc.Ok.grows {q q' : Spsc.Ring UInt8} {pc : AtfPc} (h : pc.Ok len q)
    (hg : q.Grows len q') : pc.Ok len q' := by
  cases pc with
  | idle | waiting _ _ | entered _ => trivial
  | copying w r count =>
    obtain ⟨rfl, hw, hc, hu⟩ := h
    exact ⟨hg.r_eq.symm, hw, hc, Nat.le_trans hu hg.used_le⟩
  | wrapping r count buf =>
    obtain ⟨rfl, hlt, hc, rfl⟩ := h
    exact ⟨hg.r_eq.symm, hlt, Nat.le_trans hc hg.used_le, (hg.read_eq _ (by omega)).symm⟩
  | storing r count buf =>
    obtain ⟨rfl, hc, rfl⟩ := h
    exact ⟨hg.r_eq.symm, Nat.le_trans hc hg.used_le, (hg.read_eq _ hc).symm⟩

/-- The reader between two steps. -/
structure AtfInv (len : Nat) (s : Atf) : Prop where
  inside : s.ring.Inside len
  ok : s.pc.Ok len s.ring

/-- What a reader is seen as: the unread bytes and the position. -/
def Atf.view (len : Nat) (s : Atf) : List UInt8 × Int := (s.ring.unread len, s.pos)

theorem slice_eq {f : Nat → UInt8} {r n : Nat} (h : r + n ≤ len) :
    Circ.slice f r n = Circ.read f len r n := Circ.slice_eq_read h

/-- A step of a call without a fault. -/
theorem Atf.next_ok {s s' : Atf} {o : Out UInt8} (hlen : len < 2 ^ 32) (h : AtfInv len s)
    (hs : s.next len none = some (o, s')) :
    AtfInv len s' ∧ Deliver (s.view len) o (s'.view len) := by
  obtain ⟨hin, hok⟩ := h
  unfold Atf.next at hs
  cases hpc : s.pc with
  | idle => simp only [hpc] at hs; cases hs
  | waiting count nonblock =>
    simp only [hpc] at hs
    by_cases hne : s.ring.w ≠ s.ring.r
    · rw [if_pos hne] at hs
      cases hs
      exact ⟨⟨hin, trivial⟩, rfl⟩
    · rw [if_neg hne] at hs
      by_cases hnb : nonblock = true
      · rw [if_pos hnb] at hs
        cases hs
        exact ⟨⟨hin, trivial⟩, Or.inr ⟨by decide, rfl⟩⟩
      · rw [if_neg hnb] at hs
        cases hs
        exact ⟨⟨hin, hok⟩, rfl⟩
  | entered count =>
    simp only [hpc] at hs
    cases hs
    have hle := copyLen_le hlen hin.w_lt hin.r_lt
    refine ⟨⟨hin, rfl, hin.w_lt, ?_, Nat.le_refl _⟩, rfl⟩
    split <;> omega
  | copying w r count =>
    rw [hpc] at hok
    obtain ⟨rfl, hw, hc, hu⟩ := hok
    simp only [hpc, copyToUser, if_true] at hs
    have hd := hc
    unfold Circ.dist at hd
    by_cases hrw : s.ring.r < w
    · rw [if_pos hrw] at hs
      rw [if_pos (by omega)] at hd
      cases hs
      exact ⟨⟨hin, rfl, Nat.le_trans hc hu, slice_eq (by omega)⟩, rfl⟩
    · rw [if_neg hrw] at hs
      by_cases hright : len - s.ring.r < count
      · rw [if_pos hright] at hs
        cases hs
        exact ⟨⟨hin, rfl, hright, Nat.le_trans hc hu, slice_eq (by have := hin.r_lt; omega)⟩, rfl⟩
      · rw [if_neg hright] at hs
        cases hs
        exact ⟨⟨hin, rfl, Nat.le_trans hc hu, slice_eq (by have := hin.r_lt; omega)⟩, rfl⟩
  | wrapping r count buf =>
    rw [hpc] at hok
    obtain ⟨rfl, hlt, hc, rfl⟩ := hok
    simp only [hpc, copyToUser, if_true] at hs
    cases hs
    have hr := hin.r_lt
    have hul := Spsc.Ring.used_lt hin
    refine ⟨⟨hin, rfl, hc, ?_⟩, rfl⟩
    have hsplit := Circ.read_add (f := s.ring.mem) (k := count - (len - s.ring.r)) hr
      (show len - s.ring.r + (count - (len - s.ring.r)) ≤ len by omega)
    rw [show len - s.ring.r + (count - (len - s.ring.r)) = count by omega,
      show s.ring.r + (len - s.ring.r) = len by omega, Circ.wrap_of_ge (Nat.le_refl len),
      Nat.sub_self] at hsplit
    rw [hsplit, show Circ.slice _ 0 _ = Circ.read _ len 0 _ from slice_eq (by omega)]
  | storing r count buf =>
    rw [hpc] at hok
    obtain ⟨rfl, hc, rfl⟩ := hok
    simp only [hpc, Atf.finish] at hs
    cases hs
    have hr := hin.r_lt
    have hul := Spsc.Ring.used_lt hin
    have hmod : (s.ring.r + count) % len = Circ.wrap len (s.ring.r + count) :=
      (Circ.wrap_eq_mod (by omega)).symm
    rw [hmod]
    exact ⟨⟨hin.consume hc, trivial⟩, Or.inl ⟨by simp, Spsc.Ring.unread_consume hin hc⟩⟩

theorem atfStep_ok (hlen : len < 2 ^ 32) (s : Atf) (a : Act) (o : Out UInt8) (s' : Atf)
    (h : AtfInv len s) (ha : a.NoFault) (hs : atfStep len s a = some (o, s')) :
    AtfInv len s' ∧ Deliver (s.view len) o (s'.view len) := by
  cases a with
  | store i b =>
    obtain ⟨q, hq, he⟩ := Option.map_eq_some_iff.1 hs
    cases he
    have hg := Spsc.Ring.store_grows h.inside hq
    refine ⟨⟨hg.inside, h.ok.grows hg⟩, ?_⟩
    simp only [Deliver, Atf.view, Spsc.Ring.unread_store h.inside hq]
  | publish n =>
    obtain ⟨⟨bs, q⟩, hq, he⟩ := Option.map_eq_some_iff.1 hs
    cases he
    have hg := Spsc.Ring.publish_grows h.inside hq
    refine ⟨⟨hg.inside, h.ok.grows hg⟩, ?_⟩
    simp only [Deliver, Atf.view, Spsc.Ring.unread_publish h.inside hq]
  | read count nonblock =>
    simp only [atfStep] at hs
    by_cases hidle : s.pc = .idle
    · rw [if_pos hidle] at hs
      cases hs
      exact ⟨⟨h.inside, trivial⟩, rfl⟩
    · rw [if_neg hidle] at hs
      cases hs
  | step fault =>
    have hf : fault = none := ha
    subst hf
    exact Atf.next_ok hlen h hs

/-- Every run of the reader against the firmware delivers. -/
theorem atf_delivers {s s' : Atf} {as : List Act} {es : List (Act × Out UInt8)}
    (hlen : len < 2 ^ 32) (hin : s.ring.Inside len) (hidle : s.pc = .idle)
    (ha : ∀ a ∈ as, a.NoFault) (hrun : Sys.run (atfStep len) s as = some (es, s')) :
    AtfInv len s' ∧ Sys.Trace (fun s _ o s' => Deliver s o s') (s.view len) es (s'.view len) :=
  Sys.run_trace (Atf.view len) (atfStep_ok hlen) as s s' es ⟨hin, by rw [hidle]; trivial⟩ ha hrun

/-! ## `sspm_log_read` -/

/-- What the reader knows at each point of a call. -/
def SspmPc.Ok (len : Nat) (q : Spsc.Ring UInt8) : SspmPc → Prop
  | .idle => True
  | .entered _ => True
  | .allocating r datalen => r = q.r ∧ r + datalen ≤ len ∧ datalen ≤ q.used len
  | .fetching r datalen => r = q.r ∧ r + datalen ≤ len ∧ datalen ≤ q.used len
  | .copying r datalen buf => r = q.r ∧ datalen ≤ q.used len ∧ buf = Circ.read q.mem len r datalen
  | .storing r datalen buf => r = q.r ∧ datalen ≤ q.used len ∧ buf = Circ.read q.mem len r datalen

theorem SspmPc.Ok.grows {q q' : Spsc.Ring UInt8} {pc : SspmPc} (h : pc.Ok len q)
    (hg : q.Grows len q') : pc.Ok len q' := by
  cases pc with
  | idle | entered _ => trivial
  | allocating r datalen | fetching r datalen =>
    obtain ⟨rfl, hle, hc⟩ := h
    exact ⟨hg.r_eq.symm, hle, Nat.le_trans hc hg.used_le⟩
  | copying r datalen buf | storing r datalen buf =>
    obtain ⟨rfl, hc, rfl⟩ := h
    exact ⟨hg.r_eq.symm, Nat.le_trans hc hg.used_le, (hg.read_eq _ hc).symm⟩

/-- The reader between two steps. -/
structure SspmInv (len : Nat) (s : Sspm) : Prop where
  inside : s.ring.Inside len
  ok : s.pc.Ok len s.ring

/-- What a reader is seen as. -/
def Sspm.view (len : Nat) (s : Sspm) : List UInt8 × Int := (s.ring.unread len, s.pos)

/-- A step of a call without a fault. -/
theorem Sspm.next_ok {s s' : Sspm} {o : Out UInt8} (h : SspmInv len s)
    (hs : s.next len none = some (o, s')) :
    SspmInv len s' ∧ Deliver (s.view len) o (s'.view len) := by
  obtain ⟨hin, hok⟩ := h
  unfold Sspm.next at hs
  cases hpc : s.pc with
  | idle => simp only [hpc] at hs; cases hs
  | entered count =>
    simp only [hpc] at hs
    by_cases heq : s.ring.r = s.ring.w
    · rw [if_pos heq] at hs
      cases hs
      exact ⟨⟨hin, trivial⟩, Or.inl ⟨rfl, rfl⟩⟩
    · rw [if_neg heq] at hs
      cases hs
      have hw := hin.w_lt
      have hr := hin.r_lt
      refine ⟨⟨hin, rfl, ?_, ?_⟩, rfl⟩
      · split <;> split <;> omega
      · simp only [Spsc.Ring.used, Circ.dist]
        split <;> split <;> split <;> omega
  | allocating r datalen =>
    rw [hpc] at hok
    simp only [hpc, Option.isNone_none, if_true] at hs
    cases hs
    exact ⟨⟨hin, hok⟩, rfl⟩
  | fetching r datalen =>
    rw [hpc] at hok
    obtain ⟨rfl, hle, hc⟩ := hok
    simp only [hpc] at hs
    cases hs
    exact ⟨⟨hin, rfl, hc, slice_eq hle⟩, rfl⟩
  | copying r datalen buf =>
    rw [hpc] at hok
    simp only [hpc] at hs
    cases hs
    exact ⟨⟨hin, hok⟩, rfl⟩
  | storing r datalen buf =>
    rw [hpc] at hok
    obtain ⟨rfl, hc, rfl⟩ := hok
    simp only [hpc] at hs
    cases hs
    have hwrap : (if len ≤ s.ring.r + datalen then s.ring.r + datalen - len
        else s.ring.r + datalen) = Circ.wrap len (s.ring.r + datalen) := by
      unfold Circ.wrap
      split <;> split <;> omega
    rw [hwrap]
    exact ⟨⟨hin.consume hc, trivial⟩, Or.inl ⟨by simp, Spsc.Ring.unread_consume hin hc⟩⟩

theorem sspmStep_ok (s : Sspm) (a : Act) (o : Out UInt8) (s' : Sspm) (h : SspmInv len s)
    (ha : a.NoFault) (hs : sspmStep len s a = some (o, s')) :
    SspmInv len s' ∧ Deliver (s.view len) o (s'.view len) := by
  cases a with
  | store i b =>
    obtain ⟨q, hq, he⟩ := Option.map_eq_some_iff.1 hs
    cases he
    have hg := Spsc.Ring.store_grows h.inside hq
    refine ⟨⟨hg.inside, h.ok.grows hg⟩, ?_⟩
    simp only [Deliver, Sspm.view, Spsc.Ring.unread_store h.inside hq]
  | publish n =>
    obtain ⟨⟨bs, q⟩, hq, he⟩ := Option.map_eq_some_iff.1 hs
    cases he
    have hg := Spsc.Ring.publish_grows h.inside hq
    refine ⟨⟨hg.inside, h.ok.grows hg⟩, ?_⟩
    simp only [Deliver, Sspm.view, Spsc.Ring.unread_publish h.inside hq]
  | read count nonblock =>
    simp only [sspmStep] at hs
    by_cases hidle : s.pc = .idle
    · rw [if_pos hidle] at hs
      by_cases hinit : s.inited = true
      · rw [if_pos hinit] at hs
        cases hs
        exact ⟨⟨h.inside, trivial⟩, rfl⟩
      · rw [if_neg hinit] at hs
        cases hs
        exact ⟨h, Or.inl ⟨rfl, rfl⟩⟩
    · rw [if_neg hidle] at hs
      cases hs
  | step fault =>
    have hf : fault = none := ha
    subst hf
    exact Sspm.next_ok h hs

/-- Every run of the reader against the firmware delivers. -/
theorem sspm_delivers {s s' : Sspm} {as : List Act} {es : List (Act × Out UInt8)}
    (hin : s.ring.Inside len) (hidle : s.pc = .idle) (ha : ∀ a ∈ as, a.NoFault)
    (hrun : Sys.run (sspmStep len) s as = some (es, s')) :
    SspmInv len s' ∧ Sys.Trace (fun s _ o s' => Deliver s o s') (s.view len) es (s'.view len) :=
  Sys.run_trace (Sspm.view len) sspmStep_ok as s s' es ⟨hin, by rw [hidle]; trivial⟩ ha hrun

/-! ## A call that is left alone -/

section
variable {σ : Type*} {step : σ → Act → Option (Out UInt8 × σ)}

/-- The call goes on without the firmware and a fault, and returns `n`. -/
def Returns (step : σ → Act → Option (Out UInt8 × σ)) (s : σ) (n : Nat) : Prop :=
  ∃ k es bs s', Sys.run step s (List.replicate (k + 1) (.step none)) =
      some (es ++ [(.step none, .returned n bs)], s') ∧ ∀ e ∈ es, e.2 = .quiet

theorem returns_of_step {s s' : σ} {n : Nat} {bs : List UInt8}
    (h : step s (.step none) = some (.returned n bs, s')) : Returns step s n := by
  refine ⟨0, [], bs, s', ?_, fun e he => absurd he List.not_mem_nil⟩
  rw [List.replicate_one, Sys.run_cons_some _ h]
  rfl

theorem Returns.quiet {s : σ} {n : Nat} (s₁ : σ) (h : step s (.step none) = some (.quiet, s₁))
    (hr : Returns step s₁ n) : Returns step s n := by
  obtain ⟨k, es, bs, s', hrun, hes⟩ := hr
  refine ⟨k + 1, (.step none, .quiet) :: es, bs, s', ?_, fun e he => ?_⟩
  · rw [List.replicate_succ, Sys.run_cons_some _ h, hrun]
    rfl
  · rcases List.mem_cons.1 he with rfl | he
    · rfl
    · exact hes e he

/-- A call that is made now and left alone returns the bytes `bs`. -/
def Answers (step : σ → Act → Option (Out UInt8 × σ)) (s : σ) (count : Nat) (nonblock : Bool)
    (bs : List UInt8) : Prop :=
  ∃ k es s', Sys.run step s (.read count nonblock :: List.replicate (k + 1) (.step none)) =
      some (es ++ [(.step none, .returned bs.length bs)], s') ∧ ∀ e ∈ es, e.2 = .quiet

/-- A call that returns `n` has returned the `n` oldest bytes, when it delivers. -/
theorem Returns.answers {s s₁ : σ} (view : σ → List UInt8 × Int) {count n : Nat} {nonblock : Bool}
    (h : step s (.read count nonblock) = some (.quiet, s₁)) (hr : Returns step s₁ n)
    (hd : ∀ as es s', (∀ a ∈ as, a.NoFault) → Sys.run step s as = some (es, s') →
      Sys.Trace (fun s _ o s' => Deliver s o s') (view s) es (view s')) :
    Answers step s count nonblock ((view s).1.take n) := by
  obtain ⟨k, es, bs, s', hrun, hes⟩ := hr
  have hrun' : Sys.run step s (.read count nonblock :: List.replicate (k + 1) (.step none)) =
      some (((.read count nonblock, .quiet) :: es) ++ [(.step none, .returned n bs)], s') := by
    rw [Sys.run_cons_some _ h, hrun]
    rfl
  have hquiet : ∀ e ∈ (.read count nonblock, .quiet) :: es, e.2 = .quiet := fun e he => by
    rcases List.mem_cons.1 he with rfl | he
    · rfl
    · exact hes e he
  have hfault : ∀ a ∈ (.read count nonblock :: List.replicate (k + 1) (.step none) : List Act),
      a.NoFault := fun a ha => by
    rcases List.mem_cons.1 ha with rfl | ha
    · trivial
    · rw [List.eq_of_mem_replicate ha]
      rfl
  obtain ⟨hn, hbs⟩ | ⟨hn, -⟩ := deliver_quiet hquiet (hd _ _ s' hfault hrun')
  · obtain rfl : n = bs.length := Int.ofNat_inj.1 hn
    rw [hbs, List.take_left]
    exact ⟨k, _, s', hrun', hquiet⟩
  · exact absurd hn (by omega)

end

section
variable {s : Atf} {w r count : Nat}

theorem atf_storing {buf : List UInt8} (hpc : s.pc = .storing r count buf) :
    Returns (atfStep len) s count := by
  have h : atfStep len s (.step none) = some (.returned count buf, { s with
      ring := { s.ring with r := (r + count) % len }
      pc := .idle
      pos := s.pos + count }) := by
    simp only [atfStep, Atf.next, hpc, Atf.finish]
  exact returns_of_step h

theorem atf_copying (hpc : s.pc = .copying w r count) : Returns (atfStep len) s count := by
  by_cases hrw : r < w
  · refine .quiet ({ s with pc := .storing r count (Circ.slice s.ring.mem r count) }) ?_
      (atf_storing rfl)
    simp [atfStep, Atf.next, hpc, hrw, copyToUser]
  by_cases hright : len - r < count
  · refine .quiet ({ s with pc := .wrapping r count (Circ.slice s.ring.mem r (len - r)) }) ?_
      (.quiet ({ s with pc := .storing r count (Circ.slice s.ring.mem r (len - r) ++
        Circ.slice s.ring.mem 0 (count - (len - r))) }) ?_ (atf_storing rfl))
    · simp [atfStep, Atf.next, hpc, hrw, hright, copyToUser]
    · simp [atfStep, Atf.next, copyToUser]
  · refine .quiet ({ s with pc := .storing r count (Circ.slice s.ring.mem r count) }) ?_
      (atf_storing rfl)
    simp [atfStep, Atf.next, hpc, hrw, hright, copyToUser]

/-- The narrowed count is what is unread, where the sum of the indices fits 32 bits. -/
theorem copyLen_eq (hlen : len ≤ 2 ^ 31) {w r : Nat} (hw : w < len) (hr : r < len) :
    copyLen len w r = Circ.dist len r w := by
  unfold copyLen Circ.dist
  rw [show w + len + (2 ^ 32 - r) = w + len - r + 2 ^ 32 by omega, Nat.add_mod_right,
    Nat.mod_eq_of_lt (by omega : w + len - r < 2 ^ 32)]
  by_cases hrw : r ≤ w
  · rw [if_pos hrw, show w + len - r = w - r + len by omega, Nat.add_mod_right]
    exact Nat.mod_eq_of_lt (by omega)
  · rw [if_neg hrw]
    exact Nat.mod_eq_of_lt (by omega)

theorem atf_waiting (hlen : len ≤ 2 ^ 31) (hin : s.ring.Inside len) (hne : s.ring.w ≠ s.ring.r)
    {nonblock : Bool} (hpc : s.pc = .waiting count nonblock) :
    Returns (atfStep len) s (min count (s.ring.used len)) := by
  refine .quiet ({ s with pc := .entered count }) ?_ (.quiet ({ s with
    pc := .copying s.ring.w s.ring.r (min count (s.ring.used len)) }) ?_ (atf_copying rfl))
  · simp [atfStep, Atf.next, hpc, hne]
  · have hmin : (if s.ring.used len < count then s.ring.used len else count) =
        min count (s.ring.used len) := by
      split <;> omega
    simp only [atfStep, Atf.next, copyLen_eq hlen hin.w_lt hin.r_lt]
    rw [← hmin]
    rfl

end

section
variable {s : Sspm} {r datalen : Nat}

theorem sspm_allocating (hpc : s.pc = .allocating r datalen) :
    Returns (sspmStep len) s datalen := by
  have hstoring : ∀ buf : List UInt8,
      Returns (sspmStep len) { s with pc := .storing r datalen buf } datalen := fun buf =>
    returns_of_step rfl
  refine .quiet ({ s with pc := .fetching r datalen }) ?_ (.quiet ({ s with
    pc := .copying r datalen (Circ.slice s.ring.mem r datalen) }) rfl (.quiet _ rfl (hstoring _)))
  simp [sspmStep, Sspm.next, hpc]

/-- The bytes up to the end of the ring are what one call takes. -/
theorem sspm_entered (hin : s.ring.Inside len) (hne : s.ring.r ≠ s.ring.w) {count : Nat}
    (hpc : s.pc = .entered count) :
    Returns (sspmStep len) s (min count (min (len - s.ring.r) (s.ring.used len))) := by
  let n := min count (min (len - s.ring.r) (s.ring.used len))
  refine .quiet ({ s with pc := .allocating s.ring.r n }) ?_ (sspm_allocating rfl)
  have hw := hin.w_lt
  have hr := hin.r_lt
  have hmin : (if count < (if s.ring.w < s.ring.r then len - s.ring.r else s.ring.w - s.ring.r)
      then count else if s.ring.w < s.ring.r then len - s.ring.r else s.ring.w - s.ring.r) =
      min count (min (len - s.ring.r) (s.ring.used len)) := by
    simp only [Spsc.Ring.used, Circ.dist]
    split <;> split <;> split <;> omega
  simp only [sspmStep, Sspm.next, hpc, if_neg hne, hmin]
  rfl

end

/-! ## Both readers -/

/-- What the calls of a history handed out, together with what is unread at its end, is the stream
of the firmware, and every call that fails leaves the log and the position as they were. -/
def Delivered (v : List UInt8 × Int) (es : List (Act × Out UInt8)) (v' : List UInt8 × Int) : Prop :=
  Sys.Trace (fun s _ o s' => Deliver s o s') v es v' ∧
    es.flatMap (fun e => handedOut e.2) ++ v'.1 = v.1 ++ es.flatMap fun e => madeReadable e.2

/-- Where something is unread, a call of `atf_log_read` that is left alone returns as much of it as
is asked for. A length to copy is right for rings of up to 2 GiB. -/
def Atf.Answers (len : Nat) (s : Atf) : Prop :=
  len ≤ 2 ^ 31 → s.pc = .idle → s.ring.w ≠ s.ring.r → ∀ count nonblock,
    LogReader.Answers (atfStep len) s count nonblock ((s.ring.unread len).take count)

/-- And a call of `sspm_log_read` as much of it as there is up to the end of the ring. -/
def Sspm.Answers (len : Nat) (s : Sspm) : Prop :=
  s.inited = true → s.pc = .idle → s.ring.r ≠ s.ring.w → ∀ count nonblock,
    LogReader.Answers (sspmStep len) s count nonblock
      (((s.ring.unread len).take (len - s.ring.r)).take count)

theorem AtfInv.answers {s : Atf} (hlen : len < 2 ^ 32) (h : AtfInv len s) : s.Answers len := by
  intro hsmall hidle hne count nonblock
  have hr := atf_waiting (s := { s with pc := .waiting count nonblock }) hsmall h.inside hne rfl
  have hread : atfStep len s (.read count nonblock) =
      some (.quiet, { s with pc := .waiting count nonblock }) := by
    simp [atfStep, hidle]
  have ha := hr.answers (Atf.view len) hread fun as es s' ha hrun =>
    (atf_delivers hlen h.inside hidle ha hrun).2
  have hused : (s.ring.unread len).length = s.ring.used len := Circ.read_length ..
  have htake : (s.ring.unread len).take (min count (s.ring.used len)) =
      (s.ring.unread len).take count := by
    rw [← List.take_take, ← hused, List.take_length]
  exact htake ▸ ha

theorem SspmInv.answers {s : Sspm} (h : SspmInv len s) : s.Answers len := by
  intro hinit hidle hne count nonblock
  have hr := sspm_entered (s := { s with pc := .entered count }) h.inside hne rfl
  have hread : sspmStep len s (.read count nonblock) =
      some (.quiet, { s with pc := .entered count }) := by
    simp [sspmStep, hidle, hinit]
  have ha := hr.answers (Sspm.view len) hread fun as es s' ha hrun =>
    (sspm_delivers h.inside hidle ha hrun).2
  have hused : (s.ring.unread len).length = s.ring.used len := Circ.read_length ..
  have htake : (s.ring.unread len).take (min count (min (len - s.ring.r) (s.ring.used len))) =
      ((s.ring.unread len).take (len - s.ring.r)).take count := by
    rw [← List.take_take, ← List.take_take, ← hused, List.take_length]
  exact htake ▸ ha

/-- In every run of either reader against the firmware in which no allocation fails and no copy to
the caller faults, the calls deliver the stream, and a call that is left alone returns what is
unread. -/
theorem log_readers (len : Nat) (hlen : len < 2 ^ 32) (as : List Act) (ha : ∀ a ∈ as, a.NoFault)
    (es : List (Act × Out UInt8)) :
    (∀ s s' : Atf, s.ring.Inside len → s.pc = .idle →
      Sys.run (atfStep len) s as = some (es, s') →
        Delivered (s.view len) es (s'.view len) ∧ s'.Answers len) ∧
    (∀ s s' : Sspm, s.ring.Inside len → s.pc = .idle →
      Sys.run (sspmStep len) s as = some (es, s') →
        Delivered (s.view len) es (s'.view len) ∧ s'.Answers len) := by
  constructor
  · intro s s' hin hidle hrun
    obtain ⟨hinv, ht⟩ := atf_delivers hlen hin hidle ha hrun
    exact ⟨⟨ht, deliver_books ht⟩, hinv.answers hlen⟩
  · intro s s' hin hidle hrun
    obtain ⟨hinv, ht⟩ := sspm_delivers hin hidle ha hrun
    exact ⟨⟨ht, deliver_books ht⟩, hinv.answers⟩

/-- Eight bytes of which three are unread. -/
def threeUnread : Spsc.Ring UInt8 := ⟨fun i => UInt8.ofNat i, 3, 0⟩

def atfStart : Atf := ⟨threeUnread, .idle, 0⟩

def sspmStart : Sspm := ⟨threeUnread, .idle, true, 0⟩

/-- The firmware appends a byte while each reader reads two. -/
theorem log_readers_append :
    let as : List Act := [.read 2 false, .step none, .store 0 9, .step none, .publish 1,
      .step none, .step none]
    (∀ a ∈ as ++ [.step none], a.NoFault) ∧
      (∃ es s', Sys.run (atfStep 8) atfStart as = some (es, s') ∧
        es.map (fun e => e.2) = [.quiet, .quiet, .quiet, .quiet, .published [9], .quiet,
          .returned 2 [0, 1]] ∧ Delivered (atfStart.view 8) es (s'.view 8) ∧ s'.Answers 8) ∧
      (∃ es s', Sys.run (sspmStep 8) sspmStart (as ++ [.step none]) = some (es, s') ∧
        es.map (fun e => e.2) = [.quiet, .quiet, .quiet, .quiet, .published [9], .quiet,
          .quiet, .returned 2 [0, 1]] ∧
        Delivered (sspmStart.view 8) es (s'.view 8) ∧ s'.Answers 8) := by
  intro as
  have ha : ∀ a ∈ as ++ [.step none], a.NoFault := by
    simp [as, Act.NoFault]
  refine ⟨ha, ⟨_, _, rfl, by decide, ?_⟩, ⟨_, _, rfl, by decide, ?_⟩⟩
  · exact (log_readers 8 (by decide) as (fun a hm => ha a (List.mem_append_left _ hm)) _).1
      atfStart _ ⟨by decide, by decide⟩ rfl rfl
  · exact (log_readers 8 (by decide) (as ++ [.step none]) ha _).2 sspmStart _
      ⟨by decide, by decide⟩ rfl rfl

/-- What is returned is the number of bytes handed out, or the call failed. -/
theorem Delivered.mem {v v' : List UInt8 × Int} {es : List (Act × Out UInt8)}
    (h : Delivered v es v') {a : Act} {ret : Int} {bs : List UInt8}
    (hm : (a, Out.returned ret bs) ∈ es) : ret = bs.length ∨ ret < 0 := by
  obtain ⟨ht, -⟩ := h
  induction ht with
  | nil => cases hm
  | cons hd _ ih =>
    rcases List.mem_cons.1 hm with he | hm
    · cases he
      rcases hd with ⟨hret, -⟩ | ⟨hret, -⟩
      · exact Or.inl hret
      · exact Or.inr hret
    · exact ih hm

/-- Where every call fails the position stays. -/
theorem Delivered.pos {v v' : List UInt8 × Int} {es : List (Act × Out UInt8)}
    (h : Delivered v es v')
    (hneg : ∀ e ∈ es, ∀ ret bs, e.2 = .returned ret bs → ret < 0) : v'.2 = v.2 := by
  obtain ⟨ht, -⟩ := h
  induction ht with
  | nil => rfl
  | @cons u u' u'' i o es hd _ ih =>
    rw [ih fun e he => hneg e (List.mem_cons_of_mem _ he)]
    cases o with
    | quiet => rw [show u' = u from hd]
    | published bs => rw [show u' = (u.1 ++ bs, u.2) from hd]
    | returned ret bs =>
      have hlt := hneg _ (List.mem_cons_self ..) ret bs rfl
      rcases hd with ⟨hret, -⟩ | ⟨-, hs⟩
      · omega
      · rw [hs]

/-- A copy that faults after one byte: `atf_log_read` takes 14 off the file position. A failing
allocation: `sspm_log_read` returns 3 and has stored nothing. A copy that faults after one byte:
`sspm_log_read` returns 3 and gives up three bytes, of which the caller has got one. -/
theorem log_readers_fail :
    (∃ es s', Sys.run (atfStep 8) atfStart [.read 3 false, .step none, .step none, .step (some 1)] =
        some (es, s') ∧ s'.pos = -14 ∧ ¬ Delivered (atfStart.view 8) es (s'.view 8)) ∧
      (∃ es s', Sys.run (sspmStep 8) sspmStart [.read 3 false, .step none, .step (some 0)] =
        some (es, s') ∧ s'.ring.r = 0 ∧ ¬ Delivered (sspmStart.view 8) es (s'.view 8)) ∧
      (∃ es s', Sys.run (sspmStep 8) sspmStart
          [.read 3 false, .step none, .step none, .step none, .step (some 1), .step none] =
        some (es, s') ∧ s'.ring.r = 3 ∧ ¬ Delivered (sspmStart.view 8) es (s'.view 8)) := by
  refine ⟨⟨[(.read 3 false, .quiet), (.step none, .quiet), (.step none, .quiet),
      (.step (some 1), .returned (-14) [0])], _, rfl, by decide, ?_⟩,
    ⟨[(.read 3 false, .quiet), (.step none, .quiet), (.step (some 0), .returned 3 [])], _, rfl,
      by decide, ?_⟩,
    ⟨[(.read 3 false, .quiet), (.step none, .quiet), (.step none, .quiet), (.step none, .quiet),
      (.step (some 1), .quiet), (.step none, .returned 3 [0])], _, rfl, by decide, ?_⟩⟩
  · intro hd
    refine absurd (hd.pos ?_) (by decide)
    intro e he ret bs ho
    simp only [List.mem_cons, List.not_mem_nil, or_false] at he
    rcases he with rfl | rfl | rfl | rfl
    · cases ho
    · cases ho
    · cases ho
    · cases ho
      decide
  · intro hd
    exact absurd (hd.mem (List.mem_of_getLast? rfl)) (by decide)
  · intro hd
    exact absurd (hd.mem (List.mem_of_getLast? rfl)) (by decide)

end LogReader
