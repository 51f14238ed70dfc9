import FireTablet.Cmdq.Flush
import FireTablet.Lib.Run

/-!
# What a client is told about its flushes

`FlushStep` is what a client may rely on: an accepted flush calls the completion callback once when
its task ends, a timeout calls the client's error callback once, and a wait returns an error if and
only if the completion carried one. The driver does so along the runs whose events are `Good`
(`flush_results`); `flush_results_fails` shows an error interrupt that a wait does not report and a
second flush whose error callback calls itself.
-/

namespace Cmdq

section
variable {κ : Type*}

/-! ## What a client relies on -/

/-- The client's own error callback, the callback of the flush in flight, and the error of the last
flush when it is completed. -/
structure FlushSpec (κ : Type*) where
  clientErr : Option κ
  flight : Option (Option κ)
  result : Option Int

def FlushSpec.create : FlushSpec κ := ⟨none, none, none⟩

/-- One call of a callback, if there is one. -/
def callOnce (cb : Option κ) (err : Int) : Calls κ := (cb.map fun c => (c, err)).toList

/-- The client's view of what happens. -/
inductive FlushStep : FlushSpec κ → FlushEv κ → FlushOut κ → FlushSpec κ → Prop
  | setErrCb (t : FlushSpec κ) (cb : Option κ) :
      FlushStep t (.setErrCb cb) ⟨0, [], []⟩ { t with clientErr := cb }
  | rejected (t : FlushSpec κ) (cb : Option κ) (a : FlushAns) {r : Int} {cbs : Calls κ} :
      r < 0 → cbs = [] ∨ cbs = callOnce cb (-enomem) →
      FlushStep t (.flushAsync cb a) ⟨r, cbs, []⟩ { t with result := none }
  | accepted (t : FlushSpec κ) (cb : Option κ) (a : FlushAns) {r : Int} :
      0 ≤ r →
      FlushStep t (.flushAsync cb a) ⟨r, [], []⟩ { t with flight := some cb, result := none }
  | acceptedNoMem (t : FlushSpec κ) (cb : Option κ) (a : FlushAns) {r : Int} :
      0 ≤ r →
      FlushStep t (.flushAsync cb a) ⟨r, callOnce cb (-enomem), []⟩
        { t with result := some (-enomem) }
  | taskEnds (t : FlushSpec κ) (o : Outcome) {cb : Option κ} :
      t.flight = some cb →
      FlushStep t (.taskEnds o)
        ⟨0, callOnce cb o.err, if o.timedOut then callOnce t.clientErr (-etimedout) else []⟩
        { t with flight := none, result := some o.err }
  | waitComplete (t : FlushSpec κ) {r : Int} :
      t.flight = none → (∀ e, t.result = some e → (r ≠ 0 ↔ e ≠ 0)) →
      FlushStep t .waitComplete ⟨r, [], []⟩ t

/-! ## The events for which the driver does so -/

/-- The driver's error callback would call itself. -/
def DumpLoops (pkt : FlushPkt κ) : Prop :=
  pkt.errCb = some .cmdqPktErrDumpCb ∧
    ∃ item ∈ pkt.flushItem, item.errCb = some .cmdqPktErrDumpCb

instance [DecidableEq κ] (pkt : FlushPkt κ) : Decidable (DumpLoops pkt) :=
  inferInstanceAs (Decidable (_ ∧ _))

/-- A packet is not flushed while it is queued; a timeout does not loop; a wait does not find an
earlier completion while the packet is queued, and the last task ended without an error or with a
timeout that went through the driver's error callback. -/
def FlushEv.Good (s : FlushSys κ) : FlushEv κ → Prop
  | .setErrCb _ => True
  | .flushAsync _ _ => s.queued = 0
  | .taskEnds o => s.queued ≠ 0 ∧ (o.timedOut → ¬DumpLoops s.pkt)
  | .waitComplete => (s.pkt.flushItem.isSome → s.pkt.cmplt ≠ 0) ∧ s.queued = 0 ∧
      ∀ e ∈ s.ended, e.outcome = .done ∨ e.outcome.timedOut ∧ e.dumpCb

instance [DecidableEq κ] (s : FlushSys κ) : (e : FlushEv κ) → Decidable (e.Good s)
  | .setErrCb _ => isTrue trivial
  | .flushAsync _ _ => inferInstanceAs (Decidable (s.queued = 0))
  | .taskEnds o => inferInstanceAs (Decidable (s.queued ≠ 0 ∧ (o.timedOut → ¬DumpLoops s.pkt)))
  | .waitComplete => inferInstanceAs (Decidable ((s.pkt.flushItem.isSome → s.pkt.cmplt ≠ 0) ∧
      s.queued = 0 ∧ ∀ e ∈ s.ended, e.outcome = .done ∨ e.outcome.timedOut ∧ e.dumpCb))

/-! ## Calling back -/

theorem callCb_client (depth : Nat) (pkt : FlushPkt κ) (cb : Option κ) (err : Int) :
    callCb (depth + 1) pkt (cb.map .client) err = some (callOnce cb err, pkt) := by
  cases cb <;> simp [callCb, callOnce]

theorem callCb_flushAsync (depth : Nat) {pkt : FlushPkt κ} {item : CmdqFlushItem κ}
    {cb : Option κ} (hi : pkt.flushItem = some item) (hc : item.cb = cb.map .client) (err : Int) :
    callCb (depth + 2) pkt (some .cmdqFlushAsyncCb) err =
      some (callOnce cb err, { pkt with cmplt := pkt.cmplt + 1 }) := by
  simp [callCb, hi, hc, callCb_client]

theorem callCb_errDump (depth : Nat) {pkt : FlushPkt κ} {item : CmdqFlushItem κ}
    {cb : Option κ} (hi : pkt.flushItem = some item) (hc : item.errCb = cb.map .client)
    (err : Int) :
    callCb (depth + 2) pkt (some .cmdqPktErrDumpCb) err =
      some (callOnce cb err, { pkt with flushItem := some { item with err := err } }) := by
  simp [callCb, hi, hc, callCb_client]

/-- The error callback that is its own saved callback never returns. -/
theorem callCb_loops {pkt : FlushPkt κ} {item : CmdqFlushItem κ} (hi : pkt.flushItem = some item)
    (hc : item.errCb = some .cmdqPktErrDumpCb) (depth : Nat) (err : Int) :
    callCb depth pkt (some .cmdqPktErrDumpCb) err = none := by
  induction depth generalizing pkt item with
  | zero => rfl
  | succ depth ih =>
    rw [callCb, hi]
    simp only [hc]
    exact ih rfl rfl

/-- Its timeout is never completed. -/
theorem timeout_loops {s : FlushSys κ} {o : Outcome} (hl : DumpLoops s.pkt)
    (ho : o.timedOut = true) (depth : Nat) : s.step depth (.taskEnds o) = none := by
  obtain ⟨hd, item, hi, hc⟩ := hl
  have hloop := callCb_loops hi hc depth (-etimedout)
  simp [FlushSys.step, taskEnds, ho, cmdqTaskErrCallback, hd, hloop]

/-! ## The simulation -/

/-- What the packet holds for the client's view `t`. -/
structure FlushSim (s : FlushSys κ) (t : FlushSpec κ) : Prop where
  errCb : s.pkt.errCb = some .cmdqPktErrDumpCb ∨ s.pkt.errCb = t.clientErr.map .client
  queued : s.queued = t.flight.toList.length
  flight : ∀ cb, t.flight = some cb → ∃ item, s.pkt.flushItem = some item ∧
    item.cb = cb.map .client ∧ item.err = 0 ∧ s.pkt.cb = some .cmdqFlushAsyncCb ∧
    (s.pkt.errCb = some .cmdqPktErrDumpCb →
      item.errCb = some .cmdqPktErrDumpCb ∨ item.errCb = t.clientErr.map .client)
  result : ∀ e, t.result = some e → ∃ item ended, s.pkt.flushItem = some item ∧
    s.ended = some ended ∧ ended.outcome.err = e ∧ (ended.outcome = .done → item.err = 0) ∧
    (ended.outcome.timedOut → ended.dumpCb → item.err = -etimedout)

theorem flushSim_create : FlushSim (κ := κ) .create .create :=
  ⟨.inr rfl, rfl, (fun _ h => nomatch h), (fun _ h => nomatch h)⟩

variable {s : FlushSys κ} {t : FlushSpec κ}

theorem sim_setErrCb (h : FlushSim s t) (cb : Option κ) :
    FlushSim { s with pkt := cmdqPktSetErrCb cb s.pkt } { t with clientErr := cb } where
  errCb := .inr rfl
  queued := h.queued
  flight := by
    intro c hc
    obtain ⟨item, hi, hcb, herr, hslot, -⟩ := h.flight c hc
    refine ⟨item, hi, hcb, herr, hslot, ?_⟩
    intro hd
    cases cb <;> simp [cmdqPktSetErrCb] at hd
  result := h.result

/-- A flush that is rejected before the slots are set. -/
theorem sim_rejected (h : FlushSim s t) (hq : s.queued = 0) (pkt : FlushPkt κ)
    (he : pkt.errCb = s.pkt.errCb ∨ pkt.errCb = some .cmdqPktErrDumpCb) :
    FlushSim { s with pkt := pkt, ended := none } { t with result := none } where
  errCb := by
    rcases he with he | he
    · rw [he]
      exact h.errCb
    · exact .inl he
  queued := h.queued
  flight := by
    intro c hc
    have hl := h.queued
    rw [hq, show t.flight = some c from hc] at hl
    cases hl
  result _ hr := by cases hr

theorem flight_none (h : FlushSim s t) (hq : s.queued = 0) : t.flight = none := by
  have hl := h.queued
  rw [hq] at hl
  cases hf : t.flight with
  | none => rfl
  | some c =>
    rw [hf] at hl
    cases hl

/-- The slots and the item of a flush. -/
theorem wrapped_flight (h : FlushSim s t) (a : FlushAns) (cb : Option κ) :
    ∃ item, ((cmdqPrepareFlushTiem a s.pkt).wrapped cb).flushItem = some item ∧
      item.cb = cb.map .client ∧ item.err = 0 ∧
      (item.errCb = some .cmdqPktErrDumpCb ∨ item.errCb = t.clientErr.map .client) :=
  ⟨_, rfl, rfl, rfl, h.errCb⟩

theorem flushAsync_sim (depth : Nat) (h : FlushSim s t) (hq : s.queued = 0) (cb : Option κ)
    (a : FlushAns) :
    ∃ o s' t', cmdqPktFlushAsync (depth + 2) cb a s = some (o, s') ∧
      FlushStep t (.flushAsync cb a) o t' ∧ FlushSim s' t' := by
  have hf := flight_none h hq
  have hal : ((cmdqPrepareFlushTiem a s.pkt).wrapped cb).taskAlloc = s.pkt.taskAlloc := rfl
  simp only [cmdqPktFlushAsync]
  by_cases hitem : (!a.item) = true
  · rw [if_pos hitem]
    exact ⟨_, _, _, rfl, .rejected t cb a (by decide) (.inl rfl), sim_rejected h hq _ (.inl rfl)⟩
  rw [if_neg hitem]
  by_cases hfin : a.finalize < 0
  · rw [if_pos hfin]
    exact ⟨_, _, _, rfl, .rejected t cb a hfin (.inl rfl), sim_rejected h hq _ (.inl rfl)⟩
  rw [if_neg hfin]
  by_cases hsend : a.send < 0
  · rw [if_pos hsend]
    refine ⟨_, _, _, rfl, .rejected t cb a ?_ (.inl rfl), sim_rejected h hq _ (.inr rfl)⟩
    by_cases hstale : s.pkt.taskAlloc = true
    · simp only [hal, hstale, if_true, hsend]
    · simp only [hal, hstale, Bool.false_eq_true, if_false]
      decide
  rw [if_neg hsend]
  obtain ⟨item, hi, hcb, herr, hsaved⟩ := wrapped_flight h a cb
  by_cases htask : a.task = true
  · rw [if_pos htask]
    refine ⟨_, _, _, rfl, .accepted t cb a (by omega), ⟨.inl rfl, ?_, ?_, (fun _ h => nomatch h)⟩⟩
    · simp [hq]
    · intro c hc
      cases hc
      exact ⟨item, hi, hcb, herr, rfl, fun _ => hsaved⟩
  · have hcall := callCb_flushAsync depth hi hcb (-enomem)
    rw [if_neg htask, cmdqTaskCallback,
      show ((cmdqPrepareFlushTiem a s.pkt).wrapped cb).cb = some .cmdqFlushAsyncCb from rfl, hcall]
    by_cases hstale : s.pkt.taskAlloc = true
    · refine ⟨_, _, { t with result := some (-enomem) }, rfl, ?_, .inl rfl, ?_, ?_, ?_⟩
      · simp only [hal, hstale, if_true]
        exact .acceptedNoMem t cb a (by omega)
      · simp [hq, hf]
      · intro c hc
        cases hf.symm.trans hc
      · intro e he
        cases he
        exact ⟨item, ⟨.noMem, true⟩, hi, rfl, rfl, (fun h => nomatch h), (fun h => nomatch h)⟩
    · refine ⟨_, _, { t with result := none }, rfl, ?_, .inl rfl, ?_, ?_, (fun _ h => nomatch h)⟩
      · simp only [hal, hstale, Bool.false_eq_true, if_false]
        exact .rejected t cb a (by decide) (.inr rfl)
      · simp [hq, hf]
      · intro c hc
        cases hf.symm.trans hc

/-- The error callback of a timeout: the client's is called once, and the error is kept if the slot
is still the driver's. -/
theorem errCallback_sim (depth : Nat) (h : FlushSim s t) {cb : Option κ} (hf : t.flight = some cb)
    (hloop : ¬DumpLoops s.pkt) (err : Int) :
    ∃ pkt item, cmdqTaskErrCallback (depth + 2) s.pkt err =
        some (callOnce t.clientErr err, pkt) ∧
      pkt.flushItem = some item ∧ item.cb = cb.map .client ∧ pkt.cb = some .cmdqFlushAsyncCb ∧
      pkt.errCb = s.pkt.errCb ∧ (s.pkt.errCb = some .cmdqPktErrDumpCb → item.err = err) := by
  obtain ⟨item, hi, hcb, -, hslot, hsaved⟩ := h.flight cb hf
  rw [cmdqTaskErrCallback]
  by_cases hd : s.pkt.errCb = some .cmdqPktErrDumpCb
  · have hclient : item.errCb = t.clientErr.map .client :=
      (hsaved hd).resolve_left fun hs => hloop ⟨hd, item, hi, hs⟩
    rw [hd, callCb_errDump depth hi hclient err]
    exact ⟨_, { item with err := err }, rfl, rfl, hcb, hslot, hd, fun _ => rfl⟩
  · rw [h.errCb.resolve_left hd, callCb_client]
    exact ⟨s.pkt, item, rfl, hi, hcb, hslot, h.errCb.resolve_left hd, fun hc => absurd hc (by
      cases t.clientErr <;> simp)⟩

/-- The flag of `Ended`. -/
theorem dumpCb_iff (cb : Option (CmdqCb κ)) :
    (match cb with
      | some .cmdqPktErrDumpCb => true
      | _ => false) = true ↔ cb = some .cmdqPktErrDumpCb := by
  rcases cb with _ | _ | _ | _ <;> simp

theorem taskEnds_sim (depth : Nat) (h : FlushSim s t) (hq : s.queued ≠ 0) (o : Outcome)
    (hloop : o.timedOut → ¬DumpLoops s.pkt) :
    ∃ r s' t', taskEnds (depth + 2) o s = some (r, s') ∧
      FlushStep t (.taskEnds o) r t' ∧ FlushSim s' t' := by
  obtain ⟨cb, hf⟩ : ∃ cb, t.flight = some cb := by
    have hl := h.queued
    cases hf : t.flight with
    | none =>
      rw [hf] at hl
      exact absurd hl hq
    | some cb => exact ⟨cb, rfl⟩
  have hone : s.queued - 1 = 0 := by
    rw [h.queued, hf]
    rfl
  have hstep := FlushStep.taskEnds t o hf
  cases ho : o.timedOut with
  | true =>
    obtain ⟨pkt, item, herr, hi, hcb, hslot, he, hkept⟩ :=
      errCallback_sim depth h hf (hloop ho) (-etimedout)
    have hcall := callCb_flushAsync depth hi hcb o.err
    rw [ho, if_pos rfl] at hstep
    simp only [taskEnds, ho, if_true, herr, cmdqTaskCallback, hslot, hcall, Option.map_some]
    refine ⟨_, _, _, rfl, hstep, ?_, hone, (fun _ h => nomatch h), ?_⟩
    · rw [he]
      exact h.errCb
    · intro e hr
      cases hr
      refine ⟨item, _, hi, rfl, rfl, ?_, ?_⟩
      · rintro rfl
        cases ho
      · exact fun _ hd => hkept ((dumpCb_iff _).1 hd)
  | false =>
    obtain ⟨item, hi, hcb, herr, hslot, -⟩ := h.flight cb hf
    have hcall := callCb_flushAsync depth hi hcb o.err
    rw [ho, if_neg (by decide)] at hstep
    simp only [taskEnds, ho, Bool.false_eq_true, if_false, cmdqTaskCallback, hslot, hcall,
      Option.map_some]
    refine ⟨_, _, _, rfl, hstep, h.errCb, hone, (fun _ h => nomatch h), ?_⟩
    intro e hr
    cases hr
    refine ⟨item, _, hi, rfl, rfl, fun _ => herr, ?_⟩
    intro hto
    exact absurd (hto.symm.trans ho) (by decide)

theorem wait_sim (h : FlushSim s t) (hcmplt : s.pkt.flushItem.isSome → s.pkt.cmplt ≠ 0)
    (hq : s.queued = 0)
    (hended : ∀ e ∈ s.ended, e.outcome = .done ∨ e.outcome.timedOut ∧ e.dumpCb) :
    ∃ o s', cmdqPktWaitComplete s = some (o, s') ∧ FlushStep t .waitComplete o t ∧
      FlushSim s' t := by
  have hf := flight_none h hq
  rw [cmdqPktWaitComplete]
  cases hi : s.pkt.flushItem with
  | none =>
    refine ⟨_, _, rfl, .waitComplete t hf ?_, h⟩
    intro e he
    obtain ⟨item, _, hi', -⟩ := h.result e he
    rw [hi] at hi'
    cases hi'
  | some item =>
    have hne : s.pkt.cmplt ≠ 0 := hcmplt (by rw [hi]; rfl)
    simp only [hne, if_false]
    refine ⟨_, _, rfl, .waitComplete t hf ?_, h.errCb, h.queued, ?_, ?_⟩
    · intro e he
      obtain ⟨item', ended, hi', hen, rfl, hdone, htime⟩ := h.result e he
      rw [hi, Option.some.injEq] at hi'
      subst hi'
      rcases hended ended hen with ho | ⟨ho, hd⟩
      · rw [hdone ho, ho]
        simp [Outcome.err]
      · rw [htime ho hd]
        refine ⟨fun _ => ?_, fun _ => by decide⟩
        cases hout : ended.outcome <;> simp [hout, Outcome.timedOut] at ho <;> decide
    · intro c hc
      cases hf.symm.trans hc
    · exact h.result

/-- **One event**. -/
theorem flush_step (depth : Nat) (h : FlushSim s t) (e : FlushEv κ) (hg : e.Good s) :
    ∃ o s' t', s.step (depth + 2) e = some (o, s') ∧ FlushStep t e o t' ∧ FlushSim s' t' := by
  cases e with
  | setErrCb cb => exact ⟨_, _, _, rfl, .setErrCb t cb, sim_setErrCb h cb⟩
  | flushAsync cb a => exact flushAsync_sim depth h hg cb a
  | taskEnds o =>
    obtain ⟨hq, hloop⟩ := hg
    simp only [FlushSys.step, hq, if_false]
    exact taskEnds_sim depth h hq o hloop
  | waitComplete =>
    obtain ⟨hcmplt, hq, hended⟩ := hg
    obtain ⟨o, s', hw, hs, hsim⟩ := wait_sim h hcmplt hq hended
    exact ⟨o, s', t, hw, hs, hsim⟩

/-- **Flush results**: along a run of good events every call returns, and what the client sees is
what it relies on. -/
theorem flush_results (depth : Nat) (hd : 2 ≤ depth) (evs : List (FlushEv κ))
    (hgood : Sys.Along (FlushSys.step depth) FlushEv.Good .create evs) :
    ∃ es s t, Sys.run (FlushSys.step depth) .create evs = some (es, s) ∧
      Sys.Trace FlushStep .create es t := by
  obtain ⟨k, rfl⟩ := Nat.exists_eq_add_of_le' hd
  obtain ⟨es, s, t, hrun, -, ht⟩ := Sys.run_rel (fun s t e h hg => flush_step k h e hg) evs
    .create .create flushSim_create hgood
  exact ⟨es, s, t, hrun, ht⟩

end

/-- Answers without a failure. -/
def okAns : FlushAns := ⟨true, 0, 0, true⟩

/-- A timeout that is reported. -/
theorem flush_results_timeout : ∃ es s t,
    Sys.run (FlushSys.step 2) (.create : FlushSys Nat) [.setErrCb (some 1),
      .flushAsync (some 2) okAns, .taskEnds .timeout, .waitComplete] = some (es, s) ∧
    Sys.Trace FlushStep .create es t :=
  flush_results 2 le_rfl _ (by decide)

/-- An error interrupt that `cmdq_pkt_wait_complete` does not report, and a second flush whose
timeout never gets to the completion, however deep calls may nest. -/
theorem flush_results_fails :
    (∃ es s t, Sys.run (FlushSys.step 2) (.create : FlushSys Nat)
        [.flushAsync (some 2) okAns, .taskEnds .errIrq] = some (es, s) ∧
      es.map (fun e => e.2.cbs) = [[], [(2, -einval)]] ∧
      s.step 2 .waitComplete = some (⟨0, [], []⟩, t)) ∧
    ∃ s, (∃ es, Sys.run (FlushSys.step 2) (.create : FlushSys Nat) [.setErrCb (some 1),
        .flushAsync (some 2) okAns, .taskEnds .done, .waitComplete, .flushAsync (some 2) okAns] =
          some (es, s)) ∧
      ∀ depth, s.step depth (.taskEnds .timeout) = none := by
  refine ⟨⟨_, _, _, rfl, rfl, rfl⟩, _, ⟨_, rfl⟩, ?_⟩
  exact timeout_loops ⟨rfl, _, rfl, rfl⟩ rfl

end Cmdq
