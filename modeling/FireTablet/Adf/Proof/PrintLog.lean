import FireTablet.Adf.Log
import FireTablet.Adf.Proof.LogHistory
import FireTablet.Lib.Run

/-!
# Printing the recent log

The flag of `adfDebug_printLog` is to be the write pointer up to which the log has been printed.
A call takes its new value from the copy before it reads anything, which is where the previous call
stopped reading. That is also where this call stops printing only if the DSP adds nothing in
between. So every byte is printed once and in order in every run where the DSP adds no byte while
the copy's write pointer differs from the flag, that is from the call that first sees new bytes to
the end of the next one (`print_once`). Otherwise bytes are printed twice (`print_twice`).
-/

namespace Adf

open CInt

/-! ## The condition and the result -/

/-- The condition on a step, for a log buffer of `N` bytes: fewer than `N - 1` bytes, none of them
zero, between two calls, none while the copy's write pointer is not the flag; reads and allocations
succeed; the flag's write pointer fits 16 bits when the log is read from it. -/
def LogIn.Fits (N : Nat) (s : LogSys) : LogIn → Prop
  | .append b => b ≠ 0 ∧ s.since + 2 < N ∧ u32 s.logInfo.data.rBuf.wp = s.logInfo.flag
  | .head ok => ok = true
  | .data ok vmalloc => ok = true ∧ vmalloc = true ∧ s.logInfo.flag < 65536

/-- The bytes of a log that are printed: all but the line ends. -/
def logText (bs : List UInt8) : List UInt8 := bs.filter fun c => ¬(c = 13 ∨ c = 10)

/-- What a step does: the lines printed so far are a first part of the log, and all of it after a
call that reads the log. A call that returns early has left nothing, or the next one reads the
log. -/
structure LogStepOk (s : LogSys) (i : LogIn) (lines : List (List UInt8)) (s' : LogSys) : Prop where
  printed : s'.printed = s.printed ++ lines
  once : ∃ m ≤ s'.stream.length, s'.printed.flatten = logText (s'.stream.take m)
  all : ∀ ok vmalloc, i = .data ok vmalloc → s.call ≠ none →
    s'.printed.flatten = logText s'.stream
  early : ∀ ok, i = .head ok → s'.call = none → s'.printed.flatten = logText s'.stream ∨
    ∀ dsp ok', (adfDebugPrintLogHead dsp s'.logInfo ok').1 ≠ none

/-- The state after a load: an empty log buffer of `N` bytes that passes the driver's check, and a
copy and a flag of zeros. -/
structure LogSys.Start (charLen N : Nat) (s : LogSys) : Prop where
  dsp : LogLoaded s.dsp N
  check : adfDebugLogBufCheck charLen { s.logInfo with data := s.dsp } = true
  size : sizeofAdfRingbuf + N ≤ s.logInfo.size
  copy : s.logInfo.data.rBuf.wp = 0
  flag : s.logInfo.flag = 0
  call : s.call = none
  history : s.stream = [] ∧ s.printed = [] ∧ s.since = 0

/-! ## The invariant -/

/-- The state when the first `m` bytes of the log have been printed. -/
structure PrintInv (charLen N : Nat) (s : LogSys) (m : Nat) : Prop where
  log : LogAt s.dsp N (s.stream.length % N)
    ((List.replicate N 0 ++ s.stream).drop s.stream.length)
  wp : s.dsp.rBuf.wp = s.dsp.rBuf.base + (s.stream.length % N : Nat)
  check : adfDebugLogBufCheck charLen { s.logInfo with data := s.dsp } = true
  size : sizeofAdfRingbuf + N ≤ s.logInfo.size
  nonzero : ∀ b ∈ s.stream, b ≠ 0
  le : m ≤ s.stream.length
  printed : s.printed.flatten = logText (s.stream.take m)
  flag : s.logInfo.flag = 32 + m % N ∨ s.logInfo.flag = 0 ∧ m = 0
  few : s.stream.length = m ∨ s.stream.length + 1 < m + N
  fresh : u32 s.logInfo.data.rBuf.wp = s.logInfo.flag →
    s.call = none ∧ s.stream.length = m + s.since
  ahead : u32 s.logInfo.data.rBuf.wp ≠ s.logInfo.flag →
    s.logInfo.data.rBuf.wp = s.dsp.rBuf.wp ∧ (s.call = none ∨ s.call = some s.dsp.rBuf.wp)

theorem LogSys.Start.inv {charLen N : Nat} {s : LogSys} (h : s.Start charLen N) :
    PrintInv charLen N s 0 := by
  obtain ⟨hd, hc, hs, hcopy, hf, hcall, hst, hp, hsi⟩ := h
  have hu : u32 s.logInfo.data.rBuf.wp = s.logInfo.flag := by rw [hcopy, hf]; rfl
  refine ⟨?_, ?_, hc, hs, by simp [hst], Nat.zero_le _, by simp [hp, hst, logText], .inr ⟨hf, rfl⟩,
    .inl (by simp [hst]), fun _ => ⟨hcall, by simp [hst, hsi]⟩, fun hne => absurd hu hne⟩
  · simpa [hst] using hd.at
  · simp [hst, hd.wp]

/-! ## The check and the lines -/

/-- The check reads the struct, and passes for every write pointer in range. -/
theorem logBufCheck_congr {charLen : Nat} {l : LogInfo} {data : Ring}
    (hc : adfDebugLogBufCheck charLen l = true) (hb : data.rBuf.base = l.data.rBuf.base)
    (hl : data.rBuf.limit = l.data.rBuf.limit) (hr : data.rBuf.rp = l.data.rBuf.rp)
    (hw : adfRingbufInRange data.rBuf.wp data.rBuf.base data.rBuf.limit = true) :
    adfDebugLogBufCheck charLen { l with data } = true := by
  unfold adfDebugLogBufCheck adfRingbufCheckValid at *
  rw [hb, hl] at hw
  simp only [hb, hl, hr, hw, Bool.and_true]
  simp only [Bool.and_eq_true] at hc ⊢
  refine ⟨hc.1, ?_⟩
  have h2 := hc.2
  split_ifs at h2 ⊢
  exact (Bool.and_eq_true _ _ ▸ h2).1

theorem flatten_splitOnP {α : Type*} (p : α → Bool) (xs : List α) :
    (xs.splitOnP p).flatten = xs.filter fun c => !p c := by
  induction xs with
  | nil => simp
  | cons c cs ih =>
    rw [List.splitOnP_cons_eq_if_modifyHead, List.filter_cons, ← ih]
    obtain ⟨l, ls, hl⟩ := List.exists_cons_of_ne_nil (List.splitOnP_ne_nil p cs)
    cases hc : p c <;> simp [hl]

/-- The lines hold the text. -/
theorem logLines_flatten (bs : List UInt8) : (logLines bs).flatten = logText (cString bs) := by
  unfold logLines logText
  rw [List.flatten_filter_ne_nil, flatten_splitOnP]
  exact congrArg (fun p => (cString bs).filter p) (funext fun c => by simp)

theorem logText_append (as bs : List UInt8) : logText (as ++ bs) = logText as ++ logText bs :=
  List.filter_append ..

/-- The write pointer after a byte. -/
theorem LogAt.put_wp {s : Ring} {N w : Nat} {hist : List UInt8} (h : LogAt s N w hist)
    (hwp : s.rBuf.wp = s.rBuf.base + w) (b : UInt8) :
    (dspPut s b false).rBuf.wp = s.rBuf.base + (Circ.wrap N (w + 1) : Nat) := by
  have hl := h.limit
  have hw := h.lt
  simp only [dspPut, hl, hwp]
  unfold Circ.wrap
  split_ifs <;> simp at * <;> omega

/-! ## The steps -/

section
variable {charLen N : Nat} {s : LogSys} {m : Nat} (h : PrintInv charLen N s m)
include h

theorem PrintInv.base : s.dsp.rBuf.base = 32 := h.log.base

/-- The `uint32_t` of the DSP's write pointer. -/
theorem PrintInv.u32_wp : u32 s.dsp.rBuf.wp = (32 + s.stream.length % N : Nat) := by
  have hb := h.base
  have hl := h.log.limit
  have hi := h.log.limitI32
  have hlt := h.log.lt
  have hw := h.wp
  unfold IsI32 at hi
  rw [u32_eq (by omega) (by omega)]
  omega

/-- Where the DSP's write pointer is the flag, all of the log has been printed. -/
theorem PrintInv.all_of_eq (he : u32 s.dsp.rBuf.wp = s.logInfo.flag) : s.stream.length = m := by
  rw [h.u32_wp] at he
  rcases h.flag with hf | ⟨hf, -⟩
  · rcases h.few with hfew | hfew
    · exact hfew
    · have hle := h.le
      have hmod : (s.stream.length - m) % N = 0 :=
        Nat.sub_mod_eq_zero_of_mod_eq (by omega)
      rw [Nat.mod_eq_of_lt (by omega)] at hmod
      omega
  · omega

/-- **The DSP adds a byte.** -/
theorem PrintInv.append {b : UInt8} (hf : LogIn.Fits N s (.append b)) :
    PrintInv charLen N { s with
      dsp := dspPut s.dsp b false, stream := s.stream ++ [b], since := s.since + 1 } m := by
  obtain ⟨hb, hsince, heq⟩ := hf
  obtain ⟨hcall, hlen⟩ := h.fresh heq
  have hlt := h.log.lt
  have hslot : Circ.wrap N (s.stream.length % N + 1) = (s.stream ++ [b]).length % N := by
    rw [Circ.wrap_eq_mod (by omega), Nat.mod_add_mod, List.length_append, List.length_singleton]
  have hput := h.log.put_wp h.wp b
  have hlog := h.log.put b false
  rw [hslot] at hput hlog
  refine ⟨?_, hput, ?_, h.size, ?_, ?_, ?_, h.flag, ?_, fun _ => ⟨hcall, ?_⟩,
    fun hne => absurd heq hne⟩
  · rwa [List.drop_drop, ← List.drop_append_of_le_length (by simp; omega), List.append_assoc,
      ← List.length_singleton (a := b), ← List.length_append] at hlog
  · refine logBufCheck_congr (l := { s.logInfo with data := s.dsp }) h.check rfl rfl rfl ?_
    have hbase : (dspPut s.dsp b false).rBuf.base = s.dsp.rBuf.base := rfl
    have := hlog.lt
    dsimp only
    rw [inRange_iff, hput, hlog.limit, hbase]
    omega
  · intro c hc
    rcases List.mem_append.1 hc with hc | hc
    · exact h.nonzero c hc
    · rw [List.mem_singleton.1 hc]; exact hb
  · have := h.le
    simp only [List.length_append]; omega
  · rw [List.take_append_of_le_length h.le]; exact h.printed
  · simp only [List.length_append, List.length_singleton]; omega
  · simp only [List.length_append, List.length_singleton]; omega

/-- **The struct is read.** -/
theorem PrintInv.head :
    PrintInv charLen N { s with
      logInfo := (adfDebugPrintLogHead s.dsp s.logInfo true).2
      call := (adfDebugPrintLogHead s.dsp s.logInfo true).1
      since := if (adfDebugPrintLogHead s.dsp s.logInfo true).1 = none then 0 else s.since } m := by
  by_cases heq : u32 s.logInfo.data.rBuf.wp = s.logInfo.flag
  · have hnone : (adfDebugPrintLogHead s.dsp s.logInfo true).1 = none := by
      simp [adfDebugPrintLogHead, heq]
    refine ⟨h.log, h.wp, h.check, h.size, h.nonzero, h.le, h.printed, h.flag, h.few, ?_, ?_⟩
    · intro he
      exact ⟨hnone, by rw [if_pos hnone]; exact h.all_of_eq he⟩
    · exact fun _ => ⟨rfl, .inl hnone⟩
  · have hwp := (h.ahead heq).1
    have hsome : (adfDebugPrintLogHead s.dsp s.logInfo true).1 = some s.dsp.rBuf.wp := by
      simp [adfDebugPrintLogHead, heq, ← hwp]
    refine ⟨h.log, h.wp, h.check, h.size, h.nonzero, h.le, h.printed, h.flag, h.few, ?_, ?_⟩
    · intro he
      rw [hwp] at heq
      exact absurd he heq
    · exact fun _ => ⟨rfl, .inr hsome⟩

/-- The lines that a read of the log from the flag on prints. -/
theorem PrintInv.lines {data : Ring}
    (hat : LogAt data N (s.stream.length % N)
      ((List.replicate N 0 ++ s.stream).drop s.stream.length))
    (hwp : data.rBuf.wp = data.rBuf.base + (s.stream.length % N : Nat))
    (hf : s.logInfo.flag < 65536) :
    ∃ lines rp, adfLogPrint data (some s.logInfo.flag) true = some (0, lines, data.setRp rp) ∧
      lines.flatten = logText (s.stream.drop m) := by
  have hw := hat.lt
  have hb : data.rBuf.base = 32 := hat.base
  have hl := hat.limit
  have hle := h.le
  have hfew := h.few
  have key : ∀ r : Nat, r ≤ N → Circ.dist N r (s.stream.length % N) = s.stream.length - m →
      adfLogReCalcHeader data s.logInfo.flag false = some
        (adfRingbufGetUsedSize (data.setRp (data.rBuf.base + r)).rBuf,
          data.setRp (data.rBuf.base + r)) →
      ∃ lines rp, adfLogPrint data (some s.logInfo.flag) true = some (0, lines, data.setRp rp) ∧
        lines.flatten = logText (s.stream.drop m) := by
    intro r hr hd hc
    refine ⟨_, _, hat.print hwp (.inl rfl) hr hc, ?_⟩
    rw [logLines_flatten, hd, cString_newest h.nonzero (by omega) (by omega),
      show s.stream.length - (s.stream.length - m) = m by omega]
  rcases h.flag with hflag | ⟨hflag, rfl⟩
  · have hmod := Nat.mod_lt m (show 0 < N by omega)
    refine key (m % N) (by omega) ?_ ?_
    · rw [show s.stream.length % N = Circ.wrap N (m % N + (s.stream.length - m)) by
        rw [Circ.wrap_eq_mod (by omega), Nat.mod_add_mod]; congr 1; omega]
      exact Circ.dist_wrap_add hmod (by omega)
    · have hrptr : ((s.logInfo.flag % 65536 : Nat) : Int) = data.rBuf.base + (m % N : Nat) := by
        rw [Nat.mod_eq_of_lt hf, hb, hflag]; simp
      obtain ⟨r, hrp, -⟩ := hat.historyRp
      unfold adfLogReCalcHeader
      rw [hrp, Option.bind_some]
      dsimp only
      rw [hrptr, if_pos (by rw [inRange_iff]; omega)]
      rfl
  · obtain ⟨r, hrp, hr⟩ := hat.historyRp
    have hu := hat.history_used h.nonzero hwp (.inl rfl) hr fun hnil => by
      simp [hnil] at hwp
      exact hwp
    refine key r (by split_ifs at hr <;> omega) ?_ (by rw [hflag]; exact hat.reCalc_zero false hrp)
    rw [hu, if_neg (by omega)]
    omega

/-- **The log is read and printed.** -/
theorem PrintInv.data {wptr : Int} (hcall : s.call = some wptr) (hf : s.logInfo.flag < 65536) :
    ∃ lines logInfo, adfDebugPrintLogData charLen s.dsp s.logInfo wptr true true =
        some (lines, logInfo) ∧
      (s.printed ++ lines).flatten = logText s.stream ∧
      PrintInv charLen N { s with
        logInfo, call := none, printed := s.printed ++ lines, since := 0 } s.stream.length := by
  have hne : u32 s.logInfo.data.rBuf.wp ≠ s.logInfo.flag := fun he => by
    have := (h.fresh he).1
    rw [hcall] at this
    cases this
  obtain rfl : wptr = s.dsp.rBuf.wp := by
    have := (h.ahead hne).2
    rw [hcall] at this
    simpa using this
  have hb := h.base
  have hat : LogAt (adfDbgMemRead true s.dsp s.logInfo.data s.logInfo.size) N
      (s.stream.length % N) ((List.replicate N 0 ++ s.stream).drop s.stream.length) := by
    refine ⟨h.log.base, h.log.limit, h.log.limitI32, h.log.lt, h.log.wp, ?_⟩
    rw [← h.log.hist]
    refine Circ.read_congr fun i hi => ?_
    have hlt := Circ.wrap_lt (N := N) (i := s.stream.length % N + i) (by have := h.log.lt; omega)
    have hsize := h.size
    have hbase : (adfDbgMemRead true s.dsp s.logInfo.data s.logInfo.size).rBuf.base = 32 := hb
    unfold sizeofAdfRingbuf at hsize
    exact if_pos (by omega)
  obtain ⟨lines, rp, hprint, hlines⟩ := h.lines hat h.wp hf
  have hall : (s.printed ++ lines).flatten = logText s.stream := by
    rw [List.flatten_append, h.printed, hlines, ← logText_append, List.take_append_drop]
  have hdata : adfDebugPrintLogData charLen s.dsp s.logInfo s.dsp.rBuf.wp true true =
      some (lines, { s.logInfo with
        data := (adfDbgMemRead true s.dsp s.logInfo.data s.logInfo.size).setRp rp
        flag := (u32 s.dsp.rBuf.wp).toNat }) := by
    have hcheck : adfDebugLogBufCheck charLen { s.logInfo with
        data := adfDbgMemRead true s.dsp s.logInfo.data s.logInfo.size } = true := h.check
    unfold adfDebugPrintLogData
    dsimp only
    rw [hcheck, hprint]
    rfl
  refine ⟨lines, _, hdata, hall, h.log, h.wp, h.check, h.size, h.nonzero, Nat.le_refl _, ?_, ?_,
    .inl rfl, fun _ => ⟨rfl, rfl⟩, fun hne' => absurd ?_ hne'⟩
  · rw [hall]
    exact congrArg logText (List.take_length).symm
  · left
    dsimp only
    rw [h.u32_wp, Int.toNat_natCast]
  · show u32 s.dsp.rBuf.wp = ((u32 s.dsp.rBuf.wp).toNat : Int)
    rw [h.u32_wp, Int.toNat_natCast]

end

/-- Between two calls all of the log has been printed, or the next call reads it. -/
theorem PrintInv.early {charLen N : Nat} {s : LogSys} {m : Nat} (h : PrintInv charLen N s m)
    (hsince : s.since = 0) : s.printed.flatten = logText s.stream ∨
      ∀ dsp ok, (adfDebugPrintLogHead dsp s.logInfo ok).1 ≠ none := by
  by_cases heq : u32 s.logInfo.data.rBuf.wp = s.logInfo.flag
  · have hlen : s.stream.length = m := by
      rw [(h.fresh heq).2, hsince, Nat.add_zero]
    refine .inl ?_
    rw [h.printed, ← hlen, List.take_length]
  · refine .inr fun dsp ok => ?_
    simp [adfDebugPrintLogHead, heq]

/-- **One step** that meets the condition. -/
theorem print_step {charLen N : Nat} {s : LogSys} {i : LogIn} (h : ∃ m, PrintInv charLen N s m)
    (hf : i.Fits N s) :
    ∃ lines s', logStep charLen s i = some (lines, s') ∧ (∃ m, PrintInv charLen N s' m) ∧
      LogStepOk s i lines s' := by
  obtain ⟨m, h⟩ := h
  cases i with
  | append b =>
    have h' := h.append hf
    exact ⟨_, _, rfl, ⟨m, h'⟩, by simp, ⟨m, h'.le, h'.printed⟩, by simp, by simp⟩
  | head ok =>
    obtain rfl : ok = true := hf
    cases hcall : s.call with
    | some wptr =>
      exact ⟨[], s, by simp [logStep, hcall], ⟨m, h⟩, by simp, ⟨m, h.le, h.printed⟩, by simp,
        fun _ _ hnone => absurd (hcall.symm.trans hnone) (by simp)⟩
    | none =>
      have h' := h.head
      exact ⟨[], _, by simp only [logStep, hcall], ⟨m, h'⟩, by simp, ⟨m, h'.le, h'.printed⟩,
        by simp, fun _ _ hnone => h'.early (if_pos hnone)⟩
  | data ok vmalloc =>
    obtain ⟨rfl, rfl, hflag⟩ := hf
    cases hcall : s.call with
    | none =>
      exact ⟨[], s, by simp [logStep, hcall], ⟨m, h⟩, by simp, ⟨m, h.le, h.printed⟩,
        fun _ _ _ hne => absurd hcall hne, by simp⟩
    | some wptr =>
      obtain ⟨lines, logInfo, hd, hall, h'⟩ := h.data hcall hflag
      exact ⟨lines, _, by simp only [logStep, hcall, hd, Option.map_some], ⟨_, h'⟩, rfl,
        ⟨_, h'.le, h'.printed⟩, fun _ _ _ _ => hall, by simp⟩

/-- **Every byte of the log is printed once and in order**, in every run whose steps meet the
condition. -/
theorem print_once {charLen N : Nat} {s : LogSys} (h : s.Start charLen N) (is : List LogIn)
    (hf : Sys.Along (logStep charLen) (fun s i => i.Fits N s) s is) :
    ∃ es s', Sys.run (logStep charLen) s is = some (es, s') ∧ Sys.Trace LogStepOk s es s' := by
  obtain ⟨es, s', hrun, -, ht⟩ := Sys.run_sim id (fun s i hi hp => print_step hi hp) is s
    ⟨0, h.inv⟩ hf
  exact ⟨es, s', hrun, ht⟩

/-- A section of 48 bytes with a log buffer of 8 bytes, just loaded. -/
def print8 : LogSys where
  dsp := ⟨⟨32, 40, 32, 32, 0, 0, (0, 0)⟩, fun _ => 0⟩
  logInfo := ⟨48, ⟨⟨0, 0, 0, 0, 0, 0, (0, 0)⟩, fun _ => 0⟩, 0⟩
  call := none
  stream := []
  printed := []
  since := 0

theorem print8_start : print8.Start 1 8 :=
  ⟨by constructor <;> decide, by decide, by decide, rfl, rfl, rfl, rfl, rfl, rfl⟩

/-- Three letters, seen by the first call and printed by the second. -/
theorem print_once_print8 :
    ∃ es s', Sys.run (logStep 1) print8 [.append 97, .append 98, .append 99, .head true,
        .head true, .data true true] = some (es, s') ∧
      Sys.Trace LogStepOk print8 es s' :=
  print_once print8_start _ <|
    Sys.along_cons ⟨by decide, by decide, rfl⟩ rfl <|
    Sys.along_cons ⟨by decide, by decide, rfl⟩ rfl <|
    Sys.along_cons ⟨by decide, by decide, rfl⟩ rfl <|
    Sys.along_cons rfl rfl <| Sys.along_cons rfl rfl <|
    Sys.along_cons ⟨rfl, rfl, by decide⟩ rfl trivial

theorem LogStepOk.length_le {s s' : LogSys} {i : LogIn} {lines : List (List UInt8)}
    (h : LogStepOk s i lines s') : s'.printed.flatten.length ≤ s'.stream.length := by
  obtain ⟨m, hm, he⟩ := h.once
  rw [he]
  exact (List.length_filter_le _ _).trans (List.length_take_le' _ _)

/-- A byte that comes after the first call and before the second is printed twice. -/
theorem print_twice :
    (∃ es s', Sys.run (logStep 1) print8 [.append 97, .head true, .append 98, .head true,
        .data true true, .head true, .data true true] = some (es, s') ∧
      s'.printed = [[97, 98], [98]] ∧ s'.stream = [97, 98]) ∧
    ¬ ∀ is : List LogIn, ∃ es s', Sys.run (logStep 1) print8 is = some (es, s') ∧
      Sys.Trace LogStepOk print8 es s' := by
  refine ⟨⟨_, _, rfl, rfl, rfl⟩, fun hall => ?_⟩
  obtain ⟨es, s', hrun, ht⟩ := hall [.append 97, .head true, .append 98, .head true,
    .data true true, .head true, .data true true]
  cases hrun
  obtain ⟨s, i, lines, hok⟩ := ht.last (by simp)
  exact absurd hok.length_le (by decide)

end Adf
