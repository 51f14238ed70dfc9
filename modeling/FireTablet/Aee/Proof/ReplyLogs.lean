import FireTablet.Aee.Reply
import Mathlib.Tactic.SplitIfs

/-!
# Replies stay inside their messages

A message is bounded when everything that is stored to fill it stays inside it, everything that is
read for it stays inside the record, no size is negative, and every read of the message stays
inside of what was allocated (`Msg.Bounded`). That is so for every record except where the bytes of
a thread are more than their message has room for, where the line of a process is too long, and
where the length of a log does not suit the way in which it is read (`Input.Fits`).

What the reply about a log prints always fits when what it reads is there: a line of 44 characters
takes 16 bytes of the log, for which the message has 64. So the reply is bounded exactly when the
log ends as its reader expects: after whole lines of four words, or with a terminator
(`eeGenDetailMsg_bounded_iff`).
-/

namespace Aee.Reply

open CInt Strings

/-- Nothing outside of the message and of the record is touched to fill the message, its length is
one that it has room for, and no reader is given more than it. The header is inside of the message
because the length is not negative. -/
def Msg.Bounded (m : Msg) : Prop :=
  Ok m.size m.ops ∧ m.len + 24 ≤ m.size ∧
    ∀ tmp copied pos count, Ok m.size (msgCopyToUser (some m) tmp copied pos count).ops

/-! ## Messages -/

/-- The reader trusts the length. -/
theorem msgCopyToUser_ok {m : Msg} (h0 : 0 ≤ m.len) (h : m.len + 24 ≤ m.size)
    (tmp copied : Bool) (pos count : Nat) :
    Ok m.size (msgCopyToUser (some m) tmp copied pos count).ops := by
  have hmem : Ok m.size (if tmp then [Access.read m.size 0 (m.len + 24).toNat] else []) := by
    cases tmp with
    | false => exact ok_nil
    | true => exact ok_cons.2 ⟨Buf.within_zero.2 (by omega), ok_nil⟩
  have hi : i32 (m.len + 24) ≤ m.len + 24 := by
    unfold i32
    omega
  unfold msgCopyToUser
  by_cases ht : aeCmdTypeEnd < m.cmdType
  · simpa only [ht, if_true] using hmem
  by_cases hp : i32 (m.len + 24) ≤ pos
  · simpa only [ht, hp, if_true, if_false] using hmem
  by_cases hc : i32 (m.len + 24) < (pos : Int) + count
  · simpa only [ht, hp, hc, if_true, if_false] using hmem
  have hread : Ok m.size [Access.read (if tmp then (m.len + 24).toNat else m.size) pos count] := by
    refine ok_cons.2 ⟨Or.inr ?_, ok_nil⟩
    split <;> omega
  simp only [ht, hp, hc, if_false]
  cases copied with
  | false => exact ok_append.2 ⟨hmem, hread⟩
  | true => exact ok_append.2 ⟨hmem, hread⟩

theorem bounded_iff {m : Msg} (h0 : 0 ≤ m.len) :
    m.Bounded ↔ Ok m.size m.ops ∧ m.len + 24 ≤ m.size := by
  constructor
  · rintro ⟨hok, hlen, -⟩
    exact ⟨hok, hlen⟩
  · rintro ⟨hok, hlen⟩
    exact ⟨hok, hlen, msgCopyToUser_ok h0 hlen⟩

theorem msgCreate_some {alloc : Bool} {extra : Int} (ha : alloc = true)
    (h : 0 < i32 (24 + extra)) :
    msgCreate alloc extra = some ⟨(i32 (24 + extra)).toNat, 0, 0, 0, u32 extra, []⟩ :=
  if_pos ⟨ha, h⟩

theorem msgCreate_none {alloc : Bool} {extra : Int} (h : ¬ (alloc = true ∧ 0 < i32 (24 + extra))) :
    msgCreate alloc extra = none :=
  if_neg h

/-- A message as its request is answered is bounded exactly when it is not to be had or has room for
what is stored and for its length. -/
theorem answer_bounded_iff {alloc : Bool} {extra len : Int} {cmdId : Nat} {ops : List Access} :
    (∀ m ∈ (msgCreate alloc extra).map (·.answer cmdId len ops), m.Bounded) ↔
      (alloc = true → 0 < i32 (24 + extra) →
        Ok (i32 (24 + extra)).toNat ops ∧ u32 len + 24 ≤ i32 (24 + extra)) := by
  by_cases h : alloc = true ∧ 0 < i32 (24 + extra)
  · have h0 : 0 ≤ u32 len := Int.emod_nonneg _ (by decide)
    have htop : (((i32 (24 + extra)).toNat : Nat) : Int) = i32 (24 + extra) := by omega
    rw [msgCreate_some h.1 h.2]
    simp only [Option.map_some, Option.mem_some_iff, forall_eq', Msg.answer]
    rw [bounded_iff h0]
    simp only [htop, h.1, h.2, forall_const]
  · rw [msgCreate_none h]
    constructor
    · intro _ ha hs
      exact absurd ⟨ha, hs⟩ h
    · intro _ m hm
      cases hm

/-- The same for a size that is not negative. -/
theorem answer_bounded {alloc : Bool} {extra len : Int} {cmdId : Nat} {ops : List Access}
    (h0 : 0 ≤ len) (hle : len ≤ extra) (hi : IsI32 extra) (hops : Ok (24 + extra).toNat ops) :
    ∀ m ∈ (msgCreate alloc extra).map (·.answer cmdId len ops), m.Bounded := by
  rw [answer_bounded_iff]
  intro _ hs
  have hsize : i32 (24 + extra) = 24 + extra := by
    unfold IsI32 at hi
    unfold i32 at hs ⊢
    omega
  have hlen : u32 len = len := u32_eq h0 (by unfold IsI32 at hi; omega)
  rw [hsize, hlen]
  exact ⟨hops, by omega⟩

theorem notavailMsg_bounded (alloc : Bool) : ∀ m ∈ notavailMsg alloc, m.Bounded := by
  cases alloc with
  | false =>
    intro m hm
    cases hm
  | true =>
    intro m hm
    cases hm
    exact (bounded_iff (Int.le_refl 0)).2 ⟨ok_nil, by decide⟩

theorem literalMsg_bounded (alloc : Bool) (cmdId : Nat) (text : List UInt8) {size : Nat}
    (h : size < 2147483648) : ∀ m ∈ literalMsg alloc cmdId text size, m.Bounded :=
  answer_bounded (by omega) (Int.le_refl _) (by unfold IsI32; omega)
    (strncpy_ok (by decide) (by omega))

/-! ## Kernel exceptions -/

theorem keGenModuleMsg_bounded (alloc : Bool) (o : Oops) :
    ∀ m ∈ keGenModuleMsg alloc o, m.Bounded := by
  have hlt := o.module.length_lt
  apply answer_bounded (by omega) (Int.le_refl _) (by unfold IsI32; omega)
  rw [ok_cons]
  exact ⟨o.module.read_ok, strlcpy_ok (by decide) (by omega)⟩

theorem keGenDetailMsg_bounded (alloc : Bool) (o : Oops) :
    ∀ m ∈ keGenDetailMsg alloc o, m.Bounded := by
  have hlt := o.detailLen_lt
  unfold keGenDetailMsg
  rw [answer_bounded_iff]
  intro _ hs
  have hextra : i32 ((o.detailLen : Int) + 1) = o.detailLen + 1 := by
    unfold i32 at hs ⊢
    omega
  rw [hextra] at hs ⊢
  have hsize : i32 (24 + ((o.detailLen : Int) + 1)) = o.detailLen + 25 := by
    unfold i32 at hs ⊢
    omega
  rw [hsize, u32_eq (by omega) (by omega), ok_append, ok_cons]
  refine ⟨⟨?_, Or.inr ⟨by omega, ?_⟩, ok_nil⟩, by omega⟩
  · cases o.detail with
    | none => exact ok_nil
    | some detail => exact strlcpy_ok (by decide) (by omega)
  · rw [List.length_singleton]
    omega

theorem keGenBacktraceMsg_bounded (alloc : Bool) (o : Oops) :
    ∀ m ∈ keGenBacktraceMsg alloc o, m.Bounded := by
  have hlt := o.backtrace.length_lt
  have hlen : strlen (o.backtrace.chars.take 3071 ++ [0]) = (o.backtrace.chars.take 3071).length :=
    strlen_terminated fun h => o.backtrace.nonzero (List.mem_of_mem_take h)
  apply answer_bounded
  · omega
  · rw [hlen, List.length_take]
    omega
  · decide
  · exact strlcpy_ok (by decide) (by omega)

/-- The members of the thread and its bytes are stored whole. -/
theorem userThreadMsg_bounded_iff (alloc : Bool) (cmdId : Nat) {extra : Nat} (t : UserThread)
    (h : extra < 2147483600) :
    (∀ m ∈ userThreadMsg alloc cmdId extra t, m.Bounded) ↔
      (alloc = true → t.length + 8 ≤ extra) := by
  have hlt := t.length_lt
  have hle := t.length_le
  have hsize : i32 (24 + (extra : Int)) = 24 + extra := i32_eq (by unfold IsI32; omega)
  have hlen : u32 (i32 ((t.length : Int) + 8)) = t.length + 8 := by
    unfold u32 i32
    omega
  have hhead : t.head.length = 8 := by
    rw [UserThread.head, List.length_append, Bytes.length_ofNat, Bytes.length_ofNat]
  unfold userThreadMsg
  rw [answer_bounded_iff, hsize, hlen]
  constructor
  · intro hb ha
    have := (hb ha (by omega)).2
    omega
  · intro hfit ha _
    have hfit := hfit ha
    refine ⟨?_, by omega⟩
    rw [ok_cons, ok_cons, ok_cons, ok_cons]
    refine ⟨Buf.within_zero.2 (by decide), Or.inr ⟨by decide, ?_⟩, Buf.within_zero.2 hle,
      Or.inr ⟨by decide, ?_⟩, ok_nil⟩
    · rw [hhead]
      omega
    · rw [List.length_take]
      omega

theorem keGenUserRegMsg_bounded (alloc : Bool) (o : Oops) :
    ∀ m ∈ keGenUserRegMsg alloc o, m.Bounded := by
  have hlt := o.userthreadReg_lt
  apply answer_bounded (by omega) (Int.le_refl _) (by unfold IsI32; omega)
  rw [ok_cons, ok_cons]
  exact ⟨Buf.within_zero.2 (Nat.le_refl _), Or.inr ⟨by decide, by omega⟩, ok_nil⟩

/-- The bytes of a thread are no more than there is room for behind its two members. -/
def Oops.Fits (o : Oops) (cmdId : Nat) : Prop :=
  (cmdId = aeReqUserspacebacktrace → o.userthreadStack.length ≤ 8092) ∧
    (cmdId = aeReqUserMaps → o.userthreadMaps.length ≤ 65528)

theorem keGenUserbacktraceMsg_bounded_iff (alloc : Bool) (o : Oops) :
    (∀ m ∈ keGenUserbacktraceMsg alloc o, m.Bounded) ↔
      (alloc = true → o.userthreadStack.length ≤ 8092) := by
  have h := userThreadMsg_bounded_iff alloc aeReqUserspacebacktrace o.userthreadStack
    (show 8100 < 2147483600 by decide)
  refine h.trans (imp_congr_right fun _ => ?_)
  omega

theorem keGenUsermapsMsg_bounded_iff (alloc : Bool) (o : Oops) :
    (∀ m ∈ keGenUsermapsMsg alloc o, m.Bounded) ↔
      (alloc = true → o.userthreadMaps.length ≤ 65528) := by
  have h := userThreadMsg_bounded_iff alloc aeReqUserMaps o.userthreadMaps
    (show 65536 < 2147483600 by decide)
  refine h.trans (imp_congr_right fun _ => ?_)
  omega

/-- Every other request is answered well. -/
theorem aedKeWrite_bounded {compat : Bool} {lastlog : Option Oops} {alloc : Bool} {r : Request}
    (hs : r.cmdId ≠ aeReqUserspacebacktrace) (hm : r.cmdId ≠ aeReqUserMaps) :
    ∀ m ∈ aedKeWrite compat lastlog alloc r, m.Bounded := by
  unfold aedKeWrite
  by_cases hr : r.Answered
  · rw [if_pos hr]
    cases keLogAvail compat lastlog with
    | none => exact notavailMsg_bounded alloc
    | some o =>
      simp only [hs, hm, if_false]
      split_ifs
      · exact literalMsg_bounded alloc _ _ (by decide)
      · exact literalMsg_bounded alloc _ _ (by decide)
      · exact keGenModuleMsg_bounded alloc o
      · exact keGenDetailMsg_bounded alloc o
      · exact keGenBacktraceMsg_bounded alloc o
      · exact keGenUserRegMsg_bounded alloc o
      · exact notavailMsg_bounded alloc
  · intro m hm
    rw [if_neg hr] at hm
    cases hm

theorem aedKeWrite_bounded_iff (compat : Bool) (lastlog : Option Oops) (alloc : Bool)
    (r : Request) :
    (∀ m ∈ aedKeWrite compat lastlog alloc r, m.Bounded) ↔
      (alloc = true → r.Answered → ∀ o ∈ keLogAvail compat lastlog, o.Fits r.cmdId) := by
  by_cases hother : r.cmdId ≠ aeReqUserspacebacktrace ∧ r.cmdId ≠ aeReqUserMaps
  · constructor
    · intro _ _ _ o _
      exact ⟨fun h => absurd h hother.1, fun h => absurd h hother.2⟩
    · intro _
      exact aedKeWrite_bounded hother.1 hother.2
  by_cases hr : r.Answered
  · cases hl : keLogAvail compat lastlog with
    | none => simpa [aedKeWrite, hr, hl, keGenNotavailMsg] using notavailMsg_bounded alloc
    | some o =>
      simp only [hr, forall_const, Option.mem_some_iff, forall_eq', Oops.Fits]
      rcases Decidable.not_and_iff_not_or_not.1 hother with h | h
      · have hid : r.cmdId = aeReqUserspacebacktrace := Decidable.of_not_not h
        simpa [aedKeWrite, hr, hl, hid, aeReqClass, aeReqType, aeReqModule, aeReqDetail,
          aeReqBacktrace, aeReqUserspacebacktrace, aeReqUserMaps]
          using keGenUserbacktraceMsg_bounded_iff alloc o
      · have hid : r.cmdId = aeReqUserMaps := Decidable.of_not_not h
        simpa [aedKeWrite, hr, hl, hid, aeReqClass, aeReqType, aeReqModule, aeReqDetail,
          aeReqBacktrace, aeReqUserspacebacktrace, aeReqUserReg, aeReqUserMaps]
          using keGenUsermapsMsg_bounded_iff alloc o
  · simp [aedKeWrite, hr]

/-! ## Processes -/

theorem eeGenTypeMsg_bounded (alloc : Bool) (e : Eerec) :
    ∀ m ∈ eeGenTypeMsg alloc e, m.Bounded := by
  have hlt := e.assertType.length_lt
  apply answer_bounded (by omega) (Int.le_refl _) (by unfold IsI32; omega)
  rw [ok_cons]
  exact ⟨e.assertType.read_ok, strncpy_ok (by decide) (by omega)⟩

theorem eeGenCoredumpMsg_bounded (alloc : Bool) : ∀ m ∈ eeGenCoredumpMsg alloc, m.Bounded := by
  apply answer_bounded
  · omega
  · decide
  · decide
  · exact snprintf_ok (by decide) (by decide) (by decide)

theorem length_fileText (e : Eerec) : e.fileText.length =
    17 + e.expFilename.chars.length + (decimal (i32 e.expLinenum.toNat)).length := by
  have h1 : (ascii ", filename=").length = 11 := by decide
  have h2 : (ascii ",line=").length = 6 := by decide
  rw [Eerec.fileText, List.length_append, List.length_append, List.length_append, h1, h2]
  omega

theorem length_fatalText (e : Eerec) : e.fatalText.length ≤ 36 := by
  have h1 := length_decimal_i32 e.fatal1.toNat
  have h2 := length_decimal_i32 e.fatal2.toNat
  have h3 : (ascii ", err1=").length = 7 := by decide
  have h4 : (ascii ",err2=").length = 6 := by decide
  rw [Eerec.fatalText, List.length_append, List.length_append, List.length_append, h3, h4]
  omega

/-- The line about a process fits: there is no line number, no file, or the three are short. -/
def Eerec.ProcessFits (e : Eerec) : Prop :=
  e.expLinenum = 0 ∨ e.expFilename.chars = [] ∨
    e.assertType.chars.length + e.expFilename.chars.length +
      (decimal (i32 e.expLinenum.toNat)).length ≤ 494

/-- A text of some length in the message of a process. -/
theorem process_bounded_iff (alloc : Bool) {n : Int} {k : Nat} {ops : List Access} (hn : n = k)
    (hk : k < 2147483648) (hops : Ok 536 ops) :
    (∀ m ∈ (msgCreate alloc 512).map (·.answer aeReqProcess (n + 1) ops), m.Bounded) ↔
      (alloc = true → k < 512) := by
  have hsize : i32 (24 + 512) = 536 := by decide
  have hlen : u32 (n + 1) = k + 1 := by
    subst hn
    exact u32_eq (by omega) (by omega)
  rw [answer_bounded_iff, hsize, hlen]
  refine imp_congr_right fun _ => ?_
  constructor
  · intro h
    have := (h (by decide)).2
    omega
  · intro h _
    exact ⟨hops, by omega⟩

/-- What follows the type is printed into the rest of the message. -/
theorem process_rest_ok (a : Nat) (h : a < 512) (text : List UInt8) :
    Ok 536 (snprintf (24 + (a : Int)) (512 - a) text).2 :=
  snprintf_ok (by omega) (by omega) (by omega)

theorem eeGenProcessMsg_bounded_iff (alloc : Bool) (e : Eerec) :
    (∀ m ∈ eeGenProcessMsg alloc e, m.Bounded) ↔ (alloc = true → e.ProcessFits) := by
  have ha := e.assertType.length_lt
  have hf := e.expFilename.length_lt
  by_cases hl : e.expLinenum = 0
  · have hok : Ok 536 (snprintf 24 512 e.expFilename.chars).2 :=
      snprintf_ok (by decide) (by decide) (by decide)
    have hfst := snprintf_fst 24 e.expFilename.chars (show (0 : Int) ≤ 512 by decide)
    have h := process_bounded_iff alloc hfst (by omega)
      (ok_cons.2 ⟨e.expFilename.read_ok, hok⟩)
    simp only [eeGenProcessMsg, ne_eq, hl, not_true_eq_false, if_false]
    refine h.trans (imp_congr_right fun _ => ?_)
    exact ⟨fun _ => Or.inl hl, fun _ => hf⟩
  have hok : Ok 536 (snprintf 24 32 e.assertType.chars).2 :=
    snprintf_ok (by decide) (by decide) (by decide)
  have hfst := snprintf_fst 24 e.assertType.chars (show (0 : Int) ≤ 32 by decide)
  have hreads : ∀ ops, Ok 536 ops → Ok 536 (e.expFilename.read :: e.assertType.read ::
      ((snprintf 24 32 e.assertType.chars).2 ++ ops)) := by
    intro ops hops
    rw [ok_cons, ok_cons, ok_append]
    exact ⟨e.expFilename.read_ok, e.assertType.read_ok, hok, hops⟩
  have hrest := process_rest_ok e.assertType.chars.length (by omega)
  have hroom : (0 : Int) ≤ 512 - e.assertType.chars.length := by omega
  simp only [eeGenProcessMsg, ne_eq, hl, not_false_eq_true, if_true, hfst]
  by_cases hfile : e.expFilename.chars = []
  · have hfits : e.ProcessFits := Or.inr (Or.inl hfile)
    by_cases hfatal : e.fatal1 ≠ 0 ∧ e.fatal2 ≠ 0
    · have hlen := length_fatalText e
      have h := process_bounded_iff alloc
        (Nat.cast_add e.assertType.chars.length e.fatalText.length).symm (by omega)
        (hreads _ (hrest e.fatalText))
      rw [ne_eq, ne_eq] at hfatal
      simp only [hfile, hfatal, not_true_eq_false, not_false_eq_true, and_true, if_true, if_false,
        snprintf_fst _ _ hroom]
      refine h.trans (imp_congr_right fun _ => ?_)
      exact ⟨fun _ => hfits, fun _ => by omega⟩
    · have h := process_bounded_iff alloc (Int.add_zero (e.assertType.chars.length : Int))
        (by omega) (hreads [] ok_nil)
      rw [ne_eq, ne_eq] at hfatal
      simp only [hfile, hfatal, not_true_eq_false, if_false]
      refine h.trans (imp_congr_right fun _ => ?_)
      exact ⟨fun _ => hfits, fun _ => by omega⟩
  · have hdec := length_decimal_i32 e.expLinenum.toNat
    have hlen := length_fileText e
    have h := process_bounded_iff alloc
      (Nat.cast_add e.assertType.chars.length e.fileText.length).symm (by omega)
      (hreads _ (hrest e.fileText))
    simp only [hfile, not_false_eq_true, if_true, snprintf_fst _ _ hroom]
    refine h.trans (imp_congr_right fun _ => ?_)
    simp only [Eerec.ProcessFits, hl, hfile, false_or]
    omega

/-! ## Logs -/

theorem length_wordLine (mem : List UInt8) (i : Nat) : (wordLine mem i).length = 44 := by
  have h1 : (ascii "0x").length = 2 := by decide
  have h2 : (ascii " 0x").length = 3 := by decide
  have h3 : (ascii "\n").length = 1 := by decide
  simp only [wordLine, List.length_append, length_hex8, h1, h2, h3]

theorem total_wordLines (mem : List UInt8) (k i : Nat) : total (wordLines mem k i) = 44 * k := by
  induction k generalizing i with
  | zero => rfl
  | succ k ih =>
    rw [wordLines, total_cons, ih, length_wordLine]
    omega

/-- Each line reads four whole words. -/
theorem reads_wordLines_ok {mem : List UInt8} {k i top : Nat} :
    Ok top (reads (wordLines mem k i)) ↔ k = 0 ∨ 4 * i + 16 * k ≤ mem.length := by
  induction k generalizing i with
  | zero => simp [wordLines]
  | succ k ih =>
    have hline : (Access.read mem.length (4 * i) 16).Ok top ↔ 4 * i + 16 ≤ mem.length :=
      Buf.within_pos (by decide)
    rw [wordLines, reads_cons, List.singleton_append, ok_cons, ih, hline]
    omega

/-- The lines of a log end with it when less than a word follows whole lines. -/
theorem reads_lines_ok {mem : List UInt8} {top : Nat} :
    Ok top (reads (wordLines mem (lines mem.length) 0)) ↔ mem.length % 16 < 4 := by
  rw [reads_wordLines_ok]
  unfold lines
  omega

theorem short_wordLines {mem : List UInt8} {k i : Nat} :
    ∀ p ∈ wordLines mem k i, p.text.length ≤ 600 := by
  induction k generalizing i with
  | zero =>
    intro p hp
    cases hp
  | succ k ih =>
    intro p hp
    rcases List.mem_cons.1 hp with rfl | hp
    · rw [length_wordLine]
      decide
    · exact ih p hp

theorem length_memDump {size : Nat} (clamped : Bool) :
    (memDump size clamped).text.length = 17 + (decimal size).length := by
  have h1 : (ascii "== MEM DUMP(").length = 12 := by decide
  have h2 : (ascii ") ==\n").length = 5 := by decide
  simp only [memDump, List.length_append, h1, h2]
  omega

/-! ## The log of the modem -/

theorem CcciLog.total_prints (c : CcciLog) : total c.prints =
    32 + (decimal c.bytes.length).length + 44 * lines c.bytes.length := by
  have htitle : (ascii "== CCCI LOG ==\n").length = 15 := by decide
  rw [CcciLog.prints, total_cons, total_append, total_wordLines, total_cons, total_nil,
    length_memDump, htitle]
  omega

theorem CcciLog.reads_prints (c : CcciLog) {top : Nat} :
    Ok top (reads c.prints) ↔ c.bytes.length % 16 < 4 := by
  rw [CcciLog.prints, reads_cons, reads_append, List.nil_append, ok_append, reads_lines_ok]
  simp [memDump]

theorem CcciLog.short_prints (c : CcciLog) : ∀ p ∈ c.prints, p.text.length ≤ 600 := by
  have hdec := length_decimal_nat c.length_lt
  intro p hp
  rcases List.mem_cons.1 hp with rfl | hp
  · decide
  rcases List.mem_append.1 hp with hp | hp
  · exact short_wordLines p hp
  · cases List.mem_singleton.1 hp
    rw [length_memDump]
    omega

/-! ## The log of the exception -/

section

variable (sscanf : List UInt8 → Option Int) (aeeDumpCcciDebugInfo : Int → Option CcciLog)

/-- The log ends where its reader stops: as a text at a terminator, as words behind whole lines. -/
def Eerec.LogFits (e : Eerec) : Prop :=
  if e.Is "md32" then 0 ∈ e.eeLog
  else e.eeLog.length % 16 < 4 ∧ e.ccciLogSize sscanf aeeDumpCcciDebugInfo % 16 < 4 ∧
    (e.eeLog.length + e.ccciLogSize sscanf aeeDumpCcciDebugInfo) * 4 + 128 < 2147483648

end

/-- A message of which the length is that of texts printed one behind the other. -/
theorem prints_bounded_iff (alloc : Bool) (cmdId : Nat) {size : Int} {ps : List Print}
    {before : List Access} (hs : IsI32 size) (hbefore : ∀ top, Ok top before)
    (hlen : ∀ p ∈ ps, p.clamped = false → p.text.length ≤ 600) :
    (∀ m ∈ (msgCreate alloc size).map (·.answer cmdId ((printAll 24 size ps 0).1 + 1)
        (before ++ (printAll 24 size ps 0).2)), m.Bounded) ↔
      (alloc = true → 0 < i32 (24 + size) →
        Ok (i32 (24 + size)).toNat (reads ps) ∧ (total ps : Int) + 1 ≤ size) := by
  rw [answer_bounded_iff]
  refine imp_congr_right fun _ => imp_congr_right fun hpos => ?_
  have hsize : i32 (24 + size) = 24 + size := by
    unfold IsI32 at hs
    unfold i32 at hpos ⊢
    omega
  rw [hsize] at hpos ⊢
  have h := printAll_fits_iff (show (0 : Int) ≤ 24 by decide)
    (show 24 + size ≤ ((24 + size).toNat : Nat) by omega) hs.2 0 (by omega) hlen
  have hzero : i32 ((0 : Nat) : Int) = 0 := by decide
  rw [hzero, Nat.cast_zero, Int.zero_add] at h
  rw [ok_append, ← h]
  have hle : ∀ len : Int, u32 len + 24 ≤ 24 + size ↔ u32 len ≤ size := fun len => by omega
  rw [hle, and_assoc]
  exact ⟨fun hok => hok.2, fun hok => ⟨hbefore _, hok⟩⟩

section

variable (sscanf : List UInt8 → Option Int) (aeeDumpCcciDebugInfo : Int → Option CcciLog)

/-- What is printed of a log as a text: its terminator has to be there. -/
theorem text_fits_iff {e : Eerec} (h : e.Is "md32") {top : Nat}
    (hpos : 0 < i32 (24 + e.msgsize sscanf aeeDumpCcciDebugInfo)) :
    (Ok top (reads (e.detailPrints sscanf aeeDumpCcciDebugInfo)) ∧
        (total (e.detailPrints sscanf aeeDumpCcciDebugInfo) : Int) + 1 ≤
          e.msgsize sscanf aeeDumpCcciDebugInfo) ↔ 0 ∈ e.eeLog := by
  have hlt := e.eeLog_lt
  have hdec := length_decimal_nat e.eePhySize_lt
  have htitle : (ascii "== EXTERNAL EXCEPTION LOG ==\n").length = 29 := by decide
  have hend : (ascii "\n").length = 1 := by decide
  have hccci : e.ccciLog sscanf aeeDumpCcciDebugInfo = none := if_pos h
  have hsize : e.msgsize sscanf aeeDumpCcciDebugInfo = e.eeLog.length + 128 := by
    rw [Eerec.msgsize, if_pos h] at hpos ⊢
    unfold i32 at hpos ⊢
    omega
  rw [hsize, Eerec.detailPrints, Eerec.logPrints, if_pos h, hccci, List.singleton_append,
    reads_cons, reads_cons, total_cons, total_cons, length_memDump, ← strlen_lt_iff]
  simp only [List.length_append, List.length_take, htitle, hend, reads_nil, total_nil]
  have hread : (Access.read e.eeLog.length 0 (strlen e.eeLog + 1)).Ok top ↔
      strlen e.eeLog < e.eeLog.length := Buf.within_zero
  rw [List.singleton_append, ok_cons, hread]
  constructor
  · exact fun hok => hok.1.1
  · intro hread
    exact ⟨⟨hread, by simp [memDump]⟩, by omega⟩

/-- What is printed of the log of the modem behind the log of the exception. -/
theorem modem_prints (e : Eerec) (top : Nat) :
    ∃ ps, e.detailPrints sscanf aeeDumpCcciDebugInfo =
        e.logPrints ++ memDump e.eePhySize true :: ps ∧
      (Ok top (reads ps) ↔ e.ccciLogSize sscanf aeeDumpCcciDebugInfo % 16 < 4) ∧
      44 * lines (e.ccciLogSize sscanf aeeDumpCcciDebugInfo) ≤ total ps ∧
      total ps ≤ 44 * lines (e.ccciLogSize sscanf aeeDumpCcciDebugInfo) + 42 ∧
      (∀ p ∈ ps, p.text.length ≤ 600) ∧
      e.ccciLogSize sscanf aeeDumpCcciDebugInfo < 2147483648 := by
  unfold Eerec.detailPrints Eerec.ccciLogSize
  cases e.ccciLog sscanf aeeDumpCcciDebugInfo with
  | none =>
    refine ⟨[], rfl, by simp, Nat.le_refl 0, by decide, ?_, by decide⟩
    intro p hp
    cases hp
  | some c =>
    have hdec := length_decimal_nat c.length_lt
    have htotal := c.total_prints
    refine ⟨c.prints, rfl, c.reads_prints, ?_, ?_, c.short_prints, c.length_lt⟩
    · show 44 * lines c.bytes.length ≤ total c.prints
      omega
    · show total c.prints ≤ 44 * lines c.bytes.length + 42
      omega

/-- What is printed of a log as words: it has to end behind whole lines. Then the message has more
room than the lines take, unless its size has wrapped, when it never has enough. -/
theorem words_fits_iff {e : Eerec} (h : ¬ e.Is "md32") {top : Nat}
    (hpos : 0 < i32 (24 + e.msgsize sscanf aeeDumpCcciDebugInfo)) :
    (Ok top (reads (e.detailPrints sscanf aeeDumpCcciDebugInfo)) ∧
        (total (e.detailPrints sscanf aeeDumpCcciDebugInfo) : Int) + 1 ≤
          e.msgsize sscanf aeeDumpCcciDebugInfo) ↔
      e.eeLog.length % 16 < 4 ∧ e.ccciLogSize sscanf aeeDumpCcciDebugInfo % 16 < 4 ∧
        (e.eeLog.length + e.ccciLogSize sscanf aeeDumpCcciDebugInfo) * 4 + 128 < 2147483648 := by
  have hlt := e.eeLog_lt
  have hdec := length_decimal_nat e.eePhySize_lt
  have htitle : (ascii "== EXTERNAL EXCEPTION LOG ==\n").length = 29 := by decide
  obtain ⟨ps, hps, hreads, hge, hle, -, hc⟩ := modem_prints sscanf aeeDumpCcciDebugInfo e top
  rw [Eerec.msgsize, if_neg h] at hpos
  rw [hps, Eerec.logPrints, if_neg h, reads_append, reads_cons, reads_cons, total_append,
    total_cons, total_cons, total_wordLines, length_memDump, htitle, List.nil_append,
    Eerec.msgsize, if_neg h]
  simp only [ok_append, reads_lines_ok, hreads, memDump, ok_nil, true_and, and_assoc]
  refine and_congr_right fun hs => and_congr_right fun hm => ?_
  generalize e.ccciLogSize sscanf aeeDumpCcciDebugInfo = c at hpos hge hle hc hm ⊢
  unfold lines at hge hle ⊢
  unfold i32 at hpos ⊢
  omega

/-- Only the print of a log as a text may be long, and that one is clamped. -/
theorem short_detailPrints (e : Eerec) :
    ∀ p ∈ e.detailPrints sscanf aeeDumpCcciDebugInfo, p.clamped = false → p.text.length ≤ 600 := by
  obtain ⟨ps, hps, -, -, -, hshort, -⟩ := modem_prints sscanf aeeDumpCcciDebugInfo e 0
  rw [hps]
  intro p hp hc
  rcases List.mem_append.1 hp with hp | hp
  · unfold Eerec.logPrints at hp
    split at hp
    · cases List.mem_singleton.1 hp
      cases hc
    · rcases List.mem_cons.1 hp with rfl | hp
      · decide
      · exact short_wordLines p hp
  · rcases List.mem_cons.1 hp with rfl | hp
    · cases hc
    · exact hshort p hp

theorem isI32_msgsize (e : Eerec) : IsI32 (e.msgsize sscanf aeeDumpCcciDebugInfo) := by
  unfold Eerec.msgsize
  split
  · exact isI32_i32 _
  · exact isI32_i32 _

/-- The reply with a log is bounded exactly when it is not to be had or the log ends where its
reader stops. -/
theorem eeGenDetailMsg_bounded_iff (alloc : Bool) (e : Eerec) :
    (∀ m ∈ eeGenDetailMsg sscanf aeeDumpCcciDebugInfo alloc e, m.Bounded) ↔
      (alloc = true → 0 < i32 (24 + e.msgsize sscanf aeeDumpCcciDebugInfo) →
        e.LogFits sscanf aeeDumpCcciDebugInfo) := by
  have hbefore : ∀ top, Ok top
      (e.assertType.read :: if e.Is "modem" then [e.expFilename.read] else []) := by
    intro top
    split
    · simp
    · simp
  have h := prints_bounded_iff alloc aeReqDetail
    (isI32_msgsize sscanf aeeDumpCcciDebugInfo e) hbefore
    (short_detailPrints sscanf aeeDumpCcciDebugInfo e)
  refine h.trans (imp_congr_right fun _ => imp_congr_right fun hpos => ?_)
  unfold Eerec.LogFits
  by_cases hmd : e.Is "md32"
  · rw [if_pos hmd]
    exact text_fits_iff sscanf aeeDumpCcciDebugInfo hmd hpos
  · rw [if_neg hmd]
    exact words_fits_iff sscanf aeeDumpCcciDebugInfo hmd hpos

/-! ## Requests -/

/-- The record suits the request. -/
def Eerec.Fits (e : Eerec) (cmdId : Nat) : Prop :=
  (cmdId = aeReqProcess → e.ProcessFits) ∧
    (cmdId = aeReqDetail → 0 < i32 (24 + e.msgsize sscanf aeeDumpCcciDebugInfo) →
      e.LogFits sscanf aeeDumpCcciDebugInfo)

/-- Every other request is answered well. -/
theorem aedEeWrite_bounded {e : Eerec} {alloc : Bool} {r : Request} (hp : r.cmdId ≠ aeReqProcess)
    (hd : r.cmdId ≠ aeReqDetail) :
    ∀ m ∈ aedEeWrite sscanf aeeDumpCcciDebugInfo (some e) alloc r, m.Bounded := by
  unfold aedEeWrite
  by_cases hr : r.Answered
  · simp only [hr, hp, hd, if_true, if_false]
    split_ifs
    · exact literalMsg_bounded alloc _ _ (by decide)
    · exact eeGenTypeMsg_bounded alloc e
    · exact notavailMsg_bounded alloc
    · exact eeGenCoredumpMsg_bounded alloc
    · exact notavailMsg_bounded alloc
  · intro m hm
    simp only [hr, if_false] at hm
    cases hm

theorem aedEeWrite_bounded_iff (e : Eerec) (alloc : Bool) (r : Request) :
    (∀ m ∈ aedEeWrite sscanf aeeDumpCcciDebugInfo (some e) alloc r, m.Bounded) ↔
      (alloc = true → r.Answered → e.Fits sscanf aeeDumpCcciDebugInfo r.cmdId) := by
  by_cases hother : r.cmdId ≠ aeReqProcess ∧ r.cmdId ≠ aeReqDetail
  · constructor
    · intro _ _ _
      exact ⟨fun h => absurd h hother.1, fun h => absurd h hother.2⟩
    · intro _
      exact aedEeWrite_bounded sscanf aeeDumpCcciDebugInfo hother.1 hother.2
  by_cases hr : r.Answered
  · simp only [hr, forall_const, Eerec.Fits]
    rcases Decidable.not_and_iff_not_or_not.1 hother with h | h
    · have hid : r.cmdId = aeReqProcess := Decidable.of_not_not h
      simpa [aedEeWrite, hr, hid, aeReqClass, aeReqType, aeReqDetail, aeReqProcess]
        using eeGenProcessMsg_bounded_iff alloc e
    · have hid : r.cmdId = aeReqDetail := Decidable.of_not_not h
      simpa [aedEeWrite, hr, hid, aeReqClass, aeReqType, aeReqDetail, aeReqProcess]
        using eeGenDetailMsg_bounded_iff sscanf aeeDumpCcciDebugInfo alloc e
  · simp [aedEeWrite, hr]

end

/-- A request to one of the two devices, with the record there is and whether there is memory. -/
inductive Input where
  | ke (compat : Bool) (lastlog : Option Oops) (alloc : Bool) (r : Request)
  | ee (eerec : Option Eerec) (alloc : Bool) (r : Request)

section

variable (sscanf : List UInt8 → Option Int) (aeeDumpCcciDebugInfo : Int → Option CcciLog)

/-- The message that answers a request. -/
def Input.reply : Input → Option Msg
  | .ke compat lastlog alloc r => aedKeWrite compat lastlog alloc r
  | .ee eerec alloc r => aedEeWrite sscanf aeeDumpCcciDebugInfo eerec alloc r

/-- The record that is asked for suits the request, if there is memory for the answer. -/
def Input.Fits : Input → Prop
  | .ke compat lastlog alloc r =>
    alloc = true → r.Answered → ∀ o ∈ keLogAvail compat lastlog, o.Fits r.cmdId
  | .ee eerec alloc r =>
    alloc = true → r.Answered → ∀ e ∈ eerec, e.Fits sscanf aeeDumpCcciDebugInfo r.cmdId

/-- The answer to a request is bounded exactly when the record suits the request. -/
theorem reply_bounded_iff (i : Input) :
    (∀ m ∈ i.reply sscanf aeeDumpCcciDebugInfo, m.Bounded) ↔
      i.Fits sscanf aeeDumpCcciDebugInfo := by
  cases i with
  | ke compat lastlog alloc r => exact aedKeWrite_bounded_iff compat lastlog alloc r
  | ee eerec alloc r =>
    cases eerec with
    | none => simp [Input.reply, Input.Fits, aedEeWrite]
    | some e =>
      refine (aedEeWrite_bounded_iff sscanf aeeDumpCcciDebugInfo e alloc r).trans ?_
      simp only [Input.Fits, Option.mem_some_iff, forall_eq']

end

/-- A record of an external exception with a log of 20 bytes. -/
def oddLog : Eerec where
  assertType := ⟨ascii "combo", by decide, by decide⟩
  expFilename := ⟨[], by decide, by decide⟩
  expLinenum := 0
  fatal1 := 0
  fatal2 := 0
  eeLog := List.replicate 20 1
  eePhySize := 0
  eeLog_lt := by decide
  eePhySize_lt := by decide

/-- The second line of a log of 20 bytes is read from behind it. -/
theorem oddLog_not_bounded :
    ¬ ∀ m ∈ (Input.ee (some oddLog) true ⟨24, true, aeReq, aeReqDetail⟩).reply
      (fun _ => none) (fun _ => none), m.Bounded := by
  intro h
  have hdetail := (aedEeWrite_bounded_iff (fun _ => none) (fun _ => none) oddLog true
    ⟨24, true, aeReq, aeReqDetail⟩).1 h rfl (by decide)
  have hfits := hdetail.2 rfl (by decide)
  exact absurd hfits.1 (by decide)

end Aee.Reply
