import FireTablet.Battery.Daemon

/-!
# Which daemon messages stay inside their memory

`Case.Fits` says of a case of the switch when the message, the reply and the structure that it
reaches have room for what it reads and writes; `Fits` says it of a whole message. A message that
fits is handled with every access in bounds, and no other is (`step_isSome`).
-/

namespace Battery.Daemon

open Buf

variable {aging : Bool} {n k : Nat}

/-- Every field of the header at its place. -/
def Hdr.of (m : Buf n) : Hdr where
  nlCmd := m.word 16
  fgdCmd := m.word 20
  fgdSubcmd := m.word 28
  fgdSubcmdPara1 := m.word 32
  fgdDataLen := m.word 36
  fgdRetDataLen := m.word 40
  identity := m.word 44

/-- When a case finds what it reads in the message, has room in the reply for what it writes and
sends, and stays in the structure that it reaches. -/
def Case.Fits (c : Case) (g : Gm aging) (m : Buf n) (k : Nat) (skb : Bool) : Prop :=
  match c with
  | .nothing => True
  | .answer size => size ≤ k
  | .store size => size ≤ k
  | .take size => Within n fgdData size
  | .ask arg size => Within n fgdData arg ∧ size ≤ k
  | .takeCust _ _ => 52 ≤ n
  | .setDaemonPid => 52 ≤ n
  | .setRtcUiSoc => 0 < g.fakeRtcSoc ∧ g.fakeRtcSoc < 100 ∨ 52 ≤ n
  | .printLog => 3 ≤ g.logLevel → 0 ∈ m.bytes.drop fgdData
  | .dumpLog => 0 ∈ m.bytes.drop fgdData
  | .sendData t => 60 + m.word 52 ≤ n ∧ 12 ≤ k ∧ Within (t.sizeof aging) (m.word 56) (m.word 52)
  | .getData t => 60 ≤ n ∧ 12 + m.word 52 ≤ k ∧
      Within (t.sizeof aging) (m.word 56) (m.word 52) ∧
      (t = .fgCustData → 8 ≤ g.logLevel → 16 ≤ k) ∧ (skb = true → 2060 ≤ k)

/-- Whether a message gets as far as its command: it is the daemon's or sets the daemon, and the
reply is allocated. -/
def Rcv.Accepted (e : Rcv) (g : Gm aging) (h : Hdr) : Prop :=
  h.identity = fgdNlMagic ∧ (g.fgdPid = e.pid ∨ h.fgdCmd ≤ setDaemonPid) ∧
    h.fgdRetDataLen ≤ fgdNlMsgMaxLen ∧
    allocated (h.fgdRetDataLen + fgdNlHdrLen) e.alloc = true

/-- A message that has its two headers, and room for its command. -/
def Fits (g : Gm aging) : Ev aging → Prop
  | .recv e =>
    let m := ofList e.bytes
    48 ≤ e.bytes.length ∧ (e.Accepted g (Hdr.of m) →
      (caseOf aging (Hdr.of m).fgdCmd).Fits g m (Hdr.of m).fgdRetDataLen e.skb)
  | _ => True

/-! ## Parts -/

theorem Hdr.read_eq (m : Buf n) : Hdr.read m = if 48 ≤ n then some (Hdr.of m) else none := by
  unfold Hdr.read
  simp only [u32_eq]
  by_cases h : 48 ≤ n
  · simp only [show 16 + 4 ≤ n by omega, show 20 + 4 ≤ n by omega, show 28 + 4 ≤ n by omega,
      show 32 + 4 ≤ n by omega, show 36 + 4 ≤ n by omega, show 40 + 4 ≤ n by omega,
      show 44 + 4 ≤ n by omega, if_true]
    rfl
  · simp only [show ¬ 44 + 4 ≤ n by omega, if_false]
    split_ifs <;> rfl

theorem store_isSome (r : Reply k) (bs : List UInt8) : (r.store bs).isSome ↔ bs.length ≤ k := by
  rw [Reply.store, Option.isSome_map, write_isSome, within_zero]

theorem store_fgdDataLen {r r' : Reply k} {bs : List UInt8} (h : r.store bs = some r') :
    r'.fgdDataLen = r.fgdDataLen := by
  obtain ⟨d, -, rfl⟩ := Option.map_eq_some_iff.1 h
  rfl

theorem answer_isSome (r : Reply k) (bs : List UInt8) : (r.answer bs).isSome ↔ bs.length ≤ k :=
  store_isSome _ _

theorem answer_fgdDataLen {r r' : Reply k} {bs : List UInt8} (h : r.answer bs = some r') :
    r'.fgdDataLen = r.fgdDataLen + bs.length :=
  store_fgdDataLen h

/-- The three numbers of a transfer are read and echoed. -/
theorem echo_isSome (m : Buf n) (d : Buf k) : (echo m d).isSome ↔ 60 ≤ n ∧ 12 ≤ k := by
  have hr (o : Nat) : (m.read (fgdData + o) 4).isSome ↔ 52 + o ≤ n := by
    rw [read_isSome, within_pos (by decide), fgdData, show 48 + o + 4 = 52 + o by omega]
  have hw (d : Buf k) (o : Nat) {p : Nat} {v : List UInt8} (hv : m.read p 4 = some v) :
      (d.write o v).isSome ↔ o + 4 ≤ k := by
    rw [write_isSome, length_read hv, within_pos (by decide)]
  refine (isSome_bind_iff (hr 0) fun v0 h0 => isSome_bind_iff (hw d 0 h0) fun d0 _ =>
    isSome_bind_iff (hr 4) fun v1 h1 => isSome_bind_iff (hw d0 4 h1) fun d1 _ =>
    isSome_bind_iff (hr 8) fun v2 h2 => hw d1 8 h2).trans ?_
  omega

/-- The size in the reply is the message's. -/
theorem echo_size {m : Buf n} {d d' : Buf k} (h : echo m d = some d') :
    d'.u32 4 = some (m.word 52) := by
  obtain ⟨v0, -, h⟩ := Option.bind_eq_some_iff.1 h
  obtain ⟨d0, -, h⟩ := Option.bind_eq_some_iff.1 h
  obtain ⟨v1, h1, h⟩ := Option.bind_eq_some_iff.1 h
  obtain ⟨d1, hd1, h⟩ := Option.bind_eq_some_iff.1 h
  obtain ⟨v2, -, h⟩ := Option.bind_eq_some_iff.1 h
  have hm : m.u32 52 = some (Bytes.le v1) := congrArg (Option.map Bytes.le) h1
  have hd : d1.read 4 4 = some v1 := by
    have := read_write_same hd1
    rwa [length_read h1] at this
  rw [u32, read_write_before h (by decide), hd, Option.map_some, u32_some hm]

theorem fgDaemonSendData_isSome (t : Table) (m : Buf n) (g : Gm aging) (r : Reply k) :
    (fgDaemonSendData t m g r).isSome ↔
      60 + m.word 52 ≤ n ∧ 12 ≤ k ∧ Within (t.sizeof aging) (m.word 56) (m.word 52) := by
  have hcopy (d : Buf k) (size idx : Nat) (hs : m.u32 52 = some size)
      (hi : m.u32 56 = some idx) :
      ((m.read 60 size).bind fun input => ((g.table t).write idx input).bind fun b =>
        some (Served.mk (g.setTable t b) { r with fgdData := d } [] [])).isSome ↔
      Within n 60 (m.word 52) ∧ Within (t.sizeof aging) (m.word 56) (m.word 52) ∧ True := by
    rw [u32_some hs, u32_some hi]
    refine isSome_bind_iff (read_isSome ..) fun input hin => ?_
    rw [← length_read hin]
    exact isSome_bind_iff (write_isSome ..) fun b _ => by simp
  refine (isSome_bind_iff (echo_isSome m r.fgdData) fun d _ =>
    isSome_bind_iff (u32_isSome m 52) fun size hs =>
    isSome_bind_iff (u32_isSome m 56) fun idx hi => hcopy d size idx hs hi).trans ?_
  simp only [Within, and_true]
  omega

theorem fgDaemonGetData_isSome (t : Table) (m : Buf n) (g : Gm aging) (r : Reply k) :
    (fgDaemonGetData t m g r).isSome ↔
      60 ≤ n ∧ 12 + m.word 52 ≤ k ∧ Within (t.sizeof aging) (m.word 56) (m.word 52) ∧
        (t = .fgCustData → 8 ≤ g.logLevel → 16 ≤ k) := by
  have hcopy (d : Buf k) (size idx : Nat) (hd : echo m r.fgdData = some d)
      (hs : d.u32 4 = some size) (hi : m.u32 56 = some idx) :
      (((g.table t).read idx size).bind fun bs => (d.write 12 bs).bind fun d =>
        (traceInput t g d).bind fun _ => some (Served.mk g { r with fgdData := d } [] [])).isSome ↔
      Within (t.sizeof aging) (m.word 56) (m.word 52) ∧ Within k 12 (m.word 52) ∧
        (t = .fgCustData ∧ 8 ≤ g.logLevel → Within k 12 4) ∧ True := by
    rw [echo_size hd, Option.some.injEq] at hs
    rw [← hs, u32_some hi]
    refine isSome_bind_iff (read_isSome ..) fun bs hbs => ?_
    rw [← length_read hbs]
    refine isSome_bind_iff (write_isSome ..) fun d' _ => isSome_bind_iff ?_ fun _ _ => by simp
    unfold traceInput
    split
    · next h => rw [read_isSome, forall_prop_of_true h]
    · next h => simp only [Option.isSome_some, h, false_imp_iff]
  refine (isSome_bind_iff (echo_isSome m r.fgdData) fun d hd =>
    isSome_bind_iff (iff_true_intro (by rw [echo_size hd]; rfl)) fun size hs =>
    isSome_bind_iff (u32_isSome m 56) fun idx hi => hcopy d size idx hd hs hi).trans ?_
  rw [show Within k 12 4 ↔ 16 ≤ k from within_pos (by decide), and_imp, and_true]
  constructor
  · rintro ⟨⟨hn, hk⟩, -, -, hS, hw, ht⟩
    simp only [Within] at hw
    exact ⟨hn, by omega, hS, ht⟩
  · rintro ⟨hn, hk, hS, ht⟩
    exact ⟨⟨hn, by omega⟩, trivial, by omega, hS, .inr hk, ht⟩

/-! ## Texts -/

theorem printLog_isSome (m : Buf n) (g : Gm aging) :
    (printLog m g).isSome ↔ (3 ≤ g.logLevel → 0 ∈ m.bytes.drop fgdData) := by
  unfold printLog
  split
  · next h =>
    rw [forall_prop_of_true h, ← strlen_isSome]
    refine isSome_bind_left fun len hl => isSome_bind ?_ fun _ _ => rfl
    exact (read_isSome ..).2 (.inr (Nat.le_of_lt (strlen_lt hl)))
  · next h => simp [h]

/-- The loop stays inside a text that the message holds. -/
theorem dumpLoop_isSome (m : Buf n) (g : Gm aging) (procLog : Buf 520) (size offset : Nat)
    (h : fgdData + offset + size ≤ n) : (dumpLoop m g procLog size offset).isSome := by
  induction size using Nat.strongRecOn generalizing procLog offset with
  | _ size ih =>
    unfold dumpLoop
    split
    · next h0 =>
      generalize hlen : (if size > 512 then 512 else size) = len
      have hle : 0 < len ∧ len ≤ 512 ∧ len ≤ size := by split at hlen <;> omega
      refine isSome_bind ((read_isSome ..).2 (.inr (by omega))) fun bs hbs => ?_
      have hbl := length_read hbs
      refine isSome_bind ((write_isSome ..).2 (.inr (by omega))) fun log1 _ => ?_
      refine isSome_bind ((write_isSome ..).2 (.inr (by simp; omega))) fun log2 _ => ?_
      exact isSome_bind (ih (size - len) (by omega) log2 _ (by omega)) fun _ _ => rfl
    · rfl

theorem dumpLog_isSome (m : Buf n) (g : Gm aging) :
    (dumpLog m g).isSome ↔ 0 ∈ m.bytes.drop fgdData := by
  rw [← strlen_isSome]
  exact isSome_bind_left fun size hs => dumpLoop_isSome m g _ size 0 (Nat.le_of_lt (strlen_lt hs))

/-! ## Commands -/

/-- A value of four bytes keeps its length. -/
theorem length_clampInt {clamp : Bool} {bs : List UInt8} (h : bs.length = 4) :
    (clampInt clamp bs).length = 4 := by
  unfold clampInt
  split
  · rfl
  · exact h

/-- How long a reply a case sends. -/
def Case.dataLen : Case → Nat
  | .answer size => size
  | .ask _ size => size
  | .getData _ => 2060
  | _ => 0

/-- What is sent has the length that the case sets. -/
theorem exec_fgdDataLen {c : Case} {value : Nat} {m : Buf n} {g : Gm aging} {r : Reply k}
    {s : Served aging k} (hr : r.fgdDataLen = 0) (h : c.exec value m g r = some s) :
    s.reply.fgdDataLen = c.dataLen := by
  have hans {size : Nat} {r' : Reply k} (h : r.answer (Bytes.ofNat size value) = some r') :
      r'.fgdDataLen = size := by
    rw [answer_fgdDataLen h, hr, Bytes.length_ofNat, Nat.zero_add]
  cases c with
  | nothing => cases h; exact hr
  | answer size =>
    obtain ⟨r', h', h⟩ := Option.bind_eq_some_iff.1 h
    cases h
    exact hans h'
  | store size =>
    obtain ⟨r', h', h⟩ := Option.bind_eq_some_iff.1 h
    cases h
    exact (store_fgdDataLen h').trans hr
  | take size =>
    obtain ⟨v, -, h⟩ := Option.bind_eq_some_iff.1 h
    cases h
    exact hr
  | ask arg size =>
    obtain ⟨v, -, h⟩ := Option.bind_eq_some_iff.1 h
    obtain ⟨r', h', h⟩ := Option.bind_eq_some_iff.1 h
    cases h
    exact hans h'
  | takeCust field clamp =>
    obtain ⟨v, -, h⟩ := Option.bind_eq_some_iff.1 h
    obtain ⟨b, -, h⟩ := Option.bind_eq_some_iff.1 h
    cases h
    exact hr
  | setDaemonPid =>
    obtain ⟨v, -, h⟩ := Option.bind_eq_some_iff.1 h
    cases h
    exact hr
  | setRtcUiSoc =>
    simp only [Case.exec] at h
    split at h
    · cases h; exact hr
    · obtain ⟨v, -, h⟩ := Option.bind_eq_some_iff.1 h
      cases h
      exact hr
  | printLog =>
    obtain ⟨v, -, h⟩ := Option.bind_eq_some_iff.1 h
    cases h
    exact hr
  | dumpLog =>
    obtain ⟨v, -, h⟩ := Option.bind_eq_some_iff.1 h
    cases h
    exact hr
  | sendData t =>
    obtain ⟨d, -, h⟩ := Option.bind_eq_some_iff.1 h
    obtain ⟨size, -, h⟩ := Option.bind_eq_some_iff.1 h
    obtain ⟨idx, -, h⟩ := Option.bind_eq_some_iff.1 h
    obtain ⟨input, -, h⟩ := Option.bind_eq_some_iff.1 h
    obtain ⟨b, -, h⟩ := Option.bind_eq_some_iff.1 h
    cases h
    exact hr
  | getData t =>
    obtain ⟨v, -, h⟩ := Option.bind_eq_some_iff.1 h
    cases h
    rfl

/-- A case runs when it fits, the length of what is sent apart. -/
theorem exec_isSome (c : Case) (value : Nat) (m : Buf n) (g : Gm aging) (r : Reply k) :
    (c.exec value m g r).isSome ↔ c.Fits g m k false := by
  have hread : (m.read fgdData 4).isSome ↔ 52 ≤ n := by
    rw [read_isSome, within_pos (by decide), fgdData]
  have hans (size : Nat) : (r.answer (Bytes.ofNat size value)).isSome ↔ size ≤ k := by
    rw [answer_isSome, Bytes.length_ofNat]
  cases c with
  | nothing => simp [Case.exec, Case.Fits]
  | answer size => exact (isSome_bind_left fun _ _ => rfl).trans (hans size)
  | store size =>
    refine (isSome_bind_left fun _ _ => rfl).trans ((store_isSome ..).trans ?_)
    rw [Bytes.length_ofNat, Case.Fits]
  | take size => exact (isSome_bind_left fun _ _ => rfl).trans (read_isSome ..)
  | ask arg size =>
    exact isSome_bind_iff (read_isSome ..) fun _ _ =>
      (isSome_bind_left fun _ _ => rfl).trans (hans size)
  | takeCust field clamp =>
    refine (isSome_bind_left fun v hv => isSome_bind ((write_isSome ..).2 (.inr ?_))
      fun _ _ => rfl).trans hread
    have := field.isLt
    rw [length_clampInt (length_read hv), Table.sizeof, customDataSize]
    omega
  | setDaemonPid => exact (isSome_bind_left fun _ _ => rfl).trans hread
  | setRtcUiSoc =>
    simp only [Case.exec, Case.Fits]
    split
    · next h => simp [h]
    · next h => exact ((isSome_bind_left fun _ _ => rfl).trans hread).trans (or_iff_right h).symm
  | printLog => exact (isSome_bind_left fun _ _ => rfl).trans (printLog_isSome m g)
  | dumpLog => exact (isSome_bind_left fun _ _ => rfl).trans (dumpLog_isSome m g)
  | sendData t => exact fgDaemonSendData_isSome t m g r
  | getData t =>
    refine (isSome_bind_left fun _ _ => rfl).trans ((fgDaemonGetData_isSome t m g r).trans ?_)
    simp [Case.Fits]

/-- A case that runs sends no more than the reply has room for when it fits. -/
theorem fits_iff (c : Case) (m : Buf n) (g : Gm aging) (skb : Bool) :
    c.Fits g m k skb ↔ c.Fits g m k false ∧ (skb = true → c.dataLen ≤ k) := by
  cases c with
  | getData t => simp [Case.Fits, Case.dataLen, and_assoc]
  | _ => simp +contextual [Case.Fits, Case.dataLen]

/-! ## Messages -/

theorem length_hdr (r : Reply k) : r.hdr.length = 32 := by
  simp [Reply.hdr]

/-- The socket buffer has room for the reply; the reply must have what is sent. -/
theorem mtkBatterySendToUser_isSome (g : Gm aging) (seq : Nat) (r : Reply k) (skb : Bool) :
    (mtkBatterySendToUser g seq r skb).isSome ↔ (skb = true → r.fgdDataLen ≤ k) := by
  cases skb with
  | false => simp [mtkBatterySendToUser]
  | true =>
    rw [forall_prop_of_true rfl, mtkBatterySendToUser, if_pos rfl]
    have hsp : 16 + (32 + r.fgdDataLen) ≤ nlmsgSpace (r.fgdDataLen + fgdNlHdrLen) := by
      rw [nlmsgSpace, fgdNlHdrLen]
      omega
    refine (isSome_bind_iff (P := True) (iff_true_intro ?_) fun buf _ => ?_).trans
      (iff_of_eq (true_and _))
    · refine (write_isSome ..).2 (.inr ?_)
      simp
      omega
    · refine (isSome_bind_left fun data hd => isSome_bind ?_ fun _ _ => rfl).trans
        ((read_isSome ..).trans within_zero)
      refine (write_isSome ..).2 (.inr ?_)
      rw [List.length_append, length_hdr, length_read hd]
      exact hsp

/-- The command of a message, and the reply. -/
theorem serve_isSome (g : Gm aging) (e : Rcv) (seq : Nat) (h : Hdr) (m : Buf n) :
    ((mtkBatteryDaemonHandler h e.value m g ⟨0, 0, 0, .zero h.fgdRetDataLen⟩).bind fun s =>
      (mtkBatterySendToUser s.gm seq s.reply e.skb).bind fun sent =>
        some (Out.mk s.stored s.printed sent, s.gm)).isSome ↔
      (caseOf aging h.fgdCmd).Fits g m h.fgdRetDataLen e.skb := by
  rw [fits_iff]
  refine isSome_bind_iff (exec_isSome ..) fun s hs => (isSome_bind_left fun _ _ => rfl).trans ?_
  rw [mtkBatterySendToUser_isSome, exec_fgdDataLen rfl hs]

theorem mtkBatteryNetlinkHandler_isSome (g : Gm aging) (e : Rcv) :
    (mtkBatteryNetlinkHandler g e).isSome ↔ Fits g (.recv e) := by
  generalize hm : ofList e.bytes = m
  have hhdr : (Hdr.read m).isSome ↔ 48 ≤ e.bytes.length := by
    rw [Hdr.read_eq]
    split <;> simp_all
  have hh {h : Hdr} (he : Hdr.read m = some h) : h = Hdr.of m := by
    rw [Hdr.read_eq] at he
    split at he
    · exact (Option.some.inj he).symm
    · cases he
  rw [mtkBatteryNetlinkHandler, Fits, hm]
  refine (isSome_bind_iff (u32_isSome m 8) fun seq _ => isSome_bind_iff hhdr fun h he => ?_).trans
    (?_ : _ ∧ 48 ≤ e.bytes.length ∧ (e.Accepted g (Hdr.of m) →
      (caseOf aging (Hdr.of m).fgdCmd).Fits g m (Hdr.of m).fgdRetDataLen e.skb) ↔ _)
  · rw [hh he]
    generalize Hdr.of m = h
    by_cases ha : e.Accepted g h
    · obtain ⟨h1, h2, h3, h4⟩ := ha
      rw [if_neg (not_not.2 h1), if_neg (fun h => h2.elim h.1 (Nat.not_le.2 h.2)),
        if_neg (Nat.not_lt.2 h3), if_neg (not_not.2 h4), forall_prop_of_true ⟨h1, h2, h3, h4⟩]
      exact serve_isSome g e seq h m
    · refine iff_of_true ?_ fun h => absurd h ha
      split
      · rfl
      · next h1 =>
        split
        · rfl
        · next h2 =>
          split
          · rfl
          · next h3 =>
            split
            · rfl
            · next h4 =>
              refine absurd ⟨not_not.1 h1, ?_, Nat.not_lt.1 h3, not_not.1 h4⟩ ha
              exact (not_and_or.1 h2).imp not_not.1 Nat.not_lt.1
  · exact and_iff_right_of_imp fun h => by omega

/-- **One message** is handled with every access in bounds exactly when it fits. -/
theorem step_isSome (g : Gm aging) (e : Ev aging) : (step g e).isSome ↔ Fits g e := by
  cases e with
  | recv e => exact mtkBatteryNetlinkHandler_isSome g e
  | _ => simp [step, Fits]

/-- **Runs**: no access leaves its block exactly when every message that is met fits. -/
theorem daemon_messages_safe (aging : Bool) (g : Gm aging) (evs : List (Ev aging)) :
    (Sys.run step g evs).isSome ↔ Sys.Along step Fits g evs :=
  Sys.run_isSome step_isSome evs g

/-! ## Messages that do not fit -/

/-- The bytes of a message with a command, the length that it declares for the reply, and data. -/
def message (cmd ret : Nat) (data : List UInt8) : List UInt8 :=
  List.replicate 16 0 ++ [0, cmd, 0, 0, 0, 0, ret, fgdNlMagic].flatMap (Bytes.ofNat 4) ++ data

/-- Process 1234 makes itself the daemon. -/
def becomeDaemon : Rcv := ⟨1234, message setDaemonPid 0 (Bytes.ofNat 4 1234), 0, (true, true), true⟩

/-- Then it asks whether there is a battery and declares a reply without data. -/
def emptyReply : Rcv := ⟨1234, message 6 0 [], 1, (true, true), true⟩

/-- Or it writes four bytes a quarter of a gigabyte behind the custom table. -/
def farIndex : Rcv :=
  ⟨1234, message 4 12 ([0, 4, 2 ^ 28, 0].flatMap (Bytes.ofNat 4)), 0, (true, true), true⟩

/-- The battery before any message. -/
def initial (aging : Bool) : Gm aging := ⟨0, -1, 7, fun t => .zero (t.sizeof aging)⟩

/-- A reply of no bytes is written to, and a structure is left by an index. -/
theorem daemon_messages_unsafe :
    (Sys.run step (initial true) [.recv becomeDaemon, .recv emptyReply]).isNone ∧
      (Sys.run step (initial true) [.recv becomeDaemon, .recv farIndex]).isNone := by
  decide +kernel

example : (Sys.run step (initial true)
    [.recv becomeDaemon, .recv { emptyReply with bytes := message 6 4 [] }]).isSome := by
  decide +kernel

end Battery.Daemon
