import FireTablet.Battery.Proof.DaemonSafe
import Mathlib.Data.List.TakeDrop

/-!
# What the daemon's replies carry

`Case.stored` are the bytes that a case of the switch stores in the reply (`exec_stored`). What is
sent are the first bytes of the reply, as many as its length says (`reply_data`), and behind what
was stored there are only zeros.
-/

namespace Battery.Daemon

open Buf

variable {aging : Bool} {n k : Nat}

/-! ## Storing -/

/-- A write behind what is at the start of a block. -/
theorem write_behind {b b' : Buf n} {pre rest bs : List UInt8} (hb : b.bytes = pre ++ rest)
    (h : b.write pre.length bs = some b') : b'.bytes = pre ++ bs ++ rest.drop bs.length := by
  obtain ⟨-, he⟩ := bytes_write h
  rw [he, hb, List.take_left, List.append_assoc, ← List.drop_drop, List.drop_left]

theorem read_eq {b : Buf n} {off len : Nat} {bs : List UInt8} (h : b.read off len = some bs) :
    bs = (b.bytes.drop off).take len := by
  unfold Buf.read at h
  split at h
  · exact (Option.some.inj h).symm
  · cases h

theorem store_bytes {r r' : Reply k} {bs : List UInt8} (h : r.store bs = some r') :
    r'.fgdData.bytes = bs ++ r.fgdData.bytes.drop bs.length := by
  obtain ⟨d, hd, rfl⟩ := Option.map_eq_some_iff.1 h
  exact write_behind (List.nil_append _).symm hd

theorem answer_bytes {r r' : Reply k} {bs : List UInt8} (h : r.answer bs = some r') :
    r'.fgdData.bytes = bs ++ r.fgdData.bytes.drop bs.length :=
  store_bytes (r := { r with fgdDataLen := r.fgdDataLen + bs.length }) h

/-- The numbers of a transfer in the message. -/
def transfer (m : Buf n) : List UInt8 := (m.bytes.drop fgdData).take 12

theorem length_transfer {m : Buf n} (hn : 60 ≤ n) : (transfer m).length = 12 := by
  have hlen := m.length_eq
  rw [transfer, List.length_take, List.length_drop, fgdData]
  omega

theorem echo_bytes {m : Buf n} {d d' : Buf k} (h : echo m d = some d') :
    d'.bytes = transfer m ++ d.bytes.drop 12 ∧ (transfer m).length = 12 := by
  obtain ⟨v0, h0, h⟩ := Option.bind_eq_some_iff.1 h
  obtain ⟨d0, hd0, h⟩ := Option.bind_eq_some_iff.1 h
  obtain ⟨v1, h1, h⟩ := Option.bind_eq_some_iff.1 h
  obtain ⟨d1, hd1, h⟩ := Option.bind_eq_some_iff.1 h
  obtain ⟨v2, h2, h⟩ := Option.bind_eq_some_iff.1 h
  have hl0 := length_read h0
  have hl1 := length_read h1
  have hl2 := length_read h2
  have hb0 : d0.bytes = v0 ++ d.bytes.drop 4 := by
    rw [← hl0]
    exact write_behind (List.nil_append _).symm hd0
  have hb1 : d1.bytes = v0 ++ v1 ++ d.bytes.drop 8 := by
    rw [← hl0] at hd1
    rw [write_behind hb0 hd1, hl1, List.drop_drop]
  have hb2 : d'.bytes = v0 ++ v1 ++ v2 ++ d.bytes.drop 12 := by
    have hlen : (v0 ++ v1).length = 8 := by rw [List.length_append, hl0, hl1]
    rw [← hlen] at h
    rw [write_behind hb1 h, hl2, List.drop_drop]
  have htransfer : transfer m = v0 ++ v1 ++ v2 := by
    have hsplit : transfer m = (m.bytes.drop fgdData).take 4 ++
        ((m.bytes.drop (fgdData + 4)).take 4 ++ (m.bytes.drop (fgdData + 8)).take 4) := by
      unfold transfer
      rw [show 12 = 4 + (4 + 4) from rfl, List.take_add, List.take_add, List.drop_drop,
        List.drop_drop]
    rw [hsplit, ← read_eq h0, ← read_eq h1, ← read_eq h2, List.append_assoc]
  refine ⟨htransfer ▸ hb2, ?_⟩
  rw [htransfer, List.length_append, List.length_append, hl0, hl1, hl2]

/-! ## Commands -/

/-- The bytes of a structure that a transfer names. -/
def slice (t : Table) (m : Buf n) (g : Gm aging) : List UInt8 :=
  ((g.table t).bytes.drop (m.word 56)).take (m.word 52)

/-- What a case stores in the reply. -/
def Case.stored (c : Case) (value : Nat) (m : Buf n) (g : Gm aging) : List UInt8 :=
  match c with
  | .answer size => Bytes.ofNat size value
  | .store size => Bytes.ofNat size value
  | .ask _ size => Bytes.ofNat size value
  | .sendData _ => transfer m
  | .getData t => transfer m ++ slice t m g
  | _ => []

/-- A case stores its bytes at the start of the reply. -/
theorem exec_stored {c : Case} {value : Nat} {m : Buf n} {g : Gm aging} {r : Reply k}
    {s : Served aging k} (h : c.exec value m g r = some s) :
    s.reply.fgdData.bytes =
      c.stored value m g ++ r.fgdData.bytes.drop (c.stored value m g).length := by
  cases c with
  | nothing => cases h; rfl
  | answer size =>
    obtain ⟨r', h', h⟩ := Option.bind_eq_some_iff.1 h
    cases h
    exact answer_bytes h'
  | store size =>
    obtain ⟨r', h', h⟩ := Option.bind_eq_some_iff.1 h
    cases h
    exact store_bytes h'
  | take size =>
    obtain ⟨v, -, h⟩ := Option.bind_eq_some_iff.1 h
    cases h
    rfl
  | ask arg size =>
    obtain ⟨v, -, h⟩ := Option.bind_eq_some_iff.1 h
    obtain ⟨r', h', h⟩ := Option.bind_eq_some_iff.1 h
    cases h
    exact answer_bytes h'
  | takeCust field clamp =>
    obtain ⟨v, -, h⟩ := Option.bind_eq_some_iff.1 h
    obtain ⟨b, -, h⟩ := Option.bind_eq_some_iff.1 h
    cases h
    rfl
  | setDaemonPid =>
    obtain ⟨v, -, h⟩ := Option.bind_eq_some_iff.1 h
    cases h
    rfl
  | setRtcUiSoc =>
    simp only [Case.exec] at h
    split at h
    · cases h; rfl
    · obtain ⟨v, -, h⟩ := Option.bind_eq_some_iff.1 h
      cases h
      rfl
  | printLog =>
    obtain ⟨v, -, h⟩ := Option.bind_eq_some_iff.1 h
    cases h
    rfl
  | dumpLog =>
    obtain ⟨v, -, h⟩ := Option.bind_eq_some_iff.1 h
    cases h
    rfl
  | sendData t =>
    obtain ⟨d, hd, h⟩ := Option.bind_eq_some_iff.1 h
    obtain ⟨size, -, h⟩ := Option.bind_eq_some_iff.1 h
    obtain ⟨idx, -, h⟩ := Option.bind_eq_some_iff.1 h
    obtain ⟨input, -, h⟩ := Option.bind_eq_some_iff.1 h
    obtain ⟨b, -, h⟩ := Option.bind_eq_some_iff.1 h
    cases h
    obtain ⟨hbytes, hlen⟩ := echo_bytes hd
    rw [Case.stored, hlen]
    exact hbytes
  | getData t =>
    obtain ⟨v, hv, h⟩ := Option.bind_eq_some_iff.1 h
    cases h
    obtain ⟨d, hd, h⟩ := Option.bind_eq_some_iff.1 hv
    obtain ⟨size, hs, h⟩ := Option.bind_eq_some_iff.1 h
    obtain ⟨idx, hi, h⟩ := Option.bind_eq_some_iff.1 h
    obtain ⟨bs, hbs, h⟩ := Option.bind_eq_some_iff.1 h
    obtain ⟨d', hd', h⟩ := Option.bind_eq_some_iff.1 h
    obtain ⟨x, -, h⟩ := Option.bind_eq_some_iff.1 h
    cases h
    obtain ⟨hbytes, hlen⟩ := echo_bytes hd
    rw [echo_size hd, Option.some.injEq] at hs
    have hslice : bs = slice t m g := by
      rw [read_eq hbs, slice, hs, u32_some hi]
      rfl
    rw [← hlen] at hd'
    rw [Case.stored, List.length_append, hlen, ← hslice, ← List.drop_drop]
    exact write_behind hbytes hd'

/-- A case that reports a piece of a structure leaves the battery as it is. -/
theorem getData_gm {t : Table} {value : Nat} {m : Buf n} {g : Gm aging} {r : Reply k}
    {s : Served aging k} (h : (Case.getData t).exec value m g r = some s) : s.gm = g := by
  obtain ⟨v, hv, h⟩ := Option.bind_eq_some_iff.1 h
  cases h
  obtain ⟨d, -, h⟩ := Option.bind_eq_some_iff.1 hv
  obtain ⟨size, -, h⟩ := Option.bind_eq_some_iff.1 h
  obtain ⟨idx, -, h⟩ := Option.bind_eq_some_iff.1 h
  obtain ⟨bs, -, h⟩ := Option.bind_eq_some_iff.1 h
  obtain ⟨d', -, h⟩ := Option.bind_eq_some_iff.1 h
  obtain ⟨x, -, h⟩ := Option.bind_eq_some_iff.1 h
  cases h
  rfl

/-! ## Messages -/

/-- The data of a message that is sent, as its header counts them. -/
def Sent.data (s : Sent) : List UInt8 :=
  (s.bytes.drop fgdData).take (Bytes.le ((s.bytes.drop 36).take 4))

/-- What is sent is the start of the reply. -/
theorem mtkBatterySendToUser_data (g : Gm aging) (seq : Nat) {r : Reply k}
    (hlen : r.fgdDataLen ≤ k) (hshort : r.fgdDataLen < 2 ^ 32) :
    ∃ sent, mtkBatterySendToUser g seq r true = some (some sent) ∧
      sent.data = r.fgdData.bytes.take r.fgdDataLen := by
  obtain ⟨o, ho⟩ := Option.isSome_iff_exists.1
    ((mtkBatterySendToUser_isSome g seq r true).2 fun _ => hlen)
  rw [ho]
  rw [mtkBatterySendToUser, if_pos rfl] at ho
  obtain ⟨buf, hbuf, ho⟩ := Option.bind_eq_some_iff.1 ho
  obtain ⟨data, hdata, ho⟩ := Option.bind_eq_some_iff.1 ho
  obtain ⟨buf', hbuf', ho⟩ := Option.bind_eq_some_iff.1 ho
  cases ho
  refine ⟨_, rfl, ?_⟩
  have hnl : ([16 + (r.fgdDataLen + fgdNlHdrLen), 0, seq, g.fgdPid].flatMap
      (Bytes.ofNat 4)).length = 16 := by simp
  have hb := write_behind (List.nil_append _).symm hbuf
  rw [← hnl] at hbuf'
  have hb' := write_behind hb hbuf'
  rw [List.nil_append, List.append_assoc] at hb'
  generalize hrest : List.drop (r.hdr ++ data).length _ = rest at hb'
  have hdata' : data = r.fgdData.bytes.take r.fgdDataLen := read_eq hdata
  have hhdr : r.hdr = [r.nlCmd, r.fgdCmd, 0, 0, 0].flatMap (Bytes.ofNat 4) ++
      (Bytes.ofNat 4 r.fgdDataLen ++ [0, fgdNlMagic].flatMap (Bytes.ofNat 4)) := rfl
  have hcount : Bytes.le ((buf'.bytes.drop 36).take 4) = r.fgdDataLen := by
    rw [hb', hhdr, List.append_assoc, List.append_assoc, ← List.append_assoc,
      List.drop_left' (by simp), List.append_assoc, List.take_left' (Bytes.length_ofNat _ _),
      Bytes.le_ofNat]
    exact Nat.mod_eq_of_lt (by omega)
  unfold Sent.data
  rw [hcount, hb', List.append_assoc, ← List.append_assoc, List.drop_left' ?_,
    List.take_left' (length_read hdata), hdata']
  rw [List.length_append, hnl, length_hdr]
  rfl

/-- A received message as a block. -/
def Rcv.msg (e : Rcv) : Buf e.bytes.length := ofList e.bytes

/-- Its case of the switch. -/
def Rcv.case (aging : Bool) (e : Rcv) : Case := caseOf aging (Hdr.of e.msg).fgdCmd

/-- The length that it requests for the reply. -/
def Rcv.ret (e : Rcv) : Nat := (Hdr.of e.msg).fgdRetDataLen

/-- What its command stores in the reply. -/
def Rcv.stored (e : Rcv) (g : Gm aging) : List UInt8 := (e.case aging).stored e.value e.msg g

/-- A message with a command that is served and room in the reply, and memory for the reply. -/
structure Rcv.Answered (e : Rcv) (g : Gm aging) : Prop where
  fits : Fits g (.recv e)
  accepted : e.Accepted g (Hdr.of e.msg)
  skb : e.skb = true

section
variable {e : Rcv} {g : Gm aging} (h : e.Answered g)
include h

theorem Rcv.Answered.case_fits : (e.case aging).Fits g e.msg e.ret true := by
  have hfits := h.fits.2 h.accepted
  rwa [h.skb] at hfits

theorem Rcv.Answered.dataLen_le : (e.case aging).dataLen ≤ e.ret :=
  ((fits_iff _ _ _ _).1 h.case_fits).2 rfl

theorem Rcv.Answered.ret_le : e.ret ≤ 9200 := h.accepted.2.2.1

/-- **The data that is sent** are the bytes stored and zeros, as many as the length says. -/
theorem reply_data :
    ∃ out g' sent, mtkBatteryNetlinkHandler g e = some (out, g') ∧ out.sent = some sent ∧
      sent.data = (e.stored g ++ List.replicate (e.ret - (e.stored g).length) 0).take
        (e.case aging).dataLen ∧
      ∀ t, e.case aging = .getData t → g' = g := by
  have hlen := h.fits.1
  obtain ⟨hid, hpid, hret, halloc⟩ := h.accepted
  have hread : Hdr.read e.msg = some (Hdr.of e.msg) := by
    rw [Hdr.read_eq, if_pos hlen]
  have hseq : e.msg.u32 8 = some (e.msg.word 8) := by
    rw [u32_eq, if_pos (by omega)]
  obtain ⟨s, hs⟩ := Option.isSome_iff_exists.1 <|
    (exec_isSome (e.case aging) e.value e.msg g ⟨(Hdr.of e.msg).nlCmd, (Hdr.of e.msg).fgdCmd, 0,
      .zero e.ret⟩).2 ((fits_iff _ _ _ _).1 h.case_fits).1
  have hserve : mtkBatteryDaemonHandler (Hdr.of e.msg) e.value e.msg g
      ⟨0, 0, 0, .zero (Hdr.of e.msg).fgdRetDataLen⟩ = some s := hs
  have hcount := exec_fgdDataLen rfl hs
  have hstored := exec_stored hs
  have hle := h.dataLen_le
  have hmax := h.ret_le
  obtain ⟨sent, hsent, hdata⟩ := mtkBatterySendToUser_data s.gm (e.msg.word 8)
    (r := s.reply) (by rw [hcount]; exact hle) (by rw [hcount]; omega)
  refine ⟨⟨s.stored, s.printed, some sent⟩, s.gm, sent, ?_, rfl, ?_, fun t ht => ?_⟩
  · unfold mtkBatteryNetlinkHandler
    dsimp only
    rw [show ofList e.bytes = e.msg from rfl, hseq, hread]
    show (if _ then _ else _) = _
    rw [if_neg (not_not.2 hid), if_neg (fun h => hpid.elim h.1 (Nat.not_le.2 h.2)),
      if_neg (Nat.not_lt.2 hret), if_neg (not_not.2 halloc), hserve]
    show (mtkBatterySendToUser s.gm (e.msg.word 8) s.reply e.skb).bind _ = _
    rw [h.skb, hsent]
    rfl
  · rw [hdata, hcount, hstored]
    show List.take _ (_ ++ List.drop _ (List.replicate e.ret 0)) = _
    rw [List.drop_replicate]
    rfl
  · rw [ht] at hs
    exact getData_gm hs

end

/-! ## What a reply carries -/

/-- The commands whose handler stores in the reply and leaves its length at zero. -/
def Cmd.unsent : Cmd → Bool
  | .getNcar => true
  | .getCurr1 => true
  | .getCurr2 => true
  | .getIsAgingReset => true
  | .sendCustomTable => true
  | .sendCustomLogData => true
  | _ => false

/-- The commands that read a piece of a structure. -/
def Cmd.readsTable : Cmd → Bool
  | .getCustomSetting => true
  | .getCustomTable => true
  | _ => false

/-- The commands whose reply carries what is stored, given the size of the piece that is read. -/
def Carries (aging : Bool) (cmd size : Nat) : Prop :=
  ∀ c, (cmds aging)[cmd]? = some c → c.unsent = false ∧ (c.readsTable = true → size ≤ 2048)

/-- The same of a case of the switch. -/
def Case.Carries (c : Case) (size : Nat) : Prop :=
  match c with
  | .store _ => False
  | .sendData _ => False
  | .getData _ => size ≤ 2048
  | _ => True

theorem carries_iff (aging : Bool) (cmd size : Nat) :
    (caseOf aging cmd).Carries size ↔ Carries aging cmd size := by
  unfold caseOf Daemon.Carries
  cases (cmds aging)[cmd]? with
  | none => simp [Case.Carries]
  | some c => cases c <;> simp [handler, Case.Carries, Cmd.unsent, Cmd.readsTable]

/-- What a store without a length stores has four bytes. -/
theorem caseOf_store {cmd size : Nat} (h : caseOf aging cmd = .store size) : size = 4 := by
  unfold caseOf at h
  cases hc : (cmds aging)[cmd]? with
  | none => rw [hc] at h; cases h
  | some c =>
    rw [hc] at h
    cases c <;> simp_all [handler]

/-- The start of a block that begins with `bs` and is zero behind. -/
theorem start_iff (bs : List UInt8) {k d : Nat} (hd : d ≤ k) :
    ((bs <+: (bs ++ List.replicate (k - bs.length) 0).take d ∧
        ∀ b ∈ ((bs ++ List.replicate (k - bs.length) 0).take d).drop bs.length, b = 0) ↔
      bs.length ≤ d) ∧
    ((bs ++ List.replicate (k - bs.length) 0).take d = bs ↔ bs.length = d) := by
  have hlen : ((bs ++ List.replicate (k - bs.length) (0 : UInt8)).take d).length = d := by
    rw [List.length_take, List.length_append, List.length_replicate]
    omega
  refine ⟨⟨fun h => ?_, fun h => ⟨?_, fun b hb => ?_⟩⟩, fun h => ?_, fun h => ?_⟩
  · have := h.1.length_le
    omega
  · rw [List.take_append, List.take_of_length_le h]
    exact List.prefix_append _ _
  · rw [List.take_append, List.take_of_length_le h, List.drop_left] at hb
    exact (List.mem_replicate.1 (List.mem_of_mem_take hb)).2
  · have heq := congrArg List.length h
    rw [hlen] at heq
    exact heq.symm
  · rw [← h, List.take_left]

section
variable {e : Rcv} {g : Gm aging} (h : e.Answered g)
include h

/-- A piece that is read has the size that the message says. -/
theorem Rcv.Answered.length_slice {t : Table} (ht : e.case aging = .getData t) :
    (slice t e.msg g).length = e.msg.word 52 := by
  have hfits := h.case_fits
  rw [ht] at hfits
  have hin := hfits.2.2.1
  have hlen := (g.table t).length_eq
  simp only [Within] at hin
  rw [slice, List.length_take, List.length_drop]
  omega

theorem Rcv.Answered.length_stored {t : Table} (ht : e.case aging = .getData t) :
    (e.stored g).length = 12 + e.msg.word 52 := by
  have hfits := h.case_fits
  rw [ht] at hfits
  rw [Rcv.stored, ht]
  show (transfer e.msg ++ slice t e.msg g).length = _
  rw [List.length_append, length_transfer hfits.1, h.length_slice ht]

/-- The length covers what is stored where the case says so. -/
theorem Rcv.Answered.length_le_iff :
    (e.stored g).length ≤ (e.case aging).dataLen ↔ (e.case aging).Carries (e.msg.word 52) := by
  have hfits := h.case_fits
  cases hc : e.case aging with
  | getData t =>
    rw [h.length_stored hc]
    simp only [Case.dataLen, Case.Carries]
    omega
  | sendData t =>
    rw [hc] at hfits
    have hlen : (transfer e.msg).length = 12 := length_transfer (by have := hfits.1; omega)
    rw [Rcv.stored, hc]
    show (transfer e.msg).length ≤ 0 ↔ False
    rw [hlen]
    decide
  | store size =>
    have hsize : size = 4 := caseOf_store hc
    rw [Rcv.stored, hc, hsize]
    show (Bytes.ofNat 4 e.value).length ≤ 0 ↔ False
    rw [Bytes.length_ofNat]
    decide
  | _ => rw [Rcv.stored, hc]; simp [Case.stored, Case.dataLen, Case.Carries]

/-- It is just the length of what is stored, unless a piece of another size than 2048 is read. -/
theorem Rcv.Answered.length_eq_iff :
    (e.stored g).length = (e.case aging).dataLen ↔ (e.case aging).Carries (e.msg.word 52) ∧
      ∀ t, e.case aging = .getData t → e.msg.word 52 = 2048 := by
  have hle := h.length_le_iff
  cases hc : e.case aging with
  | getData t =>
    rw [h.length_stored hc]
    simp only [Case.dataLen, Case.Carries, Case.getData.injEq, forall_eq']
    omega
  | sendData t =>
    rw [hc] at hle
    simp only [Case.Carries, false_and, iff_false] at hle ⊢
    exact fun heq => hle (Nat.le_of_eq heq)
  | store size =>
    rw [hc] at hle
    simp only [Case.Carries, false_and, iff_false] at hle ⊢
    exact fun heq => hle (Nat.le_of_eq heq)
  | _ => rw [Rcv.stored, hc]; simp [Case.stored, Case.dataLen, Case.Carries]

end

/-- The reply to a message carries what is stored. -/
def Rcv.Carried (aging : Bool) (e : Rcv) : Prop :=
  Carries aging (Hdr.of e.msg).fgdCmd (e.msg.word 52)

/-- A message that reads a piece of a structure reads 2048 bytes. -/
def Rcv.FullPiece (aging : Bool) (e : Rcv) : Prop :=
  ∀ t, e.case aging = .getData t → e.msg.word 52 = 2048

/-! ## Structures in pieces -/

/-- The piece of a structure that a reply to a message has. -/
def Rcv.piece (e : Rcv) (s : Sent) : List UInt8 := (s.data.drop 12).take (e.msg.word 52)

/-- The pieces in the replies to a list of messages, one behind the other. -/
def pieces : List (Ev aging × Out) → List UInt8
  | [] => []
  | (.recv e, ⟨_, _, some s⟩) :: os => e.piece s ++ pieces os
  | _ :: os => pieces os

/-- Messages that read a structure in consecutive pieces, from an offset to its end. -/
def Pieces (g : Gm aging) (t : Table) : Nat → List Rcv → Prop
  | off, [] => off = t.sizeof aging
  | off, e :: es => e.Answered g ∧ e.case aging = .getData t ∧ e.msg.word 56 = off ∧
      Pieces g t (off + e.msg.word 52) es

/-- The reply has at most the first 2048 bytes of the piece. -/
theorem Rcv.Answered.piece {e : Rcv} {g : Gm aging} (h : e.Answered g) {t : Table}
    (ht : e.case aging = .getData t) {sent : Sent}
    (hdata : sent.data = (e.stored g ++ List.replicate (e.ret - (e.stored g).length) 0).take
      (e.case aging).dataLen) :
    e.piece sent = (slice t e.msg g).take 2048 := by
  have hfits := h.case_fits
  rw [ht] at hfits
  have htransfer : (transfer e.msg).length = 12 := length_transfer hfits.1
  have hslice := h.length_slice ht
  have hstored : e.stored g = transfer e.msg ++ slice t e.msg g := by rw [Rcv.stored, ht]; rfl
  have hlen : (e.case aging).dataLen = (transfer e.msg).length + 2048 := by rw [ht, htransfer]; rfl
  rw [Rcv.piece, hdata, hlen, hstored, List.append_assoc, List.take_length_add_append,
    ← htransfer, List.drop_left, List.take_take, ← hslice]
  rw [List.take_append_of_le_length (Nat.min_le_left _ _), List.take_eq_take_iff]
  omega

/-- A piece is as it is in the structure if it has at most 2048 bytes. -/
theorem Rcv.Answered.piece_iff {e : Rcv} {g : Gm aging} (h : e.Answered g) {t : Table}
    (ht : e.case aging = .getData t) :
    (slice t e.msg g).take 2048 = slice t e.msg g ↔ e.msg.word 52 ≤ 2048 := by
  rw [List.take_eq_self_iff, h.length_slice ht]

/-- The pieces add up to the structure if and only if each has at most 2048 bytes. -/
theorem pieces_iff {g : Gm aging} {t : Table} {es : List Rcv} {off : Nat}
    (h : Pieces g t off es) :
    ∃ outs, Sys.run step g (es.map .recv) = some (outs, g) ∧
      (pieces outs).length ≤ t.sizeof aging - off ∧
      (pieces outs = (g.table t).bytes.drop off ↔ ∀ e ∈ es, e.msg.word 52 ≤ 2048) := by
  induction es generalizing off with
  | nil =>
    have hlen := (g.table t).length_eq
    refine ⟨[], rfl, Nat.zero_le _, ?_⟩
    rw [h, List.drop_of_length_le (Nat.le_of_eq hlen)]
    simp [pieces]
  | cons e es ih =>
    obtain ⟨hans, hcase, hoff, hrest⟩ := h
    obtain ⟨out, g', sent, hrun, hsent, hdata, hkeep⟩ := reply_data hans
    have hg := hkeep t hcase
    rw [hg] at hrun
    obtain ⟨outs, houts, hle, hiff⟩ := ih hrest
    have hpiece := hans.piece hcase hdata
    have hslice := hans.length_slice hcase
    have hfits := hans.case_fits
    rw [hcase] at hfits
    have hin := hfits.2.2.1
    have hstruct := (g.table t).length_eq
    obtain ⟨stored, printed, sent'⟩ := out
    cases hsent
    refine ⟨(.recv e, ⟨stored, printed, some sent⟩) :: outs, ?_, ?_, ?_⟩
    · have hstep : step g (.recv e) = some (⟨stored, printed, some sent⟩, g) := hrun
      rw [List.map_cons, Sys.run_cons_some _ hstep, houts]
      rfl
    · simp only [Within] at hin
      rw [pieces, hpiece, List.length_append, List.length_take, hslice]
      omega
    · have hsplit : (g.table t).bytes.drop off =
          slice t e.msg g ++ (g.table t).bytes.drop (off + e.msg.word 52) := by
        rw [slice, hoff, ← List.drop_drop, List.take_append_drop]
      rw [pieces, hpiece, List.forall_mem_cons]
      by_cases hsize : e.msg.word 52 ≤ 2048
      · rw [(hans.piece_iff hcase).2 hsize, hsplit, List.append_cancel_left_eq, hiff]
        exact (and_iff_right hsize).symm
      · refine iff_of_false (fun heq => ?_) fun hall => hsize hall.1
        have hlens := congrArg List.length heq
        simp only [Within] at hin
        rw [List.length_append, List.length_take, List.length_drop, hslice, hstruct] at hlens
        omega

theorem pieces_case {g : Gm aging} {t : Table} {es : List Rcv} {off : Nat} (h : Pieces g t off es) :
    ∀ e ∈ es, e.case aging = .getData t := by
  induction es generalizing off with
  | nil => exact fun e he => absurd he List.not_mem_nil
  | cons e es ih => exact List.forall_mem_cons.2 ⟨h.2.1, ih h.2.2.2⟩

/-- A piece is carried if it has at most 2048 bytes. -/
theorem carried_piece {e : Rcv} {t : Table} (ht : e.case aging = .getData t) :
    e.Carried aging ↔ e.msg.word 52 ≤ 2048 := by
  have hcarried : (e.case aging).Carries (e.msg.word 52) ↔ e.Carried aging := carries_iff _ _ _
  rw [← hcarried, ht]
  rfl

/-- **Replies**: a message that is answered gets all bytes that its command stores, and nothing but
zeros besides, if and only if it carries them, and just these bytes if a piece that it reads has
2048 bytes. A piece of a structure is as it is there, and consecutive pieces add up to the
structure, if and only if they have at most that many. -/
theorem daemon_replies (aging : Bool) (g : Gm aging) :
    (∀ e : Rcv, e.Answered g →
      ∃ out g' sent, mtkBatteryNetlinkHandler g e = some (out, g') ∧ out.sent = some sent ∧
        ((e.stored g <+: sent.data ∧ ∀ b ∈ sent.data.drop (e.stored g).length, b = 0) ↔
          e.Carried aging) ∧
        (sent.data = e.stored g ↔ e.Carried aging ∧ e.FullPiece aging) ∧
        ∀ t, e.case aging = .getData t →
          (e.piece sent = slice t e.msg g ↔ e.Carried aging)) ∧
    ∀ t es, Pieces g t 0 es →
      ∃ outs, Sys.run step g (es.map .recv) = some (outs, g) ∧
        (pieces outs = (g.table t).bytes ↔ ∀ e ∈ es, e.Carried aging) := by
  refine ⟨fun e h => ?_, fun t es h => ?_⟩
  · obtain ⟨out, g', sent, hrun, hsent, hdata, -⟩ := reply_data h
    have hcarried : (e.case aging).Carries (e.msg.word 52) ↔ e.Carried aging := carries_iff _ _ _
    have hstart := start_iff (e.stored g) h.dataLen_le
    rw [← hdata] at hstart
    refine ⟨out, g', sent, hrun, hsent, ?_, ?_, fun t ht => ?_⟩
    · exact hstart.1.trans (h.length_le_iff.trans hcarried)
    · exact hstart.2.trans (h.length_eq_iff.trans (and_congr_left' hcarried))
    · rw [h.piece ht hdata, h.piece_iff ht, carried_piece ht]
  · obtain ⟨outs, hrun, -, hiff⟩ := pieces_iff h
    refine ⟨outs, hrun, hiff.trans (forall₂_congr fun e he => ?_)⟩
    exact (carried_piece (pieces_case h e he)).symm

/-- The battery with a daemon. -/
def withDaemon : Gm true := { initial true with fgdPid := 1234 }

/-- The daemon asks for the cycle count of the gauge, which is 7. -/
def askNcar : Rcv := ⟨1234, message 87 4 [], 7, (true, true), true⟩

theorem askNcar_answered : askNcar.Answered withDaemon :=
  ⟨⟨by decide, fun _ => (by decide : (4 : Nat) ≤ 4)⟩, ⟨by decide, .inl rfl, by decide, by decide⟩,
    rfl⟩

/-- The reply has no data, and the count was stored in it. -/
theorem daemon_replies_ncar :
    ¬ ∃ out g' sent, mtkBatteryNetlinkHandler withDaemon askNcar = some (out, g') ∧
      out.sent = some sent ∧ askNcar.stored withDaemon <+: sent.data := by
  obtain ⟨out, g', sent, hrun, hsent, hdata, -⟩ := reply_data askNcar_answered
  intro h
  obtain ⟨out', g'', sent', hrun', hsent', hprefix⟩ := h
  rw [hrun, Option.some.injEq, Prod.mk.injEq] at hrun'
  rw [← hrun'.1, hsent, Option.some.injEq] at hsent'
  rw [← hsent', hdata] at hprefix
  exact absurd hprefix.length_le (by decide)

/-- The daemon reads a piece of the custom data. -/
def readCust (size idx : Nat) : Rcv :=
  ⟨1234, message 2 2060 ([customDataSize, size, idx].flatMap (Bytes.ofNat 4)), 0, (true, true), true⟩

theorem readCust_first : (readCust 600 0).Answered withDaemon :=
  ⟨⟨by decide, fun _ => (by decide : 60 ≤ 60 ∧ 12 + 600 ≤ 2060 ∧ Within 664 0 600 ∧
    (Table.fgCustData = .fgCustData → (8 : Int) ≤ 7 → 16 ≤ 2060) ∧ (true = true → 2060 ≤ 2060))⟩,
    ⟨by decide, .inl rfl, by decide, by decide⟩, rfl⟩

theorem readCust_second : (readCust 64 600).Answered withDaemon :=
  ⟨⟨by decide, fun _ => (by decide : 60 ≤ 60 ∧ 12 + 64 ≤ 2060 ∧ Within 664 600 64 ∧
    (Table.fgCustData = .fgCustData → (8 : Int) ≤ 7 → 16 ≤ 2060) ∧ (true = true → 2060 ≤ 2060))⟩,
    ⟨by decide, .inl rfl, by decide, by decide⟩, rfl⟩

theorem daemon_replies_cust :
    (∃ out g' sent,
      mtkBatteryNetlinkHandler withDaemon (readCust 64 600) = some (out, g') ∧
      out.sent = some sent ∧
      (((readCust 64 600).stored withDaemon <+: sent.data ∧
        ∀ b ∈ sent.data.drop ((readCust 64 600).stored withDaemon).length, b = 0) ↔
          (readCust 64 600).Carried true) ∧
      (sent.data = (readCust 64 600).stored withDaemon ↔
        (readCust 64 600).Carried true ∧ (readCust 64 600).FullPiece true) ∧
      ∀ t, (readCust 64 600).case true = .getData t →
        ((readCust 64 600).piece sent = slice t (readCust 64 600).msg withDaemon ↔
          (readCust 64 600).Carried true)) ∧
    ∃ outs, Sys.run step withDaemon ([readCust 600 0, readCust 64 600].map .recv) =
        some (outs, withDaemon) ∧
      (pieces outs = (withDaemon.table .fgCustData).bytes ↔
        ∀ e ∈ [readCust 600 0, readCust 64 600], e.Carried true) :=
  ⟨(daemon_replies true withDaemon).1 (readCust 64 600) readCust_second,
    (daemon_replies true withDaemon).2 .fgCustData [readCust 600 0, readCust 64 600]
      ⟨readCust_first, rfl, by decide, readCust_second, rfl, by decide, rfl⟩⟩

end Battery.Daemon
