import FireTablet.Lib.Buf
import FireTablet.Lib.Run
import Mathlib.Algebra.Group.Nat.Defs

/-!
# The fuel gauge's daemon messages (`mtk_battery_daemon.c`)

Any process may send a message on the fuel gauge's netlink socket. `mtk_battery_netlink_handler`
allocates a reply of the length that the message declares, `mtk_battery_daemon_handler` serves the
command, and `mtk_battery_send_to_user` sends the reply to the daemon. The received message, the
reply's data and the structures that a message reaches by an index are blocks of memory; an access
that leaves its block gives `none`.

The value that a command reports (a property of the gauge, the battery's state, a clock) and whether
an allocation succeeds come with the message. A pointer has 64 bits.
-/

namespace Battery.Daemon

/-- `enum fg_daemon_cmds`. -/
inductive Cmd
  | printLog | setDaemonPid | getCustomSetting | getCustomTable | sendCustomTable
  | sendCustomLogData | isBatExist | getInitFlag | setInitFlag | notifyDaemon
  | checkFgDaemonVersion | fgadcReset | getTemperture | getRac | getPtimVbat | getPtimI
  | isChargerExist | getHwOcv | getFgHwCar | setFgBatInt1Gap | setFgBatTmpGap | setFgBatInt2HtGap
  | enableFgBatInt2Ht | setFgBatInt2LtGap | enableFgBatInt2Lt | isBatPlugout | isBatCharging
  | getChargerStatus | setSwOcv | getShutdownDurationTime | getBatPlugOutTime
  | getIsFgInitialized | setIsFgInitialized | setFgResetRtcStatus | isHwocvUnreliable
  | getFgCurrentAvg | setFgTime | getFgTime | getZcv | getFgSwCarNafgCnt | getFgSwCarNafgDltv
  | getFgSwCarNafgCDltv | setNagZcv | setNagZcvEn | setNagCDltv | setZcvIntr | setFgQuse
  | setFgResistance | setFgDcRatio | setBatteryCycleThreshold | soffReset | ncarReset | getImix
  | getAgingFactorCust | getD0CSocCust | getD0VSocCust | getUisocCust | isKpoc | getNafgVbat
  | getHwInfo | setKernelSoc | setKernelUisoc | setKernelInitVbat | setBatPlugoutIntr
  | setIavgIntr | setFgShutdownCond | getFgShutdownCond | enableFgVbatLInt | enableFgVbatHInt
  | setFgVbatLTh | setFgVbatHTh | setCarTuneValue | getFgCurrentIavgValid | getRtcUiSoc
  | setRtcUiSoc | getCon0Soc | setCon0Soc | getNvramFailStatus | setNvramFailStatus
  | setFgBatTmpCGap | isBatteryCycleReset | getRtcTwoSecReboot | getRtcInvalid | getVbat
  | getDisableNafg | dumpLog | getShutdownCar | getNcar | getCurr1 | getCurr2 | getRefresh
  | getIsAgingReset | setSoc | setCD0Soc | setVD0Soc | setCSoc | setVSoc | setQmaxTAging
  | setSavedCar | setAgingFactor | setQmax | setBatCycles | setNcar | setOcvMah | setOcvVtemp
  | setOcvSoc | setCon0SoffValid | setAgingInfo | getSocDecimalRate | getDiffSocSet
  | setZcvIntrEn | sendFgUse2ndZcv
  deriving DecidableEq

/-- The commands in the order of their numbers; the last one is there with
`CONFIG_MTK_USE_AGING_ZCV`. -/
def cmds (aging : Bool) : List Cmd :=
  [.printLog, .setDaemonPid, .getCustomSetting, .getCustomTable, .sendCustomTable,
   .sendCustomLogData, .isBatExist, .getInitFlag, .setInitFlag, .notifyDaemon,
   .checkFgDaemonVersion, .fgadcReset, .getTemperture, .getRac, .getPtimVbat, .getPtimI,
   .isChargerExist, .getHwOcv, .getFgHwCar, .setFgBatInt1Gap, .setFgBatTmpGap,
   .setFgBatInt2HtGap, .enableFgBatInt2Ht, .setFgBatInt2LtGap, .enableFgBatInt2Lt, .isBatPlugout,
   .isBatCharging, .getChargerStatus, .setSwOcv, .getShutdownDurationTime, .getBatPlugOutTime,
   .getIsFgInitialized, .setIsFgInitialized, .setFgResetRtcStatus, .isHwocvUnreliable,
   .getFgCurrentAvg, .setFgTime, .getFgTime, .getZcv, .getFgSwCarNafgCnt, .getFgSwCarNafgDltv,
   .getFgSwCarNafgCDltv, .setNagZcv, .setNagZcvEn, .setNagCDltv, .setZcvIntr, .setFgQuse,
   .setFgResistance, .setFgDcRatio, .setBatteryCycleThreshold, .soffReset, .ncarReset, .getImix,
   .getAgingFactorCust, .getD0CSocCust, .getD0VSocCust, .getUisocCust, .isKpoc, .getNafgVbat,
   .getHwInfo, .setKernelSoc, .setKernelUisoc, .setKernelInitVbat, .setBatPlugoutIntr,
   .setIavgIntr, .setFgShutdownCond, .getFgShutdownCond, .enableFgVbatLInt, .enableFgVbatHInt,
   .setFgVbatLTh, .setFgVbatHTh, .setCarTuneValue, .getFgCurrentIavgValid, .getRtcUiSoc,
   .setRtcUiSoc, .getCon0Soc, .setCon0Soc, .getNvramFailStatus, .setNvramFailStatus,
   .setFgBatTmpCGap, .isBatteryCycleReset, .getRtcTwoSecReboot, .getRtcInvalid, .getVbat,
   .getDisableNafg, .dumpLog, .getShutdownCar, .getNcar, .getCurr1, .getCurr2, .getRefresh,
   .getIsAgingReset, .setSoc, .setCD0Soc, .setVD0Soc, .setCSoc, .setVSoc, .setQmaxTAging,
   .setSavedCar, .setAgingFactor, .setQmax, .setBatCycles, .setNcar, .setOcvMah, .setOcvVtemp,
   .setOcvSoc, .setCon0SoffValid, .setAgingInfo, .getSocDecimalRate, .getDiffSocSet,
   .setZcvIntrEn] ++
    if aging then [.sendFgUse2ndZcv] else []

/-- `FG_DAEMON_CMD_SET_DAEMON_PID`. -/
def setDaemonPid : Nat := 1

/-- `FGD_NL_MAGIC`. -/
def fgdNlMagic : Nat := 2015060303

/-- `FGD_NL_MSG_MAX_LEN`. -/
def fgdNlMsgMaxLen : Nat := 9200

/-- `FGD_NL_HDR_LEN`. -/
def fgdNlHdrLen : Nat := 32

/-- Where `fgd_data` starts in a received message, after the two headers. -/
def fgdData : Nat := 48

/-- `PAGE_SIZE`. -/
def pageSize : Nat := 4096

/-- The structures of `struct mtk_battery` that a message reaches by an index. -/
inductive Table
  | fgData
  | fgLogData
  | fgCustData
  | fgTableCustData
  deriving DecidableEq

/-- The size of `struct fuel_gauge_custom_data`. -/
def customDataSize : Nat := 166 * 4

/-- The size of `struct fuel_gauge_table_custom_data`: ten profiles, thirty with those of aged
batteries, and two tables of their own temperature. -/
def tableCustomDataSize (aging : Bool) : Nat :=
  4 + 2 * (2 * 4 + 100 * 12) + (10 * 4 + 100 * 12) * (if aging then 30 else 10)

/-- `sizeof` a structure. -/
def Table.sizeof (aging : Bool) : Table → Nat
  | .fgData => customDataSize + tableCustomDataSize aging
  | .fgLogData => 36 * 4
  | .fgCustData => customDataSize
  | .fgTableCustData => tableCustomDataSize aging

/-- What of `struct mtk_battery` the messages use. -/
structure Gm (aging : Bool) where
  fgdPid : Nat
  fakeRtcSoc : Int
  logLevel : Int
  table : (t : Table) → Buf (t.sizeof aging)

/-- The battery with one structure replaced. -/
def Gm.setTable {aging : Bool} (g : Gm aging) (t : Table) (b : Buf (t.sizeof aging)) : Gm aging :=
  { g with table := Function.update g.table t b }

/-- The header fields of `struct fgd_nl_msg_t` that are read. -/
structure Hdr where
  nlCmd : Nat
  fgdCmd : Nat
  fgdSubcmd : Nat
  fgdSubcmdPara1 : Nat
  fgdDataLen : Nat
  fgdRetDataLen : Nat
  identity : Nat

/-- The header of a received message. `identity`, its last field, is read of every message. -/
def Hdr.read {n : Nat} (m : Buf n) : Option Hdr := do
  let nlCmd ← m.u32 16
  let fgdCmd ← m.u32 20
  let fgdSubcmd ← m.u32 28
  let fgdSubcmdPara1 ← m.u32 32
  let fgdDataLen ← m.u32 36
  let fgdRetDataLen ← m.u32 40
  let identity ← m.u32 44
  some { nlCmd, fgdCmd, fgdSubcmd, fgdSubcmdPara1, fgdDataLen, fgdRetDataLen, identity }

/-- A reply of the declared length: its allocation has room for the header and `k` bytes. -/
structure Reply (k : Nat) where
  nlCmd : Nat
  fgdCmd : Nat
  fgdDataLen : Nat
  fgdData : Buf k

/-- `memcpy(ret_msg->fgd_data, ..)`. -/
def Reply.store {k : Nat} (r : Reply k) (bs : List UInt8) : Option (Reply k) :=
  (r.fgdData.write 0 bs).map fun d => { r with fgdData := d }

/-- `ret_msg->fgd_data_len += sizeof(..)`, then the copy. -/
def Reply.answer {k : Nat} (r : Reply k) (bs : List UInt8) : Option (Reply k) :=
  { r with fgdDataLen := r.fgdDataLen + bs.length }.store bs

/-- What serving a command gives: the battery, the reply, the value that a command sets and the
texts that are printed. -/
structure Served (aging : Bool) (k : Nat) where
  gm : Gm aging
  reply : Reply k
  stored : List UInt8
  printed : List (List UInt8)

/-! ## Tables -/

variable {aging : Bool} {n k : Nat}

/-- `pret->total_size`, `pret->size` and `pret->idx` set as in the message. -/
def echo (m : Buf n) (d : Buf k) : Option (Buf k) := do
  let totalSize ← m.read fgdData 4
  let d ← d.write 0 totalSize
  let size ← m.read (fgdData + 4) 4
  let d ← d.write 4 size
  let idx ← m.read (fgdData + 8) 4
  d.write 8 idx

/-- `fg_daemon_send_data`: a piece of a structure from the message. A `total_size` that is not the
structure's is only logged. -/
def fgDaemonSendData (t : Table) (m : Buf n) (g : Gm aging) (r : Reply k) :
    Option (Served aging k) := do
  let d ← echo m r.fgdData
  let size ← m.u32 (fgdData + 4)
  let idx ← m.u32 (fgdData + 8)
  let input ← m.read (fgdData + 12) size
  let b ← (g.table t).write idx input
  some ⟨g.setTable t b, { r with fgdData := d }, [], []⟩

/-- The trace of `FG_DAEMON_CMD_GET_CUSTOM_SETTING`: the first bytes that were copied are read back
from the reply. -/
def traceInput (t : Table) (g : Gm aging) (d : Buf k) : Option (List UInt8) :=
  if t = .fgCustData ∧ 8 ≤ g.logLevel then d.read 12 4 else some []

/-- `fg_daemon_get_data`: a piece of a structure into the reply. -/
def fgDaemonGetData (t : Table) (m : Buf n) (g : Gm aging) (r : Reply k) :
    Option (Served aging k) := do
  let d ← echo m r.fgdData
  let size ← d.u32 4
  let idx ← m.u32 (fgdData + 8)
  let bs ← (g.table t).read idx size
  let d ← d.write 12 bs
  let _ ← traceInput t g d
  some ⟨g, { r with fgdData := d }, [], []⟩

/-! ## Texts -/

/-- `bm_err("%s", ..)`. -/
def printed (g : Gm aging) (text : List UInt8) : List (List UInt8) :=
  if 3 ≤ g.logLevel then [text] else []

/-- `FG_DAEMON_CMD_PRINT_LOG`: the text is read when it is printed. -/
def printLog (m : Buf n) (g : Gm aging) : Option (List (List UInt8)) :=
  if 3 ≤ g.logLevel then do
    let len ← m.strlen fgdData
    let text ← m.read fgdData len
    some (printed g text)
  else some []

/-- The loop of `FG_DAEMON_CMD_DUMP_LOG`: 512 bytes at a time through `proc_log`. -/
def dumpLoop (m : Buf n) (g : Gm aging) (procLog : Buf 520) (size offset : Nat) :
    Option (List (List UInt8)) :=
  if _h : 0 < size then do
    let len := if size > 512 then 512 else size
    let bs ← m.read (fgdData + offset) len
    let procLog ← procLog.write 0 bs
    let procLog ← procLog.write len [0]
    let rest ← dumpLoop m g procLog (size - len) (offset + len)
    some (printed g (procLog.bytes.takeWhile (· ≠ 0)) ++ rest)
  else some []
termination_by size
decreasing_by split <;> omega

/-- `FG_DAEMON_CMD_DUMP_LOG`. -/
def dumpLog (m : Buf n) (g : Gm aging) : Option (List (List UInt8)) := do
  let size ← m.strlen fgdData
  dumpLoop m g (.zero 520) size 0

/-! ## Commands -/

/-- What a case of the switch does with the message and the reply. -/
inductive Case
  | nothing
  /-- a value of the given size is the answer -/
  | answer (size : Nat)
  /-- the same, but `fgd_data_len` is not moved -/
  | store (size : Nat)
  /-- a value of the given size is taken from the message -/
  | take (size : Nat)
  /-- an argument is taken from the message before the answer -/
  | ask (arg size : Nat)
  /-- an `int` of `fg_cust_data` is set, not below zero where `clamp` says so -/
  | takeCust (field : Fin 166) (clamp : Bool)
  | setDaemonPid
  /-- returns before the message is read while a faked value is set -/
  | setRtcUiSoc
  | printLog
  | dumpLog
  | sendData (t : Table)
  | getData (t : Table)

/-- The cases of the switch, in its order. -/
def handler : Cmd → Case
  | .isBatExist => .answer 4
  | .fgadcReset => .nothing
  | .getInitFlag => .answer 1
  | .setInitFlag => .take 1
  | .getTemperture => .ask 1 4
  | .getRac => .answer 4
  | .getDisableNafg => .answer 4
  | .getPtimVbat => .answer 4
  | .getPtimI => .answer 4
  | .isChargerExist => .answer 4
  | .getHwOcv => .answer 4
  | .getFgSwCarNafgCnt => .ask 4 4
  | .getFgSwCarNafgDltv => .ask 4 4
  | .getFgSwCarNafgCDltv => .ask 4 4
  | .getFgHwCar => .answer 4
  | .setSwOcv => .take 4
  | .setFgTime => .take 4
  | .getFgTime => .answer 4
  | .setFgBatInt1Gap => .take 4
  | .setFgBatInt2HtGap => .take 4
  | .setFgBatInt2LtGap => .take 4
  | .enableFgBatInt2Ht => .take 4
  | .enableFgBatInt2Lt => .take 4
  | .setFgBatTmpCGap => .take 4
  | .setFgBatTmpGap => .take 4
  | .isBatPlugout => .answer 4
  | .getBatPlugOutTime => .answer 4
  | .isBatCharging => .answer 4
  | .getChargerStatus => .answer 4
  | .checkFgDaemonVersion => .nothing
  | .getShutdownDurationTime => .answer 4
  | .setFgResetRtcStatus => .take 4
  | .setIsFgInitialized => .take 4
  | .getIsFgInitialized => .answer 4
  | .isHwocvUnreliable => .answer 4
  | .getFgCurrentAvg => .answer 4
  | .getFgCurrentIavgValid => .answer 4
  | .getZcv => .answer 4
  | .setNagZcvEn => .take 4
  | .setNagZcv => .take 4
  | .setNagCDltv => .take 4
  | .setIavgIntr => .nothing
  | .setBatPlugoutIntr => .take 4
  | .setZcvIntr => .take 4
  | .setFgQuse => .take 4
  | .setFgDcRatio => .take 4
  | .soffReset => .nothing
  | .ncarReset => .nothing
  | .setBatteryCycleThreshold => .take 4
  | .getImix => .answer 4
  | .isBatteryCycleReset => .answer 4
  | .getAgingFactorCust => .ask 4 4
  | .getD0CSocCust => .ask 4 4
  | .getD0VSocCust => .ask 4 4
  | .getUisocCust => .ask 4 4
  | .isKpoc => .answer 4
  | .getNafgVbat => .answer 4
  | .getHwInfo => .nothing
  | .setKernelSoc => .take 4
  | .setKernelUisoc => .takeCust 148 true
  | .setKernelInitVbat => .take 4
  | .setFgShutdownCond => .take 4
  | .getFgShutdownCond => .answer 4
  | .enableFgVbatLInt => .take 4
  | .enableFgVbatHInt => .take 4
  | .setFgVbatLTh => .take 4
  | .setFgVbatHTh => .take 4
  | .setCarTuneValue => .take 4
  | .getRtcUiSoc => .answer 4
  | .setRtcUiSoc => .setRtcUiSoc
  | .setCon0Soc => .take 4
  | .getCon0Soc => .answer 4
  | .getNvramFailStatus => .answer 4
  | .setNvramFailStatus => .take 4
  | .getRtcTwoSecReboot => .answer 4
  | .getRtcInvalid => .answer 4
  | .setDaemonPid => .setDaemonPid
  | .getVbat => .answer 4
  | .printLog => .printLog
  | .sendCustomTable => .sendData .fgData
  | .getCustomSetting => .getData .fgCustData
  | .getCustomTable => .getData .fgTableCustData
  | .dumpLog => .dumpLog
  | .getShutdownCar => .answer 4
  | .getNcar => .store 4
  | .getCurr1 => .store 4
  | .getCurr2 => .store 4
  | .getRefresh => .nothing
  | .getIsAgingReset => .store 4
  | .setSoc => .take 4
  | .setCD0Soc => .takeCust 144 false
  | .setVD0Soc => .takeCust 145 false
  | .setCSoc => .takeCust 146 false
  | .setVSoc => .takeCust 147 false
  | .setQmaxTAging => .nothing
  | .setSavedCar => .take 4
  | .setAgingFactor => .take 4
  | .setQmax => .take 4
  | .setBatCycles => .take 4
  | .setNcar => .take 4
  | .setOcvMah => .take 4
  | .setOcvVtemp => .take 4
  | .setOcvSoc => .take 4
  | .setCon0SoffValid => .take 4
  | .setAgingInfo => .nothing
  | .getSocDecimalRate => .answer 4
  | .getDiffSocSet => .answer 4
  | .setZcvIntrEn => .nothing
  | .sendCustomLogData => .sendData .fgLogData
  | .sendFgUse2ndZcv => .take 4
  -- the default: a bad command is counted and logged
  | .notifyDaemon => .nothing
  | .setFgResistance => .nothing

/-- The value that `FG_DAEMON_CMD_SET_KERNEL_UISOC` keeps of a negative one. -/
def clampInt (clamp : Bool) (bs : List UInt8) : List UInt8 :=
  if clamp ∧ 2 ^ 31 ≤ Bytes.le bs then [0, 0, 0, 0] else bs

/-- A case of the switch, where `value` is what the command reports. -/
def Case.exec (c : Case) (value : Nat) (m : Buf n) (g : Gm aging) (r : Reply k) :
    Option (Served aging k) :=
  match c with
  | .nothing => some ⟨g, r, [], []⟩
  | .answer size => do
    let r ← r.answer (Bytes.ofNat size value)
    some ⟨g, r, [], []⟩
  | .store size => do
    let r ← r.store (Bytes.ofNat size value)
    some ⟨g, r, [], []⟩
  | .take size => do
    let v ← m.read fgdData size
    some ⟨g, r, v, []⟩
  | .ask arg size => do
    let _ ← m.read fgdData arg
    let r ← r.answer (Bytes.ofNat size value)
    some ⟨g, r, [], []⟩
  | .takeCust field clamp => do
    let v ← m.read fgdData 4
    let b ← (g.table .fgCustData).write (4 * field) (clampInt clamp v)
    some ⟨g.setTable .fgCustData b, r, v, []⟩
  | .setDaemonPid => do
    let v ← m.read fgdData 4
    some ⟨{ g with fgdPid := Bytes.le v }, r, v, []⟩
  | .setRtcUiSoc =>
    if 0 < g.fakeRtcSoc ∧ g.fakeRtcSoc < 100 then some ⟨g, r, [], []⟩
    else do
      let v ← m.read fgdData 4
      some ⟨g, r, v, []⟩
  | .printLog => do
    let texts ← Daemon.printLog m g
    some ⟨g, r, [], texts⟩
  | .dumpLog => do
    let texts ← Daemon.dumpLog m g
    some ⟨g, r, [], texts⟩
  | .sendData t => fgDaemonSendData t m g r
  | .getData t => do
    let s ← fgDaemonGetData t m g r
    some { s with reply := { s.reply with fgdDataLen := 12 + 2048 } }

/-- The case for the number of a command; a number that no case has is counted and logged. -/
def caseOf (aging : Bool) (cmd : Nat) : Case :=
  match (cmds aging)[cmd]? with
  | some c => handler c
  | none => .nothing

/-- `mtk_battery_daemon_handler`. -/
def mtkBatteryDaemonHandler (h : Hdr) (value : Nat) (m : Buf n) (g : Gm aging) (r : Reply k) :
    Option (Served aging k) :=
  (caseOf aging h.fgdCmd).exec value m g { r with nlCmd := h.nlCmd, fgdCmd := h.fgdCmd }

/-! ## Messages -/

/-- A received message with the process that sent it. `value` is what its command reports, `alloc`
and `skb` say whether the two allocations of a reply and the one of a socket buffer succeed. -/
structure Rcv where
  pid : Nat
  bytes : List UInt8
  value : Nat
  alloc : Bool × Bool
  skb : Bool

/-- A message that is sent: the process it is for and the bytes of its socket buffer. -/
structure Sent where
  pid : Nat
  bytes : List UInt8

/-- `NLMSG_SPACE`. -/
def nlmsgSpace (size : Nat) : Nat := (size + 16 + 3) / 4 * 4

/-- The allocation of a reply: large ones with `vmalloc`, and again with `vmalloc` what fails. -/
def allocated (size : Nat) (alloc : Bool × Bool) : Bool :=
  alloc.1 || (decide (pageSize < size) && alloc.2)

/-- The header of a reply as it lies in memory. -/
def Reply.hdr (r : Reply k) : List UInt8 :=
  [r.nlCmd, r.fgdCmd, 0, 0, 0, r.fgdDataLen, 0, fgdNlMagic].flatMap (Bytes.ofNat 4)

/-- `mtk_battery_send_to_user`, where `skb` says whether the socket buffer is allocated. -/
def mtkBatterySendToUser (g : Gm aging) (seq : Nat) (r : Reply k) (skb : Bool) :
    Option (Option Sent) :=
  let size := r.fgdDataLen + fgdNlHdrLen
  if skb then do
    let buf ← (Buf.zero (nlmsgSpace size)).write 0
      ([16 + size, 0, seq, g.fgdPid].flatMap (Bytes.ofNat 4))
    let data ← r.fgdData.read 0 r.fgdDataLen
    let buf ← buf.write 16 (r.hdr ++ data)
    some (some ⟨g.fgdPid, buf.bytes⟩)
  else some none

/-- What handling a message shows: a value that is set, texts that are printed, a message sent. -/
structure Out where
  stored : List UInt8
  printed : List (List UInt8)
  sent : Option Sent

/-- A message that is dropped. -/
def Out.dropped : Out := ⟨[], [], none⟩

/-- `mtk_battery_netlink_handler`. -/
def mtkBatteryNetlinkHandler (g : Gm aging) (e : Rcv) : Option (Out × Gm aging) := do
  let m := Buf.ofList e.bytes
  let seq ← m.u32 8
  let h ← Hdr.read m
  if h.identity ≠ fgdNlMagic then some (.dropped, g)
  else if g.fgdPid ≠ e.pid ∧ setDaemonPid < h.fgdCmd then some (.dropped, g)
  else if fgdNlMsgMaxLen < h.fgdRetDataLen then some (.dropped, g)
  else if ¬ allocated (h.fgdRetDataLen + fgdNlHdrLen) e.alloc then some (.dropped, g)
  else do
    let s ← mtkBatteryDaemonHandler h e.value m g ⟨0, 0, 0, .zero h.fgdRetDataLen⟩
    let sent ← mtkBatterySendToUser s.gm seq s.reply e.skb
    some (⟨s.stored, s.printed, sent⟩, s.gm)

/-- A message, or what the rest of the driver does to the battery between messages. -/
inductive Ev (aging : Bool)
  | recv (e : Rcv)
  | setFakeRtcSoc (v : Int)
  | setLogLevel (v : Int)
  | setTable (t : Table) (b : Buf (t.sizeof aging))

/-- One event. -/
def step (g : Gm aging) : Ev aging → Option (Out × Gm aging)
  | .recv e => mtkBatteryNetlinkHandler g e
  | .setFakeRtcSoc v => some (.dropped, { g with fakeRtcSoc := v })
  | .setLogLevel v => some (.dropped, { g with logLevel := v })
  | .setTable t b => some (.dropped, g.setTable t b)

end Battery.Daemon
