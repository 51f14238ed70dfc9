import FireTablet.Kernel.Strings

/-!
# Replies about exceptions (`aed-main.c`)

A request for the record of a kernel exception or of an external exception is answered by a message
that stays until the next request and is copied to the readers. A message is allocated first and
then filled; its header takes the first 24 bytes.
-/

namespace Aee.Reply

open CInt Strings

/-! ## Messages -/

def aeReq : Nat := 0
def aeRsp : Nat := 1
def aeCmdTypeEnd : Nat := 3
def aeNotAvailable : Nat := 0xAEE00000

def aeReqClass : Nat := 1
def aeReqType : Nat := 2
def aeReqProcess : Nat := 3
def aeReqModule : Nat := 4
def aeReqBacktrace : Nat := 5
def aeReqDetail : Nat := 6
def aeReqCoredump : Nat := 22
def aeReqUserspacebacktrace : Nat := 40
def aeReqUserReg : Nat := 41
def aeReqUserMaps : Nat := 42

/-- `struct AE_Msg` at the start of a block of `size` bytes, with the accesses that filled it. -/
structure Msg where
  size : Nat
  cmdType : Nat
  cmdId : Nat
  arg : Nat
  len : Int
  ops : List Access

/-- `msg_create`; `vzalloc` takes the size, an `int`, as unsigned: it gives nothing for zero or for
a negative size. -/
def msgCreate (alloc : Bool) (extra : Int) : Option Msg :=
  let size := i32 (24 + extra)
  if alloc ∧ 0 < size then some ⟨size.toNat, 0, 0, 0, u32 extra, []⟩ else none

/-- A message as its request is answered. -/
def Msg.answer (m : Msg) (cmdId : Nat) (len : Int) (ops : List Access) : Msg :=
  { m with cmdType := aeRsp, cmdId := cmdId, len := u32 len, ops := ops }

/-- What a call of `read` ends with: its value, the file position and the accesses. -/
structure Copied where
  ret : Int
  pos : Nat
  ops : List Access

/-- `msg_copy_to_user`, at a position and for a count whose sum is an `loff_t`, as `vfs_read` has
checked; `tmp` says whether the copy is allocated, `copied` whether the buffer takes the bytes. -/
def msgCopyToUser (msg : Option Msg) (tmp copied : Bool) (pos count : Nat) : Copied :=
  match msg with
  | none => ⟨0, pos, []⟩
  | some m =>
    let bytes := (m.len + 24).toNat
    let memcpy : List Access := if tmp then [.read m.size 0 bytes] else []
    let src := if tmp then bytes else m.size
    let len := i32 (m.len + 24)
    if aeCmdTypeEnd < m.cmdType then ⟨0, pos, memcpy⟩
    else if len ≤ pos then ⟨0, pos, memcpy⟩
    else if len < pos + count then ⟨-14, pos, memcpy⟩
    else
      let ops := memcpy ++ [.read src pos count]
      if copied then ⟨count, pos + count, ops⟩ else ⟨-14, pos, ops⟩

/-! ## Kernel exceptions -/

/-- `struct aee_user_thread_stack`, `struct aee_user_thread_maps`: the block and how many bytes of
it are the thread's. -/
structure UserThread where
  tid : UInt32
  length : Nat
  block : List UInt8
  length_le : length ≤ block.length
  length_lt : length < 2147483648

/-- The members before the pointer. -/
def UserThread.head (t : UserThread) : List UInt8 :=
  Bytes.ofNat 4 t.tid.toNat ++ Bytes.ofNat 4 t.length

/-- `struct aee_oops` -/
structure Oops where
  module : Text 64
  backtrace : Text 3072
  detailSize : Nat
  detail : Option (Text detailSize)
  detailLen : Nat
  userthreadStack : UserThread
  userthreadReg : List UInt8
  userthreadMaps : UserThread
  dumpOption : UInt32
  detailLen_lt : detailLen < 2147483648
  userthreadReg_lt : userthreadReg.length < 2147483648

def notavailMsg (alloc : Bool) : Option Msg :=
  (msgCreate alloc 0).map fun m => { m with cmdType := aeRsp, arg := aeNotAvailable, len := 0 }

def keGenNotavailMsg (alloc : Bool) : Option Msg := notavailMsg alloc

/-- A message of a fixed text. -/
def literalMsg (alloc : Bool) (cmdId : Nat) (text : List UInt8) (size : Nat) : Option Msg :=
  (msgCreate alloc size).map (·.answer cmdId size (strncpy 24 text size))

def keGenClassMsg (alloc : Bool) : Option Msg :=
  literalMsg alloc aeReqClass (ascii "Kernel (KE)") 12

def keGenTypeMsg (alloc : Bool) : Option Msg := literalMsg alloc aeReqType (ascii "PANIC") 6

def keGenModuleMsg (alloc : Bool) (o : Oops) : Option Msg :=
  let size := o.module.chars.length + 1
  (msgCreate alloc size).map (·.answer aeReqModule size (o.module.read :: strlcpy 24 o.module 64))

def keGenDetailMsg (alloc : Bool) (o : Oops) : Option Msg :=
  let size := i32 (o.detailLen + 1)
  let copy := match o.detail with
    | none => []
    | some detail => strlcpy 24 detail o.detailLen
  (msgCreate alloc size).map
    (·.answer aeReqDetail size (copy ++ [.write (24 + o.detailLen) [0]]))

def keGenBacktraceMsg (alloc : Bool) (o : Oops) : Option Msg :=
  -- the length is that of the copy
  let data := o.backtrace.chars.take 3071 ++ [0]
  (msgCreate alloc 3072).map
    (·.answer aeReqBacktrace (strlen data + 1) (strlcpy 24 o.backtrace 3072))

/-- A message of fixed size with a thread's members and bytes. -/
def userThreadMsg (alloc : Bool) (cmdId : Nat) (extra : Int) (t : UserThread) : Option Msg :=
  let userinfoLen := i32 (t.length + 8)
  (msgCreate alloc extra).map (·.answer cmdId userinfoLen
    [.read 16 0 8, .write 24 t.head, .read t.block.length 0 t.length,
      .write 32 (t.block.take t.length)])

def keGenUserbacktraceMsg (alloc : Bool) (o : Oops) : Option Msg :=
  userThreadMsg alloc aeReqUserspacebacktrace 8100 o.userthreadStack

def keGenUsermapsMsg (alloc : Bool) (o : Oops) : Option Msg :=
  userThreadMsg alloc aeReqUserMaps 65536 o.userthreadMaps

def keGenUserRegMsg (alloc : Bool) (o : Oops) : Option Msg :=
  let size := o.userthreadReg.length
  (msgCreate alloc size).map
    (·.answer aeReqUserReg size [.read size 0 size, .write 24 o.userthreadReg])

/-! ## External exceptions -/

/-- `struct aed_eerec`, as it is recorded: never without a log. -/
structure Eerec where
  assertType : Text 32
  expFilename : Text 512
  expLinenum : UInt32
  fatal1 : UInt32
  fatal2 : UInt32
  eeLog : List UInt8
  eePhySize : Nat
  eeLog_lt : eeLog.length < 2147483648
  eePhySize_lt : eePhySize < 2147483648

/-- The buffer that `aee_dump_ccci_debug_info` gives, of a size that is an `int`. -/
structure CcciLog where
  bytes : List UInt8
  length_lt : bytes.length < 2147483648

def eeGenNotavailMsg (alloc : Bool) : Option Msg := notavailMsg alloc

def eeGenClassMsg (alloc : Bool) : Option Msg :=
  literalMsg alloc aeReqClass (ascii "External (EE)") 14

def eeGenTypeMsg (alloc : Bool) (e : Eerec) : Option Msg :=
  let size := e.assertType.chars.length + 1
  (msgCreate alloc size).map (·.answer aeReqType size
    (e.assertType.read :: strncpy 24 e.assertType.chars e.assertType.chars.length))

/-- `, filename=%s,line=%d` -/
def Eerec.fileText (e : Eerec) : List UInt8 :=
  ascii ", filename=" ++ e.expFilename.chars ++ ascii ",line=" ++
    decimal (i32 e.expLinenum.toNat)

/-- `, err1=%d,err2=%d` -/
def Eerec.fatalText (e : Eerec) : List UInt8 :=
  ascii ", err1=" ++ decimal (i32 e.fatal1.toNat) ++ ascii ",err2=" ++
    decimal (i32 e.fatal2.toNat)

/-- `ee_gen_process_msg`; of the texts printed for a line number only the first is held to a size
of its own. -/
def eeGenProcessMsg (alloc : Bool) (e : Eerec) : Option Msg :=
  let n : Int × List Access :=
    if e.expLinenum ≠ 0 then
      let n := snprintf 24 32 e.assertType.chars
      let l :=
        if e.expFilename.chars ≠ [] then snprintf (24 + n.1) (512 - n.1) e.fileText
        else if e.fatal1 ≠ 0 ∧ e.fatal2 ≠ 0 then snprintf (24 + n.1) (512 - n.1) e.fatalText
        else (0, [])
      (n.1 + l.1, e.assertType.read :: (n.2 ++ l.2))
    else snprintf 24 512 e.expFilename.chars
  (msgCreate alloc 512).map (·.answer aeReqProcess (n.1 + 1) (e.expFilename.read :: n.2))

/-- The number of times that a loop `for (i = 0; i < size / 4; i += 4)` is run. -/
def lines (size : Nat) : Nat := (size / 4 + 3) / 4

/-- `0x%08X 0x%08X 0x%08X 0x%08X\n` of the four words from some word on. -/
def wordLine (mem : List UInt8) (i : Nat) : List UInt8 :=
  ascii "0x" ++ hex8 (Bytes.word mem i) ++ ascii " 0x" ++ hex8 (Bytes.word mem (i + 1)) ++
    ascii " 0x" ++ hex8 (Bytes.word mem (i + 2)) ++ ascii " 0x" ++
    hex8 (Bytes.word mem (i + 3)) ++ ascii "\n"

/-- The prints of the loop over the words of a log, from some word on. -/
def wordLines (mem : List UInt8) : Nat → Nat → List Print
  | 0, _ => []
  | k + 1, i =>
    ⟨wordLine mem i, [.read mem.length (4 * i) 16], false⟩ :: wordLines mem k (i + 4)

def memDump (size : Nat) (clamped : Bool) : Print :=
  ⟨ascii "== MEM DUMP(" ++ decimal size ++ ascii ") ==\n", [], clamped⟩

/-- `strncmp(assert_type, name, strlen(name)) == 0` -/
def Eerec.Is (e : Eerec) (name : String) : Prop := ascii name <+: e.assertType.chars

instance (e : Eerec) (name : String) : Decidable (e.Is name) :=
  inferInstanceAs (Decidable (_ <+: _))

section

variable (sscanf : List UInt8 → Option Int) (aeeDumpCcciDebugInfo : Int → Option CcciLog)

/-- The log of the modem whose number the text gives; `sscanf` finds the number in `md%d:`. -/
def Eerec.ccciLog (e : Eerec) : Option CcciLog :=
  if e.Is "md32" then none
  else if e.Is "modem" then (sscanf e.expFilename.chars).bind aeeDumpCcciDebugInfo
  else none

/-- The bytes of the log of the modem. -/
def Eerec.ccciLogSize (e : Eerec) : Nat :=
  match e.ccciLog sscanf aeeDumpCcciDebugInfo with
  | none => 0
  | some c => c.bytes.length

/-- `msgsize` -/
def Eerec.msgsize (e : Eerec) : Int :=
  if e.Is "md32" then i32 (e.eeLog.length + 128)
  else i32 ((e.eeLog.length + e.ccciLogSize sscanf aeeDumpCcciDebugInfo) * 4 + 128)

/-- The log itself: as a text for `md32`, which ends at the first zero byte wherever that is, and as
words otherwise. -/
def Eerec.logPrints (e : Eerec) : List Print :=
  if e.Is "md32" then
    [⟨ascii "== EXTERNAL EXCEPTION LOG ==\n" ++ e.eeLog.take (strlen e.eeLog) ++ ascii "\n",
      [.read e.eeLog.length 0 (strlen e.eeLog + 1)], true⟩]
  else
    ⟨ascii "== EXTERNAL EXCEPTION LOG ==\n", [], false⟩ ::
      wordLines e.eeLog (lines e.eeLog.length) 0

def CcciLog.prints (c : CcciLog) : List Print :=
  ⟨ascii "== CCCI LOG ==\n", [], false⟩ :: (wordLines c.bytes (lines c.bytes.length) 0 ++
    [memDump c.bytes.length false])

/-- What `ee_gen_detail_msg` prints, in order. -/
def Eerec.detailPrints (e : Eerec) : List Print :=
  e.logPrints ++ memDump e.eePhySize true ::
    match e.ccciLog sscanf aeeDumpCcciDebugInfo with
    | none => []
    | some c => c.prints

def eeGenDetailMsg (alloc : Bool) (e : Eerec) : Option Msg :=
  let msgsize := e.msgsize sscanf aeeDumpCcciDebugInfo
  let n := printAll 24 msgsize (e.detailPrints sscanf aeeDumpCcciDebugInfo) 0
  let number := if e.Is "modem" then [e.expFilename.read] else []
  (msgCreate alloc msgsize).map
    (·.answer aeReqDetail (n.1 + 1) (e.assertType.read :: (number ++ n.2)))

end

def eeGenCoredumpMsg (alloc : Bool) : Option Msg :=
  let n := snprintf 24 256 (ascii "/proc/aed/current-ee-coredump")
  -- the length is that of the text in the message
  let data := (ascii "/proc/aed/current-ee-coredump").take 255 ++ [0]
  (msgCreate alloc 256).map (·.answer aeReqCoredump (strlen data + 1) n.2)

/-! ## Requests -/

/-- A call of `write`: the request and whether its bytes are to be had. -/
structure Request where
  count : Nat
  readable : Bool
  cmdType : Nat
  cmdId : Nat

/-- The call has a request that is to be answered. -/
def Request.Answered (r : Request) : Prop := r.count = 24 ∧ r.readable = true ∧ r.cmdType = aeReq

instance (r : Request) : Decidable r.Answered := inferInstanceAs (Decidable (_ ∧ _))

/-- `ke_log_avail`: a process and a dump of different width do not go together. -/
def keLogAvail (compat : Bool) (lastlog : Option Oops) : Option Oops :=
  lastlog.filter fun o => compat == (o.dumpOption &&& 0x80000000 == 0)

/-- `aed_ke_write`: the message afterwards. -/
def aedKeWrite (compat : Bool) (lastlog : Option Oops) (alloc : Bool) (r : Request) : Option Msg :=
  if r.Answered then
    match keLogAvail compat lastlog with
    | none => keGenNotavailMsg alloc
    | some o =>
      if r.cmdId = aeReqClass then keGenClassMsg alloc
      else if r.cmdId = aeReqType then keGenTypeMsg alloc
      else if r.cmdId = aeReqModule then keGenModuleMsg alloc o
      else if r.cmdId = aeReqDetail then keGenDetailMsg alloc o
      else if r.cmdId = aeReqBacktrace then keGenBacktraceMsg alloc o
      else if r.cmdId = aeReqUserspacebacktrace then keGenUserbacktraceMsg alloc o
      else if r.cmdId = aeReqUserReg then keGenUserRegMsg alloc o
      else if r.cmdId = aeReqUserMaps then keGenUsermapsMsg alloc o
      else keGenNotavailMsg alloc
  else none

/-- `aed_ee_write`: the message afterwards. -/
def aedEeWrite (sscanf : List UInt8 → Option Int) (aeeDumpCcciDebugInfo : Int → Option CcciLog)
    (eerec : Option Eerec) (alloc : Bool) (r : Request) : Option Msg :=
  match eerec with
  | none => none
  | some e =>
    if r.Answered then
      if r.cmdId = aeReqClass then eeGenClassMsg alloc
      else if r.cmdId = aeReqType then eeGenTypeMsg alloc e
      else if r.cmdId = aeReqDetail then eeGenDetailMsg sscanf aeeDumpCcciDebugInfo alloc e
      else if r.cmdId = aeReqProcess then eeGenProcessMsg alloc e
      else if r.cmdId = aeReqBacktrace then eeGenNotavailMsg alloc
      else if r.cmdId = aeReqCoredump then eeGenCoredumpMsg alloc
      else eeGenNotavailMsg alloc
    else none

end Aee.Reply
