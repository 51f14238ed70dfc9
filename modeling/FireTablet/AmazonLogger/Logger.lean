import FireTablet.Lib.Buf
import FireTablet.Lib.Run
import Mathlib.Algebra.Group.Nat.Defs
import Mathlib.Algebra.GroupWithZero.Nat

/-!
# The metrics and vitals logs (`amazon_logger.c`)

`logger_kernel_write` gathers the segments of an entry behind a header in an event of the kernel's
ring buffer, and `amazon_logger_read` hands out one entry a call. The ring buffer is a queue of
events: what a reservation gives, and what its data area held before, comes with each write. A
length is a number below `2 ^ 64`, an access outside of an event's data gives `none`.
-/

namespace AmazonLogger

/-- `struct logger_entry`; the numbers behind the length are kept as their 32 bits. -/
structure LoggerEntry where
  len : Nat
  pad : Nat
  pid : UInt32
  tid : UInt32
  sec : UInt32
  nsec : UInt32

/-- The entry as it lies in memory. -/
def LoggerEntry.encode (h : LoggerEntry) : List UInt8 :=
  Bytes.ofNat 2 h.len ++ (Bytes.ofNat 2 h.pad ++ Bytes.ofWords [h.pid, h.tid, h.sec, h.nsec])

/-- `sizeof(struct logger_entry)`. -/
def entrySize : Nat := 20

/-- `LOGGER_ENTRY_MAX_PAYLOAD`. -/
def loggerEntryMaxPayload : Nat := 4076

/-- An event of the ring buffer with its length, `ring_buffer_event_length`. -/
structure Event where
  length : Nat
  data : Buf length

/-- A call of `logger_kernel_write`: the segments, the process, the time, and the event that the
ring buffer reserves for it. -/
structure Write where
  segs : List (List UInt8)
  pid : UInt32
  tid : UInt32
  sec : UInt32
  nsec : UInt32
  event : Option Event

/-- The length of all segments together. -/
def Write.total (w : Write) : Nat := (w.segs.map List.length).sum

/-- The header of the entry. -/
def Write.header (w : Write) : LoggerEntry where
  len := min w.total loggerEntryMaxPayload
  pad := 0
  pid := w.pid
  tid := w.tid
  sec := w.sec
  nsec := w.nsec

def enomem : Int := -12

def einval : Int := -22

def efault : Int := -14

/-- The difference of two `size_t`. -/
def sizeSub (a b : Nat) : Nat := (a + 2 ^ 64 - b) % 2 ^ 64

/-- The loop over the segments, with what is copied so far. -/
def copySegs {n : Nat} (hlen : Nat) : List (List UInt8) → Nat → Buf n → Option (Buf n)
  | [], _, d => some d
  | s :: segs, total, d => do
    let len := min s.length (sizeSub hlen total)
    let d ← d.write (entrySize + total) (s.take len)
    copySegs hlen segs (total + len) d

/-- `logger_kernel_write`. An event that is too short is committed as it is. -/
def loggerKernelWrite (q : List Event) (w : Write) : Option (Int × List Event) :=
  match w.event with
  | none => some (enomem, q)
  | some e =>
    if e.length < entrySize + w.header.len then some (enomem, q ++ [e])
    else do
      let d ← e.data.write 0 w.header.encode
      let d ← copySegs w.header.len w.segs 0 d
      some (0, q ++ [⟨e.length, d⟩])

/-- A call of `amazon_logger_read`: the size of the caller's buffer, and whether the copy to it
faults. -/
structure Read where
  count : Nat
  fault : Bool

/-- What a read does: it waits while there is nothing to read (with `O_NONBLOCK` it returns
`-EAGAIN`), or returns a number and bytes. -/
inductive ReadRes
  | waits
  | ret (r : Int) (bytes : List UInt8)

/-- `amazon_logger_read`. The event is consumed even where the buffer is too small. -/
def amazonLoggerRead (q : List Event) (c : Read) : Option (ReadRes × List Event) :=
  match q with
  | [] => some (.waits, [])
  | e :: q => do
    let hlen ← e.data.read 0 2
    let len := min e.length (entrySize + Bytes.le hlen)
    if c.count < len then some (.ret einval [], q)
    else do
      let msg ← e.data.read 0 len
      if c.fault then some (.ret efault [], q) else some (.ret len msg, q)

/-! ## A reader and the whole ring buffer

The ring buffer has a queue of its own for each possible cpu. A reader looks whether there is
anything, waits, and takes an event under the logger's mutex; if another reader was faster it starts
again. -/

/-- `struct ring_buffer`: the events of each cpu. -/
abbrev RingBuffer := List (List Event)

/-- `ring_buffer_find_cpu`. -/
def ringBufferFindCpu (b : RingBuffer) : Option Nat := b.findIdx? fun q => !q.isEmpty

def eagain : Int := -11

def eintr : Int := -4

/-- How waiting for data ends: with data or none, with an error of `ring_buffer_wait`, or with a
signal pending. -/
inductive Wait
  | woken
  | failed (ret : Int)
  | signal

/-- A reader that goes once through the loop; `consumed` is whether `ring_buffer_consume` gives an
event of the cpu that was found. -/
structure Turn extends Read where
  nonblock : Bool
  wait : Wait
  consumed : Bool

/-- One turn of `amazon_logger_read`. -/
def amazonLoggerReadTurn (b : RingBuffer) (c : Turn) : Option (ReadRes × RingBuffer) :=
  match ringBufferFindCpu b with
  | none =>
    if c.nonblock then some (.ret eagain [], b)
    else
      match c.wait with
      | .woken => some (.waits, b)
      | .failed ret => some (.ret ret [], b)
      | .signal => some (.ret eintr [], b)
  | some cpu =>
    if c.consumed then
      (amazonLoggerRead (b.getD cpu []) c.toRead).map fun (res, q) => (res, b.set cpu q)
    else some (.ret 0 [], b)

/-! ## Creating the logs

A logger is known by its address. `allocated` are the loggers that are not freed, `registered` those
whose misc device is. `none` is an access to a logger that is freed, or a list head that is
initialised while it is linked. -/

/-- The loggers and `log_list`. -/
structure Logs where
  allocated : List Nat
  registered : List Nat
  logList : List Nat
  deriving DecidableEq

/-- What the calls of `create_log` get: an address from `kzalloc`, whether the name and the buffer
are allocated, and the result of `misc_register`. -/
structure CreateEnv where
  kzalloc : Option Nat
  kstrdup : Bool
  ringBufferAlloc : Bool
  miscRegister : Int

/-- `kfree` of a logger. -/
def Logs.kfree (s : Logs) (log : Nat) : Logs := { s with allocated := s.allocated.erase log }

/-- `INIT_LIST_HEAD` and `list_add_tail`, which writes to the last entry. -/
def Logs.listAddTail (s : Logs) (log : Nat) : Option Logs :=
  if log ∈ s.logList ∨ ∃ last ∈ s.logList.getLast?, last ∉ s.allocated then none
  else some { s with logList := s.logList ++ [log] }

/-- `create_log`: the error or the logger. -/
def createLog (env : CreateEnv) (s : Logs) : Option (Except Int Nat × Logs) :=
  match env.kzalloc with
  | none => some (.error enomem, s)
  | some log =>
    let s := { s with allocated := log :: s.allocated }
    if ¬ env.kstrdup then some (.error enomem, s.kfree log)
    else if ¬ env.ringBufferAlloc then some (.error enomem, s.kfree log)
    else
      (s.listAddTail log).map fun s =>
        if env.miscRegister ≠ 0 then (.error env.miscRegister, s.kfree log)
        else (.ok log, { s with registered := log :: s.registered })

/-- `amazon_logger_exit`. -/
def amazonLoggerExit (s : Logs) : Option Logs :=
  if ∃ log ∈ s.logList, log ∉ s.allocated then none
  else some
    { allocated := s.allocated.filter (· ∉ s.logList)
      registered := s.registered.filter (· ∉ s.logList)
      logList := [] }

/-- What is done with the loggers. -/
inductive LogCall
  | create (env : CreateEnv)
  | exit

/-- One call: what `create_log` returns, `none` for the other call. -/
def logsStep (s : Logs) : LogCall → Option (Option (Except Int Nat) × Logs)
  | .create env => (createLog env s).map fun (r, s) => (some r, s)
  | .exit => (amazonLoggerExit s).map fun s => (none, s)

end AmazonLogger
