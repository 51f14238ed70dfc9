import FireTablet.Lib.Spsc

/-!
# The readers of the firmware logs (`atf_logger.c`, `sspm_logger_impl.c`)

The firmware appends to a ring in shared memory and moves the write index; a process reads the
ring through a file. One call of the reader goes step by step, and the firmware may store and
publish between any two steps. A `fault` at a step is a failing allocation or a copy to the caller
that faults, after some bytes have been stored.
-/

namespace LogReader

open Spsc

/-- An action of the firmware, a call of the read function, or the next step of the call. -/
inductive Act
  | store (i : Nat) (b : UInt8)
  | publish (n : Nat)
  | read (count : Nat) (nonblock : Bool)
  | step (fault : Option Nat)
  deriving DecidableEq

/-! ## `atf_log_read` -/

/-- Where the reader is in `atf_log_read` and `do_read_log_to_usr`. -/
inductive AtfPc
  | idle
  /-- in the loop that waits for the indices to differ -/
  | waiting (count : Nat) (nonblock : Bool)
  /-- before the indices are read again -/
  | entered (count : Nat)
  /-- before the first copy, with the indices read and the count narrowed -/
  | copying (w r count : Nat)
  /-- before the second copy, from the start of the ring -/
  | wrapping (r count : Nat) (buf : List UInt8)
  /-- before the read index is updated -/
  | storing (r count : Nat) (buf : List UInt8)
  deriving DecidableEq

/-- The reader with the file position. -/
structure Atf where
  ring : Spsc.Ring UInt8
  pc : AtfPc
  pos : Int

def eagain : Int := -11

def efault : Int := -14

/-- The length to copy, in 32 bits. -/
def copyLen (len w r : Nat) : Nat := (w + len + (2 ^ 32 - r)) % 2 ^ 32 % len

/-- `copy_to_user` of `n` bytes at `off`: what is stored, and whether all of it is. -/
def copyToUser (mem : Nat → UInt8) (off n : Nat) (fault : Option Nat) : List UInt8 × Bool :=
  match fault with
  | none => (Circ.slice mem off n, true)
  | some k => ((Circ.slice mem off n).take k, false)

/-- The end of `atf_log_read`: what `do_read_log_to_usr` returned is added to the position. -/
def Atf.finish (s : Atf) (ret : Int) (buf : List UInt8) : Out UInt8 × Atf :=
  (.returned ret buf, { s with pc := .idle, pos := s.pos + ret })

/-- The next step of a call, for a ring of `len` bytes. -/
def Atf.next (len : Nat) (s : Atf) (fault : Option Nat) : Option (Out UInt8 × Atf) :=
  match s.pc with
  | .idle => none
  | .waiting count nonblock =>
    if s.ring.w ≠ s.ring.r then some (.quiet, { s with pc := .entered count })
    else if nonblock then some (.returned eagain [], { s with pc := .idle })
    else some (.quiet, s)
  | .entered count =>
    let n := copyLen len s.ring.w s.ring.r
    let count := if n < count then n else count
    some (.quiet, { s with pc := .copying s.ring.w s.ring.r count })
  | .copying w r count =>
    if r < w then
      let c := copyToUser s.ring.mem r count fault
      if c.2 then some (.quiet, { s with pc := .storing r count c.1 }) else some (s.finish efault c.1)
    else
      let right := len - r
      if right < count then
        let c := copyToUser s.ring.mem r right fault
        if c.2 then some (.quiet, { s with pc := .wrapping r count c.1 })
        else some (s.finish efault c.1)
      else
        let c := copyToUser s.ring.mem r count fault
        if c.2 then some (.quiet, { s with pc := .storing r count c.1 })
        else some (s.finish efault c.1)
  | .wrapping r count buf =>
    let c := copyToUser s.ring.mem 0 (count - (len - r)) fault
    if c.2 then some (.quiet, { s with pc := .storing r count (buf ++ c.1) })
    else some (s.finish efault (buf ++ c.1))
  | .storing r count buf =>
    some (Atf.finish { s with ring := { s.ring with r := (r + count) % len } } count buf)

/-- The firmware or the reader acts. -/
def atfStep (len : Nat) (s : Atf) : Act → Option (Out UInt8 × Atf)
  | .store i b => (s.ring.store len i b).map fun q => (.quiet, { s with ring := q })
  | .publish n => (s.ring.publish len n).map fun p => (.published p.1, { s with ring := p.2 })
  | .read count nonblock =>
    if s.pc = .idle then some (.quiet, { s with pc := .waiting count nonblock }) else none
  | .step fault => s.next len fault

/-! ## `sspm_log_read` -/

/-- Where the reader is in `sspm_log_read`. -/
inductive SspmPc
  | idle
  /-- before the indices are read -/
  | entered (count : Nat)
  /-- before the buffer for the copy is allocated -/
  | allocating (r datalen : Nat)
  /-- before the bytes are copied from the ring -/
  | fetching (r datalen : Nat)
  /-- before the bytes are copied to the caller -/
  | copying (r datalen : Nat) (buf : List UInt8)
  /-- before the read index is updated, with the bytes that the caller has got -/
  | storing (r datalen : Nat) (buf : List UInt8)
  deriving DecidableEq

/-- The reader; `inited` is `sspm_logger_inited`, and `pos` the position of the file, which
`sspm_log_if_read` does not look at. -/
structure Sspm where
  ring : Spsc.Ring UInt8
  pc : SspmPc
  inited : Bool
  pos : Int

/-- The next step of a call. -/
def Sspm.next (len : Nat) (s : Sspm) (fault : Option Nat) : Option (Out UInt8 × Sspm) :=
  match s.pc with
  | .idle => none
  | .entered count =>
    if s.ring.r = s.ring.w then some (.returned 0 [], { s with pc := .idle })
    else
      let datalen := if s.ring.w < s.ring.r then len - s.ring.r else s.ring.w - s.ring.r
      let datalen := if count < datalen then count else datalen
      some (.quiet, { s with pc := .allocating s.ring.r datalen })
  | .allocating r datalen =>
    if fault.isNone then some (.quiet, { s with pc := .fetching r datalen })
    -- without a buffer the length of the copy is returned all the same
    else some (.returned datalen [], { s with pc := .idle })
  | .fetching r datalen =>
    some (.quiet, { s with pc := .copying r datalen (Circ.slice s.ring.mem r datalen) })
  | .copying r datalen buf =>
    -- a copy that faults is only reported in the log
    match fault with
    | none => some (.quiet, { s with pc := .storing r datalen buf })
    | some k => some (.quiet, { s with pc := .storing r datalen (buf.take k) })
  | .storing r datalen buf =>
    let r' := if len ≤ r + datalen then r + datalen - len else r + datalen
    some (.returned datalen buf, { s with pc := .idle, ring := { s.ring with r := r' } })

/-- The firmware or the reader acts. -/
def sspmStep (len : Nat) (s : Sspm) : Act → Option (Out UInt8 × Sspm)
  | .store i b => (s.ring.store len i b).map fun q => (.quiet, { s with ring := q })
  | .publish n => (s.ring.publish len n).map fun p => (.published p.1, { s with ring := p.2 })
  | .read count _ =>
    if s.pc = .idle then
      if s.inited then some (.quiet, { s with pc := .entered count })
      else some (.returned 0 [], s)
    else none
  | .step fault => s.next len fault

/-- No allocation fails and no copy to the caller faults. -/
def Act.NoFault : Act → Prop
  | .step fault => fault = none
  | _ => True

end LogReader
