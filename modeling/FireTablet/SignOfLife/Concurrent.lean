import FireTablet.Lib.Pool
import FireTablet.SignOfLife.Rtc

/-!
# The operations as sequences of locked accesses (`amzn_sign_of_life_rtc_impl.c`)

The RTC lock is taken for an access, not for an operation. `rtc_mark_quiescent` and each step of
`rtc_clear_life_cycle_reason` read and write a register under one lock, and
`rtc_write_life_cycle_reason` reads under one and writes under another. A task is what is left of an
operation, from one locked access to the next.
-/

namespace SignOfLife

/-- What is left of an operation: the next locked access, with the values of the local variables
that it uses. -/
inductive LcrTask
  | readField (c : Category) (reason : LifeCycleReason)
  | writeField (c : Category) (reason : LifeCycleReason) (rtcBreason : BitVec 16)
  | readParity
  | sumParity (rtcBreason : BitVec 16) (c : Category) (cs : List Category)
      (parity : BitVec 32 × Nat)
  | writeParity (rtcBreason : BitVec 16) (x : BitVec 32)
  | clearFields (c : Category) (cs : List Category)
  | clearParity
  | mark (value : Int)
  | done
  deriving DecidableEq

/-- The first access of an operation. -/
def LcrOp.start : LcrOp → LcrTask
  | .write c reason => .readField c reason
  | .clear => .clearFields .boot [.shutdown, .thermalShutdown, .special]
  | .mark value => .mark value

/-- What an access means for the store: it puts a reason in a field, or none, or marks it. -/
inductive LcrEffect
  | wrote (c : Category) (reason : LifeCycleReason)
  | cleared (c : Category)
  | marked (value : Int)
  | quiet
  deriving DecidableEq

/-- The code of a reason, `life_cycle_breason`. -/
def lifeCycleBreason (c : Category) (reason : LifeCycleReason) : BitVec 16 :=
  BitVec.ofNat 16 (searchRtcByLcr (lifeCycleReason c).rtcToLcr reason)

/-- One round of the loop of `get_sign_of_life_parity`, for the value that is read. -/
def packReason (parity : BitVec 32 × Nat) (c : Category) (rtcValue : BitVec 16) :
    BitVec 32 × Nat :=
  (parity.1 ||| ((lifeCycleReason c).get rtcValue).setWidth 32 <<< parity.2,
    parity.2 + countBits 32 ((lifeCycleReason c).mask >>> (lifeCycleReason c).shift).toNat)

/-- One locked access. -/
def lcrAct (regs : Regs) : LcrTask → LcrEffect × Regs × LcrTask
  | .readField c reason =>
    (.quiet, regs, .writeField c reason (regs (lifeCycleReason c).reg))
  | .writeField c reason rtcBreason =>
    (.wrote c reason, Function.update regs (lifeCycleReason c).reg
      ((lifeCycleReason c).set rtcBreason (lifeCycleBreason c reason)), .readParity)
  | .readParity =>
    (.quiet, regs, .sumParity (regs parityReg) .boot [.shutdown, .thermalShutdown, .special] (0, 0))
  | .sumParity rtcBreason c cs parity =>
    let parity := packReason parity c (regs (lifeCycleReason c).reg)
    (.quiet, regs, match cs with
      | [] => .writeParity rtcBreason (xorBits parity.2 parity.1 0)
      | c :: cs => .sumParity rtcBreason c cs parity)
  | .writeParity rtcBreason x =>
    (.quiet, Function.update regs parityReg (parityField.set rtcBreason (x.setWidth 16)), .done)
  | .clearFields c cs =>
    (.cleared c, Function.update regs (lifeCycleReason c).reg
      (regs (lifeCycleReason c).reg &&& ~~~(lifeCycleReason c).mask),
      match cs with
      | [] => .clearParity
      | c :: cs => .clearFields c cs)
  | .clearParity =>
    (.quiet, Function.update regs parityReg (regs parityReg &&& ~~~parityField.mask), .done)
  | .mark value => (.marked value, rtcMarkQuiescent value regs, .done)
  | .done => (.quiet, regs, .done)

/-- The registers, and the operations that are under way. -/
abbrev LcrPool := Pool Regs LcrTask

/-- Operations that all start from some registers. -/
def lcrPool (regs : Regs) (ops : List LcrOp) : LcrPool := ⟨regs, ops.map LcrOp.start⟩

end SignOfLife
