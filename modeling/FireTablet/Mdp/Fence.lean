import FireTablet.Lib.CInt
import FireTablet.Lib.Run
import FireTablet.Lib.SearchTree
import Mathlib.Data.Finset.Card
import Mathlib.Algebra.GroupWithZero.Nat

/-!
# The fence timelines of the display processor (`mdp_fence.c`)

A timeline has a 32-bit counter. A fence waits on it for a value; the waiting fences are in a list
and in a red-black tree, both under the lock of the timeline. An operation that takes the lock while
it holds it, which never returns, gives `none`. What the red-black tree does to stay balanced is a
parameter.

A fence is live from its allocation until its memory is freed. Other code in the kernel may take and
drop references to a fence; the fence whose last reference is dropped is released by an operation
of its own, so that others come in between.
-/

namespace Mdp.Fence

open SearchTree

abbrev FenceId := Nat

/-- `struct sync_pt` with its `struct dma_fence`. -/
structure SyncPt where
  seqno : Int
  refs : Nat
  signaled : Bool
  deriving DecidableEq

/-- `struct sync_timeline` with its fences and `fd_counter`. -/
structure Timeline where
  value : Int
  ptList : List FenceId
  ptTree : SearchTree.Tree FenceId
  live : Finset FenceId
  pt : FenceId → SyncPt
  next : FenceId
  fdCounter : Nat
  kref : Nat
  opened : Bool

/-- `mdp_sync_open`: `mdp_timeline_create`, with the reference of the file. -/
def mdpSyncOpen : Timeline where
  value := 0
  ptList := []
  ptTree := .nil
  live := ∅
  pt := fun _ => ⟨0, 0, false⟩
  next := 0
  fdCounter := 0
  kref := 1
  opened := true

def enomem : Int := -12

def efault : Int := -14

def emfile : Int := -24

def fdMax : Nat := 500

def intMax : Nat := 2147483647

/-- `__dma_fence_is_later` for 32-bit numbers. -/
def isLater (f1 f2 : Int) : Bool := 0 < CInt.i32 (f1 - f2)

/-- The timeline with one fence replaced. -/
def Timeline.setPt (s : Timeline) (f : FenceId) (p : SyncPt) : Timeline :=
  { s with pt := Function.update s.pt f p }

/-- `timeline_fence_signaled`. -/
def Timeline.signaled (s : Timeline) (f : FenceId) : Bool := !isLater (s.pt f).seqno s.value

section
variable (rb : Rebalancing FenceId)

/-- A fence taken out of the list and the tree. -/
def Timeline.unlink (s : Timeline) (f : FenceId) : Timeline :=
  { s with ptList := s.ptList.erase f, ptTree := rb.erase f s.ptTree }

/-- `timeline_fence_release`, where `held` says whether its caller holds the lock. -/
def timelineFenceRelease (held : Bool) (s : Timeline) (f : FenceId) : Option Timeline :=
  if held then none
  else
    let s := if f ∈ s.ptList then s.unlink rb f else s
    some { s with live := s.live.erase f, kref := s.kref - 1, fdCounter := s.fdCounter - 1 }

/-- `dma_fence_put`. -/
def dmaFencePut (held : Bool) (s : Timeline) (f : FenceId) : Option Timeline :=
  let s := s.setPt f { s.pt f with refs := (s.pt f).refs - 1 }
  if (s.pt f).refs = 0 then timelineFenceRelease rb held s f else some s

/-- `dma_fence_signal_locked`, where a callback on a fence of `drops` drops a reference to it. -/
def dmaFenceSignalLocked (drops : List FenceId) (s : Timeline) (f : FenceId) : Option Timeline :=
  let s := s.setPt f { s.pt f with signaled := true }
  if f ∈ drops then dmaFencePut rb true s f else some s

/-- The loop of `sync_timeline_signal`, up to the first fence that is not due. -/
def signalLoop (drops : List FenceId) : List FenceId → Timeline → Option Timeline
  | [], s => some s
  | f :: fs, s =>
    if !s.signaled f then some s
    else do
      let s ← dmaFenceSignalLocked rb drops (s.unlink rb f) f
      signalLoop drops fs s

/-- `sync_timeline_signal`. -/
def syncTimelineSignal (drops : List FenceId) (s : Timeline) (inc : Nat) : Option Timeline :=
  signalLoop rb drops s.ptList { s with value := CInt.i32 (s.value + inc) }

/-- Where the walk down the tree goes from a fence: to the right of an earlier one, to the left of
a later one and of one without references, and nowhere from another with the same value. -/
def direction (s : Timeline) (value : Int) (other : FenceId) : Option Bool :=
  let cmp := CInt.i32 (value - (s.pt other).seqno)
  if cmp > 0 then some false
  else if cmp < 0 then some true
  else if (s.pt other).refs ≠ 0 then none
  else some true

/-- `rb_next`. -/
def rbNext (f : FenceId) : List FenceId → Option FenceId
  | [] => none
  | g :: gs => if g = f then gs.head? else rbNext f gs

/-- `list_add_tail` before a fence, or at the end. -/
def listAddTail (f : FenceId) (before : Option FenceId) : List FenceId → List FenceId
  | [] => [f]
  | g :: gs => if before = some g then f :: g :: gs else g :: listAddTail f before gs

/-- `sync_pt_create`, after its allocation. Another fence with the same value gets a reference and
the new one is put while the lock is held. -/
def syncPtCreate (s : Timeline) (value : Int) : Option (FenceId × Timeline) :=
  let f := s.next
  let s := { s.setPt f ⟨value, 1, false⟩ with
    live := insert f s.live, next := f + 1, kref := s.kref + 1, fdCounter := s.fdCounter + 1 }
  if s.signaled f then some (f, s.setPt f ⟨value, 1, true⟩)
  else
    match s.ptTree.linkAt (direction s value) f with
    | none => none
    | some tree =>
      let tree := rb.color tree
      some (f, { s with
        ptTree := tree, ptList := listAddTail f (rbNext f tree.inorder) s.ptList })

/-- A call of `mdp_sync_ioctl_create_fence`: the value, and which of its steps succeed. -/
structure Create where
  value : UInt32
  fdOk : Bool
  copyIn : Bool
  alloc : Bool
  fileOk : Bool
  copyOut : Bool

/-- What an operation shows: its result, the fence it creates, and the values that the counter has
while it runs. -/
structure Out where
  result : Int
  created : Option FenceId
  counters : List Int
  deriving DecidableEq

/-- `mdp_sync_ioctl_create_fence`. The file of the fence takes a reference and the first one is
dropped; without a file, or when the file is closed again, the last reference goes. -/
def mdpSyncIoctlCreateFence (s : Timeline) (c : Create) : Option (Out × Timeline) :=
  if s.fdCounter > fdMax then some (⟨efault, none, []⟩, s)
  else if !c.fdOk then some (⟨emfile, none, []⟩, s)
  else if !c.copyIn then some (⟨efault, none, []⟩, s)
  else if !c.alloc then some (⟨enomem, none, []⟩, s)
  else do
    let (f, s) ← syncPtCreate rb s c.value.toNat
    if !c.fileOk then
      let s ← dmaFencePut rb false s f
      some (⟨enomem, none, []⟩, s)
    else
      let s := s.setPt f { s.pt f with refs := (s.pt f).refs + 1 }
      let s ← dmaFencePut rb false s f
      if !c.copyOut then
        let s ← dmaFencePut rb false s f
        some (⟨efault, none, []⟩, s)
      else some (⟨0, some f, [s.value]⟩, s)

/-- The increments of `mdp_sync_ioctl_inc`. -/
def incParts (value : Nat) : List Nat :=
  if _h : value > intMax then intMax :: incParts (value - intMax) else [value]
termination_by value
decreasing_by
  simp only [intMax] at *
  omega

/-- One increment after another, with the values of the counter. -/
def signalAll (drops : List FenceId) (s : Timeline) : List Nat → Option (List Int × Timeline)
  | [] => some ([], s)
  | inc :: incs => do
    let s ← syncTimelineSignal rb drops s inc
    let (cs, s') ← signalAll drops s incs
    some (s.value :: cs, s')

/-- `mdp_sync_ioctl_inc`. -/
def mdpSyncIoctlInc (s : Timeline) (value : UInt32) (copyIn : Bool) (drops : List FenceId) :
    Option (Out × Timeline) :=
  if !copyIn then some (⟨efault, none, []⟩, s)
  else do
    let (cs, s) ← signalAll rb drops s (incParts value.toNat)
    some (⟨0, none, cs⟩, s)

/-- The operations on a timeline. -/
inductive Op
  | create (c : Create)
  | inc (value : UInt32) (copyIn : Bool) (drops : List FenceId)
  | get (f : FenceId)
  | put (f : FenceId)
  | release (f : FenceId)
  | close

/-- One operation. The file is used while it is open, a reference is taken and dropped by one who
has a reference, and a fence without references is released. -/
def step (s : Timeline) : Op → Option (Out × Timeline)
  | .create c => if s.opened then mdpSyncIoctlCreateFence rb s c else some (⟨0, none, []⟩, s)
  | .inc value copyIn drops =>
    if s.opened then mdpSyncIoctlInc rb s value copyIn drops else some (⟨0, none, []⟩, s)
  | .get f =>
    if f ∈ s.live ∧ 0 < (s.pt f).refs then
      some (⟨0, none, []⟩, s.setPt f { s.pt f with refs := (s.pt f).refs + 1 })
    else some (⟨0, none, []⟩, s)
  | .put f =>
    if f ∈ s.live ∧ 0 < (s.pt f).refs then
      some (⟨0, none, []⟩, s.setPt f { s.pt f with refs := (s.pt f).refs - 1 })
    else some (⟨0, none, []⟩, s)
  | .release f =>
    if f ∈ s.live ∧ (s.pt f).refs = 0 then
      (timelineFenceRelease rb false s f).map fun s => (⟨0, none, []⟩, s)
    else some (⟨0, none, []⟩, s)
  | .close =>
    if s.opened then some (⟨0, none, []⟩, { s with kref := s.kref - 1, opened := false })
    else some (⟨0, none, []⟩, s)

end

end Mdp.Fence
