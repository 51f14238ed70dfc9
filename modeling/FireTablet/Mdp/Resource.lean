import FireTablet.Lib.Run
import Mathlib.Data.Finset.Card

/-!
# The resource shared with a client (`mdp_common.c`)

An engine of the display processor can be lent to a client while no job uses it. A submission of a
job that names the engine takes the resource back, and when the engine becomes idle a delayed work
is queued that gives it up and tells the client. Every function takes the mutex of the resources and
drops it around the calls of the client, so a run of the work is two steps when it calls the client.
-/

namespace Mdp.Resource

abbrev JobId := Nat

/-- A job that has been submitted and has not ended. -/
structure Job where
  id : JobId
  engineFlag : Finset (Fin 64)
  dispatched : Bool
  deriving DecidableEq

/-- Where a run of the delayed work is. -/
inductive Work
  | idle
  | started
  | telling
  deriving DecidableEq

/-- `struct ResourceUnitStruct`, whether its client has set the callbacks, its work, and the jobs.
`pending` says that the work is queued. -/
structure State where
  engine : Fin 64
  availableCB : Bool
  releaseCB : Bool
  used : Bool
  lend : Bool
  delaying : Bool
  pending : Bool
  work : Work
  jobs : List Job
  deriving DecidableEq

/-- `cmdq_mdp_init_resource` with the callbacks. -/
def init (engine : Fin 64) (availableCB releaseCB : Bool) : State where
  engine := engine
  availableCB := availableCB
  releaseCB := releaseCB
  used := false
  lend := false
  delaying := false
  pending := false
  work := .idle
  jobs := []

/-- What a step shows: whether the client is told that the resource is available, whether it is
asked to release it, and the answer to its request for it. -/
structure Out where
  told : Bool
  asked : Bool
  acquired : Option Bool
  deriving DecidableEq

def Out.quiet : Out := ⟨false, false, none⟩

/-- `cmdq_mdp_lock_res_impl`. -/
def lockResImpl (s : State) : Out × State :=
  if !s.used then (⟨false, s.releaseCB, none⟩, { s with used := true })
  else if s.delaying then (.quiet, { s with delaying := false, pending := false })
  else (.quiet, s)

/-- `cmdq_mdp_delay_check_unlock` for the resource. A work that is queued already stays queued. -/
def delayCheckUnlock (s : State) : State :=
  let s := if s.delaying then { s with delaying := false, pending := false } else s
  { s with pending := true, delaying := true }

/-- `cmdq_mdp_unlock_resource` up to the call of the client. -/
def unlockResource (s : State) : State :=
  if s.used ∧ s.delaying then
    { s with used := false, delaying := false, work := if s.availableCB then .telling else .idle }
  else { s with work := .idle }

/-- `cmdq_mdp_flush_async_impl` of a job. -/
def flushAsyncImpl (s : State) (id : JobId) (engineFlag : Finset (Fin 64)) : Out × State :=
  let (o, s) := if s.engine ∈ engineFlag then lockResImpl s else (.quiet, s)
  (o, { s with jobs := s.jobs ++ [⟨id, engineFlag, false⟩] })

/-- The engine of a job that is released: no other dispatched job names it
(`cmdq_mdp_get_not_used_engine`). -/
def notUsed (s : State) (j : Job) : Bool :=
  s.engine ∈ j.engineFlag ∧
    ∀ k ∈ s.jobs, k.id ≠ j.id → k.dispatched = true → s.engine ∉ k.engineFlag

/-- `cmdq_mdp_unlock_thread` at the end of a dispatched job. -/
def unlockThread (s : State) (j : Job) : State :=
  let s' := if notUsed s j then delayCheckUnlock s else s
  { s' with jobs := s.jobs.filter (·.id ≠ j.id) }

/-- `cmdq_mdp_acquire_resource`. -/
def acquireResource (s : State) : Bool × State :=
  (!s.used, if !s.used ∧ !s.lend then { s with lend := true } else s)

/-- The steps: submissions, dispatches and the ends of jobs, after a dispatch or without one (a wait
that times out, the close of a file), the delayed work (its timer, the locked part and the call of
the client), and the requests of the client. -/
inductive Op
  | submit (id : JobId) (engineFlag : Finset (Fin 64))
  | dispatch (id : JobId)
  | complete (id : JobId)
  | cancel (id : JobId)
  | fire
  | unlock
  | tell
  | acquire
  | release

/-- The unfinished job of an id, when it was dispatched or was not. -/
def State.find (s : State) (id : JobId) (dispatched : Bool) : Option Job :=
  s.jobs.find? fun j => j.id = id ∧ j.dispatched = dispatched

def step (s : State) : Op → Option (Out × State)
  | .submit id engineFlag =>
    if s.jobs.any (·.id = id) then some (.quiet, s) else some (flushAsyncImpl s id engineFlag)
  | .dispatch id =>
    some (.quiet, { s with
      jobs := s.jobs.map fun j => if j.id = id then { j with dispatched := true } else j })
  | .complete id =>
    match s.find id true with
    | none => some (.quiet, s)
    | some j => some (.quiet, unlockThread s j)
  | .cancel id =>
    match s.find id false with
    | none => some (.quiet, s)
    | some j => some (.quiet, { s with jobs := s.jobs.filter (·.id ≠ j.id) })
  | .fire =>
    if s.pending ∧ s.work = .idle then
      some (.quiet, { s with pending := false, work := .started })
    else some (.quiet, s)
  | .unlock => if s.work = .started then some (.quiet, unlockResource s) else some (.quiet, s)
  | .tell =>
    if s.work = .telling then some (⟨true, false, none⟩, { s with work := .idle })
    else some (.quiet, s)
  | .acquire =>
    let (result, s) := acquireResource s
    some (⟨false, false, some result⟩, s)
  | .release => some (.quiet, { s with lend := false })

end Mdp.Resource
