import FireTablet.Aee.Queues
import Mathlib.Algebra.GroupWithZero.Nat
import Mathlib.Algebra.Order.BigOperators.Group.List
import Mathlib.Algebra.Order.Group.Nat
import Mathlib.Data.List.Range

/-!
# Runs of the exception queues

As long as a worker destroys its record only while no call of the daemon that has found a record is
under way, no step of a run meets a freed record, each record is presented at most once, and each is
unlinked and freed once, in the order of the reports (`queue_runs`).

* `work_spec`, `callStep_spec`: the worker is at the first record of the queue, which is in its
  place from the time it is put there until it is destroyed, and what a call has found is that
  record (`Inv`).
* `freed_all`: from every state of such a run the calls and the worker alone free all records. A
  call that waits for the semaphore waits for one that goes on (`Sem.free_or`), and every such step
  leaves less to do (`nearer`).
* `queue_runs_timeout`: without the condition, both kinds use a freed record.
-/

namespace Aee.Queues

variable {k : Kind} {s s' : Side} {es : List (Op × Out)} {i : Op} {r : RecId}

/-! ## What a run shows -/

/-- The records whose indication was raised. -/
def indicatedOf (es : List (Op × Out)) : List RecId :=
  es.filterMap fun e => match e.2 with
    | .indicated r => some r
    | _ => none

/-- The records that were unlinked. -/
def unlinkedOf (es : List (Op × Out)) : List RecId :=
  es.filterMap fun e => match e.2 with
    | .unlinked r => some r
    | _ => none

/-- The records that were freed. -/
def freedOf (es : List (Op × Out)) : List RecId :=
  es.filterMap fun e => match e.2 with
    | .freed r => some r
    | _ => none

/-- A step that shows nothing of this. -/
def Out.Silent (o : Out) : Prop := ∀ r, o ≠ .indicated r ∧ o ≠ .unlinked r ∧ o ≠ .freed r

theorem silent_quiet : Out.quiet.Silent := fun _ => ⟨nofun, nofun, nofun⟩

theorem silent_read (m : Option Msg) : (Out.read m).Silent := fun _ => ⟨nofun, nofun, nofun⟩

@[simp] theorem indicatedOf_append (es es' : List (Op × Out)) :
    indicatedOf (es ++ es') = indicatedOf es ++ indicatedOf es' := List.filterMap_append

@[simp] theorem unlinkedOf_append (es es' : List (Op × Out)) :
    unlinkedOf (es ++ es') = unlinkedOf es ++ unlinkedOf es' := List.filterMap_append

@[simp] theorem freedOf_append (es es' : List (Op × Out)) :
    freedOf (es ++ es') = freedOf es ++ freedOf es' := List.filterMap_append

theorem Out.Silent.shows {o : Out} (h : o.Silent) : indicatedOf [(i, o)] = [] ∧
    unlinkedOf [(i, o)] = [] ∧ freedOf [(i, o)] = [] := by
  cases o with
  | quiet => exact ⟨rfl, rfl, rfl⟩
  | indicated r => exact absurd rfl (h r).1
  | unlinked r => exact absurd rfl (h r).2.1
  | freed r => exact absurd rfl (h r).2.2
  | read m => exact ⟨rfl, rfl, rfl⟩

/-! ## The invariant -/

/-- The pointers to records that a call holds. -/
def CallPc.held : CallPc → List RecId
  | .readHolds r => [r]
  | .write held _ | .writing held _ | .request held _ | .answer held _ => held.toList
  | .holds held r _ => r :: held.toList
  | _ => []

/-- The call has found a record. -/
def CallPc.busy : CallPc → Bool
  | .found | .readHolds _ | .holds .. => true
  | .write held _ | .writing held _ | .request held _ => held.isSome
  | .answer held n => held.isSome || 0 < n
  | _ => false

/-- The record that is unlinked and not freed. -/
def WorkerPc.dying : WorkerPc → List RecId
  | .destroy r _ => [r]
  | _ => []

/-- The record in the queue whose indication may have been raised. -/
def WorkerPc.shown : WorkerPc → List RecId
  | .initCom r _ | .wait r _ | .unlink r _ _ => [r]
  | _ => []

/-- Work is pending, or will be. -/
def Side.Woken (s : Side) : Prop := 0 < s.kick ∨ s.pending = true

/-- The next entry of the loop is the first of the rest, or the rest will be worked on later. -/
def Side.Ahead (s : Side) (next : Option RecId) (rest : List RecId) : Prop :=
  match next with
  | some n => rest.head? = some n
  | none => rest = [] ∨ s.Woken

/-- What the worker knows: it is at the first record of the queue, which is in its place from the
time it is put there until it is destroyed. -/
def Side.WorkerOk (s : Side) : Prop :=
  match s.worker with
  | .idle => s.slot = none ∧ (s.queue = [] ∨ s.Woken)
  | .gen r next => s.slot = none ∧ ∃ rest, s.queue = r :: rest ∧ s.Ahead next rest
  | .msg r next | .initCom r next | .wait r next =>
    s.slot = some r ∧ ∃ rest, s.queue = r :: rest ∧ s.Ahead next rest
  | .unlink r next ret =>
    ret = true ∧ s.slot = some r ∧ ∃ rest, s.queue = r :: rest ∧ s.Ahead next rest
  | .destroy r next => s.slot = some r ∧ s.Ahead next s.queue

/-- What a call has found is in its place, and a request about an external exception is made only
where a record was found. -/
structure CallOk (k : Kind) (slot : Option RecId) (pc : CallPc) : Prop where
  held : ∀ r ∈ pc.held, slot = some r
  found : pc.busy = true → slot ≠ none
  request : k = .ee → ∀ looks, pc ≠ .request none looks

/-- The records that are not freed. -/
def Side.left (s : Side) : List RecId := s.worker.dying ++ s.queue

structure Inv (k : Kind) (es : List (Op × Out)) (s : Side) : Prop where
  unlinked : unlinkedOf es ++ s.queue = List.range s.nextRec
  freed : freedOf es ++ s.left = List.range s.nextRec
  alive : s.alive = s.left.toFinset
  shown : (indicatedOf es).Sublist (unlinkedOf es ++ s.worker.shown)
  worker : s.WorkerOk
  calls : ∀ pc ∈ s.calls, CallOk k s.slot pc

theorem inv_init : Inv k [] Side.init :=
  ⟨rfl, rfl, rfl, .slnil, ⟨rfl, .inl rfl⟩, fun _ h => absurd h List.not_mem_nil⟩

theorem Inv.mem_alive (h : Inv k es s) : r ∈ s.alive ↔ r ∈ s.left := by
  rw [h.alive, List.mem_toFinset]

/-- The record in its place is not freed. -/
theorem Inv.slot_alive (h : Inv k es s) (hs : s.slot = some r) : r ∈ s.alive := by
  have hw := h.worker
  rw [h.mem_alive]
  unfold Side.WorkerOk at hw
  unfold Side.left
  cases hpc : s.worker <;> simp only [hpc] at hw <;> grind [WorkerPc.dying]

theorem Inv.held_alive (h : Inv k es s) {pc : CallPc} (hpc : pc ∈ s.calls) (hr : r ∈ pc.held) :
    r ∈ s.alive :=
  h.slot_alive ((h.calls pc hpc).held r hr)

theorem Inv.left_nodup (h : Inv k es s) : (freedOf es ++ s.left).Nodup := by
  rw [h.freed]
  exact List.nodup_range

/-! ## The worker -/

/-- Without a pointer to a record a call has found none. -/
theorem CallPc.held_nil {pc : CallPc} (h : pc.busy = false) : pc.held = [] := by
  cases pc <;> simp_all [CallPc.busy, CallPc.held]

/-- A call that has found nothing may find anything later. -/
theorem CallOk.mono {slot slot' : Option RecId} {pc : CallPc} (h : CallOk k slot pc)
    (hs : slot ≠ none → slot' = slot) : CallOk k slot' pc where
  held r hr := by
    have he := h.held r hr
    rw [hs (by rw [he]; exact Option.some_ne_none r), he]
  found hb := by
    have hne := h.found hb
    rw [hs hne]
    exact hne
  request := h.request

/-- The record of a call that has found none may go. -/
theorem CallOk.drop {slot slot' : Option RecId} {pc : CallPc} (h : CallOk k slot pc)
    (hb : pc.busy = false) : CallOk k slot' pc where
  held r hr := by
    rw [CallPc.held_nil hb] at hr
    exact absurd hr List.not_mem_nil
  found hb' := by
    rw [hb] at hb'
    cases hb'
  request := h.request

theorem ahead_head (s : Side) (rest : List RecId) : s.Ahead rest.head? rest := by
  cases rest with
  | nil => exact .inl rfl
  | cons r rest => rfl

/-- How far the worker is from being done with all records. -/
def Side.weight (s : Side) : Nat :=
  8 * s.queue.length + match s.worker with
    | .idle => if s.pending then 8 else 9
    | .gen _ _ => 7
    | .msg _ _ => 6
    | .initCom _ _ => 5
    | .wait _ _ => 4
    | .unlink _ _ _ => 3
    | .destroy _ _ => 10

/-- A worker has something to do. -/
def Side.Busy (s : Side) : Prop := s.worker = .idle → s.pending = true ∧ s.queue ≠ []

/-- What a step of the worker leaves. -/
structure Worked (k : Kind) (es : List (Op × Out)) (i : Op) (s : Side) (timeout : Bool) (o : Out)
    (s' : Side) : Prop where
  inv : Inv k (es ++ [(i, o)]) s'
  daemon : s'.calls = s.calls ∧ s'.readers = s.readers ∧ s'.writer = s.writer
  nextRec : s'.nextRec = s.nextRec
  weight : timeout = true → s.Busy → s'.weight < s.weight

/-- A step of the worker that shows nothing and leaves the queue. -/
theorem Inv.quiet (h : Inv k es s) {o : Out} (ho : o.Silent) (hq : s'.queue = s.queue)
    (hn : s'.nextRec = s.nextRec) (ha : s'.alive = s.alive) (hd : s'.worker.dying = s.worker.dying)
    (hsh : s.worker.shown.Sublist s'.worker.shown) (hw : s'.WorkerOk)
    (hc : ∀ pc ∈ s'.calls, CallOk k s'.slot pc) : Inv k (es ++ [(i, o)]) s' := by
  obtain ⟨h1, h2, h3⟩ := ho.shows (i := i)
  have hleft : s'.left = s.left := by rw [Side.left, Side.left, hq, hd]
  refine ⟨?_, ?_, by rw [ha, hleft, h.alive], ?_, hw, hc⟩
  · rw [unlinkedOf_append, h2, List.append_nil, hq, hn, h.unlinked]
  · rw [freedOf_append, h3, List.append_nil, hleft, hn, h.freed]
  · rw [indicatedOf_append, unlinkedOf_append, h1, h2, List.append_nil, List.append_nil]
    exact h.shown.trans (hsh.append_left _)

section
variable {next : Option RecId} {timeout alloc : Bool}

theorem work_idle (h : Inv k es s) (hpc : s.worker = .idle) :
    ∃ o s', work k s timeout alloc = some (o, s') ∧ Worked k es i s timeout o s' := by
  have hw := h.worker
  simp only [Side.WorkerOk, hpc] at hw
  simp only [work, hpc]
  by_cases hp : s.pending = true
  · rw [if_pos hp]
    refine ⟨_, _, rfl, ?_, ⟨rfl, rfl, rfl⟩, rfl, fun _ hb => ?_⟩
    · cases hq : s.queue with
      | nil =>
        refine h.quiet silent_quiet (by rw [hq]) rfl rfl (by rw [hpc]) (by rw [hpc]) ?_ h.calls
        exact ⟨hw.1, .inl rfl⟩
      | cons r rest =>
        refine h.quiet silent_quiet (by rw [hq]) rfl rfl (by rw [hpc]; rfl)
          (by rw [hpc]; exact List.nil_sublist _) ?_ h.calls
        exact ⟨hw.1, rest, rfl, ahead_head _ rest⟩
    · cases hq : s.queue with
      | nil => exact absurd hq (hb hpc).2
      | cons r rest =>
        simp [Side.weight, hpc, hp, hq]
  · rw [if_neg hp]
    refine ⟨_, _, rfl, ?_, ⟨rfl, rfl, rfl⟩, rfl, fun _ hb => absurd (hb hpc).1 hp⟩
    exact h.quiet silent_quiet rfl rfl rfl rfl (List.Sublist.refl _) h.worker h.calls

theorem work_gen (h : Inv k es s) (hpc : s.worker = .gen r next) :
    ∃ o s', work k s timeout alloc = some (o, s') ∧ Worked k es i s timeout o s' := by
  have hw := h.worker
  simp only [Side.WorkerOk, hpc] at hw
  obtain ⟨hslot, rest, hq, hnext⟩ := hw
  have hgen : genIndMsg k s r next =
      some (.quiet, { s with slot := some r, worker := .msg r next }) := by
    cases k with
    | ke => simp only [genIndMsg, keGenIndMsg, hslot]
    | ee => simp only [genIndMsg, eeGenIndMsg, hslot]
  simp only [work, hpc]
  refine ⟨_, _, hgen, ?_, ⟨rfl, rfl, rfl⟩, rfl, fun _ _ => by simp [Side.weight, hpc]⟩
  refine h.quiet silent_quiet rfl rfl rfl (by rw [hpc]; rfl) (by rw [hpc]; exact List.nil_sublist _)
    ⟨rfl, rest, hq, hnext⟩ fun pc hm => (h.calls pc hm).mono fun hne => absurd hslot hne

theorem work_msg (h : Inv k es s) (hpc : s.worker = .msg r next) :
    ∃ o s', work k s timeout alloc = some (o, s') ∧ Worked k es i s timeout o s' := by
  have hw := h.worker
  simp only [Side.WorkerOk, hpc] at hw
  obtain ⟨hslot, rest, hq, hnext⟩ := hw
  have halive := h.slot_alive hslot
  have hmsg : work k s timeout alloc = if !alloc then
      some (.quiet, { s with msg := none, worker := .unlink r next true })
      else some (.indicated r, { s with msg := some (.ind r), worker := .initCom r next }) := by
    simp [work, hpc, indMsg, hslot, halive]
  rw [hmsg]
  cases alloc with
  | false =>
    refine ⟨_, _, rfl, ?_, ⟨rfl, rfl, rfl⟩, rfl, fun _ _ => by simp [Side.weight, hpc]⟩
    exact h.quiet silent_quiet rfl rfl rfl (by rw [hpc]; rfl)
      (by rw [hpc]; exact List.nil_sublist _) ⟨rfl, hslot, rest, hq, hnext⟩ h.calls
  | true =>
    refine ⟨_, _, rfl, ⟨?_, ?_, ?_, ?_, ⟨hslot, rest, hq, hnext⟩, h.calls⟩, ⟨rfl, rfl, rfl⟩, rfl,
      fun _ _ => by simp [Side.weight, hpc]⟩
    · rw [unlinkedOf_append]
      exact (congrArg (· ++ s.queue) (List.append_nil _)).trans h.unlinked
    · rw [freedOf_append]
      have hf := h.freed
      simp only [Side.left, hpc] at hf
      exact (congrArg (· ++ _) (List.append_nil _)).trans hf
    · have ha := h.alive
      simp only [Side.left, hpc] at ha
      exact ha
    · -- the indication of the record at hand
      have hsh := h.shown
      simp only [hpc, WorkerPc.shown, List.append_nil] at hsh
      rw [indicatedOf_append, unlinkedOf_append]
      simpa [unlinkedOf, indicatedOf, WorkerPc.shown] using hsh.append_right [r]

theorem work_initCom (h : Inv k es s) (hpc : s.worker = .initCom r next) :
    ∃ o s', work k s timeout alloc = some (o, s') ∧ Worked k es i s timeout o s' := by
  have hw := h.worker
  simp only [Side.WorkerOk, hpc] at hw
  simp only [work, hpc]
  refine ⟨_, _, rfl, ?_, ⟨rfl, rfl, rfl⟩, rfl, fun _ _ => by simp [Side.weight, hpc]⟩
  exact h.quiet silent_quiet rfl rfl rfl (by rw [hpc]; rfl) (by rw [hpc]; exact .refl _) hw h.calls

theorem work_wait (h : Inv k es s) (hpc : s.worker = .wait r next) :
    ∃ o s', work k s timeout alloc = some (o, s') ∧ Worked k es i s timeout o s' := by
  have hw := h.worker
  simp only [Side.WorkerOk, hpc] at hw
  simp only [work, hpc]
  by_cases hd : 0 < s.done
  · rw [if_pos hd]
    refine ⟨_, _, rfl, ?_, ⟨rfl, rfl, rfl⟩, rfl, fun _ _ => by simp [Side.weight, hpc]⟩
    exact h.quiet silent_quiet rfl rfl rfl (by rw [hpc]; rfl) (by rw [hpc]; exact .refl _)
      ⟨rfl, hw⟩ h.calls
  · rw [if_neg hd]
    cases timeout with
    | true =>
      refine ⟨_, _, rfl, ?_, ⟨rfl, rfl, rfl⟩, rfl, fun _ _ => by simp [Side.weight, hpc]⟩
      exact h.quiet silent_quiet rfl rfl rfl (by rw [hpc]; rfl) (by rw [hpc]; exact .refl _)
        ⟨rfl, hw⟩ h.calls
    | false =>
      refine ⟨_, _, rfl, ?_, ⟨rfl, rfl, rfl⟩, rfl, nofun⟩
      exact h.quiet silent_quiet rfl rfl rfl rfl (.refl _) h.worker h.calls

theorem work_unlink {ret : Bool} (h : Inv k es s) (hpc : s.worker = .unlink r next ret) :
    ∃ o s', work k s timeout alloc = some (o, s') ∧ Worked k es i s timeout o s' := by
  have hw := h.worker
  simp only [Side.WorkerOk, hpc] at hw
  obtain ⟨rfl, hslot, rest, hq, hnext⟩ := hw
  have hmem : r ∈ s.queue := by
    rw [hq]
    exact List.mem_cons_self
  have herase : s.queue.erase r = rest := by
    rw [hq, List.erase_cons_head]
  simp only [work, hpc, if_true, if_pos hmem]
  refine ⟨_, _, rfl, ⟨?_, ?_, ?_, ?_, ⟨hslot, ?_⟩, h.calls⟩, ⟨rfl, rfl, rfl⟩, rfl, fun _ _ => ?_⟩
  · show unlinkedOf _ ++ s.queue.erase r = _
    rw [unlinkedOf_append, herase, List.append_assoc]
    exact (congrArg (unlinkedOf es ++ ·) hq.symm).trans h.unlinked
  · have hf := h.freed
    simp only [Side.left, hpc, WorkerPc.dying, List.nil_append] at hf
    show freedOf _ ++ ([r] ++ s.queue.erase r) = _
    rw [freedOf_append, herase]
    exact (congrArg₂ (· ++ ·) (List.append_nil _) hq.symm).trans hf
  · have ha := h.alive
    simp only [Side.left, hpc, WorkerPc.dying, List.nil_append] at ha
    show s.alive = ([r] ++ s.queue.erase r).toFinset
    rw [herase, ha, hq]
    rfl
  · have hsh := h.shown
    simp only [hpc, WorkerPc.shown] at hsh
    rw [indicatedOf_append, unlinkedOf_append]
    simpa [unlinkedOf, indicatedOf, WorkerPc.shown] using hsh
  · show Side.Ahead _ next (s.queue.erase r)
    rw [herase]
    exact hnext
  · simp only [Side.weight, hpc, herase]
    rw [hq, List.length_cons]
    omega

/-- The end of a turn: the worker is at the next record or done. -/
theorem advance_ok (hnext : s.Ahead next s.queue) (hslot : s.slot = none) :
    ∃ pc, s.advance next = some { s with worker := pc } ∧
      ({ s with worker := pc } : Side).WorkerOk ∧ pc.dying = [] ∧ pc.shown = [] ∧
      (s.worker = .destroy r next → ({ s with worker := pc } : Side).weight < s.weight) := by
  cases next with
  | none =>
    refine ⟨.idle, rfl, ⟨hslot, hnext⟩, rfl, rfl, fun hpc => ?_⟩
    simp only [Side.weight, hpc]
    split <;> omega
  | some n =>
    obtain ⟨rest, hq⟩ : ∃ rest, s.queue = n :: rest := List.head?_eq_some_iff.1 hnext
    refine ⟨.gen n rest.head?, ?_, ⟨hslot, rest, hq, ahead_head _ rest⟩, rfl, rfl, fun hpc => ?_⟩
    · simp [Side.advance, listNext, hq]
    · simp [Side.weight, hpc]

theorem work_destroy (h : Inv k es s) (hpc : s.worker = .destroy r next)
    (hok : ∀ pc ∈ s.calls, pc.busy = false) :
    ∃ o s', work k s timeout alloc = some (o, s') ∧ Worked k es i s timeout o s' := by
  have hw := h.worker
  simp only [Side.WorkerOk, hpc] at hw
  obtain ⟨hslot, hnext⟩ := hw
  have halive := h.slot_alive hslot
  let s₁ : Side := { s with slot := none, msg := none, alive := s.alive.erase r }
  have hlog : destroyLog k s = some (.freed r, s₁) := by
    cases k with
    | ke => simp [destroyLog, keDestroyLog, hslot, Side.free, halive, s₁]
    | ee => simp [destroyLog, eeDestroyLog, hslot, Side.free, halive, s₁]
  have hnext' : s₁.Ahead next s₁.queue := hnext
  obtain ⟨pc, hadv, hok', hdying, hshown, hweight⟩ := advance_ok (r := r) hnext' rfl
  simp only [work, hpc, hlog, Option.bind_some, hadv, Option.map_some]
  refine ⟨.freed r, { s₁ with worker := pc }, rfl,
    ⟨?_, ?_, ?_, ?_, hok', fun pc hm => (h.calls pc hm).drop (hok pc hm)⟩, ⟨rfl, rfl, rfl⟩, rfl,
    fun _ _ => hweight hpc⟩
  · rw [unlinkedOf_append]
    exact (congrArg (· ++ s.queue) (List.append_nil _)).trans h.unlinked
  · have hf := h.freed
    simp only [Side.left, hpc, WorkerPc.dying] at hf
    show freedOf _ ++ (pc.dying ++ s.queue) = _
    rw [freedOf_append, hdying, List.append_assoc]
    exact hf
  · have hnd := h.left_nodup.of_append_right
    simp only [Side.left, hpc, WorkerPc.dying, List.singleton_append, List.nodup_cons] at hnd
    have ha := h.alive
    simp only [Side.left, hpc, WorkerPc.dying, List.singleton_append, List.toFinset_cons] at ha
    show s.alive.erase r = (pc.dying ++ s.queue).toFinset
    rw [hdying, List.nil_append, ha, Finset.erase_insert (by simpa using hnd.1)]
  · have hsh := h.shown
    simp only [hpc, WorkerPc.shown, List.append_nil] at hsh
    rw [indicatedOf_append, unlinkedOf_append]
    simpa [unlinkedOf, indicatedOf, hshown] using hsh

/-- A worker destroys a record only while no call has found one. -/
def WorkOk (s : Side) : Prop := s.worker.dying ≠ [] → ∀ pc ∈ s.calls, pc.busy = false

instance (s : Side) : Decidable (WorkOk s) := inferInstanceAs (Decidable (_ → _))

theorem work_spec (h : Inv k es s) (hok : WorkOk s) :
    ∃ o s', work k s timeout alloc = some (o, s') ∧ Worked k es i s timeout o s' := by
  cases hpc : s.worker with
  | idle => exact work_idle h hpc
  | gen r next => exact work_gen h hpc
  | msg r next => exact work_msg h hpc
  | initCom r next => exact work_initCom h hpc
  | wait r next => exact work_wait h hpc
  | unlink r next ret => exact work_unlink h hpc
  | destroy r next => exact work_destroy h hpc (hok (by simp [hpc, WorkerPc.dying]))

end

/-! ## Reports -/

theorem Side.WorkerOk.report (h : s.WorkerOk) : (queueRequest k s).WorkerOk := by
  have hkick : 0 < (queueRequest k s).kick := by
    cases k
    · exact Nat.one_pos
    · exact Nat.succ_pos _
  have hahead : ∀ {next : Option RecId} {rest : List RecId}, s.Ahead next rest →
      (queueRequest k s).Ahead next (rest ++ [s.nextRec]) := fun {next rest} ha => by
    cases next with
    | none => exact .inr (.inl hkick)
    | some n =>
      obtain ⟨rest', rfl⟩ := List.head?_eq_some_iff.1 ha
      rfl
  unfold Side.WorkerOk at h ⊢
  have hqueue : ∀ {r : RecId} {next : Option RecId},
      (∃ rest, s.queue = r :: rest ∧ s.Ahead next rest) →
      ∃ rest, (queueRequest k s).queue = r :: rest ∧ (queueRequest k s).Ahead next rest :=
    fun ⟨rest, hq, ha⟩ => ⟨rest ++ [s.nextRec], by simp [queueRequest, hq], hahead ha⟩
  cases hpc : s.worker <;> simp only [queueRequest, hpc] at h ⊢
  case idle => exact ⟨h.1, .inr (.inl hkick)⟩
  case gen => exact ⟨h.1, hqueue h.2⟩
  case msg => exact ⟨h.1, hqueue h.2⟩
  case initCom => exact ⟨h.1, hqueue h.2⟩
  case wait => exact ⟨h.1, hqueue h.2⟩
  case unlink => exact ⟨h.1, h.2.1, hqueue h.2.2⟩
  case destroy => exact ⟨h.1, hahead h.2⟩

theorem report_inv (h : Inv k es s) : Inv k (es ++ [(i, .quiet)]) (queueRequest k s) := by
  have hleft : (queueRequest k s).left = s.left ++ [s.nextRec] := by
    simp [Side.left, queueRequest]
  obtain ⟨h1, h2, h3⟩ := silent_quiet.shows (i := i)
  refine ⟨?_, ?_, ?_, ?_, h.worker.report, h.calls⟩
  · rw [unlinkedOf_append, h2, List.append_nil]
    show unlinkedOf es ++ (s.queue ++ [s.nextRec]) = List.range (s.nextRec + 1)
    rw [← List.append_assoc, h.unlinked, List.range_succ]
  · rw [freedOf_append, h3, List.append_nil, hleft, ← List.append_assoc, h.freed]
    exact List.range_succ.symm
  · rw [hleft, List.toFinset_append, ← h.alive]
    show insert s.nextRec s.alive = _
    rw [Finset.insert_eq, Finset.union_comm]
    rfl
  · rw [indicatedOf_append, unlinkedOf_append, h1, h2, List.append_nil, List.append_nil]
    exact h.shown

theorem Side.WorkerOk.woken (h : s.WorkerOk) (hs : s.Woken → s'.Woken) (hq : s'.queue = s.queue)
    (hslot : s'.slot = s.slot) (hpc : s'.worker = s.worker) : s'.WorkerOk := by
  have hahead : ∀ {next : Option RecId} {rest : List RecId}, s.Ahead next rest →
      s'.Ahead next rest := fun {next rest} ha => by
    cases next with
    | none => exact ha.imp id hs
    | some n => exact ha
  unfold Side.WorkerOk at h ⊢
  rw [hpc, hq, hslot]
  cases hw : s.worker <;> simp only [hw] at h ⊢
  case idle => exact ⟨h.1, h.2.imp id hs⟩
  case unlink => exact ⟨h.1, h.2.1, h.2.2.imp fun rest hr => ⟨hr.1, hahead hr.2⟩⟩
  case destroy => exact ⟨h.1, hahead h.2⟩
  all_goals exact ⟨h.1, h.2.imp fun rest hr => ⟨hr.1, hahead hr.2⟩⟩

theorem queueWork_inv (h : Inv k es s) : Inv k (es ++ [(i, .quiet)]) (queueWork s) := by
  unfold queueWork
  split_ifs with hk
  · exact h.quiet silent_quiet rfl rfl rfl rfl (.refl _) h.worker h.calls
  · exact h.quiet silent_quiet rfl rfl rfl rfl (.refl _)
      (h.worker.woken (fun _ => .inr rfl) rfl rfl rfl) h.calls

/-! ## The daemon -/

/-- A step of a call leaves the records and the worker. -/
structure Same (s s' : Side) : Prop where
  alive : s'.alive = s.alive
  nextRec : s'.nextRec = s.nextRec
  queue : s'.queue = s.queue
  slot : s'.slot = s.slot
  kick : s'.kick = s.kick
  pending : s'.pending = s.pending
  worker : s'.worker = s.worker
  calls : s'.calls = s.calls

/-- The message, the completion and the semaphore are all that a call changes. -/
theorem same_daemon (s : Side) (m : Option Msg) (done readers : Nat) (writer : Bool) :
    Same s { s with msg := m, done := done, readers := readers, writer := writer } :=
  ⟨rfl, rfl, rfl, rfl, rfl, rfl, rfl, rfl⟩

theorem Same.refl (s : Side) : Same s s := same_daemon s _ _ _ _

/-- A call in which nothing is found and which makes no request. -/
theorem callOk_quiet {slot : Option RecId} {pc : CallPc} (hb : pc.busy = false)
    (hr : ∀ held looks, pc ≠ .request held looks) : CallOk k slot pc where
  held r h := by
    rw [CallPc.held_nil hb] at h
    exact absurd h List.not_mem_nil
  found h := by
    rw [hb] at h
    cases h
  request _ looks := hr none looks

/-- What a call has found in its place stays found. -/
theorem callOk_held {slot held : Option RecId} (h : ∀ r ∈ held, slot = some r) {pc : CallPc}
    (hp : pc.held = held.toList) (hb : pc.busy = held.isSome)
    (hr : k = .ee → ∀ looks, pc ≠ .request none looks) : CallOk k slot pc where
  held r hr := by
    rw [hp, Option.mem_toList] at hr
    exact h r hr
  found hb' := by
    rw [hb, Option.isSome_iff_exists] at hb'
    obtain ⟨r, hr⟩ := hb'
    rw [h r hr]
    exact Option.some_ne_none r
  request := hr

theorem writeBegin_spec (h : Inv k es s) {held : Option RecId} (q : Req)
    (hheld : ∀ r ∈ held, s.slot = some r) :
    ∃ pc s', writeBegin k s held q = some (pc, s') ∧ Same s s' ∧ CallOk k s.slot pc := by
  have hidle : CallOk k s.slot .idle := callOk_quiet rfl nofun
  have huses : s.uses held := fun r hr => h.slot_alive (hheld r hr)
  unfold writeBegin
  by_cases hnone : k = .ee ∧ held = none
  · rw [if_pos hnone]
    exact ⟨_, _, rfl, same_daemon s _ _ _ _, hidle⟩
  rw [if_neg hnone, if_neg (not_not.2 huses)]
  cases q with
  | bad => exact ⟨_, _, rfl, same_daemon s _ _ _ _, hidle⟩
  | req looks =>
    refine ⟨_, _, rfl, same_daemon s _ _ _ _, callOk_held hheld rfl rfl ?_⟩
    exact fun hk looks' he => hnone ⟨hk, (CallPc.request.inj he).1⟩
  | logClose => exact ⟨_, _, rfl, same_daemon s _ _ _ _, hidle⟩
  | other => exact ⟨_, _, rfl, same_daemon s _ _ _ _, hidle⟩

/-- The looks that a request has before it find the record. -/
theorem requestLooks_ok {held : Option RecId} {looks : Nat}
    (h : CallOk k s.slot (.request held looks)) :
    CallOk k s.slot (.answer held (requestLooks k s looks)) where
  held := h.held
  found hb := by
    by_cases hh : held = none
    · subst hh
      cases hs : s.slot with
      | some r => exact Option.some_ne_none r
      | none =>
        cases k with
        | ke => simp [CallPc.busy, requestLooks, hs] at hb
        | ee => exact absurd rfl (h.request rfl looks)
    · exact h.found (Option.isSome_iff_ne_none.2 hh)
  request _ := nofun

theorem callStep_spec (h : Inv k es s) {pc : CallPc} (hpc : CallOk k s.slot pc) (alloc : Bool) :
    ∃ o pc' s', callStep k s alloc pc = some (o, pc', s') ∧ o.Silent ∧ Same s s' ∧
      CallOk k s.slot pc' := by
  have hidle : CallOk k s.slot .idle := callOk_quiet rfl nofun
  cases pc with
  | idle => exact ⟨_, _, _, rfl, silent_quiet, .refl s, hidle⟩
  | read =>
    simp only [callStep]
    split_ifs
    · exact ⟨_, _, _, rfl, silent_quiet, .refl s, callOk_quiet rfl nofun⟩
    · exact ⟨_, _, _, rfl, silent_quiet, same_daemon s _ _ _ _, callOk_quiet rfl nofun⟩
  | reading =>
    cases k with
    | ke => exact ⟨_, _, _, rfl, silent_read _, same_daemon s _ _ _ _, hidle⟩
    | ee =>
      cases hs : s.slot with
      | none =>
        refine ⟨.read none, .idle, { s with readers := s.readers - 1 }, ?_, silent_read _,
          same_daemon s _ _ _ _, hs ▸ hidle⟩
        simp only [callStep, hs]
      | some r =>
        refine ⟨.quiet, .found, s, ?_, silent_quiet, .refl s, ⟨nofun, fun _ => nofun, nofun⟩⟩
        simp only [callStep, hs]
  | found =>
    obtain ⟨r, hs⟩ := Option.ne_none_iff_exists'.1 (hpc.found rfl)
    refine ⟨.quiet, .readHolds r, s, ?_, silent_quiet, .refl s,
      ⟨fun x hx => ?_, fun _ => ?_, nofun⟩⟩
    · simp only [callStep, hs, Option.map_some]
    · rw [hs, List.mem_singleton.1 hx]
    · rw [hs]
      exact Option.some_ne_none r
  | readHolds r =>
    have halive := h.slot_alive (hpc.held r List.mem_cons_self)
    simp only [callStep, if_pos halive]
    exact ⟨_, _, _, rfl, silent_read _, same_daemon s _ _ _ _, hidle⟩
  | write held q =>
    simp only [callStep]
    split_ifs
    · exact ⟨_, _, _, rfl, silent_quiet, .refl s, hpc⟩
    · exact ⟨_, _, _, rfl, silent_quiet, same_daemon s _ _ _ _, hpc.held, hpc.found,
        fun _ => nofun⟩
  | writing held q =>
    obtain ⟨pc', s', hw, hsame, hok⟩ := writeBegin_spec h q fun r hr =>
      hpc.held r (Option.mem_toList.2 hr)
    refine ⟨.quiet, pc', s', ?_, silent_quiet, hsame, hok⟩
    simp only [callStep, hw, Option.map_some]
  | request held looks => exact ⟨_, _, _, rfl, silent_quiet, .refl s, requestLooks_ok hpc⟩
  | answer held looks =>
    cases looks with
    | zero => exact ⟨_, _, _, rfl, silent_quiet, same_daemon s _ _ _ _, hidle⟩
    | succ n =>
      obtain ⟨r, hs⟩ := Option.ne_none_iff_exists'.1 (hpc.found (by simp [CallPc.busy]))
      refine ⟨.quiet, .holds held r n, s, ?_, silent_quiet, .refl s,
        ⟨fun x hx => ?_, fun _ => ?_, fun _ => nofun⟩⟩
      · simp only [callStep, hs, Option.map_some]
      · rcases List.mem_cons.1 hx with rfl | hx
        · exact hs
        · exact hpc.held x hx
      · rw [hs]
        exact Option.some_ne_none r
  | holds held r n =>
    have hr := hpc.held r List.mem_cons_self
    simp only [callStep, if_pos (h.slot_alive hr)]
    refine ⟨_, _, _, rfl, silent_quiet, .refl s, fun x hx => ?_, fun _ => ?_, fun _ => nofun⟩
    · exact hpc.held x (List.mem_cons_of_mem _ hx)
    · rw [hr]
      exact Option.some_ne_none r

theorem Same.inv (hs : Same s s') (h : Inv k es s) {o : Out} (ho : o.Silent) {calls : List CallPc}
    (hc : ∀ pc ∈ calls, CallOk k s.slot pc) :
    Inv k (es ++ [(i, o)]) { s' with calls := calls } := by
  refine h.quiet ho hs.queue hs.nextRec hs.alive ?_ ?_ ?_ fun pc hm => ?_
  · exact congrArg WorkerPc.dying hs.worker
  · exact (congrArg WorkerPc.shown hs.worker) ▸ .refl _
  · refine h.worker.woken (fun hw => ?_) hs.queue hs.slot hs.worker
    exact hw.imp (fun hk => hs.kick ▸ hk) fun hp => hs.pending ▸ hp
  · exact hs.slot ▸ hc pc hm

/-! ## The semaphore -/

/-- A read in its section. -/
def CallPc.reads : CallPc → Bool
  | .reading | .found | .readHolds _ => true
  | _ => false

/-- A write in its section. -/
def CallPc.writes : CallPc → Bool
  | .writing .. | .request .. | .answer .. | .holds .. => true
  | _ => false

/-- The steps that a message takes in its section, at most. -/
def Req.todo : Req → Nat
  | .req looks => 2 * looks + 5
  | _ => 1

/-- The steps to the end of a call, at most. -/
def CallPc.todo : CallPc → Nat
  | .idle => 0
  | .read => 4
  | .reading => 3
  | .found => 2
  | .readHolds _ => 1
  | .write _ q => q.todo + 1
  | .writing _ q => q.todo
  | .request _ looks => 2 * looks + 4
  | .answer _ n => 2 * n + 1
  | .holds _ _ n => 2 * n + 2

def Side.sum (s : Side) (f : CallPc → Nat) : Nat := (s.calls.map f).sum

/-- The semaphore is held by the calls in their sections. -/
structure Sem (s : Side) : Prop where
  readers : s.sum (fun pc => pc.reads.toNat) = s.readers
  writer : s.sum (fun pc => pc.writes.toNat) = s.writer.toNat

theorem sum_map_set {α : Type*} (f : α → Nat) (b : α) : ∀ {l : List α} {c : Nat} {a : α},
    l[c]? = some a → ((l.set c b).map f).sum + f a = (l.map f).sum + f b
  | x :: l, 0, a, h => by
    obtain rfl : x = a := Option.some.inj h
    simp only [List.set_cons_zero, List.map_cons, List.sum_cons]
    omega
  | x :: l, c + 1, a, h => by
    have ih := sum_map_set f b (l := l) (c := c) (a := a) h
    simp only [List.set_cons_succ, List.map_cons, List.sum_cons]
    omega

theorem Side.le_sum (s : Side) {pc : CallPc} (h : pc ∈ s.calls) (f : CallPc → Nat) :
    f pc ≤ s.sum f :=
  List.le_sum_of_mem (List.mem_map_of_mem h)

theorem Side.sum_eq_zero {f : CallPc → Nat} (h : ∀ pc ∈ s.calls, f pc = 0) : s.sum f = 0 :=
  List.sum_eq_zero fun n hn => by
    obtain ⟨pc, hm, rfl⟩ := List.mem_map.1 hn
    exact h pc hm

theorem Sem.reading (h : Sem s) {pc : CallPc} (hm : pc ∈ s.calls) (hr : pc.reads = true) :
    0 < s.readers := by
  have hle := s.le_sum hm fun pc => pc.reads.toNat
  rw [h.readers, hr] at hle
  exact hle

theorem Sem.writing (h : Sem s) {pc : CallPc} (hm : pc ∈ s.calls) (hw : pc.writes = true) :
    s.writer = true := by
  have hle := s.le_sum hm fun pc => pc.writes.toNat
  rw [h.writer] at hle
  cases hs : s.writer with
  | true => rfl
  | false => simp [hs, hw] at hle

/-- Nobody is in a section, or some call is. -/
theorem Sem.free_or (h : Sem s) : (s.readers = 0 ∧ s.writer = false) ∨
    ∃ pc ∈ s.calls, pc.reads = true ∨ pc.writes = true := by
  by_cases hx : ∃ pc ∈ s.calls, pc.reads = true ∨ pc.writes = true
  · exact .inr hx
  · have hn : ∀ pc ∈ s.calls, pc.reads = false ∧ pc.writes = false := fun pc hm =>
      ⟨Bool.eq_false_iff.2 fun hr => hx ⟨pc, hm, .inl hr⟩,
        Bool.eq_false_iff.2 fun hw => hx ⟨pc, hm, .inr hw⟩⟩
    have hreaders : s.readers = 0 := by
      rw [← h.readers]
      exact Side.sum_eq_zero fun pc hm => by rw [(hn pc hm).1, Bool.toNat_false]
    have hwriter : s.writer.toNat = 0 := by
      rw [← h.writer]
      exact Side.sum_eq_zero fun pc hm => by rw [(hn pc hm).2, Bool.toNat_false]
    exact .inl ⟨hreaders, Bool.toNat_eq_zero.1 hwriter⟩

/-- What a step of a call does to the semaphore, and that a call that need not wait goes on. -/
structure Moved (s : Side) (pc : CallPc) (s' : Side) (pc' : CallPc) : Prop where
  readers : s'.readers + pc.reads.toNat = s.readers + pc'.reads.toNat
  writer : s'.writer.toNat + pc.writes.toNat = s.writer.toNat + pc'.writes.toNat
  todo : (pc.reads = true ∨ pc.writes = true ∨
    pc ≠ .idle ∧ s.readers = 0 ∧ s.writer = false) → pc'.todo < pc.todo

theorem requestLooks_le (k : Kind) (s : Side) (looks : Nat) :
    requestLooks k s looks ≤ looks + 1 := by
  unfold requestLooks
  split <;> omega

theorem moved_upWrite {s₁ : Side} {pc : CallPc} (h : s.writer = true) (hr : pc.reads = false)
    (hw : pc.writes = true) (hpos : 0 < pc.todo) (hrd : s₁.readers = s.readers) :
    Moved s pc s₁.upWrite.2 s₁.upWrite.1 := by
  refine ⟨?_, ?_, fun _ => hpos⟩
  · rw [hr]
    exact hrd
  · rw [hw, h]
    rfl

theorem writeBegin_moved {held : Option RecId} {q : Req} {pc' : CallPc}
    (h : writeBegin k s held q = some (pc', s')) (hw : s.writer = true) :
    Moved s (.writing held q) s' pc' := by
  have hup : ∀ {s₁ : Side}, s₁.readers = s.readers →
      Moved s (.writing held q) s₁.upWrite.2 s₁.upWrite.1 := fun hrd => by
    refine moved_upWrite hw rfl rfl ?_ hrd
    cases q <;> simp [CallPc.todo, Req.todo]
  unfold writeBegin at h
  split_ifs at h
  · cases h
    exact hup rfl
  · cases q with
    | req looks =>
      cases h
      exact ⟨rfl, rfl, fun _ => by simp [CallPc.todo, Req.todo]⟩
    | _ =>
      cases h
      exact hup rfl

theorem callStep_moved {pc pc' : CallPc} {o : Out} {alloc : Bool}
    (h : callStep k s alloc pc = some (o, pc', s')) (hr : pc.reads = true → 0 < s.readers)
    (hw : pc.writes = true → s.writer = true) : Moved s pc s' pc' := by
  cases pc with
  | idle =>
    obtain ⟨-, rfl, rfl⟩ : _ ∧ _ ∧ _ := by simpa [callStep] using h
    exact ⟨rfl, rfl, by simp [CallPc.reads, CallPc.writes]⟩
  | read =>
    simp only [callStep] at h
    split_ifs at h with hwait <;> obtain ⟨-, rfl, rfl⟩ : _ ∧ _ ∧ _ := by simpa using h
    · exact ⟨rfl, rfl, by simp [CallPc.reads, CallPc.writes, hwait]⟩
    · exact ⟨rfl, rfl, fun _ => by simp [CallPc.todo]⟩
  | reading =>
    have hpos := hr rfl
    cases k with
    | ke =>
      obtain ⟨-, rfl, rfl⟩ : _ ∧ _ ∧ _ := by simpa [callStep] using h
      exact ⟨Nat.sub_add_cancel hpos, rfl, fun _ => by simp [CallPc.todo]⟩
    | ee =>
      cases hs : s.slot with
      | none =>
        obtain ⟨-, rfl, rfl⟩ : _ ∧ _ ∧ _ := by simpa [callStep, hs] using h
        exact ⟨Nat.sub_add_cancel hpos, rfl, fun _ => by simp [CallPc.todo]⟩
      | some r =>
        obtain ⟨-, rfl, rfl⟩ : _ ∧ _ ∧ _ := by simpa [callStep, hs] using h
        exact ⟨rfl, rfl, fun _ => by simp [CallPc.todo]⟩
  | found =>
    obtain ⟨r, -, h⟩ := Option.map_eq_some_iff.1 h
    obtain ⟨-, rfl, rfl⟩ : _ ∧ _ ∧ _ := by simpa using h
    exact ⟨rfl, rfl, fun _ => by simp [CallPc.todo]⟩
  | readHolds r =>
    have hpos := hr rfl
    simp only [callStep] at h
    split_ifs at h
    obtain ⟨-, rfl, rfl⟩ : _ ∧ _ ∧ _ := by simpa using h
    exact ⟨Nat.sub_add_cancel hpos, rfl, fun _ => by simp [CallPc.todo]⟩
  | write held q =>
    simp only [callStep] at h
    split_ifs at h with hwait <;> obtain ⟨-, rfl, rfl⟩ : _ ∧ _ ∧ _ := by simpa using h
    · refine ⟨rfl, rfl, ?_⟩
      rintro (h | h | ⟨-, hrd, hwr⟩)
      · cases h
      · cases h
      · simp [hrd, hwr] at hwait
    · have hfree : s.writer = false := by simpa using fun hs => hwait (.inl hs)
      exact ⟨rfl, by simp [CallPc.writes, hfree], fun _ => by simp [CallPc.todo]⟩
  | writing held q =>
    have hwr := hw rfl
    obtain ⟨⟨pc₁, s₁⟩, hb, h⟩ := Option.map_eq_some_iff.1 h
    obtain ⟨-, rfl, rfl⟩ : _ ∧ _ ∧ _ := by simpa using h
    exact writeBegin_moved hb hwr
  | request held looks =>
    obtain ⟨-, rfl, rfl⟩ : _ ∧ _ ∧ _ := by simpa [callStep] using h
    refine ⟨rfl, rfl, fun _ => ?_⟩
    have hle := requestLooks_le k s looks
    simp only [CallPc.todo]
    omega
  | answer held n =>
    cases n with
    | zero =>
      cases h
      exact moved_upWrite (hw rfl) rfl rfl Nat.one_pos rfl
    | succ n =>
      obtain ⟨r, -, h⟩ := Option.map_eq_some_iff.1 h
      obtain ⟨-, rfl, rfl⟩ : _ ∧ _ ∧ _ := by simpa using h
      exact ⟨rfl, rfl, fun _ => by simp only [CallPc.todo]; omega⟩
  | holds held r n =>
    simp only [callStep] at h
    split_ifs at h
    obtain ⟨-, rfl, rfl⟩ : _ ∧ _ ∧ _ := by simpa using h
    exact ⟨rfl, rfl, fun _ => by simp [CallPc.todo]⟩

/-! ## Steps -/

/-- The condition of a step. -/
def SideOk (s : Side) : Op → Prop
  | .work _ _ => WorkOk s
  | _ => True

instance (s : Side) : ∀ i, Decidable (SideOk s i)
  | .work _ _ => inferInstanceAs (Decidable (WorkOk s))
  | .report | .queueWork | .read | .write _ | .call _ _ => .isTrue trivial

theorem queueWork_daemon (s : Side) : (queueWork s).calls = s.calls ∧
    (queueWork s).readers = s.readers ∧ (queueWork s).writer = s.writer := by
  unfold queueWork
  split_ifs <;> exact ⟨rfl, rfl, rfl⟩

theorem Sem.of_eq (h : Sem s) (hd : s'.calls = s.calls ∧ s'.readers = s.readers ∧
    s'.writer = s.writer) : Sem s' where
  readers := by rw [Side.sum, hd.1, hd.2.1]; exact h.readers
  writer := by rw [Side.sum, hd.1, hd.2.2]; exact h.writer

/-- A call that begins is not in its section. -/
theorem Sem.called (h : Sem s) {pc : CallPc} (hr : pc.reads = false) (hw : pc.writes = false) :
    Sem { s with calls := s.calls ++ [pc] } where
  readers := by simpa [Side.sum, hr] using h.readers
  writer := by simpa [Side.sum, hw] using h.writer

theorem Sem.moved (h : Sem s) {c : Nat} {pc pc' : CallPc} (hc : s.calls[c]? = some pc)
    (hm : Moved s pc s' pc') : Sem { s' with calls := s.calls.set c pc' } := by
  have hr := sum_map_set (fun pc => pc.reads.toNat) pc' hc
  have hw := sum_map_set (fun pc => pc.writes.toNat) pc' hc
  have h1 := h.readers
  have h2 := h.writer
  have h3 := hm.readers
  have h4 := hm.writer
  unfold Side.sum at h1 h2
  constructor
  · show ((s.calls.set c pc').map fun pc => pc.reads.toNat).sum = s'.readers
    omega
  · show ((s.calls.set c pc').map fun pc => pc.writes.toNat).sum = s'.writer.toNat
    omega

/-- A step of a call. -/
theorem call_spec (h : Inv k es s) (hsem : Sem s) {c : Nat} {pc : CallPc}
    (hc : s.calls[c]? = some pc) (alloc : Bool) :
    ∃ o pc' s₁, sideStep k s (.call c alloc) = some (o, { s₁ with calls := s.calls.set c pc' }) ∧
      Inv k (es ++ [(i, o)]) { s₁ with calls := s.calls.set c pc' } ∧
      Same s s₁ ∧ Moved s pc s₁ pc' := by
  have hmem := List.mem_of_getElem? hc
  obtain ⟨o, pc', s₁, hs, ho, hsame, hok⟩ := callStep_spec h (h.calls pc hmem) alloc
  refine ⟨o, pc', s₁, ?_, hsame.inv h ho fun x hx => ?_, hsame, ?_⟩
  · simp only [sideStep, hc, hs, Option.map_some, hsame.calls]
  · rcases List.mem_or_eq_of_mem_set hx with hx | rfl
    · exact h.calls x hx
    · exact hok
  · exact callStep_moved hs (hsem.reading hmem) (hsem.writing hmem)

theorem side_spec (h : Inv k es s) (hsem : Sem s) (hok : SideOk s i) :
    ∃ o s', sideStep k s i = some (o, s') ∧ Inv k (es ++ [(i, o)]) s' ∧ Sem s' := by
  have happend : ∀ {pc : CallPc}, CallOk k s.slot pc → ∀ pc' ∈ s.calls ++ [pc],
      CallOk k s.slot pc' := fun {pc} hpc pc' hm => by
    rcases List.mem_append.1 hm with hm | hm
    · exact h.calls pc' hm
    · rw [List.mem_singleton.1 hm]
      exact hpc
  cases i with
  | report => exact ⟨_, _, rfl, report_inv h, hsem.of_eq ⟨rfl, rfl, rfl⟩⟩
  | queueWork => exact ⟨_, _, rfl, queueWork_inv h, hsem.of_eq (queueWork_daemon s)⟩
  | work timeout alloc =>
    obtain ⟨o, s', hs, hw⟩ := work_spec (i := .work timeout alloc) h hok
    exact ⟨o, s', hs, hw.inv, hsem.of_eq hw.daemon⟩
  | read =>
    exact ⟨_, _, rfl, (Same.refl s).inv h silent_quiet (happend (callOk_quiet rfl nofun)),
      hsem.called rfl rfl⟩
  | write q =>
    refine ⟨_, _, rfl, (Same.refl s).inv h silent_quiet (happend ?_), hsem.called rfl rfl⟩
    cases k with
    | ke => exact callOk_quiet rfl nofun
    | ee => exact callOk_held (fun r hr => hr) rfl rfl fun _ => nofun
  | call c alloc =>
    cases hc : s.calls[c]? with
    | none =>
      refine ⟨.quiet, s, by simp only [sideStep, hc], ?_, hsem⟩
      exact h.quiet silent_quiet rfl rfl rfl rfl (.refl _) h.worker h.calls
    | some pc =>
      obtain ⟨o, pc', s₁, hs, hinv, -, hm⟩ := call_spec h hsem hc alloc
      exact ⟨_, _, hs, hinv, hsem.moved hc hm⟩

/-! ## The records are freed -/

/-- The steps of what is under way: no report, and no call that begins. -/
def Op.Own : Op → Prop
  | .report | .read | .write _ => False
  | _ => True

/-- The worker has no record left. -/
def Side.Done (s : Side) : Prop := s.worker = .idle ∧ s.queue = []

/-- What is left to do: the steps of the calls and of the worker. -/
def Side.todo (s : Side) : Nat := s.sum CallPc.todo + s.weight

/-- Some step is possible that brings the last record nearer to its end. -/
structure Nearer (k : Kind) (es : List (Op × Out)) (s : Side) (i : Op) (o : Out) (s' : Side) :
    Prop where
  own : i.Own
  ok : SideOk s i
  step : sideStep k s i = some (o, s')
  inv : Inv k (es ++ [(i, o)]) s'
  sem : Sem s'
  nextRec : s'.nextRec = s.nextRec
  todo : s'.todo < s.todo

/-- Some call that need not wait goes on. -/
theorem nearer_call (h : Inv k es s) (hsem : Sem s) {pc : CallPc} (hm : pc ∈ s.calls)
    (hgo : pc.reads = true ∨ pc.writes = true ∨
      pc ≠ .idle ∧ s.readers = 0 ∧ s.writer = false) :
    ∃ i o s', Nearer k es s i o s' := by
  obtain ⟨c, hc⟩ := List.mem_iff_getElem?.1 hm
  obtain ⟨o, pc', s₁, hs, hinv, hsame, hmv⟩ := call_spec (i := .call c true) h hsem hc true
  refine ⟨.call c true, o, _, trivial, trivial, hs, hinv, hsem.moved hc hmv, hsame.nextRec, ?_⟩
  have hsum := sum_map_set CallPc.todo pc' hc
  have hlt := hmv.todo hgo
  have hweight : ({ s₁ with calls := s.calls.set c pc' } : Side).weight = s.weight := by
    simp only [Side.weight, hsame.queue, hsame.worker, hsame.pending]
  rw [Side.todo, Side.todo, hweight]
  simp only [Side.sum] at hsum ⊢
  omega

/-- The worker goes on where it destroys no record that a call has found. -/
theorem nearer_work (h : Inv k es s) (hsem : Sem s) (hok : WorkOk s) (hdone : ¬ s.Done) :
    ∃ i o s', Nearer k es s i o s' := by
  by_cases hb : s.Busy
  · obtain ⟨o, s', hs, hw⟩ := work_spec (i := .work true true) h hok
    refine ⟨.work true true, o, s', trivial, hok, hs, hw.inv, hsem.of_eq hw.daemon, hw.nextRec, ?_⟩
    have hlt := hw.weight rfl hb
    simp only [Side.todo, Side.sum, hw.daemon.1]
    omega
  · -- the work is not pending, but it will be queued
    simp only [Side.Busy, Classical.not_imp, not_and_or, not_not] at hb
    obtain ⟨hidle, hb⟩ := hb
    have hq : s.queue ≠ [] := fun hq => hdone ⟨hidle, hq⟩
    have hpend : s.pending = false := by simpa [hq] using hb
    have hw := h.worker
    simp only [Side.WorkerOk, hidle, hq, false_or, Side.Woken, hpend, Bool.false_eq_true,
      or_false] at hw
    refine ⟨.queueWork, _, _, trivial, trivial, rfl, queueWork_inv h,
      hsem.of_eq (queueWork_daemon s), ?_, ?_⟩
    · simp only [queueWork]
      split_ifs <;> rfl
    · simp [queueWork, Nat.pos_iff_ne_zero.1 hw.2, Side.todo, Side.sum, Side.weight, hidle, hpend]

theorem nearer (h : Inv k es s) (hsem : Sem s) (hdone : ¬ s.Done) :
    ∃ i o s', Nearer k es s i o s' := by
  by_cases hidle : ∀ pc ∈ s.calls, pc = .idle
  · exact nearer_work h hsem (fun _ pc hm => hidle pc hm ▸ rfl) hdone
  · simp only [not_forall] at hidle
    obtain ⟨pc, hm, hne⟩ := hidle
    rcases hsem.free_or with hfree | ⟨pc', hm', hsec⟩
    · exact nearer_call h hsem hm (.inr (.inr ⟨hne, hfree⟩))
    · exact nearer_call h hsem hm' (hsec.imp id .inl)

/-- What is under way frees every record, within the condition of the steps. -/
structure Freed (k : Kind) (es : List (Op × Out)) (s : Side) (is : List Op)
    (es' : List (Op × Out)) (s' : Side) : Prop where
  own : ∀ i ∈ is, i.Own
  ok : Sys.Along (sideStep k) SideOk s is
  run : Sys.run (sideStep k) s is = some (es', s')
  nextRec : s'.nextRec = s.nextRec
  unlinked : unlinkedOf (es ++ es') = List.range s.nextRec
  freed : freedOf (es ++ es') = List.range s.nextRec
  alive : s'.alive = ∅

theorem Inv.done (h : Inv k es s) (hd : s.Done) : unlinkedOf es = List.range s.nextRec ∧
    freedOf es = List.range s.nextRec ∧ s.alive = ∅ := by
  have hleft : s.left = [] := by rw [Side.left, hd.1, hd.2]; rfl
  refine ⟨?_, ?_, ?_⟩
  · rw [← h.unlinked, hd.2, List.append_nil]
  · rw [← h.freed, hleft, List.append_nil]
  · rw [h.alive, hleft]
    rfl

/-- The induction is on what is left to do. -/
theorem freed_all (h : Inv k es s) (hsem : Sem s) : ∃ is es' s', Freed k es s is es' s' := by
  induction hn : s.todo using Nat.strong_induction_on generalizing es s with
  | _ n ih =>
    by_cases hd : s.Done
    · obtain ⟨hu, hf, ha⟩ := h.done hd
      refine ⟨[], [], s, nofun, trivial, rfl, rfl, ?_, ?_, ha⟩
      · rw [List.append_nil, hu]
      · rw [List.append_nil, hf]
    · obtain ⟨i, o, s₁, hi⟩ := nearer h hsem hd
      obtain ⟨is, es', s', hr⟩ := ih _ (hn ▸ hi.todo) hi.inv hi.sem rfl
      have hu := hr.unlinked
      have hf := hr.freed
      rw [List.append_assoc, hi.nextRec] at hu hf
      refine ⟨i :: is, (i, o) :: es', s', ?_, Sys.along_cons hi.ok hi.step hr.ok, ?_,
        hr.nextRec.trans hi.nextRec, hu, hf, hr.alive⟩
      · exact List.forall_mem_cons.2 ⟨hi.own, hr.own⟩
      · rw [Sys.run_cons_some is hi.step, hr.run]
        rfl

/-! ## Both kinds -/

/-- The events of one kind. -/
def eventsOf (k : Kind) (es : List ((Kind × Op) × Out)) : List (Op × Out) :=
  es.filterMap fun e => if e.1.1 = k then some (e.1.2, e.2) else none

theorem eventsOf_append (es es' : List ((Kind × Op) × Out)) :
    eventsOf k (es ++ es') = eventsOf k es ++ eventsOf k es' := List.filterMap_append

/-- A worker destroys its record only while no read or write of its device that has found a record
is under way. -/
def StepOk (s : State) (i : Kind × Op) : Prop := SideOk (s i.1) i.2

instance (s : State) (i : Kind × Op) : Decidable (StepOk s i) :=
  inferInstanceAs (Decidable (SideOk _ _))

/-- One kind after a run. -/
structure Kept (k : Kind) (es : List (Op × Out)) (s : Side) : Prop where
  /-- A record is presented at most once. -/
  presented : (indicatedOf es).Nodup
  /-- The records are unlinked in the order of their reports, each once, and the queue has those
  that are not unlinked. -/
  unlinked : unlinkedOf es ++ s.queue = List.range s.nextRec
  /-- They are freed in that order too, each once and after it is unlinked. -/
  freed : freedOf es <+: unlinkedOf es
  alive : ∀ r, r ∈ s.alive ↔ r < s.nextRec ∧ r ∉ freedOf es
  queue : ∀ r ∈ s.queue, r ∈ s.alive
  slot : ∀ r ∈ s.slot, r ∈ s.alive
  held : ∀ pc ∈ s.calls, ∀ r ∈ pc.held, r ∈ s.alive
  /-- What is under way frees the records that are left. -/
  all : ∃ is es' s', Freed k es s is es' s'

theorem Inv.unlinked_eq (h : Inv k es s) : freedOf es ++ s.worker.dying = unlinkedOf es := by
  have heq : (freedOf es ++ s.worker.dying) ++ s.queue = unlinkedOf es ++ s.queue := by
    rw [List.append_assoc, h.unlinked, ← h.freed, Side.left]
  exact List.append_cancel_right heq

theorem Inv.kept (h : Inv k es s) (hsem : Sem s) : Kept k es s where
  presented := by
    have hsub : s.worker.shown.Sublist s.queue := by
      have hw := h.worker
      unfold Side.WorkerOk at hw
      cases hpc : s.worker <;> simp only [hpc] at hw <;> grind [WorkerPc.shown]
    have hrange := h.shown.trans (hsub.append_left _)
    rw [h.unlinked] at hrange
    exact hrange.nodup List.nodup_range
  unlinked := h.unlinked
  freed := ⟨_, h.unlinked_eq⟩
  alive r := by
    have hnd := List.nodup_append.1 h.left_nodup
    rw [h.mem_alive, ← List.mem_range, ← h.freed, List.mem_append]
    refine ⟨fun hr => ⟨.inr hr, fun hf => hnd.2.2 r hf r hr rfl⟩, ?_⟩
    rintro ⟨hf | hr, hn⟩
    · exact absurd hf hn
    · exact hr
  queue r hr := h.mem_alive.2 (List.mem_append_right _ hr)
  slot r hr := h.slot_alive hr
  held pc hpc r hr := h.held_alive hpc hr
  all := freed_all h hsem

theorem step_kept {es : List ((Kind × Op) × Out)} {s : State} {i : Kind × Op}
    (h : ∀ k, Inv k (eventsOf k es) (s k) ∧ Sem (s k)) (hok : StepOk s i) :
    ∃ o s', step s i = some (o, s') ∧
      ∀ k, Inv k (eventsOf k (es ++ [(i, o)])) (s' k) ∧ Sem (s' k) := by
  obtain ⟨o, t, hs, hinv, hsem⟩ := side_spec (h i.1).1 (h i.1).2 hok
  refine ⟨o, Function.update s i.1 t, by rw [step, hs, Option.map_some], fun k => ?_⟩
  rw [eventsOf_append]
  by_cases hk : i.1 = k
  · subst hk
    rw [Function.update_self]
    simpa [eventsOf] using ⟨hinv, hsem⟩
  · rw [Function.update_of_ne (Ne.symm hk)]
    simpa [eventsOf, hk] using h k

/-- **Runs of the queues**: as long as a worker destroys a record only while no call that has found
one is under way, a run meets no freed record and keeps both kinds. -/
theorem queue_runs (is : List (Kind × Op)) (h : Sys.Along step StepOk init is) :
    ∃ es s, Sys.run step init is = some (es, s) ∧ ∀ k, Kept k (eventsOf k es) (s k) := by
  obtain ⟨es, s, hrun, hinv⟩ := Sys.run_hist_along
    (I := fun es s => ∀ k, Inv k (eventsOf k es) (s k) ∧ Sem (s k))
    (fun _ _ _ h hok => step_kept h hok) is [] init (fun _ => ⟨inv_init, rfl, rfl⟩) h
  exact ⟨es, s, hrun, fun k => (hinv k).1.kept (hinv k).2⟩

/-- The steps of one kind. -/
def opsOf (k : Kind) (is : List Op) : List (Kind × Op) := is.map fun i => (k, i)

/-- The worker presents its record and waits. -/
def present : List Op := List.replicate 4 (.work false true)

/-- Two kernel exceptions and an external one: the daemon reads the first, asks about it and closes
it, nobody closes the second, and a report goes in while the external one is destroyed. -/
def threeReports : List (Kind × Op) :=
  opsOf .ke ([.report, .report, .queueWork] ++ present) ++
  opsOf .ee ([.report, .queueWork] ++ present) ++
  opsOf .ke [.read, .write (.req 1), .call 0 true, .call 1 true, .call 0 true] ++
  opsOf .ke (List.replicate 8 (.call 1 true)) ++
  opsOf .ke [.write .logClose, .call 2 true, .call 2 true] ++
  opsOf .ke (List.replicate 7 (.work false true)) ++
  opsOf .ee (.read :: List.replicate 4 (.call 0 true)) ++
  opsOf .ee [.work true true, .work true true, .report, .work true true] ++
  opsOf .ke (List.replicate 3 (.work true true))

theorem queue_runs_three : ∃ es s, Sys.run step init threeReports = some (es, s) ∧
    ∀ k, Kept k (eventsOf k es) (s k) :=
  queue_runs threeReports (by decide +kernel)

/-- A kernel exception whose worker no longer waits while a request has found its record. -/
def keTimeout : List (Kind × Op) :=
  opsOf .ke ([.report, .queueWork] ++ present) ++
  opsOf .ke (.write (.req 1) :: List.replicate 4 (.call 0 true)) ++
  opsOf .ke (List.replicate 3 (.work true true))

/-- An external exception whose worker no longer waits while a write waits for the semaphore. -/
def eeTimeout : List (Kind × Op) :=
  opsOf .ee ([.report, .queueWork] ++ present) ++
  opsOf .ee (.write .logClose :: List.replicate 3 (.work true true)) ++
  opsOf .ee [.call 0 true, .call 0 true]

/-- The write uses the freed record that it found before the semaphore, and the request goes on with
the record that was freed meanwhile. -/
theorem queue_runs_timeout : Sys.run step init eeTimeout = none ∧
    ∃ q ∈ Sys.run step init keTimeout, ∃ pc ∈ (q.2 .ke).calls, ∃ r ∈ pc.held,
      r ∉ (q.2 .ke).alive := by
  rw [← Option.isNone_iff_eq_none]
  decide +kernel

end Aee.Queues
