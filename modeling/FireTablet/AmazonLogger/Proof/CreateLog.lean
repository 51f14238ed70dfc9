import FireTablet.AmazonLogger.Logger

/-!
# The list of logs

Every failure of `create_log` is undone but the last: when `misc_register` fails the logger is freed
and stays in `log_list`. So the list holds exactly the registered loggers that are not freed after
every call of a run, and a failing call leaves it as it was, exactly when no registration fails in
the run (`logs_exact_iff`).
-/

namespace AmazonLogger

/-- The list holds exactly the loggers that are registered and not freed. -/
structure Logs.Exact (s : Logs) : Prop where
  nodup : s.logList.Nodup
  mem : ∀ log, log ∈ s.logList ↔ log ∈ s.registered ∧ log ∈ s.allocated

/-- A call accesses no freed logger, leaves the list exact, and as it was when it fails. -/
def LogCall.Ok (s : Logs) (c : LogCall) : Prop :=
  ∃ o s', logsStep s c = some (o, s') ∧ s'.Exact ∧ ∀ e, o = some (.error e) → s'.logList = s.logList

/-- `kzalloc` gives no address that is in use. -/
def LogCall.Fresh (s : Logs) : LogCall → Prop
  | .create env => ∀ log ∈ env.kzalloc, log ∉ s.allocated
  | .exit => True

instance (s : Logs) (c : LogCall) : Decidable (c.Fresh s) :=
  match c with
  | .create env => inferInstanceAs (Decidable (∀ log ∈ env.kzalloc, log ∉ s.allocated))
  | .exit => isTrue trivial

/-- Everything is allocated and `misc_register` fails. -/
def LogCall.RegisterFails : LogCall → Prop
  | .create env =>
    env.kzalloc.isSome ∧ env.kstrdup = true ∧ env.ringBufferAlloc = true ∧ env.miscRegister ≠ 0
  | .exit => False

instance (c : LogCall) : Decidable c.RegisterFails :=
  match c with
  | .create _ => inferInstanceAs (Decidable (_ ∧ _ ∧ _ ∧ _))
  | .exit => isFalse id

theorem exact_start : Logs.Exact ⟨[], [], []⟩ := ⟨List.nodup_nil, fun log => by simp⟩

section
variable {s : Logs} (h : s.Exact)
include h

/-- No entry of the list is freed, and a new logger is not in it. -/
theorem Logs.Exact.listAddTail {log : Nat} (hfresh : log ∉ s.allocated) :
    Logs.listAddTail { s with allocated := log :: s.allocated } log =
      some { s with allocated := log :: s.allocated, logList := s.logList ++ [log] } := by
  refine if_neg ?_
  rintro (hmem | ⟨last, hlast, hfreed⟩)
  · exact hfresh ((h.mem log).1 hmem).2
  · exact hfreed (List.mem_cons_of_mem _ ((h.mem last).1 (List.mem_of_getLast? hlast)).2)

/-- A logger that is created is the last of the list. -/
theorem Logs.Exact.register {log : Nat} (hfresh : log ∉ s.allocated) :
    Logs.Exact ⟨log :: s.allocated, log :: s.registered, s.logList ++ [log]⟩ := by
  have hnot : log ∉ s.logList := fun hmem => hfresh ((h.mem log).1 hmem).2
  refine ⟨List.nodup_append.2 ⟨h.nodup, by simp, ?_⟩, fun l => ?_⟩
  · intro a ha b hb heq
    rw [List.mem_singleton] at hb
    exact hnot (hb ▸ heq ▸ ha)
  · simp only [List.mem_append, List.mem_cons, List.not_mem_nil, or_false, h.mem l]
    by_cases hl : l = log
    · simp [hl]
    · simp [hl]

theorem Logs.Exact.exit : LogCall.Ok s .exit := by
  have hall : ¬ ∃ log ∈ s.logList, log ∉ s.allocated := fun ⟨log, hmem, hfreed⟩ =>
    hfreed ((h.mem log).1 hmem).2
  refine ⟨none, _, congrArg (Option.map _) (if_neg hall), ⟨List.nodup_nil, fun log => ?_⟩,
    fun e he => by cases he⟩
  refine ⟨fun hmem => absurd hmem List.not_mem_nil, fun hboth => ?_⟩
  simp only [List.mem_filter, decide_eq_true_eq] at hboth
  exact absurd ((h.mem log).2 ⟨hboth.1.1, hboth.2.1⟩) hboth.1.2

/-- **One call** is fine exactly when it is no failing registration. -/
theorem Logs.Exact.ok_iff {c : LogCall} (hfresh : c.Fresh s) : c.Ok s ↔ ¬ c.RegisterFails := by
  cases c with
  | exit => exact ⟨fun _ => id, fun _ => h.exit⟩
  | create env =>
    obtain ⟨kzalloc, kstrdup, ringBufferAlloc, miscRegister⟩ := env
    cases kzalloc with
    | none => exact ⟨fun _ hf => absurd hf.1 (by simp), fun _ => ⟨_, s, rfl, h, fun _ _ => rfl⟩⟩
    | some log =>
      have hlog : log ∉ s.allocated := hfresh log rfl
      have hfree : Logs.kfree { s with allocated := log :: s.allocated } log = s := by
        rw [Logs.kfree, List.erase_cons_head]
      have hundo := congrArg (fun s => some (some (Except.error enomem : Except Int Nat), s)) hfree
      cases kstrdup with
      | false =>
        have hstep : logsStep s (.create ⟨some log, false, ringBufferAlloc, miscRegister⟩) =
            some (some (.error enomem), s) := hundo
        exact ⟨fun _ hf => absurd hf.2.1 (by simp), fun _ => ⟨_, s, hstep, h, fun _ _ => rfl⟩⟩
      | true =>
        cases ringBufferAlloc with
        | false =>
          have hstep : logsStep s (.create ⟨some log, true, false, miscRegister⟩) =
              some (some (.error enomem), s) := hundo
          exact ⟨fun _ hf => absurd hf.2.2.1 (by simp), fun _ => ⟨_, s, hstep, h, fun _ _ => rfl⟩⟩
        | true =>
          have hstep : logsStep s (.create ⟨some log, true, true, miscRegister⟩) =
              if miscRegister ≠ 0 then
                some (some (.error miscRegister), { s with logList := s.logList ++ [log] })
              else some (some (.ok log),
                ⟨log :: s.allocated, log :: s.registered, s.logList ++ [log]⟩) := by
            simp only [logsStep, createLog, not_true_eq_false, if_false, h.listAddTail hlog,
              Option.map_some, Logs.kfree]
            split <;> simp
          unfold LogCall.Ok
          rw [hstep]
          by_cases hreg : miscRegister ≠ 0
          · -- the logger is freed, and in the list
            rw [if_pos hreg]
            refine ⟨fun ⟨o, s', heq, hexact, _⟩ => ?_, fun hno => absurd ⟨rfl, rfl, rfl, hreg⟩ hno⟩
            cases heq
            exact absurd ((hexact.mem log).1 (List.mem_append_right _ List.mem_cons_self)).2 hlog
          · rw [if_neg hreg]
            exact ⟨fun _ hf => hreg hf.2.2.2,
              fun _ => ⟨_, _, rfl, h.register hlog, fun e he => by cases he⟩⟩

end

/-- **The list of logs** is exact after every call of a run, and unchanged by the calls that fail,
exactly when no registration fails. -/
theorem logs_exact_iff (cs : List LogCall) {s : Logs} (h : s.Exact)
    (hfresh : Sys.Along logsStep (fun s c => c.Fresh s) s cs) :
    Sys.Along logsStep (fun s c => c.Ok s) s cs ↔ ∀ c ∈ cs, ¬ c.RegisterFails := by
  induction cs generalizing s with
  | nil => exact ⟨fun _ c hc => absurd hc List.not_mem_nil, fun _ => trivial⟩
  | cons c cs ih =>
    obtain ⟨hf, hfs⟩ := hfresh
    rw [List.forall_mem_cons]
    constructor
    · rintro ⟨hok, hoks⟩
      obtain ⟨o, s', hstep, hexact, -⟩ := id hok
      exact ⟨(h.ok_iff hf).1 hok, (ih hexact (hfs o s' hstep)).1 (hoks o s' hstep)⟩
    · rintro ⟨hno, hnos⟩
      have hok := (h.ok_iff hf).2 hno
      refine ⟨hok, fun o s' hstep => ?_⟩
      obtain ⟨o', s'', hstep', hexact, -⟩ := hok
      rw [hstep] at hstep'
      cases hstep'
      exact (ih hexact (hfs o s' hstep)).2 hnos

/-- The two logs of the driver, with a name that cannot be allocated at first. -/
theorem logs_exact_iff_two :
    Sys.Along logsStep (fun s c => c.Ok s) ⟨[], [], []⟩
        [.create ⟨some 1, true, true, 0⟩, .create ⟨some 2, false, true, 0⟩,
          .create ⟨some 2, true, true, 0⟩, .exit] ↔
      ∀ c ∈ [LogCall.create ⟨some 1, true, true, 0⟩, .create ⟨some 2, false, true, 0⟩,
          .create ⟨some 2, true, true, 0⟩, .exit], ¬ c.RegisterFails :=
  logs_exact_iff _ exact_start (by decide)

/-- **A failing registration**: the freed logger stays in the list, and the next log's is linked
behind it. -/
theorem freed_log_listed :
    createLog ⟨some 1, true, true, enomem⟩ ⟨[], [], []⟩ =
        some (.error enomem, ⟨[], [], [1]⟩) ∧
      createLog ⟨some 2, true, true, 0⟩ ⟨[], [], [1]⟩ = none ∧
      ¬ Sys.Along logsStep (fun s c => c.Ok s) ⟨[], [], []⟩
        [.create ⟨some 1, true, true, enomem⟩] := by
  have hcreate : createLog ⟨some 1, true, true, enomem⟩ ⟨[], [], []⟩ =
      some (.error enomem, ⟨[], [], [1]⟩) := rfl
  refine ⟨hcreate, by decide, fun halong => ?_⟩
  obtain ⟨o, s', hstep, hexact, -⟩ := halong.1
  rw [logsStep, hcreate] at hstep
  cases hstep
  exact absurd ((hexact.mem 1).1 (by simp)).2 (by simp)

end AmazonLogger
