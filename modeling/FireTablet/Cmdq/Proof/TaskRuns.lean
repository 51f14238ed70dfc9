import FireTablet.Cmdq.Proof.TaskAccount
import Mathlib.Algebra.BigOperators.Ring.Finset
import Mathlib.Tactic.Abel

/-!
# The engine's tasks and its usage count along runs

Every event is a path of the lives of the tasks (`next_path`), and as long as no thread is stopped
while its timeout worker calls the error callback, the usage count is the number of threads with
tasks, and one for each time the engine is enabled and not disabled (`Balanced.next`).
-/

namespace Cmdq

variable {n : Nat} {g : Nat}

/-! ## Every event is a path -/

/-- The tasks on the local lists of the interrupt handler and of the timeout workers. -/
def Gce.parked (s : Gce n) : Multiset CmdqTask := ↑s.irqRemoves + ∑ i, ↑(Cmdq.parked (s.worker i))

/-- The lives of an engine's tasks, where `d` are lost. -/
def Gce.life (s : Gce n) (d : Multiset CmdqTask) (k : Nat) : GceLife n :=
  ⟨fun i => (s.thread i).taskBusyList, s.parked + d, k⟩

/-- A path of one thread, where the others stay. -/
theorem life_lift {s s' : Gce n} {i : Fin n} {thr : CmdqThread} {es : List TaskEff}
    {d d' m : Multiset CmdqTask} {k k' : Nat}
    (h : LifePath ⟨(s.thread i).taskBusyList, s.parked + d, k⟩ es ⟨thr.taskBusyList, m, k'⟩)
    (hs : s'.thread = Function.update s.thread i thr) (hm : s'.parked + d' = m) :
    GcePath (s.life d k) es (s'.life d' k') := by
  have hl := LifePath.lift (l := s.life d k) (i := i) h
  have he : s'.life d' k' = (s.life d k).set i ⟨thr.taskBusyList, m, k'⟩ := by
    simp only [Gce.life, GceLife.set, hm, hs, GceLife.mk.injEq, and_true]
    funext j
    by_cases hj : j = i
    · subst hj
      simp
    · simp [Function.update_of_ne hj]
  exact he ▸ hl

/-- The local lists after a worker has changed its own. -/
theorem parked_worker (s : Gce n) (i : Fin n) (w : Option TimeoutWork) :
    (∑ j, (↑(parked (Function.update s.worker i w j)) : Multiset CmdqTask)) +
      ↑(parked (s.worker i)) =
      ∑ j, (↑(parked (s.worker j)) : Multiset CmdqTask) + ↑(parked w) := by
  have h := sum_update (fun j => (↑(parked (s.worker j)) : Multiset CmdqTask)) i ↑(parked w)
  rw [← h]
  congr 1
  refine Finset.sum_congr rfl fun j _ => ?_
  by_cases hj : j = i
  · subst hj
    simp
  · simp [Function.update_of_ne hj]

/-- **Every event is a path of the lives of the tasks.** -/
theorem next_path (s : Gce n) (e : GceEv n) (d : Multiset CmdqTask) (k : Nat)
    (hk : k ≤ s.serial) :
    ∃ k' ≤ (s.next g e).2.serial, GcePath (s.life d k) (s.next g e).1.effs
      ((s.next g e).2.life (d + ↑(s.next g e).1.leaked) k') := by
  have hnil : d + ↑([] : List CmdqTask) = d := by simp
  have hsame : ∀ s' : Gce n, (∀ j, (s'.thread j).taskBusyList = (s.thread j).taskBusyList) →
      s'.parked = s.parked →
      GcePath (s.life d k) [] (s'.life (d + ↑([] : List CmdqTask)) k) := by
    intro s' hthr hp
    have he : s'.life (d + ↑([] : List CmdqTask)) k = s.life d k := by
      rw [Gce.life, hp, hnil, funext hthr]
      rfl
    exact he ▸ .nil _
  cases e with
  | submit i pkt ptr =>
    obtain ⟨k', hk', hp⟩ := (exec_accepts (g := g) s.serial pkt ptr (s.lock i)).path
      (s.parked + d) k hk
    exact ⟨k', hk', life_lift hp rfl (congrArg (s.parked + ·) hnil)⟩
  | irq i flag =>
    have hp := (irqHandler_kept (g := g) flag (s.lock i)).path (s.parked + d) k
    refine ⟨k, hk, life_lift hp rfl ?_⟩
    simp only [Gce.next, Gce.parked, Gce.unlock, ← Multiset.coe_add, Multiset.coe_nil]
    abel
  | irqEnd =>
    have hp := gcePath_free (fun i => (s.thread i).taskBusyList) s.irqRemoves
      (∑ i, ↑(parked (s.worker i)) + d) k
    refine ⟨k, hk, ?_⟩
    simpa [Gce.next, Gce.life, Gce.parked, add_assoc] using hp
  | timeout i flag x x' =>
    cases hw : s.worker i with
    | some w =>
      simp only [Gce.next, hw]
      exact ⟨k, hk, hsame s (fun _ => rfl) rfl⟩
    | none =>
      simp only [Gce.next, hw]
      have hp := (timeoutBegin_kept (g := g) flag x x' (s.lock i)).path (s.parked + d) k
      refine ⟨k, hk, life_lift hp rfl ?_⟩
      generalize timeoutBegin g flag x x' (s.lock i) = r
      have hpark := parked_worker s i r.2.2
      simp only [hw, parked_none, Multiset.coe_nil, add_zero] at hpark
      simp only [Gce.parked, Gce.unlock, hpark, Multiset.coe_nil]
      abel
  | timeoutEnd i =>
    cases hw : s.worker i with
    | none =>
      simp only [Gce.next, hw]
      exact ⟨k, hk, hsame s (fun _ => rfl) rfl⟩
    | some w =>
      simp only [Gce.next, hw]
      have hpark := parked_worker s i none
      simp only [hw, parked_none, parked_some, Multiset.coe_nil, add_zero] at hpark
      -- the worker frees its local list in the end
      have hm : s.parked + d =
          (({ s.unlock i (timeoutEnd g w (s.lock i)).2 with
            worker := Function.update s.worker i none } : Gce n).parked + d) + ↑w.removes := by
        simp only [Gce.parked, Gce.unlock, ← hpark]
        abel
      refine ⟨k, hk, life_lift (m := _) ?_ rfl (congrArg (_ + ·) hnil)⟩
      rw [hm]
      generalize ({ s.unlock i (timeoutEnd g w (s.lock i)).2 with
            worker := Function.update s.worker i none } : Gce n).parked + d = m
      by_cases hq : (s.lock i).thr.taskBusyList = []
      · obtain ⟨heff, hq'⟩ := timeoutEnd_empty (g := g) w hq
        have hq0 : (s.thread i).taskBusyList = [] := hq
        rw [heff, hq', hq0]
        exact path_free [] w.removes m k
      · obtain ⟨es, heff, hkept⟩ := timeoutEnd_kept (g := g) w hq
        have hp := hkept.path (m + ↑w.removes) k
        rw [Multiset.coe_nil, add_zero] at hp
        rw [heff]
        exact hp.append (path_free _ w.removes m k)
  | removeTask i pkt flag =>
    have hp := (removeTask_kept (g := g) pkt flag (s.lock i)).path (s.parked + d) k
    exact ⟨k, hk, life_lift hp rfl (add_assoc s.parked d _).symm⟩
  | stop i flag =>
    have hp := (stop_kept (g := g) flag (s.lock i)).path (s.parked + d) k
    exact ⟨k, hk, life_lift hp rfl (add_assoc s.parked d _).symm⟩
  | enable => exact ⟨k, hk, hsame _ (fun _ => rfl) rfl⟩
  | disable => exact ⟨k, hk, hsame _ (fun _ => rfl) rfl⟩
  | progress i addr =>
    refine ⟨k, hk, hsame _ (fun j => ?_) rfl⟩
    by_cases hj : j = i
    · subst hj
      simp [Gce.next]
    · simp [Gce.next, Function.update_of_ne hj]
  | client pkt rec => exact ⟨k, hk, hsame _ (fun _ => rfl) rfl⟩

/-! ## The usage count -/

/-- The engine's usage count is the number of threads with tasks, and `net` that clients hold. -/
structure Balanced (s : Gce n) (net : Int) : Prop where
  sound : ∀ i, Sound (s.thread i)
  window : ∀ i, s.worker i ≠ none → InWindow (s.thread i)
  usage : s.usage = ∑ i, live (s.thread i) + net

/-- No thread is stopped while its timeout worker calls the error callback. -/
def Calm (s : Gce n) : GceEv n → Prop
  | .stop i _ => s.worker i = none
  | _ => True

instance (s : Gce n) : ∀ e, Decidable (Calm s e)
  | .stop i _ => decidable_of_iff ((s.worker i).isNone = true) Option.isNone_iff_eq_none
  | .submit .. | .irq .. | .irqEnd | .timeout .. | .timeoutEnd _ | .removeTask .. | .enable
  | .disable | .progress .. | .client .. => isTrue trivial

/-- What clients hold. -/
def GceEv.net : GceEv n → Int
  | .enable => 1
  | .disable => -1
  | _ => 0

/-- One thread is changed, and perhaps its worker. -/
theorem Balanced.unlock {s s' : Gce n} {net : Int} (h : Balanced s net) {i : Fin n} {t : ThrSt}
    {w : Option TimeoutWork} (hs : Sound t.thr)
    (hb : t.usage - live t.thr = s.usage - live (s.thread i))
    (hw : w ≠ none → InWindow t.thr) (hthr : s'.thread = Function.update s.thread i t.thr)
    (hu : s'.usage = t.usage) (hwk : s'.worker = Function.update s.worker i w) :
    Balanced s' net := by
  refine ⟨fun j => ?_, fun j hj => ?_, ?_⟩
  · rw [hthr]
    by_cases hji : j = i
    · subst hji
      rwa [Function.update_self]
    · rw [Function.update_of_ne hji]
      exact h.sound j
  · rw [hthr]
    rw [hwk] at hj
    by_cases hji : j = i
    · subst hji
      rw [Function.update_self] at hj ⊢
      exact hw hj
    · rw [Function.update_of_ne hji] at hj ⊢
      exact h.window j hj
  · have hsum := sum_update (fun j => live (s.thread j)) i (live t.thr)
    have he : ∀ j, live (s'.thread j) =
        Function.update (fun j => live (s.thread j)) i (live t.thr) j := by
      intro j
      rw [hthr]
      by_cases hji : j = i
      · subst hji
        simp
      · simp [Function.update_of_ne hji]
    simp only [he]
    have := h.usage
    omega

/-- The worker stays. -/
theorem Balanced.unlock_same {s s' : Gce n} {net : Int} (h : Balanced s net) {i : Fin n}
    {t : ThrSt} (hs : Sound t.thr) (hb : t.usage - live t.thr = s.usage - live (s.thread i))
    (hw : InWindow (s.thread i) → s.worker i ≠ none → InWindow t.thr)
    (hthr : s'.thread = Function.update s.thread i t.thr)
    (hu : s'.usage = t.usage) (hwk : s'.worker = s.worker) : Balanced s' net :=
  h.unlock hs hb (fun hne => hw (h.window i hne) hne) hthr hu
    (by rw [hwk, Function.update_eq_self])

/-- **One event keeps the usage count right.** -/
theorem Balanced.next {s : Gce n} {net : Int} (h : Balanced s net) {e : GceEv n}
    (hc : Calm s e) : Balanced (s.next g e).2 (net + e.net) := by
  have hz : ∀ {s' : Gce n}, Balanced s' net → Balanced s' (net + 0) := fun hs => by
    rwa [add_zero]
  cases e with
  | submit i pkt ptr =>
    have ha := exec_accepts (g := g) s.serial pkt ptr (s.lock i)
    refine hz ?_
    exact h.unlock_same (ha.sound (h.sound i)) (ha.balance (h.sound i))
      (fun hw _ => ⟨ha.dirty.trans hw.1, ha.grows hw.2⟩) rfl rfl rfl
  | irq i flag =>
    have hk := irqHandler_kept (g := g) flag (s.lock i)
    refine hz ?_
    refine h.unlock_same (hk.sound (h.sound i)) (hk.balance (h.sound i)) (fun hw _ => ?_) rfl rfl
      rfl
    rw [irqHandler_window flag (s := s.lock i) hw.1]
    exact hw
  | irqEnd =>
    refine hz ?_
    exact ⟨h.sound, h.window, h.usage⟩
  | timeout i flag x x' =>
    refine hz ?_
    cases hw : s.worker i with
    | some w =>
      simp only [Gce.next, hw]
      exact h
    | none =>
      simp only [Gce.next, hw]
      have hk := timeoutBegin_kept (g := g) flag x x' (s.lock i)
      exact h.unlock (hk.sound (h.sound i)) (hk.balance (h.sound i)) timeoutBegin_window rfl rfl
        rfl
  | timeoutEnd i =>
    refine hz ?_
    cases hw : s.worker i with
    | none =>
      simp only [Gce.next, hw]
      exact h
    | some w =>
      simp only [Gce.next, hw]
      have hin := h.window i (by simp [hw])
      obtain ⟨es, -, hk⟩ := timeoutEnd_kept (g := g) w (s := s.lock i) hin.2
      exact h.unlock (hk.sound (h.sound i)) (hk.balance (h.sound i)) (fun hn => absurd rfl hn) rfl
        rfl rfl
  | removeTask i pkt flag =>
    have hk := removeTask_kept (g := g) pkt flag (s.lock i)
    refine hz ?_
    exact h.unlock_same (hk.sound (h.sound i)) (hk.balance (h.sound i))
      (fun hw _ => removeTask_window pkt flag (s := s.lock i) hw) rfl rfl rfl
  | stop i flag =>
    have hk := stop_kept (g := g) flag (s.lock i)
    refine hz ?_
    exact h.unlock_same (hk.sound (h.sound i)) (hk.balance (h.sound i))
      (fun _ hne => absurd hc hne) rfl rfl rfl
  | enable =>
    refine ⟨h.sound, h.window, ?_⟩
    have := h.usage
    simp only [Gce.next, GceEv.net]
    omega
  | disable =>
    refine ⟨h.sound, h.window, ?_⟩
    have := h.usage
    simp only [Gce.next, GceEv.net]
    omega
  | progress i addr =>
    refine hz ?_
    exact h.unlock_same (t := ⟨s.usage, { s.thread i with currAddr := addr }, s.pkts⟩)
      (h.sound i) rfl (fun hw _ => hw) rfl rfl rfl
  | client pkt rec =>
    refine hz ?_
    exact ⟨h.sound, h.window, h.usage⟩

/-! ## Runs -/

/-- What happens to tasks in a history. -/
def effects (es : List (GceEv n × GceOut)) : List TaskEff := es.flatMap fun p => p.2.effs

/-- The tasks on local lists that were given up. -/
def lost (es : List (GceEv n × GceOut)) : List CmdqTask := es.flatMap fun p => p.2.leaked

/-- How often clients have enabled the engine, less how often they have disabled it. -/
def held (es : List (GceEv n × GceOut)) : Int := (es.map fun p => p.1.net).sum

theorem run_path (s : Gce n) (d : Multiset CmdqTask) {k : Nat} (hk : k ≤ s.serial)
    (evs : List (GceEv n)) :
    ∃ es s', Sys.run (Gce.step g) s evs = some (es, s') ∧ ∃ k' ≤ s'.serial,
      GcePath (s.life d k) (effects es) (s'.life (d + ↑(lost es)) k') := by
  refine Sys.run_hist (I := fun es s' => ∃ k' ≤ s'.serial,
    GcePath (s.life d k) (effects es) (s'.life (d + ↑(lost es)) k')) ?_ evs [] s ⟨k, hk, ?_⟩
  · intro es u e ⟨k', hk', hp⟩
    obtain ⟨k'', hk'', hp'⟩ := next_path (g := g) u e (d + ↑(lost es)) k' hk'
    refine ⟨(u.next g e).1, (u.next g e).2, rfl, k'', hk'', ?_⟩
    have h := hp.append hp'
    rw [add_assoc, Multiset.coe_add] at h
    simpa [effects, lost] using h
  · simpa [effects, lost] using Sys.Path.nil (R := GceLifeStep) (s.life d k)

theorem balanced_init (pkts : Nat → PktRec) : Balanced (Gce.init (n := n) pkts) 0 :=
  ⟨fun i => by simp [Gce.init, Sound], fun i hi => absurd rfl hi, by simp [Gce.init, live]⟩

theorem run_balanced {s : Gce n} {net : Int} (h : Balanced s net) {evs : List (GceEv n)}
    (hc : Sys.Along (Gce.step g) Calm s evs) :
    ∃ es s', Sys.run (Gce.step g) s evs = some (es, s') ∧ Balanced s' (net + held es) := by
  refine Sys.run_hist_along (I := fun es s' => Balanced s' (net + held es)) ?_ evs [] s ?_ hc
  · intro es u e hb hcu
    refine ⟨(u.next g e).1, (u.next g e).2, rfl, ?_⟩
    have hn := hb.next (g := g) hcu
    rw [add_assoc] at hn
    simpa [held] using hn
  · simpa [held] using h

theorem counted_init (pkts : Nat → PktRec) :
    Counted ((Gce.init (n := n) pkts).life 0 0) [] := by
  refine ⟨fun t => ?_, fun t => ?_, fun t => Nat.zero_le _, fun t h => absurd rfl h⟩
  · simp [accepted, called, GceLife.queued, Gce.life, Gce.init]
  · simp [called, freed, Gce.life, Gce.parked, Gce.init]

/-- The number of threads that have tasks. -/
theorem sum_live (s : Gce n) :
    ∑ i, live (s.thread i) =
      (Finset.univ.filter fun i => (s.thread i).taskBusyList ≠ []).card := by
  rw [Finset.card_filter, Nat.cast_sum]
  refine Finset.sum_congr rfl fun i _ => ?_
  by_cases hq : (s.thread i).taskBusyList = [] <;> simp [live, hq]

/-- The books of a history of the engine that has ended in `s`. -/
structure Books (es : List (GceEv n × GceOut)) (s : Gce n) : Prop where
  /-- At any time a task is accepted at most once, called back only after that, and freed only
  after it is called back. -/
  once : ∀ pre, pre <+: effects es → ∀ t,
    freed t pre ≤ called t pre ∧ called t pre ≤ accepted t pre ∧ accepted t pre ≤ 1
  /-- An accepted task is in the list of a thread or called back. -/
  queued : ∀ t, accepted t (effects es) =
    ∑ i, (s.thread i).taskBusyList.count t + called t (effects es)
  /-- A task that is called back is freed, or on a local list. -/
  parked : ∀ t, called t (effects es) =
    freed t (effects es) + s.parked.count t + (lost es).count t

theorem Counted.prefix {l l' : GceLife n} {es pre : List TaskEff} (h : Counted l [])
    (hp : GcePath l es l') (hpre : pre <+: es) (t : CmdqTask) :
    freed t pre ≤ called t pre ∧ called t pre ≤ accepted t pre ∧ accepted t pre ≤ 1 := by
  obtain ⟨rest, rfl⟩ := hpre
  obtain ⟨m, hm, -⟩ := Sys.Path.split hp
  have hc := h.path hm
  have hq := hc.queued t
  have hd := hc.done t
  have ho := hc.once t
  rw [List.nil_append] at hq hd ho
  omega

/-- **Every run keeps the books**: whatever happens on the threads in whatever order, the lives of
the tasks are as in `Books`, tasks that are not removed are called back in the order of their list,
and the usage count is right if no thread is stopped while its timeout worker calls the error
callback. -/
theorem task_accounting (pkts : Nat → PktRec) (evs later : List (GceEv n)) :
    ∃ es s es' s', Sys.run (Gce.step g) (Gce.init pkts) evs = some (es, s) ∧
      Sys.run (Gce.step g) s later = some (es', s') ∧ Books es s ∧
      (∀ i t u, [t, u].Sublist (s.thread i).taskBusyList → ∀ before err after,
        effects es' = before ++ .execDone u err :: after → 0 < called t before) ∧
      (Sys.Along (Gce.step g) Calm (Gce.init pkts) evs →
        s.usage = (Finset.univ.filter fun i => (s.thread i).taskBusyList ≠ []).card + held es ∧
        (0 ≤ held es → 0 ≤ s.usage)) := by
  obtain ⟨es, s, hrun, k, hk, hp⟩ := run_path (g := g) (Gce.init (n := n) pkts) 0
    (Nat.zero_le _) evs
  obtain ⟨es', s', hrun', _, _, hp'⟩ := run_path (g := g) s (0 + ↑(lost es)) hk later
  have h0 := counted_init (n := n) pkts
  have hc := h0.path hp
  rw [List.nil_append] at hc
  refine ⟨es, s, es', s', hrun, hrun', ⟨fun pre hpre t => h0.prefix hp hpre t, hc.queued, ?_⟩, ?_,
    ?_⟩
  · intro t
    have := hc.done t
    simp only [Gce.life, zero_add, Multiset.count_add, Multiset.coe_count] at this
    omega
  · intro i t u hs before err after he
    rw [he] at hp'
    exact path_order hc hs hp'
  · intro hcalm
    obtain ⟨es1, s1, hrun1, hb⟩ := run_balanced (g := g) (balanced_init (n := n) pkts) hcalm
    rw [hrun, Option.some.injEq, Prod.mk.injEq] at hrun1
    obtain ⟨rfl, rfl⟩ := hrun1
    have hu := hb.usage
    rw [zero_add, sum_live] at hu
    exact ⟨hu, fun hheld => by omega⟩

/-- Two packets with one buffer each. -/
def twoPkts (pkt : Nat) : PktRec where
  pkt := ⟨[⟨false, 0x10000 * (pkt + 1), fun _ => 0⟩], 3744, 96, 3840⟩
  priority := 0
  loop := false

/-- A thread is stopped after its timeout worker has ended, while another one has a task. -/
theorem task_accounting_stopped :
    ∃ es s, Sys.run (Gce.step 3) (Gce.init (n := 2) twoPkts)
        [.enable, .submit 0 0 (some 100), .submit 1 1 (some 200), .timeout 0 .none true true,
          .timeoutEnd 0, .submit 0 0 (some 300), .stop 0 .none] = some (es, s) ∧
      s.usage = (Finset.univ.filter fun i => (s.thread i).taskBusyList ≠ []).card + held es := by
  obtain ⟨es, s, _, _, hrun, -, -, -, hu⟩ := task_accounting (g := 3) (n := 2) twoPkts
    [.enable, .submit 0 0 (some 100), .submit 1 1 (some 200), .timeout 0 .none true true,
      .timeoutEnd 0, .submit 0 0 (some 300), .stop 0 .none] []
  exact ⟨es, s, hrun, (hu (by decide)).1⟩

/-- The first task waits, and the second one is removed from behind it and called back. A thread is
stopped while its timeout worker calls the error callback, and the engine is disabled twice. A task
is done while `cmdq_mbox_thread_remove_task` looks for it, and never freed. -/
theorem task_accounting_fails :
    (∃ es s es' s', Sys.run (Gce.step 3) (Gce.init (n := 1) twoPkts)
        [.submit 0 0 (some 100), .submit 0 1 (some 200)] = some (es, s) ∧
      Sys.run (Gce.step 3) s [.removeTask 0 1 .none] = some (es', s') ∧
      (s.thread 0).taskBusyList = [⟨0, 100, 0, 0x10000⟩, ⟨1, 200, 1, 0x20000⟩] ∧
      effects es' = [.removed ⟨1, 200, 1, 0x20000⟩ 0, .free ⟨1, 200, 1, 0x20000⟩]) ∧
    (∃ es s, Sys.run (Gce.step 3) (Gce.init (n := 1) twoPkts)
        [.submit 0 0 (some 100), .timeout 0 .none true true, .stop 0 .none, .timeoutEnd 0] =
          some (es, s) ∧ (s.thread 0).taskBusyList = [] ∧ s.usage = -1) ∧
    ∃ es s, Sys.run (Gce.step 3) (Gce.init (n := 1) twoPkts)
        [.submit 0 0 (some 100), .progress 0 0x200B, .removeTask 0 0 .done] = some (es, s) ∧
      effects es = [.accept ⟨0, 100, 0, 0x10000⟩, .execDone ⟨0, 100, 0, 0x10000⟩ 0] ∧
      s.parked = 0 ∧ s.usage = 0 :=
  ⟨⟨_, _, _, _, rfl, rfl, by decide, by decide⟩, ⟨_, _, rfl, by decide, by decide⟩,
    _, _, rfl, by decide, by decide, by decide⟩

end Cmdq
