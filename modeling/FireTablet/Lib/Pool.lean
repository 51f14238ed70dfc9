import FireTablet.Lib.Run

/-!
# Interleavings of threads

A pool has a shared state and a list of threads. A step is one atomic action of one thread on the
shared state, and the input of a step is the thread that acts: the runs of `Pool.step` are the
interleavings. `Pool.run_sim` is simulation along them, from what one action of one thread does, and
`Pool.run_thread` is what one thread has done.
-/

/-- Threads that share a state. -/
structure Pool (σ τ : Type*) where
  shared : σ
  threads : List τ

namespace Pool

variable {σ τ ε υ : Type*}

/-- One atomic action of thread `t`, and what it did; nothing if there is no such thread. -/
def step (act : σ → τ → ε × σ × τ) (s : Pool σ τ) (t : Nat) : Option (Option ε × Pool σ τ) :=
  match s.threads[t]? with
  | none => some (none, s)
  | some thread =>
    some (some (act s.shared thread).1,
      ⟨(act s.shared thread).2.1, s.threads.set t (act s.shared thread).2.2⟩)

/-- The threads but one. -/
def others (s : Pool σ τ) (t : Nat) : List τ := s.threads.eraseIdx t

theorem mem_of_mem_others {s : Pool σ τ} {t : Nat} {thread : τ} (new : τ)
    (h : thread ∈ s.others t) : thread ∈ s.threads.set t new := by
  obtain ⟨i, hne, hi⟩ := List.mem_eraseIdx_iff_getElem?.1 h
  refine List.mem_of_getElem? (i := i) ?_
  rw [List.getElem?_set_ne (Ne.symm hne)]
  exact hi

theorem mem_set_self {s : Pool σ τ} {t : Nat} {thread : τ} (new : τ)
    (h : s.threads[t]? = some thread) : new ∈ s.threads.set t new := by
  obtain ⟨hlt, -⟩ := List.getElem?_eq_some_iff.1 h
  exact List.mem_set hlt new

theorem mem_cases {s : Pool σ τ} {t : Nat} {thread other : τ} (h : s.threads[t]? = some thread)
    (hmem : other ∈ s.threads) : other = thread ∨ other ∈ s.others t := by
  obtain ⟨i, hi⟩ := List.mem_iff_getElem?.1 hmem
  by_cases hit : i = t
  · subst hit
    rw [h] at hi
    exact .inl (Option.some.inj hi).symm
  · exact .inr (List.mem_eraseIdx_iff_getElem?.2 ⟨i, hit, hi⟩)

/-- The abstract transition of a step: that of the thread's action, and none without a thread. -/
def Via (R : υ → ε → υ → Prop) (u : υ) (_ : Nat) : Option ε → υ → Prop
  | none, u' => u' = u
  | some e, u' => R u e u'

variable {act : σ → τ → ε × σ × τ}

/-- **Simulation along interleavings**: an action of a thread keeps the invariant of the pool and is
an abstract transition, if it meets the condition. -/
theorem run_sim (abs : σ → υ) {I : Pool σ τ → Prop} {P : Pool σ τ → Nat → Prop}
    {R : υ → ε → υ → Prop}
    (hact : ∀ s t thread, I s → P s t → s.threads[t]? = some thread →
      I ⟨(act s.shared thread).2.1, s.threads.set t (act s.shared thread).2.2⟩ ∧
      R (abs s.shared) (act s.shared thread).1 (abs (act s.shared thread).2.1))
    (sched : List Nat) (s : Pool σ τ) (hi : I s) (hp : Sys.Along (step act) P s sched) :
    ∃ es s', Sys.run (step act) s sched = some (es, s') ∧ I s' ∧
      Sys.Trace (Via R) (abs s.shared) es (abs s'.shared) := by
  refine Sys.run_sim (fun s => abs s.shared) (I := I) ?_ sched s hi hp
  intro s t hi hp
  cases ht : s.threads[t]? with
  | none => exact ⟨none, s, by rw [step, ht], hi, rfl⟩
  | some thread =>
    obtain ⟨hi', hr⟩ := hact s t thread hi hp ht
    exact ⟨some (act s.shared thread).1, _, by rw [step, ht], hi', hr⟩

/-! ## One thread -/

/-- What thread `t` did. -/
def did (t : Nat) (es : List (Nat × Option ε)) : List ε :=
  es.flatMap fun e => if e.1 = t then e.2.toList else []

/-- What every action of a thread keeps true of the thread and of what it has done is true of it in
every interleaving. -/
theorem run_thread {J : List ε → τ → Prop}
    (hact : ∀ shared thread hist, J hist thread →
      J (hist ++ [(act shared thread).1]) (act shared thread).2.2) {t : Nat} (sched : List Nat) :
    ∀ {s s' : Pool σ τ} {es : List (Nat × Option ε)} {thread : τ} (hist : List ε),
      Sys.run (step act) s sched = some (es, s') → s.threads[t]? = some thread → J hist thread →
      ∃ thread', s'.threads[t]? = some thread' ∧ J (hist ++ did t es) thread' := by
  induction sched with
  | nil =>
    intro s s' es thread hist hrun ht hj
    cases hrun
    exact ⟨thread, ht, by simpa [did] using hj⟩
  | cons i sched ih =>
    intro s s' es thread hist hrun ht hj
    obtain ⟨o, s₁, hs, thread₁, ht₁, hj₁⟩ : ∃ o s₁, step act s i = some (o, s₁) ∧
        ∃ thread₁, s₁.threads[t]? = some thread₁ ∧ J (hist ++ did t [(i, o)]) thread₁ := by
      cases hi : s.threads[i]? with
      | none =>
        have hne : i ≠ t := fun he => by rw [he, ht] at hi; cases hi
        exact ⟨none, s, by rw [step, hi], thread, ht, by simpa [did, hne] using hj⟩
      | some acting =>
        refine ⟨_, _, by rw [step, hi], ?_⟩
        by_cases he : i = t
        · subst he
          obtain rfl : acting = thread := Option.some.inj (hi.symm.trans ht)
          refine ⟨(act s.shared acting).2.2, ?_, by simpa [did] using hact s.shared acting hist hj⟩
          exact List.getElem?_set_self (List.getElem?_eq_some_iff.1 ht).1
        · exact ⟨thread, by rw [List.getElem?_set_ne he]; exact ht, by simpa [did, he] using hj⟩
    rw [Sys.run_cons_some _ hs] at hrun
    obtain ⟨q, hq, he⟩ := Option.map_eq_some_iff.1 hrun
    cases he
    obtain ⟨thread', ht', hj'⟩ := ih _ hq ht₁ hj₁
    refine ⟨thread', ht', ?_⟩
    have hdid : did t ((i, o) :: q.1) = did t [(i, o)] ++ did t q.1 := by simp [did]
    rwa [hdid, ← List.append_assoc]

end Pool
