import Mathlib.Data.List.Basic

/-!
# Runs of partial step functions

A component is a step function `step : σ → ι → Option (ο × σ)`: from a state, an input gives an
output and the next state, or `none` where the program's behaviour is undefined. `run` feeds a list
of inputs. `Along P` says that `P` holds of every state and input the run meets. `run_sim` is the
one induction over runs: an invariant kept and an abstract transition taken by every step that
meets a condition give a run that never gets stuck, keeps the invariant and is an abstract run.
-/

namespace Sys

variable {σ ι ο τ : Type*} (step : σ → ι → Option (ο × σ))

/-- The run of a list of inputs: every input with its output, and the last state. -/
def run (s : σ) : List ι → Option (List (ι × ο) × σ)
  | [] => some ([], s)
  | i :: is =>
    match step s i with
    | none => none
    | some (o, s') => (run s' is).map fun q => ((i, o) :: q.1, q.2)

/-- `P` holds of every state and input that the run of a list of inputs meets. -/
def Along (P : σ → ι → Prop) (s : σ) : List ι → Prop
  | [] => True
  | i :: is => P s i ∧ ∀ o s', step s i = some (o, s') → Along P s' is

/-- The runs of an abstract transition relation. -/
inductive Trace (R : τ → ι → ο → τ → Prop) : τ → List (ι × ο) → τ → Prop
  | nil (t : τ) : Trace R t [] t
  | cons {t t' t'' : τ} {i : ι} {o : ο} {es : List (ι × ο)} :
      R t i o t' → Trace R t' es t'' → Trace R t ((i, o) :: es) t''

/-- The labelled paths of a transition relation. -/
inductive Path (R : τ → ι → τ → Prop) : τ → List ι → τ → Prop
  | nil (t : τ) : Path R t [] t
  | cons {t t' t'' : τ} {i : ι} {is : List ι} : R t i t' → Path R t' is t'' → Path R t (i :: is) t''

theorem Path.single {R : τ → ι → τ → Prop} {t t' : τ} {i : ι} (h : R t i t') : Path R t [i] t' :=
  .cons h (.nil _)

theorem Path.append {R : τ → ι → τ → Prop} {t t' t'' : τ} {is js : List ι} (h : Path R t is t')
    (h' : Path R t' js t'') : Path R t (is ++ js) t'' := by
  induction h with
  | nil => exact h'
  | cons hr _ ih => exact .cons hr (ih h')

theorem Path.split {R : τ → ι → τ → Prop} {t' : τ} {js : List ι} :
    ∀ {is : List ι} {t : τ}, Path R t (is ++ js) t' → ∃ u, Path R t is u ∧ Path R u js t'
  | [], t, h => ⟨t, .nil t, h⟩
  | _ :: _, _, .cons hr h => by
    obtain ⟨u, h1, h2⟩ := Path.split h
    exact ⟨u, .cons hr h1, h2⟩

/-- What every transition keeps is kept along a path. -/
theorem Path.inv {R : τ → ι → τ → Prop} {I : τ → List ι → Prop}
    (hstep : ∀ t t' pre i, I t pre → R t i t' → I t' (pre ++ [i])) {t t' : τ} {is : List ι}
    (h : Path R t is t') : ∀ pre, I t pre → I t' (pre ++ is) := by
  induction h with
  | nil =>
    intro pre hi
    rwa [List.append_nil]
  | cons hr _ ih =>
    intro pre hi
    have := ih _ (hstep _ _ _ _ hi hr)
    rwa [List.append_assoc] at this

@[simp] theorem run_nil (s : σ) : run step s [] = some ([], s) := rfl

variable {step}

theorem run_cons_some {s s' : σ} {i : ι} {o : ο} (is : List ι) (h : step s i = some (o, s')) :
    run step s (i :: is) = (run step s' is).map fun q => ((i, o) :: q.1, q.2) := by
  simp [run, h]

theorem run_cons_none {s : σ} {i : ι} (is : List ι) (h : step s i = none) :
    run step s (i :: is) = none := by
  simp [run, h]

/-- A run shows its inputs in order. -/
theorem run_inputs : ∀ {is : List ι} {s s' : σ} {es : List (ι × ο)},
    run step s is = some (es, s') → es.map Prod.fst = is
  | [], s, s', es, h => by
    simp only [run_nil, Option.some.injEq, Prod.mk.injEq] at h
    rw [← h.1, List.map_nil]
  | i :: is, s, s', es, h => by
    cases hs : step s i with
    | none => rw [run_cons_none is hs] at h; cases h
    | some p =>
      rw [run_cons_some is hs] at h
      obtain ⟨q, hq, he⟩ := Option.map_eq_some_iff.1 h
      simp only [Prod.mk.injEq] at he
      rw [← he.1, List.map_cons, run_inputs hq]

theorem run_append (is js : List ι) (s : σ) :
    run step s (is ++ js) = (run step s is).bind fun q =>
      (run step q.2 js).map fun q' => (q.1 ++ q'.1, q'.2) := by
  induction is generalizing s with
  | nil => simp
  | cons i is ih =>
    simp only [List.cons_append, run]
    cases step s i with
    | none => rfl
    | some p =>
      simp only [ih]
      cases run step p.2 is with
      | none => rfl
      | some q =>
        simp only [Option.bind_some, Option.map_some]
        cases run step q.2 js <;> rfl

theorem along_cons {P : σ → ι → Prop} {s s' : σ} {i : ι} {o : ο} {is : List ι} (hp : P s i)
    (h : step s i = some (o, s')) (ht : Along step P s' is) : Along step P s (i :: is) :=
  ⟨hp, fun o' t h' => by
    rw [h, Option.some.injEq, Prod.mk.injEq] at h'
    exact h'.2 ▸ ht⟩

theorem along_append {P : σ → ι → Prop} : ∀ {is js : List ι} {s : σ}, Along step P s is →
    (∀ es s', run step s is = some (es, s') → Along step P s' js) → Along step P s (is ++ js)
  | [], _, _, _, hj => hj [] _ rfl
  | _ :: _, _, _, h, hj => ⟨h.1, fun o s' hs => along_append (h.2 o s' hs) fun es s'' hr =>
      hj ((_, o) :: es) s'' (by rw [run_cons_some _ hs, hr, Option.map_some])⟩

theorem along_of_forall {P : σ → ι → Prop} (h : ∀ s i, P s i) :
    ∀ (is : List ι) (s : σ), Along step P s is
  | [], _ => trivial
  | i :: is, s => ⟨h s i, fun _ s' _ => along_of_forall h is s'⟩

theorem along_cons_iff {P : σ → ι → Prop} {s : σ} {i : ι} {is : List ι} :
    Along step P s (i :: is) ↔ P s i ∧ match step s i with
      | none => True
      | some p => Along step P p.2 is := by
  cases hs : step s i with
  | none => simp [Along, hs]
  | some p =>
    simp only [Along, hs, Option.some.injEq]
    refine and_congr_right fun _ => ⟨fun h => h p.1 p.2 rfl, fun h o s' he => ?_⟩
    rw [he] at h
    exact h

/-- Two conditions that say the same wherever an invariant holds say the same along runs, if the
first one keeps it. -/
theorem along_iff {I : σ → Prop} {P Q : σ → ι → Prop} (hpq : ∀ s i, I s → (P s i ↔ Q s i))
    (hstep : ∀ s i o s', I s → P s i → step s i = some (o, s') → I s') :
    ∀ (is : List ι) (s : σ), I s → (Along step P s is ↔ Along step Q s is)
  | [], _, _ => Iff.rfl
  | i :: is, s, hi => by
    refine (and_congr_right fun hp => ?_).trans (and_congr_left' (hpq s i hi))
    exact forall_congr' fun o => forall_congr' fun s' => forall_congr' fun h =>
      along_iff hpq hstep is s' (hstep s i o s' hi hp h)

/-- Two conditions hold along a run if and only if both together do. -/
theorem along_and {P Q : σ → ι → Prop} : ∀ {is : List ι} {s : σ},
    Along step P s is ∧ Along step Q s is ↔ Along step (fun s i => P s i ∧ Q s i) s is
  | [], _ => and_self_iff
  | _ :: _, _ =>
    ⟨fun ⟨⟨hp, hps⟩, hq, hqs⟩ =>
      ⟨⟨hp, hq⟩, fun o s' h => along_and.mp ⟨hps o s' h, hqs o s' h⟩⟩,
    fun ⟨⟨hp, hq⟩, h⟩ =>
      ⟨⟨hp, fun o s' hs => (along_and.mpr (h o s' hs)).1⟩,
        hq, fun o s' hs => (along_and.mpr (h o s' hs)).2⟩⟩

/-- A run can be checked step by step. -/
instance decidableAlong {P : σ → ι → Prop} [∀ s i, Decidable (P s i)] :
    ∀ (s : σ) (is : List ι), Decidable (Along step P s is)
  | _, [] => isTrue trivial
  | s, i :: is =>
    have : Decidable (match step s i with
      | none => True
      | some p => Along step P p.2 is) :=
      match step s i with
      | none => isTrue trivial
      | some p => decidableAlong p.2 is
    decidable_of_iff _ along_cons_iff.symm

/-- Where a condition says which steps are defined, it says so of runs. -/
theorem run_isSome {P : σ → ι → Prop} (h : ∀ s i, (step s i).isSome ↔ P s i) :
    ∀ (is : List ι) (s : σ), (run step s is).isSome ↔ Along step P s is
  | [], _ => by simp [Along]
  | i :: is, s => by
    rw [along_cons_iff, ← h]
    cases hs : step s i with
    | none => simp [run_cons_none is hs]
    | some p =>
      rw [run_cons_some is hs, Option.isSome_map]
      simpa using run_isSome h is p.2

/-- The last state of an abstract run is reached by a transition. -/
theorem Trace.last {R : τ → ι → ο → τ → Prop} {t t' : τ} {es : List (ι × ο)}
    (h : Trace R t es t') (hne : es ≠ []) : ∃ u i o, R u i o t' := by
  induction h with
  | nil => exact absurd rfl hne
  | @cons t t' t'' i o es hr ht ih =>
    cases es with
    | nil => cases ht; exact ⟨_, _, _, hr⟩
    | cons e es => exact ih (List.cons_ne_nil _ _)

/-- **Simulation along runs**, where a relation connects the states. -/
theorem run_rel {S : σ → τ → Prop} {P : σ → ι → Prop} {R : τ → ι → ο → τ → Prop}
    (hstep : ∀ s t i, S s t → P s i → ∃ o s' t', step s i = some (o, s') ∧ R t i o t' ∧ S s' t') :
    ∀ (is : List ι) (s : σ) (t : τ), S s t → Along step P s is →
      ∃ es s' t', run step s is = some (es, s') ∧ S s' t' ∧ Trace R t es t'
  | [], s, t, hs, _ => ⟨[], s, t, rfl, hs, .nil _⟩
  | i :: is, s, t, hs, hp => by
    obtain ⟨o, s', t', h, hr, hs'⟩ := hstep s t i hs hp.1
    obtain ⟨es, s'', t'', hrun, hs'', ht⟩ := run_rel hstep is s' t' hs' (hp.2 o s' h)
    exact ⟨(i, o) :: es, s'', t'', by rw [run_cons_some is h, hrun]; rfl, hs'', .cons hr ht⟩

/-- **Simulation along runs**, where the abstract state is a function of the state. -/
theorem run_sim (abs : σ → τ) {I : σ → Prop} {P : σ → ι → Prop} {R : τ → ι → ο → τ → Prop}
    (hstep : ∀ s i, I s → P s i → ∃ o s', step s i = some (o, s') ∧ I s' ∧
      R (abs s) i o (abs s')) (is : List ι) (s : σ) (hi : I s) (hp : Along step P s is) :
    ∃ es s', run step s is = some (es, s') ∧ I s' ∧ Trace R (abs s) es (abs s') := by
  obtain ⟨es, s', t', hrun, ⟨hi', rfl⟩, ht⟩ := run_rel (S := fun s t => I s ∧ t = abs s)
    (fun s t i ⟨hi, he⟩ hp => by
      obtain ⟨o, s', h, hi', hr⟩ := hstep s i hi hp
      exact ⟨o, s', abs s', h, he ▸ hr, hi', rfl⟩) is s (abs s) ⟨hi, rfl⟩ hp
  exact ⟨es, s', hrun, hi', ht⟩

/-- **Invariance along runs.** -/
theorem run_inv {I : σ → Prop} {P : σ → ι → Prop}
    (hstep : ∀ s i o s', I s → P s i → step s i = some (o, s') → I s') :
    ∀ (is : List ι) (s s' : σ) (es : List (ι × ο)), I s → Along step P s is →
      run step s is = some (es, s') → I s'
  | [], s, s', es, hi, _, h => by
    simp only [run_nil, Option.some.injEq, Prod.mk.injEq] at h
    exact h.2 ▸ hi
  | i :: is, s, s', es, hi, hp, h => by
    cases hs : step s i with
    | none => rw [run_cons_none is hs] at h; cases h
    | some p =>
      rw [run_cons_some is hs] at h
      obtain ⟨q, hq, he⟩ := Option.map_eq_some_iff.1 h
      simp only [Prod.mk.injEq] at he
      exact he.2 ▸ run_inv hstep is p.2 q.2 q.1 (hstep s i p.1 p.2 hi hp.1 hs) (hp.2 _ _ hs) hq

/-- **Simulation of a given run** whose inputs all meet a condition. -/
theorem run_trace (abs : σ → τ) {I : σ → Prop} {P : ι → Prop} {R : τ → ι → ο → τ → Prop}
    (hstep : ∀ s i o s', I s → P i → step s i = some (o, s') → I s' ∧ R (abs s) i o (abs s')) :
    ∀ (is : List ι) (s s' : σ) (es : List (ι × ο)), I s → (∀ i ∈ is, P i) →
      run step s is = some (es, s') → I s' ∧ Trace R (abs s) es (abs s')
  | [], s, s', es, hi, _, h => by
    simp only [run_nil, Option.some.injEq, Prod.mk.injEq] at h
    obtain ⟨rfl, rfl⟩ := h
    exact ⟨hi, .nil _⟩
  | i :: is, s, s', es, hi, hp, h => by
    cases hs : step s i with
    | none => rw [run_cons_none is hs] at h; cases h
    | some p =>
      obtain ⟨o, s1⟩ := p
      rw [run_cons_some is hs] at h
      obtain ⟨⟨es', s2⟩, hq, he⟩ := Option.map_eq_some_iff.1 h
      simp only [Prod.mk.injEq] at he
      obtain ⟨rfl, rfl⟩ := he
      obtain ⟨hi', hr⟩ := hstep s i o s1 hi (hp i (List.mem_cons_self ..)) hs
      obtain ⟨hi'', ht⟩ := run_trace abs hstep is s1 s2 es' hi'
        (fun j hj => hp j (List.mem_cons_of_mem _ hj)) hq
      exact ⟨hi'', .cons hr ht⟩

/-- **Invariants of histories**: what every step that meets a condition keeps true of the events so
far and the state is true of every run, which never gets stuck. -/
theorem run_hist_along {I : List (ι × ο) → σ → Prop} {P : σ → ι → Prop}
    (hstep : ∀ es s i, I es s → P s i →
      ∃ o s', step s i = some (o, s') ∧ I (es ++ [(i, o)]) s') :
    ∀ (is : List ι) (pre : List (ι × ο)) (s : σ), I pre s → Along step P s is →
      ∃ es s', run step s is = some (es, s') ∧ I (pre ++ es) s'
  | [], pre, s, hi, _ => ⟨[], s, rfl, by rwa [List.append_nil]⟩
  | i :: is, pre, s, hi, hp => by
    obtain ⟨o, s', hs, hi'⟩ := hstep pre s i hi hp.1
    obtain ⟨es, s'', hrun, hi''⟩ :=
      run_hist_along hstep is (pre ++ [(i, o)]) s' hi' (hp.2 o s' hs)
    refine ⟨(i, o) :: es, s'', by rw [run_cons_some is hs, hrun]; rfl, ?_⟩
    rwa [List.append_assoc] at hi''

/-- The same where every step keeps it. -/
theorem run_hist {I : List (ι × ο) → σ → Prop}
    (hstep : ∀ es s i, I es s → ∃ o s', step s i = some (o, s') ∧ I (es ++ [(i, o)]) s')
    (is : List ι) (pre : List (ι × ο)) (s : σ) (hi : I pre s) :
    ∃ es s', run step s is = some (es, s') ∧ I (pre ++ es) s' :=
  run_hist_along (fun es s i hi _ => hstep es s i hi) is pre s hi
    (along_of_forall (fun _ _ => trivial) is s)

/-- **Every event of a given run**: what a step that meets a condition does after the events so far
holds of each event after those before it. -/
theorem run_events {I : List (ι × ο) → σ → Prop} {P : σ → ι → Prop}
    {G : List (ι × ο) → ι × ο → Prop}
    (hstep : ∀ pre s i o s', I pre s → P s i → step s i = some (o, s') →
      G pre (i, o) ∧ I (pre ++ [(i, o)]) s') :
    ∀ (is : List ι) (pre es : List (ι × ο)) (s s' : σ), I pre s → Along step P s is →
      run step s is = some (es, s') →
      (∀ l e post, es = l ++ e :: post → G (pre ++ l) e) ∧ I (pre ++ es) s'
  | [], pre, es, s, s', hi, _, h => by
    simp only [run_nil, Option.some.injEq, Prod.mk.injEq] at h
    obtain ⟨rfl, rfl⟩ := h
    exact ⟨fun l e post he => by simp at he, by rwa [List.append_nil]⟩
  | i :: is, pre, es, s, s', hi, hp, h => by
    cases hs : step s i with
    | none => rw [run_cons_none is hs] at h; cases h
    | some p =>
      obtain ⟨o, s1⟩ := p
      rw [run_cons_some is hs] at h
      obtain ⟨⟨es', s2⟩, hq, he⟩ := Option.map_eq_some_iff.1 h
      simp only [Prod.mk.injEq] at he
      obtain ⟨rfl, rfl⟩ := he
      obtain ⟨hg, hi'⟩ := hstep pre s i o s1 hi hp.1 hs
      obtain ⟨hall, hi''⟩ := run_events hstep is (pre ++ [(i, o)]) es' s1 s2 hi' (hp.2 o s1 hs) hq
      refine ⟨fun l e post he => ?_, by rwa [List.append_assoc] at hi''⟩
      cases l with
      | nil =>
        simp only [List.nil_append, List.cons.injEq] at he
        rw [List.append_nil, ← he.1]
        exact hg
      | cons a l =>
        simp only [List.cons_append, List.cons.injEq] at he
        obtain ⟨rfl, rfl⟩ := he
        have hl := hall l e post rfl
        rwa [List.append_assoc] at hl

end Sys
