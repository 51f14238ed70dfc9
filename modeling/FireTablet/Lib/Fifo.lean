import FireTablet.Lib.Run

/-!
# Queues

What a queue of values is for, whatever its capacity: the store may take only a first part of what
it is offered (`put xs k`), shows what comes out next without giving it away (`peek`), and gives up
the oldest values (`flush`). `ledger` keeps the books of a history: the values taken and the number
given up since the last `clear`. A queue holds exactly the values on the books
(`trace_ledger`): nothing is lost, doubled or reordered.
-/

namespace Fifo

variable {α : Type*}

/-- What happens to a queue: `put xs k` offers `xs` of which `k` values are taken, `peek n ys` asks
for `n` values and sees `ys`, `flush n k` asks to give up `n` values and gives up `k`. -/
inductive Ev (α : Type*)
  | clear
  | put (xs : List α) (k : Nat)
  | peek (n : Nat) (ys : List α)
  | flush (n k : Nat)
  | skip

/-- The queue before and after an event. -/
def Step (q : List α) (e : Ev α) (q' : List α) : Prop :=
  match e with
  | .clear => q' = []
  | .put xs k => k ≤ xs.length ∧ q' = q ++ xs.take k
  | .peek n ys => ys = q.take n ∧ q' = q
  | .flush n k => k = min n q.length ∧ q' = q.drop k
  | .skip => q' = q

/-- The values taken and the number of values given up since the last `clear`. -/
def ledger (l : List α × Nat) : Ev α → List α × Nat
  | .clear => ([], 0)
  | .put xs k => (l.1 ++ xs.take k, l.2)
  | .flush _ k => (l.1, l.2 + k)
  | _ => l

/-- The queue `q` holds what is on the books. -/
def Balanced (l : List α × Nat) (q : List α) : Prop := l.2 ≤ l.1.length ∧ q = l.1.drop l.2

theorem step_balanced {l : List α × Nat} {q q' : List α} {e : Ev α} (hb : Balanced l q)
    (h : Step q e q') : Balanced (ledger l e) q' := by
  obtain ⟨hle, rfl⟩ := hb
  cases e with
  | clear => exact ⟨Nat.le_refl _, h⟩
  | put xs k =>
    obtain ⟨-, rfl⟩ := h
    refine ⟨by simp only [ledger, List.length_append]; omega, ?_⟩
    simp only [ledger]
    rw [List.drop_append_of_le_length hle]
  | peek n ys => exact ⟨hle, h.2⟩
  | flush n k =>
    obtain ⟨hk, rfl⟩ := h
    rw [List.length_drop] at hk
    exact ⟨by simp only [ledger]; omega, by simp only [ledger, List.drop_drop]⟩
  | skip => exact ⟨hle, h⟩

/-- **The books of a history balance**: `ev` reads an input and its output as an event. -/
theorem trace_ledger {σ ι ο : Type*} {ev : ι → ο → Option (Ev α)} (abs : σ → List α)
    {R : σ → ι → ο → σ → Prop}
    (hR : ∀ s i o s', R s i o s' → ∃ e, ev i o = some e ∧ Step (abs s) e (abs s'))
    {s s' : σ} {es : List (ι × ο)} {l : List α × Nat} (h : Sys.Trace R s es s')
    (hb : Balanced l (abs s)) :
    Balanced ((es.filterMap fun e => ev e.1 e.2).foldl ledger l) (abs s') := by
  induction h generalizing l with
  | nil s => exact hb
  | cons hs _ ih =>
    obtain ⟨e, he, hst⟩ := hR _ _ _ _ hs
    simpa only [List.filterMap_cons, he, List.foldl_cons] using ih (step_balanced hb hst)

end Fifo
