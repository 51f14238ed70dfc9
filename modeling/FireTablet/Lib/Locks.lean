import Mathlib.Data.Finset.Basic

/-!
# Programs that take and release locks

A program `M σ L α` goes from a state of `σ` to another one, with the locks of `L` that it takes and
releases on the way. `run` follows the set of locks that are held: it is `none` where a lock is
taken that is held, as its caller then waits for itself, or released that is not. `Moves h h' m`
says that `m` comes from the locks `h` to the locks `h'` from every state; it has a rule for each
way to put a program together.
-/

namespace Locks

variable {σ L α β : Type}

/-- A lock is taken or released. -/
inductive Op (L : Type) where
  | lock (l : L)
  | unlock (l : L)
  deriving DecidableEq

/-- What a program ends with. -/
structure Done (σ L α : Type) where
  val : α
  ops : List (Op L)
  state : σ

/-- A program. -/
def M (σ L α : Type) : Type := σ → Done σ L α

instance : Monad (M σ L) where
  pure a := fun s => ⟨a, [], s⟩
  bind m f := fun s =>
    let r := m s
    let q := f r.val r.state
    ⟨q.val, r.ops ++ q.ops, q.state⟩

def lock (l : L) : M σ L Unit := fun s => ⟨(), [.lock l], s⟩

def unlock (l : L) : M σ L Unit := fun s => ⟨(), [.unlock l], s⟩

/-- A part of a program that leaves the locks alone. -/
def act (f : σ → α × σ) : M σ L α := fun s => ⟨(f s).1, [], (f s).2⟩

section

variable [DecidableEq L]

/-- The locks that are held after an operation. -/
def step (held : Finset L) : Op L → Option (Finset L)
  | .lock l => if l ∈ held then none else some (insert l held)
  | .unlock l => if l ∈ held then some (held.erase l) else none

/-- The locks that are held after a trace. -/
def run (held : Finset L) : List (Op L) → Option (Finset L)
  | [] => some held
  | op :: ops => (step held op).bind fun h => run h ops

theorem run_append (held : Finset L) (ops ops' : List (Op L)) :
    run held (ops ++ ops') = (run held ops).bind fun h => run h ops' := by
  induction ops generalizing held with
  | nil => rfl
  | cons op ops ih =>
    simp only [List.cons_append, run]
    cases step held op with
    | none => rfl
    | some h => exact ih h

/-- The locks that a program leaves held, from a state. -/
def M.held (m : M σ L α) (h : Finset L) (s : σ) : Option (Finset L) := run h (m s).ops

variable {h h' k : Finset L} {m : M σ L α} {f : α → M σ L β} {s : σ} {l : L}

@[simp] theorem held_pure (a : α) : (pure a : M σ L α).held h s = some h := rfl

@[simp] theorem held_bind :
    (m >>= f).held h s = (m.held h s).bind fun k => (f (m s).val).held k (m s).state :=
  run_append h (m s).ops _

@[simp] theorem held_act (f : σ → α × σ) : (act f : M σ L α).held h s = some h := rfl

theorem held_lock (hl : l ∉ h) : (lock l : M σ L Unit).held h s = some (insert l h) := by
  show (step h (.lock l)).bind _ = _
  rw [step, if_neg hl]
  rfl

theorem held_lock_none (hl : l ∈ h) : (lock l : M σ L Unit).held h s = none := by
  show (step h (.lock l)).bind _ = _
  rw [step, if_pos hl]
  rfl

theorem held_unlock (hl : l ∈ h) : (unlock l : M σ L Unit).held h s = some (h.erase l) := by
  show (step h (.unlock l)).bind _ = _
  rw [step, if_pos hl]
  rfl

/-! ## From every state -/

/-- The program comes from the locks `h` to the locks `h'`. -/
def Moves (h h' : Finset L) (m : M σ L α) : Prop := ∀ s, m.held h s = some h'

theorem Moves.pure (a : α) : Moves h h (pure a : M σ L α) := fun _ => rfl

theorem Moves.act (f : σ → α × σ) : Moves h h (act f : M σ L α) := fun _ => rfl

theorem Moves.bind (hm : Moves h k m) (hf : ∀ a, Moves k h' (f a)) : Moves h h' (m >>= f) := by
  intro s
  rw [held_bind, hm s]
  exact hf _ _

theorem Moves.ite {c : Prop} [Decidable c] {m' : M σ L α} (hm : Moves h h' m)
    (hm' : Moves h h' m') : Moves h h' (if c then m else m') := by
  split
  · exact hm
  · exact hm'

theorem Moves.lock (hl : l ∉ h) : Moves h (insert l h) (lock l : M σ L Unit) :=
  fun _ => held_lock hl

theorem Moves.unlock (hl : l ∉ h) : Moves (insert l h) h (unlock l : M σ L Unit) := by
  intro s
  rw [held_unlock (Finset.mem_insert_self l h), Finset.erase_insert hl]

/-- The way out of a section. -/
theorem Moves.out (hl : l ∉ h) (a : α) :
    Moves (insert l h) h ((Locks.unlock l : M σ L Unit) >>= fun _ => Pure.pure a) := by
  apply Moves.bind (Moves.unlock hl)
  intro _
  exact Moves.pure a

/-- A part of a program under a lock. -/
def locked (l : L) (m : M σ L α) : M σ L α := do
  lock l
  let a ← m
  unlock l
  return a

theorem Moves.locked (hl : l ∉ h) (hm : Moves (insert l h) (insert l h) m) :
    Moves h h (locked l m) := by
  apply Moves.bind (Moves.lock hl)
  intro _
  apply Moves.bind hm
  intro a
  exact Moves.out hl a

end

end Locks
