import FireTablet.Lib.Buf
import Mathlib.Logic.Function.Basic

/-!
# Traces of memory accesses

A program is followed through the accesses it makes: to objects of a fixed size that are always
there, and to blocks that it allocates and frees. `run` keeps the sizes of the blocks that are
allocated, and is `none` from the first access on that is wrong: one outside of its object, one to a
block that is not allocated, or a pointer freed that is not the start of a block. A trace is `Safe`
if none of its accesses is wrong and all its blocks are freed.
-/

namespace Heap

variable {β : Type*}

/-- An access. -/
inductive Op (β : Type*) where
  /-- `len` bytes at `off` of an object of `size` bytes that is always there -/
  | fixed (size off len : Nat)
  | alloc (b : β) (size : Nat)
  /-- `len` bytes at `off` of a block -/
  | access (b : β) (off len : Nat)
  /-- the pointer `off` bytes behind the start of a block is freed -/
  | free (b : β) (off : Nat)

variable [DecidableEq β]

/-- The blocks after an access, each with its size. -/
def step (live : β → Option Nat) : Op β → Option (β → Option Nat)
  | .fixed size off len => if Buf.Within size off len then some live else none
  | .alloc b size => if (live b).isSome then none else some (Function.update live b (some size))
  | .access b off len =>
    match live b with
    | some size => if Buf.Within size off len then some live else none
    | none => none
  | .free b off =>
    if off = 0 ∧ (live b).isSome then some (Function.update live b none) else none

/-- The blocks after a trace. -/
def run (live : β → Option Nat) : List (Op β) → Option (β → Option Nat)
  | [] => some live
  | op :: ops => (step live op).bind fun l => run l ops

/-- No access is wrong, and every block that is allocated is freed. -/
def Safe (ops : List (Op β)) : Prop := run (fun _ => none) ops = some fun _ => none

variable {live l : β → Option Nat} {op : Op β} {ops : List (Op β)} {b : β} {size off len : Nat}

theorem run_cons (h : step live op = some l) : run live (op :: ops) = run l ops := by
  rw [run, h, Option.bind_some]

/-! What each access does when it is not wrong. -/

theorem step_fixed_some (h : step live (.fixed size off len) = some l) :
    Buf.Within size off len ∧ l = live := by
  simp only [step] at h
  split at h
  · next hw => exact ⟨hw, (Option.some.inj h).symm⟩
  · cases h

theorem step_alloc_some (h : step live (.alloc b size) = some l) :
    l = Function.update live b (some size) := by
  simp only [step] at h
  split at h
  · cases h
  · exact (Option.some.inj h).symm

theorem step_access_some (h : step live (.access b off len) = some l) :
    ∃ size, live b = some size ∧ Buf.Within size off len ∧ l = live := by
  simp only [step] at h
  split at h
  · next size hs =>
    split at h
    · next hw => exact ⟨size, hs, hw, (Option.some.inj h).symm⟩
    · cases h
  · cases h

theorem step_free_some (h : step live (.free b off) = some l) :
    off = 0 ∧ l = Function.update live b none := by
  simp only [step] at h
  split at h
  · next h0 => exact ⟨h0.1, (Option.some.inj h).symm⟩
  · cases h

theorem run_append (ops ops' : List (Op β)) :
    run live (ops ++ ops') = (run live ops).bind fun l => run l ops' := by
  induction ops generalizing live with
  | nil => rfl
  | cons op ops ih =>
    simp only [List.cons_append, run]
    cases step live op with
    | none => rfl
    | some l => exact ih

/-! ## Safe traces -/

/-- An access that leaves the blocks as they are. -/
def Stays (live : β → Option Nat) (op : Op β) : Prop := step live op = some live

theorem stays_fixed : Stays live (.fixed size off len) ↔ Buf.Within size off len := by
  unfold Stays step
  split <;> simp_all

theorem stays_access (h : live b = some size) :
    Stays live (.access b off len) ↔ Buf.Within size off len := by
  unfold Stays step
  simp only [h]
  split <;> simp_all

/-- Accesses that leave the blocks as they are, one after the other. -/
theorem run_stays (h : ∀ op ∈ ops, Stays live op) : run live ops = some live := by
  induction ops with
  | nil => rfl
  | cons op ops ih =>
    rw [run_cons (h op (.head _))]
    exact ih fun o ho => h o (.tail _ ho)

theorem safe_nil : Safe ([] : List (Op β)) := rfl

/-- A trace without allocations is safe if it stays in the objects. -/
theorem safe_fixed (h : ∀ op ∈ ops, Stays (fun _ => none) op) : Safe ops :=
  run_stays h

/-- The blocks when only one is allocated. -/
def only (b : β) (size : Nat) : β → Option Nat := Function.update (fun _ => none) b (some size)

@[simp] theorem only_self : only b size b = some size := Function.update_self ..

/-- A block that is allocated, used and freed. -/
theorem safe_block (pre body : List (Op β)) (hpre : ∀ o ∈ pre, Stays (fun _ => none) o)
    (hbody : ∀ o ∈ body, Stays (only b size) o) :
    Safe (pre ++ .alloc b size :: (body ++ [.free b 0])) := by
  have halloc : step (fun _ => none) (.alloc b size) = some (only b size) := rfl
  have hfree : step (only b size) (.free b 0) = some fun _ => none := by
    have hnone : Function.update (only b size) b none = fun _ => none := by
      rw [only, Function.update_idem]
      exact Function.update_eq_self b _
    simp only [step, only_self, Option.isSome_some, and_self, if_true, hnone]
  rw [Safe, run_append, run_stays hpre, Option.bind_some, run_cons halloc, run_append,
    run_stays hbody, Option.bind_some, run_cons hfree, run]

/-! ## What safe traces do -/

/-- Objects are only accessed inside. -/
theorem within_of_run (h : run live ops = some l) (hm : .fixed size off len ∈ ops) :
    Buf.Within size off len := by
  induction ops generalizing live with
  | nil => cases hm
  | cons o ops ih =>
    obtain ⟨l', h1, h2⟩ := Option.bind_eq_some_iff.1 h
    cases hm with
    | head => exact (step_fixed_some h1).1
    | tail _ hm => exact ih h2 hm

/-- A block that has a size after an access had it before, or is allocated with it. -/
theorem step_size (h : step live op = some l) (hl : l b = some size) :
    live b = some size ∨ op = .alloc b size := by
  cases op with
  | fixed =>
    obtain ⟨-, rfl⟩ := step_fixed_some h
    exact .inl hl
  | alloc b' size' =>
    obtain rfl := step_alloc_some h
    by_cases hb : b = b'
    · subst hb
      rw [Function.update_self] at hl
      cases hl
      exact .inr rfl
    · rw [Function.update_of_ne hb] at hl
      exact .inl hl
  | access =>
    obtain ⟨-, -, -, rfl⟩ := step_access_some h
    exact .inl hl
  | free b' =>
    obtain ⟨-, rfl⟩ := step_free_some h
    by_cases hb : b = b'
    · subst hb
      rw [Function.update_self] at hl
      cases hl
    · rw [Function.update_of_ne hb] at hl
      exact .inl hl

/-- Blocks are only accessed inside of a size that they have. -/
theorem block_of_run (h : run live ops = some l) (hm : .access b off len ∈ ops) :
    ∃ size, (live b = some size ∨ .alloc b size ∈ ops) ∧ Buf.Within size off len := by
  induction ops generalizing live with
  | nil => cases hm
  | cons o ops ih =>
    obtain ⟨l', h1, h2⟩ := Option.bind_eq_some_iff.1 h
    cases hm with
    | head =>
      obtain ⟨size, hs, hw, -⟩ := step_access_some h1
      exact ⟨size, .inl hs, hw⟩
    | tail _ hm =>
      obtain ⟨size, hsize, hw⟩ := ih h2 hm
      refine ⟨size, ?_, hw⟩
      cases hsize with
      | inl hsize =>
        obtain hs | rfl := step_size h1 hsize
        · exact .inl hs
        · exact .inr (.head _)
      | inr hsize => exact .inr (.tail _ hsize)

/-- A block stays until its start is freed. -/
theorem step_kept (h : step live op = some l) (hb : (live b).isSome) (hf : op ≠ .free b 0) :
    (l b).isSome := by
  cases op with
  | fixed =>
    obtain ⟨-, rfl⟩ := step_fixed_some h
    exact hb
  | alloc b' size' =>
    obtain rfl := step_alloc_some h
    by_cases hne : b = b'
    · subst hne
      rw [Function.update_self]
      rfl
    · rwa [Function.update_of_ne hne]
  | access =>
    obtain ⟨-, -, -, rfl⟩ := step_access_some h
    exact hb
  | free b' =>
    obtain ⟨rfl, rfl⟩ := step_free_some h
    have hne : b ≠ b' := by
      rintro rfl
      exact hf rfl
    rwa [Function.update_of_ne hne]

theorem kept_of_run (h : run live ops = some l) (hb : (live b).isSome) (hf : .free b 0 ∉ ops) :
    (l b).isSome := by
  induction ops generalizing live with
  | nil =>
    cases h
    exact hb
  | cons o ops ih =>
    obtain ⟨l', h1, h2⟩ := Option.bind_eq_some_iff.1 h
    apply ih h2
    · apply step_kept h1 hb
      rintro rfl
      exact hf (.head _)
    · intro hm
      exact hf (.tail _ hm)

/-- A block that is allocated is freed, by a pointer to its start. -/
theorem freed_of_run (h : run live ops = some l) (hl : l b = none) (hm : .alloc b size ∈ ops) :
    .free b 0 ∈ ops := by
  by_contra hf
  induction ops generalizing live with
  | nil => cases hm
  | cons o ops ih =>
    obtain ⟨l', h1, h2⟩ := Option.bind_eq_some_iff.1 h
    have hf' : .free b 0 ∉ ops := fun hm' => hf (.tail _ hm')
    cases hm with
    | head =>
      obtain rfl := step_alloc_some h1
      have := kept_of_run h2 (by rw [Function.update_self]; rfl) hf'
      rw [hl] at this
      cases this
    | tail _ hm => exact ih h2 hm hf'

theorem Safe.fixed (h : Safe ops) (hm : .fixed size off len ∈ ops) : Buf.Within size off len :=
  within_of_run h hm

theorem Safe.access (h : Safe ops) (hm : .access b off len ∈ ops) :
    ∃ size, .alloc b size ∈ ops ∧ Buf.Within size off len := by
  obtain ⟨size, hs, hw⟩ := block_of_run h hm
  exact ⟨size, hs.resolve_left nofun, hw⟩

theorem Safe.freed (h : Safe ops) (b : β) (size : Nat) (hm : .alloc b size ∈ ops) :
    .free b 0 ∈ ops :=
  freed_of_run h rfl hm

end Heap
