import FireTablet.Lib.Circ
import FireTablet.Lib.Run

/-!
# Rings of one producer and one reader

A ring is a circular buffer of `N` slots with the index `w` of the producer and the index `r` of
the reader; the values between `r` and `w` are unread. The producer stores into slots that are not
among them (`store`) and makes stored values readable (`publish`), without reaching the reader's
index. The reader gives values up (`consume`). What the reader has not given up stays where it is,
whatever the producer does meanwhile (`read_store`, `read_publish`).

`Deliver` is what a reader is for: it hands out the oldest values and gives up exactly these, or it
fails, gives up nothing and leaves its position. `deliver_books` adds this up over a history.
-/

namespace Spsc

variable {α : Type*} {N : Nat}

/-- The slots with the two indices. -/
structure Ring (α : Type*) where
  mem : Nat → α
  w : Nat
  r : Nat

/-- The indices are slots. -/
structure Ring.Inside (N : Nat) (q : Ring α) : Prop where
  w_lt : q.w < N
  r_lt : q.r < N

/-- The number of unread values. -/
def Ring.used (N : Nat) (q : Ring α) : Nat := Circ.dist N q.r q.w

/-- The unread values. -/
def Ring.unread (N : Nat) (q : Ring α) : List α := Circ.read q.mem N q.r (q.used N)

/-- The producer stores a value `i` places after its index. -/
def Ring.store (N : Nat) (q : Ring α) (i : Nat) (a : α) : Option (Ring α) :=
  if q.used N + i < N then
    some { q with mem := Function.update q.mem (Circ.wrap N (q.w + i)) a }
  else none

/-- The producer makes the next `n` values readable, but not so many that it reaches the reader. -/
def Ring.publish (N : Nat) (q : Ring α) (n : Nat) : Option (List α × Ring α) :=
  if q.used N + n < N then
    some (Circ.read q.mem N q.w n, { q with w := Circ.wrap N (q.w + n) })
  else none

/-- The reader gives up `n` values. -/
def Ring.consume (N : Nat) (q : Ring α) (n : Nat) : Ring α :=
  { q with r := Circ.wrap N (q.r + n) }

variable {q q' : Ring α} {i k n : Nat}

theorem Ring.used_lt (h : q.Inside N) : q.used N < N := Circ.dist_lt h.r_lt h.w_lt

theorem Ring.wrap_used (h : q.Inside N) : Circ.wrap N (q.r + q.used N) = q.w :=
  Circ.wrap_add_dist h.r_lt h.w_lt

/-! ## The producer -/

theorem Ring.store_eq {a : α} (h : q.store N i a = some q') :
    q.used N + i < N ∧ q' = { q with mem := Function.update q.mem (Circ.wrap N (q.w + i)) a } := by
  unfold Ring.store at h
  split at h
  · exact ⟨‹_›, (Option.some.inj h).symm⟩
  · cases h

theorem Ring.publish_eq {bs : List α} (h : q.publish N n = some (bs, q')) :
    q.used N + n < N ∧ bs = Circ.read q.mem N q.w n ∧
      q' = { q with w := Circ.wrap N (q.w + n) } := by
  unfold Ring.publish at h
  split at h
  · simp only [Option.some.injEq, Prod.mk.injEq] at h
    exact ⟨‹_›, h.1.symm, h.2.symm⟩
  · cases h

theorem Ring.Inside.store {a : α} (h : q.Inside N) (hs : q.store N i a = some q') :
    q'.Inside N := by
  obtain ⟨-, rfl⟩ := store_eq hs
  exact ⟨h.w_lt, h.r_lt⟩

theorem Ring.Inside.publish {bs : List α} (h : q.Inside N)
    (hs : q.publish N n = some (bs, q')) : q'.Inside N := by
  obtain ⟨hn, -, rfl⟩ := publish_eq hs
  have := h.w_lt
  exact ⟨Circ.wrap_lt (by omega), h.r_lt⟩

theorem Ring.used_store {a : α} (hs : q.store N i a = some q') : q'.used N = q.used N := by
  obtain ⟨-, rfl⟩ := store_eq hs
  rfl

theorem Ring.used_publish {bs : List α} (h : q.Inside N) (hs : q.publish N n = some (bs, q')) :
    q'.used N = q.used N + n := by
  obtain ⟨hn, -, rfl⟩ := publish_eq hs
  have hw : Circ.wrap N (q.w + n) = Circ.wrap N (q.r + (q.used N + n)) := by
    rw [← Circ.wrap_wrap_add h.r_lt (by omega), Ring.wrap_used h]
  have hd := Circ.dist_wrap_add h.r_lt hn
  rw [← hw] at hd
  exact hd

/-- A store leaves the unread values. -/
theorem Ring.read_store {a : α} (h : q.Inside N) (hs : q.store N i a = some q')
    (hk : k ≤ q.used N) : Circ.read q'.mem N q'.r k = Circ.read q.mem N q.r k := by
  obtain ⟨hi, rfl⟩ := store_eq hs
  refine Circ.read_congr fun j hj => Function.update_of_ne ?_ _ _
  have hd := Circ.dist_add_dist h.r_lt h.w_lt (i := j) (Nat.lt_of_lt_of_le hj hk)
  have hdi := Circ.dist_wrap_add h.w_lt (i := i) (by omega)
  unfold used at hi hk
  intro he
  rw [he, hdi] at hd
  omega

theorem Ring.unread_store {a : α} (h : q.Inside N) (hs : q.store N i a = some q') :
    q'.unread N = q.unread N := by
  rw [unread, used_store hs]
  exact read_store h hs (Nat.le_refl _)

theorem Ring.read_publish {bs : List α} (hs : q.publish N n = some (bs, q')) (k : Nat) :
    Circ.read q'.mem N q'.r k = Circ.read q.mem N q.r k := by
  obtain ⟨-, -, rfl⟩ := publish_eq hs
  rfl

theorem Ring.unread_publish {bs : List α} (h : q.Inside N) (hs : q.publish N n = some (bs, q')) :
    q'.unread N = q.unread N ++ bs := by
  rw [unread, used_publish h hs, read_publish hs]
  obtain ⟨hn, rfl, -⟩ := publish_eq hs
  rw [Circ.read_add h.r_lt (by omega), Ring.wrap_used h]
  rfl

/-- What the producer may do while the reader is at work. -/
structure Ring.Grows (N : Nat) (q q' : Ring α) : Prop where
  inside : q'.Inside N
  r_eq : q'.r = q.r
  used_le : q.used N ≤ q'.used N
  read_eq : ∀ k ≤ q.used N, Circ.read q'.mem N q.r k = Circ.read q.mem N q.r k

theorem Ring.store_grows {a : α} (h : q.Inside N) (hs : q.store N i a = some q') :
    q.Grows N q' where
  inside := h.store hs
  r_eq := by
    obtain ⟨-, rfl⟩ := store_eq hs
    rfl
  used_le := Nat.le_of_eq (used_store hs).symm
  read_eq k hk := by
    have hr := read_store h hs hk
    obtain ⟨-, rfl⟩ := store_eq hs
    exact hr

theorem Ring.publish_grows {bs : List α} (h : q.Inside N)
    (hs : q.publish N n = some (bs, q')) : q.Grows N q' where
  inside := h.publish hs
  r_eq := by
    obtain ⟨-, -, rfl⟩ := publish_eq hs
    rfl
  used_le := by
    rw [used_publish h hs]
    exact Nat.le_add_right ..
  read_eq k _ := by
    obtain ⟨-, -, rfl⟩ := publish_eq hs
    rfl

/-! ## The reader -/

theorem Ring.Inside.consume (h : q.Inside N) (hn : n ≤ q.used N) : (q.consume N n).Inside N := by
  have := Ring.used_lt h
  have := h.r_lt
  exact ⟨h.w_lt, Circ.wrap_lt (by omega)⟩

/-- The values given up are the oldest ones. -/
theorem Ring.unread_consume (h : q.Inside N) (hn : n ≤ q.used N) :
    q.unread N = Circ.read q.mem N q.r n ++ (q.consume N n).unread N := by
  have hu := Ring.used_lt h
  have hr' : Circ.wrap N (q.r + n) < N := Circ.wrap_lt (by have := h.r_lt; omega)
  have hw : q.w = Circ.wrap N (Circ.wrap N (q.r + n) + (q.used N - n)) := by
    rw [Circ.wrap_wrap_add h.r_lt (by omega), Nat.add_sub_cancel' hn, Ring.wrap_used h]
  have hused : (q.consume N n).used N = q.used N - n := by
    have hd := Circ.dist_wrap_add (i := q.used N - n) hr' (by omega)
    rw [← hw] at hd
    exact hd
  rw [unread, unread, hused]
  conv_lhs => rw [show q.used N = n + (q.used N - n) by omega,
    Circ.read_add h.r_lt (by omega)]
  rfl

/-! ## What a reader is for -/

/-- What a step of the reader or the producer shows: values that became readable, or what a call
of the reader returned with the values put into the caller's buffer. -/
inductive Out (α : Type*)
  | quiet
  | published (bs : List α)
  | returned (ret : Int) (bs : List α)
  deriving DecidableEq

/-- The unread values and the reader's position before and after a step. -/
def Deliver (s : List α × Int) (o : Out α) (s' : List α × Int) : Prop :=
  match o with
  | .quiet => s' = s
  | .published bs => s' = (s.1 ++ bs, s.2)
  | .returned ret bs => (ret = bs.length ∧ s.1 = bs ++ s'.1) ∨ (ret < 0 ∧ s' = s)

/-- The values handed out: those of the calls that did not fail. -/
def handedOut : Out α → List α
  | .returned ret bs => if 0 ≤ ret then bs else []
  | _ => []

/-- The values that became readable. -/
def madeReadable : Out α → List α
  | .published bs => bs
  | _ => []

theorem Deliver.books {s s' : List α × Int} {o : Out α} (h : Deliver s o s') :
    handedOut o ++ s'.1 = s.1 ++ madeReadable o := by
  cases o with
  | quiet =>
    rw [show s' = s from h]
    simp [handedOut, madeReadable]
  | published bs =>
    rw [show s' = (s.1 ++ bs, s.2) from h]
    simp [handedOut, madeReadable]
  | returned ret bs =>
    rcases h with ⟨hret, hs⟩ | ⟨hret, hs⟩
    · simp [handedOut, madeReadable, hret, hs]
    · simp [handedOut, madeReadable, hs, Int.not_le.2 hret]

/-- **The books of a history**: what was handed out and what is unread is what was there at the
start and what became readable, in this order. -/
theorem deliver_books {ι : Type*} {s s' : List α × Int} {es : List (ι × Out α)}
    (h : Sys.Trace (fun s _ o s' => Deliver s o s') s es s') :
    es.flatMap (fun e => handedOut e.2) ++ s'.1 =
      s.1 ++ es.flatMap fun e => madeReadable e.2 := by
  induction h with
  | nil => simp
  | cons hd _ ih =>
    rw [List.flatMap_cons, List.flatMap_cons, List.append_assoc, ih, ← List.append_assoc, hd.books,
      List.append_assoc]

/-- A call in whose steps nothing else happens delivers as a whole. -/
theorem deliver_quiet {ι : Type*} {s s' : List α × Int} {i : ι} {ret : Int} {bs : List α}
    {es : List (ι × Out α)} (hes : ∀ e ∈ es, e.2 = .quiet)
    (h : Sys.Trace (fun s _ o s' => Deliver s o s') s (es ++ [(i, .returned ret bs)]) s') :
    Deliver s (.returned ret bs) s' := by
  induction es generalizing s with
  | nil =>
    obtain ⟨-, hd, -⟩ | ⟨hd, ht⟩ := h
    cases ht
    exact hd
  | cons e es ih =>
    obtain _ | ⟨hd, ht⟩ := h
    have he : _ = _ := hes _ List.mem_cons_self
    simp only at he
    subst he
    rw [← show _ = s from hd]
    exact ih (fun e he => hes e (List.mem_cons_of_mem _ he)) ht

end Spsc
