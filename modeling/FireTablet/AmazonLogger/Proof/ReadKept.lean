import FireTablet.AmazonLogger.Logger
import Mathlib.Data.List.Basic

/-!
# What a read takes from the log

`amazon_logger_read` consumes the event before it compares the entry's length with the caller's
buffer and before it copies the entry. So an entry leaves the log without being returned exactly
when the buffer is too small for it or the copy faults (`read_kept_iff`); every other error, with
nothing to read, a failed wait or a signal, finds the log as it leaves it.
-/

namespace AmazonLogger

/-- The length of the entry in an event, if the event has a length field at all. -/
def Event.entryLen (e : Event) : Option Nat :=
  (e.data.read 0 2).map fun hlen => min e.length (entrySize + Bytes.le hlen)

/-- A read that returns an error. -/
def ReadRes.Error : ReadRes → Prop
  | .waits => False
  | .ret r _ => r < 0

/-- After a read the log is as it was, always so after an error, or without the front entry of one
cpu, which the read returned in full. -/
def Kept (b : RingBuffer) (res : ReadRes) (b' : RingBuffer) : Prop :=
  (res.Error → b' = b) ∧
    (b' = b ∨ ∃ cpu e q len, b[cpu]? = some (e :: q) ∧ b' = b.set cpu q ∧
      e.entryLen = some len ∧ res = .ret len (e.data.bytes.take len))

/-- A read that consumes an entry and does not return it. -/
def Drops (b : RingBuffer) (c : Turn) : Prop :=
  c.consumed = true ∧ ∃ cpu e q len, ringBufferFindCpu b = some cpu ∧ b[cpu]? = some (e :: q) ∧
    e.entryLen = some len ∧ (c.count < len ∨ c.fault = true)

theorem kept_same (b : RingBuffer) (res : ReadRes) : Kept b res b := ⟨fun _ => rfl, .inl rfl⟩

/-- The cpu that is found has an event. -/
theorem findCpu_some {b : RingBuffer} {cpu : Nat} (h : ringBufferFindCpu b = some cpu) :
    ∃ e q, b[cpu]? = some (e :: q) := by
  obtain ⟨hlt, hne, -⟩ := List.findIdx?_eq_some_iff_getElem.1 h
  cases hq : b[cpu] with
  | nil =>
    rw [hq] at hne
    cases hne
  | cons e q => exact ⟨e, q, by rw [List.getElem?_eq_getElem hlt, hq]⟩

/-- A read of the event at the front. -/
theorem read_front (e : Event) (q : List Event) (c : Read) :
    amazonLoggerRead (e :: q) c = e.entryLen.map fun len =>
      (if c.count < len then .ret einval []
        else if c.fault then .ret efault [] else .ret len (e.data.bytes.take len), q) := by
  unfold Event.entryLen
  cases hread : e.data.read 0 2 with
  | none => simp [amazonLoggerRead, hread]
  | some hlen =>
    have hall : e.data.read 0 (min e.length (entrySize + Bytes.le hlen)) =
        some (e.data.bytes.take (min e.length (entrySize + Bytes.le hlen))) := by
      rw [Buf.read, if_pos (Buf.within_zero.2 (Nat.min_le_left _ _)), List.drop_zero]
    simp only [amazonLoggerRead, hread, Option.bind_eq_bind, Option.bind_some, Option.map_some,
      hall]
    split
    · rfl
    · split <;> rfl

/-- A queue is shorter without its front, so the ring buffer is another one. -/
theorem set_ne {b : RingBuffer} {cpu : Nat} {e : Event} {q : List Event}
    (h : b[cpu]? = some (e :: q)) : b.set cpu q ≠ b := by
  intro heq
  obtain ⟨hlt, -⟩ := List.getElem?_eq_some_iff.1 h
  have hq := congrArg (fun b : RingBuffer => b[cpu]?) heq
  simp only [h, List.getElem?_set_self hlt, Option.some.injEq] at hq
  exact absurd (congrArg List.length hq) (by simp)

/-- **A read loses nothing** exactly when it does not consume an entry that is longer than the
caller's buffer, or that it then cannot copy. -/
theorem read_kept_iff (b : RingBuffer) (c : Turn) :
    (∀ res b', amazonLoggerReadTurn b c = some (res, b') → Kept b res b') ↔ ¬ Drops b c := by
  unfold amazonLoggerReadTurn Drops
  cases hcpu : ringBufferFindCpu b with
  | none =>
    refine ⟨fun _ h => ?_, fun _ res b' h => ?_⟩
    · obtain ⟨-, cpu, e, q, len, hfind, -⟩ := h
      cases hfind
    · dsimp only at h
      have hb : b' = b := by
        by_cases hn : c.nonblock = true
        · rw [if_pos hn] at h
          cases h
          rfl
        · rw [if_neg hn] at h
          cases hw : c.wait <;> rw [hw] at h <;> cases h <;> rfl
      subst hb
      exact kept_same _ _
  | some cpu =>
    obtain ⟨e, q, hq⟩ := findCpu_some hcpu
    dsimp only
    by_cases hcons : c.consumed = true
    · rw [if_pos hcons, List.getD_eq_getElem?_getD, hq, Option.getD_some, read_front]
      cases hlen : e.entryLen with
      | none =>
        refine ⟨fun _ h => ?_, fun _ res b' h => ?_⟩
        · obtain ⟨-, cpu', e', q', len, hfind, hq', hlen', -⟩ := h
          cases hfind
          rw [hq] at hq'
          cases hq'
          rw [hlen] at hlen'
          cases hlen'
        · cases h
      | some len =>
        have hdrops : (c.consumed = true ∧ ∃ cpu' e q len, some cpu = some cpu' ∧
            b[cpu']? = some (e :: q) ∧ e.entryLen = some len ∧ (c.count < len ∨ c.fault = true)) ↔
            c.count < len ∨ c.fault = true := by
          refine ⟨fun h => ?_, fun h => ⟨hcons, cpu, e, q, len, rfl, hq, hlen, h⟩⟩
          obtain ⟨-, cpu', e', q', len', hfind, hq', hlen', h⟩ := h
          cases hfind
          rw [hq] at hq'
          cases hq'
          rw [hlen] at hlen'
          cases hlen'
          exact h
        rw [hdrops, Option.map_some, Option.map_some]
        by_cases hbad : c.count < len ∨ c.fault = true
        · -- the entry is gone and an error is returned
          refine ⟨fun hall => absurd ((hall _ _ rfl).1 ?_) (set_ne hq), fun h => absurd hbad h⟩
          dsimp only
          split
          · exact show einval < 0 by decide
          · rw [if_pos (hbad.resolve_left ‹_›)]
            exact show efault < 0 by decide
        · refine ⟨fun _ => hbad, fun _ res b' h => ?_⟩
          rw [if_neg fun h => hbad (.inl h), if_neg fun h => hbad (.inr h)] at h
          cases h
          refine ⟨fun herr => absurd herr ?_, .inr ⟨cpu, e, q, len, hq, rfl, hlen, rfl⟩⟩
          exact Int.not_lt.2 (Int.natCast_nonneg len)
    · rw [if_neg hcons]
      refine ⟨fun _ h => hcons h.1, fun _ res b' h => ?_⟩
      cases h
      exact kept_same _ _

/-- An entry with a payload of one byte. -/
def shortEntry : Event :=
  ⟨24, ⟨(LoggerEntry.encode ⟨1, 0, 1, 1, 0, 0⟩ ++ [65, 0, 0, 0]), rfl⟩⟩

/-- **A buffer of 20 bytes** for an entry of 21: the read fails and the entry is gone, so that the
next read finds nothing. -/
theorem read_drops :
    (amazonLoggerReadTurn [[shortEntry]] ⟨⟨20, false⟩, true, .woken, true⟩ =
        some (.ret einval [], [[]]) ∧
      amazonLoggerReadTurn [[]] ⟨⟨64, false⟩, true, .woken, true⟩ = some (.ret eagain [], [[]])) ∧
    ¬ ∀ (b : RingBuffer) (c : Turn) (res : ReadRes) (b' : RingBuffer),
      amazonLoggerReadTurn b c = some (res, b') → Kept b res b' := by
  have hread : amazonLoggerReadTurn [[shortEntry]] ⟨⟨20, false⟩, true, .woken, true⟩ =
      some (.ret einval [], [[]]) := rfl
  refine ⟨⟨hread, rfl⟩, fun hall => ?_⟩
  have hkept := hall _ _ _ _ hread
  exact absurd (hkept.1 (show einval < 0 by decide)) (by simp)

end AmazonLogger
