import FireTablet.AmazonLogger.Logger
import Mathlib.Data.List.Forall2

/-!
# What is written to a log is read from it

An event that holds the entry of a write (`Event.Holds`) has the header and the cut payload at its
start, whatever its data area held before. Every write that gets an event leaves one behind those
of the writes before it, and every read takes one from the front (`logger_round_trip`).
-/

namespace AmazonLogger

open Buf

variable {n : Nat}

/-- The ring buffer reserves no event shorter than the request. -/
def Write.Reserved (w : Write) : Prop :=
  ∀ e, w.event = some e → entrySize + w.header.len ≤ e.length

/-- The payload of a write's entry: the segments one after another, cut at the limit. -/
def Write.payload (w : Write) : List UInt8 := w.segs.flatten.take (min w.total loggerEntryMaxPayload)

/-- The writes that get an event. -/
def accepted (ws : List Write) : List Write := ws.filter fun w => w.event.isSome

/-- The result of a read that returns the entry of a write. -/
def EntryOf (w : Write) (r : ReadRes) : Prop :=
  ∃ bytes, r = .ret bytes.length bytes ∧ bytes.length = entrySize + min w.total loggerEntryMaxPayload ∧
    Bytes.le (bytes.take 2) = min w.total loggerEntryMaxPayload ∧
    bytes.drop entrySize = w.payload

/-- An event with the entry of a write. -/
def Event.Holds (w : Write) (e : Event) : Prop :=
  entrySize + w.header.len ≤ e.length ∧
    e.data.bytes.take (entrySize + w.header.len) = w.header.encode ++ w.payload

theorem length_flatten_segs (w : Write) : w.segs.flatten.length = w.total :=
  List.length_flatten

@[simp] theorem length_encode (h : LoggerEntry) : h.encode.length = entrySize := by
  simp [LoggerEntry.encode, entrySize]

@[simp] theorem length_payload (w : Write) : w.payload.length = w.header.len := by
  rw [Write.payload, List.length_take, length_flatten_segs]
  exact Nat.min_eq_left (Nat.min_le_left ..)

/-- The length is read back from the header. -/
theorem len_encode (w : Write) (bs : List UInt8) :
    Bytes.le ((w.header.encode ++ bs).take 2) = min w.total loggerEntryMaxPayload := by
  have hlt : min w.total loggerEntryMaxPayload < 256 ^ 2 := by
    rw [loggerEntryMaxPayload]
    omega
  rw [LoggerEntry.encode, List.append_assoc, List.take_left' (Bytes.length_ofNat 2 _), Bytes.le_ofNat]
  exact Nat.mod_eq_of_lt hlt

/-- The segments are copied behind what is there, up to the limit. -/
theorem copySegs_spec {hlen : Nat} (hfit : entrySize + hlen ≤ n) (hmax : hlen < 2 ^ 64) :
    ∀ (segs : List (List UInt8)) (total : Nat) (d : Buf n), total ≤ hlen →
      ∃ d', copySegs hlen segs total d = some d' ∧
        d'.bytes.take (entrySize + total + (segs.flatten.take (hlen - total)).length) =
          d.bytes.take (entrySize + total) ++ segs.flatten.take (hlen - total)
  | [], total, d, _ => ⟨d, rfl, by simp⟩
  | s :: segs, total, d, ht => by
    have hsub : sizeSub hlen total = hlen - total := by
      rw [sizeSub]
      omega
    generalize hl : min s.length (hlen - total) = len
    have hcut : (s.take len).length = len := by
      rw [List.length_take]
      omega
    obtain ⟨d1, hd1⟩ := Option.isSome_iff_exists.1
      ((write_isSome d (entrySize + total) (s.take len)).2 (.inr (by omega)))
    have htake1 := take_write hd1 (by omega)
    obtain ⟨d', hd', htake⟩ := copySegs_spec hfit hmax segs (total + len) d1 (by omega)
    have hflat : (s :: segs).flatten.take (hlen - total) =
        s.take len ++ segs.flatten.take (hlen - (total + len)) := by
      have hs : s.take (hlen - total) = s.take len := List.take_eq_take_iff.2 (by omega)
      rw [List.flatten_cons, List.take_append, hs,
        show hlen - total - s.length = hlen - (total + len) by omega]
    refine ⟨d', ?_, ?_⟩
    · rw [copySegs, hsub, hl, hd1]
      exact hd'
    · rw [hcut] at htake1
      rw [hflat, List.length_append, hcut, ← List.append_assoc, ← htake1]
      simpa only [Nat.add_assoc] using htake

/-! ## One call -/

/-- **A write** puts its entry behind those in the queue, or is refused. -/
theorem write_spec {w : Write} (h : w.Reserved) (q : List Event) :
    ∃ r q', loggerKernelWrite q w = some (r, q') ∧
      ((w.event.isSome ∧ r = 0 ∧ ∃ e, e.Holds w ∧ q' = q ++ [e]) ∨
        (w.event = none ∧ r = enomem ∧ q' = q)) := by
  cases he : w.event with
  | none => exact ⟨enomem, q, by rw [loggerKernelWrite, he], .inr ⟨rfl, rfl, rfl⟩⟩
  | some e =>
    have hle := h e he
    have hlen : w.header.len ≤ loggerEntryMaxPayload := Nat.min_le_right ..
    rw [loggerEntryMaxPayload] at hlen
    obtain ⟨d, hd⟩ := Option.isSome_iff_exists.1
      ((write_isSome e.data 0 w.header.encode).2 (.inr (by rw [length_encode]; omega)))
    obtain ⟨d', hd', htake⟩ := copySegs_spec hle (by omega) w.segs 0 d (Nat.zero_le _)
    have hhdr := take_write hd (Nat.zero_le _)
    rw [length_encode, Nat.zero_add, List.take_zero, List.nil_append] at hhdr
    refine ⟨0, q ++ [⟨e.length, d'⟩], ?_, .inl ⟨rfl, rfl, ⟨e.length, d'⟩, ⟨hle, ?_⟩, rfl⟩⟩
    · rw [loggerKernelWrite, he]
      simp only [if_neg (Nat.not_lt.2 hle), hd, hd', Option.bind_eq_bind, Option.bind_some]
    · have hpay : w.segs.flatten.take (w.header.len - 0) = w.payload := rfl
      rw [hpay, length_payload, Nat.add_zero, hhdr] at htake
      exact htake

/-- **A read** with room for the entry at the front returns it. -/
theorem read_spec {w : Write} {e : Event} {c : Read} (q : List Event) (h : e.Holds w)
    (hc : entrySize + w.header.len ≤ c.count) (hf : c.fault = false) :
    ∃ r, amazonLoggerRead (e :: q) c = some (r, q) ∧ EntryOf w r := by
  obtain ⟨hle, htake⟩ := h
  have hread {len : Nat} (hl : len ≤ entrySize + w.header.len) :
      e.data.read 0 len = some ((w.header.encode ++ w.payload).take len) := by
    rw [Buf.read, if_pos (within_zero.2 (by omega)), ← htake, List.take_take, Nat.min_eq_left hl,
      List.drop_zero]
  have hlen : Bytes.le ((w.header.encode ++ w.payload).take 2) = w.header.len := len_encode w _
  have hall : (w.header.encode ++ w.payload).length = entrySize + w.header.len := by
    rw [List.length_append, length_encode, length_payload]
  refine ⟨.ret (w.header.encode ++ w.payload).length (w.header.encode ++ w.payload), ?_,
    _, rfl, hall, hlen, List.drop_left' (length_encode _)⟩
  have h2 : 2 ≤ entrySize + w.header.len := by
    rw [entrySize]
    omega
  have hwhole := hread (Nat.le_refl _)
  rw [← hall, List.take_length, hall] at hwhole
  simp only [amazonLoggerRead, hread h2, Option.bind_eq_bind, Option.bind_some, hlen,
    Nat.min_eq_right hle, hwhole, if_neg (Nat.not_lt.2 hc), hf, hall]
  rfl

/-! ## Sequences of calls -/

/-- Writes leave their entries in the queue in their order. -/
theorem writes_spec : ∀ (ws : List Write) (ts : List Write) (q : List Event),
    (∀ w ∈ ws, w.Reserved) → List.Forall₂ (fun t e => Event.Holds t e) ts q →
    ∃ es q', Sys.run loggerKernelWrite q ws = some (es, q') ∧
      es = ws.map (fun w => (w, if w.event.isSome then 0 else enomem)) ∧
      List.Forall₂ (fun t e => Event.Holds t e) (ts ++ accepted ws) q'
  | [], ts, q, _, hq => ⟨[], q, rfl, rfl, by simpa [accepted] using hq⟩
  | w :: ws, ts, q, hw, hq => by
    obtain ⟨r, q1, h, hout⟩ := write_spec (hw w (List.mem_cons_self ..)) q
    have hws := fun v hv => hw v (List.mem_cons_of_mem _ hv)
    rcases hout with ⟨hs, rfl, e, he, rfl⟩ | ⟨hn, rfl, rfl⟩
    · obtain ⟨es, q', hrun, rfl, hq'⟩ := writes_spec ws (ts ++ [w]) _ hws
        (List.rel_append hq (.cons he .nil))
      refine ⟨_, q', by rw [Sys.run_cons_some ws h, hrun]; rfl, by simp [hs], ?_⟩
      have hacc : accepted (w :: ws) = w :: accepted ws := by simp [accepted, hs]
      rwa [hacc, List.append_cons]
    · obtain ⟨es, q', hrun, rfl, hq'⟩ := writes_spec ws ts _ hws hq
      refine ⟨_, q', by rw [Sys.run_cons_some ws h, hrun]; rfl, by simp [hn], ?_⟩
      have hacc : accepted (w :: ws) = accepted ws := by simp [accepted, hn]
      rwa [hacc]

/-- Reads return the entries in the queue in their order. -/
theorem reads_spec : ∀ (cs : List Read) (ts : List Write) (q : List Event),
    List.Forall₂ (fun t e => Event.Holds t e) ts q →
    List.Forall₂ (fun c t => entrySize + t.header.len ≤ c.count ∧ c.fault = false) cs
      (ts.take cs.length) →
    ∃ es q', Sys.run amazonLoggerRead q cs = some (es, q') ∧
      List.Forall₂ (fun t p => EntryOf t p.2) (ts.take cs.length) es
  | [], ts, q, hq, hc => ⟨[], q, rfl, .nil⟩
  | c :: cs, [], q, hq, hc => by cases hc
  | c :: cs, t :: ts, [], hq, hc => by cases hq
  | c :: cs, t :: ts, e :: q, .cons he hq, .cons hct hc => by
    obtain ⟨r, h, hr⟩ := read_spec q he hct.1 hct.2
    obtain ⟨es, q', hrun, hes⟩ := reads_spec cs ts q hq hc
    exact ⟨_, q', by rw [Sys.run_cons_some cs h, hrun]; rfl, .cons hr hes⟩

/-- **The round trip.** Every write that the ring buffer has an event for succeeds, and the reads
that follow return the entries of these writes, one a call and in their order: a header whose
length is that of all segments together or the maximum payload, and that much of the segments. -/
theorem logger_round_trip (ws : List Write) (hw : ∀ w ∈ ws, w.Reserved) (cs : List Read)
    (hc : List.Forall₂ (fun c w => entrySize + min w.total loggerEntryMaxPayload ≤ c.count ∧
      c.fault = false) cs ((accepted ws).take cs.length)) :
    ∃ rs q es q', Sys.run loggerKernelWrite [] ws = some (rs, q) ∧
      rs = ws.map (fun w => (w, if w.event.isSome then 0 else enomem)) ∧
      Sys.run amazonLoggerRead q cs = some (es, q') ∧
      List.Forall₂ (fun w p => EntryOf w p.2) ((accepted ws).take cs.length) es := by
  obtain ⟨rs, q, hrun, hrs, hq⟩ := writes_spec ws [] [] hw .nil
  obtain ⟨es, q', hrun', hes⟩ := reads_spec cs _ q hq hc
  exact ⟨rs, q, es, q', hrun, hrs, hrun', hes⟩

/-- Three segments of three bytes together. -/
def shortWrite : Write := ⟨[[1, 2], [], [3]], 10, 11, 0, 0, some ⟨24, .zero 24⟩⟩

/-- The longest payload that the kernel's ring buffer takes: with the header 4072 bytes. -/
def longWrite : Write :=
  ⟨[List.replicate 3000 7, List.replicate 1052 8], 10, 11, 0, 0, some ⟨4072, .zero 4072⟩⟩

/-- A payload of five thousand bytes, cut in its second segment. Its event of 4096 bytes is more
than the kernel's ring buffer ever reserves. -/
def cutWrite : Write :=
  ⟨[List.replicate 3000 7, List.replicate 2000 8], 10, 11, 0, 0, some ⟨4096, .zero 4096⟩⟩

/-- The same payload without an event. -/
def refusedWrite : Write := { cutWrite with event := none }

theorem shortWrite_total : shortWrite.total = 3 := rfl

theorem longWrite_total : longWrite.total = 4052 := by
  simp only [Write.total, longWrite, List.map_cons, List.map_nil, List.length_replicate,
    List.sum_cons, List.sum_nil, Nat.reduceAdd]

theorem cutWrite_total : cutWrite.total = 5000 := by
  simp only [Write.total, cutWrite, List.map_cons, List.map_nil, List.length_replicate,
    List.sum_cons, List.sum_nil, Nat.reduceAdd]

theorem logger_round_trip_two : ∃ rs q es q',
    Sys.run loggerKernelWrite [] [shortWrite, longWrite, refusedWrite, cutWrite] = some (rs, q) ∧
      rs = [(shortWrite, 0), (longWrite, 0), (refusedWrite, enomem), (cutWrite, 0)] ∧
      Sys.run amazonLoggerRead q [⟨23, false⟩, ⟨4072, false⟩, ⟨4096, false⟩] = some (es, q') ∧
      List.Forall₂ (fun w p => EntryOf w p.2) [shortWrite, longWrite, cutWrite] es := by
  refine logger_round_trip [shortWrite, longWrite, refusedWrite, cutWrite] ?_
    [⟨23, false⟩, ⟨4072, false⟩, ⟨4096, false⟩] ?_
  · intro w hw e he
    simp only [List.mem_cons, List.not_mem_nil, or_false] at hw
    rcases hw with rfl | rfl | rfl | rfl
    · cases he
      simp only [Write.header, shortWrite_total]
      decide
    · cases he
      simp only [Write.header, longWrite_total]
      decide
    · cases he
    · cases he
      simp only [Write.header, cutWrite_total]
      decide
  · refine .cons ⟨?_, rfl⟩ (.cons ⟨?_, rfl⟩ (.cons ⟨?_, rfl⟩ .nil))
    · rw [shortWrite_total]
      decide
    · rw [longWrite_total]
      decide
    · rw [cutWrite_total]
      decide

end AmazonLogger
