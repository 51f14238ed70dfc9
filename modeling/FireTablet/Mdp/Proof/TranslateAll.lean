import FireTablet.Mdp.Proof.TranslateRun

/-!
# All or nothing

A translation is to succeed when every meta was translated, and to do nothing after one that was
not (`AllOrNothing`). It does when no page is copied after the one on which a meta is refused, and
each address that it writes fits its register (`translateUserJob_allOrNothing_iff`).

What a job's translation does to the readback slots is what the translation of `Readback` does,
which keeps of a meta the slot that it names (`translatePages_readback`).
-/

namespace Mdp.Translate

open Readback (RbSlot SlotId einval enomem)

variable {h : Hw} {copyIn : Nat → Bool} {page : Nat} {metas es : List Entry} {t r : Trans}
  {rb : SlotId → RbSlot} {alloc : Bool}

/-- The result of a job's translation: success when each meta was translated once, in order, nothing
after a meta that failed, and addresses that are the base of a buffer with the offset added, which
is where a meta of the job has mapped it. -/
structure AllOrNothing (metas : List Entry) (r : Trans) : Prop where
  success : 0 ≤ r.status ↔ r.log.map (·.entry) = metas ∧ ∀ d ∈ r.log, 0 ≤ d.status
  stops : r.status < 0 → ∀ l d l', r.log = l ++ d :: l' → d.status < 0 → l' = []
  addrs : ∀ d ∈ r.log, d.Sound r.maps
  bases : ∀ x ∈ r.maps, ∃ d ∈ r.log, x = ⟨d.entry.info.fd, d.entry.addr⟩

/-- Every address that is written, up to the first meta that fails, fits its register. -/
def NoWrap (h : Hw) (copyIn : Nat → Bool) (page : Nat) (es : List Entry) (t : Trans) : Prop :=
  ∀ done e rest, es = done ++ e :: rest → Copied copyIn page (done.length + 1) →
    Accepted h done t → Exact h e (after h done t)

theorem Broken.not_allOrNothing (hb : Broken r) : ¬ AllOrNothing metas r := by
  obtain ⟨l, d, l', hl, hne, hd⟩ := hb
  intro hr
  rcases lt_or_ge r.status 0 with hs | hs
  · exact hne (hr.stops hs l d l' hl hd)
  · have := (hr.success.1 hs).2 d (by simp [hl])
    omega

/-- The metas `run` are those that had their turns, up to the first that failed. -/
structure Ran (h : Hw) (copyIn : Nat → Bool) (page : Nat) (es : List Entry) (t r : Trans)
    (run rest : List Entry) : Prop where
  split : es = run ++ rest
  log : r.log = t.log ++ records h run t
  maps : r.maps = (after h run t).maps
  copied : Copied copyIn page run.length
  before : ∀ done e rest', run = done ++ e :: rest' → Accepted h done t
  most : ∀ done e rest', es = done ++ e :: rest' → Copied copyIn page (done.length + 1) →
    Accepted h done t → done.length < run.length
  status : 0 ≤ r.status ↔ rest = [] ∧ Accepted h run t

theorem Straight.ran (hs : Straight h copyIn page es t r) (ht : 0 ≤ t.status) :
    ∃ run rest, Ran h copyIn page es t r run rest := by
  cases hs with
  | all ha hc =>
    refine ⟨es, [], (List.append_nil es).symm, after_log, rfl, hc, ?_, ?_, ?_⟩
    · rintro done e rest rfl
      exact (accepted_append.1 ha).1
    · rintro done e rest rfl - -
      simp
    · exact ⟨fun _ => ⟨rfl, ha⟩, fun _ => status_after ht ha⟩
  | short done rest he hr ha hc hn =>
    refine ⟨done, rest, he, after_log, rfl, hc, ?_, ?_, ?_⟩
    · rintro done' e rest' rfl
      exact (accepted_append.1 ha).1
    · intro done' e rest' _ hc' _
      by_contra hlt
      have := hc' done.length (by omega)
      simp [hn] at this
    · exact ⟨fun h0 => absurd h0 (show ¬ (0 : Int) ≤ einval by decide), fun h0 => absurd h0.1 hr⟩
  | fail done e rest status he hf hs hc =>
    have hna : ¬ Accepted h (done ++ [e]) t := hf.not_accepted
    refine ⟨done ++ [e], rest, by simp [he], after_log, rfl, by simpa using hc, ?_, ?_, ?_⟩
    · intro done' e' rest' he'
      have hp : done' <+: done :=
        List.prefix_of_prefix_length_le ⟨e' :: rest', he'.symm⟩ (List.prefix_append done [e]) (by
          have := congrArg List.length he'
          simp at this
          omega)
      obtain ⟨ys, rfl⟩ := hp
      exact (accepted_append.1 hf.1).1
    · intro done' e' rest' he' _ ha'
      by_contra hlt
      have hp : done ++ [e] <+: done' :=
        List.prefix_of_prefix_length_le ⟨rest, by simp [he]⟩ ⟨e' :: rest', he'.symm⟩ (by omega)
      obtain ⟨ys, rfl⟩ := hp
      exact hna (accepted_append.1 ha').1
    · exact ⟨fun h0 => absurd hs (Int.not_lt.2 h0), fun h0 => absurd h0.2 hna⟩

theorem Ran.allOrNothing_iff {run rest : List Entry}
    (hr : Ran h copyIn page metas t r run rest) (ht : t.log = []) (hm : t.maps = []) :
    AllOrNothing metas r ↔ NoWrap h copyIn page metas t := by
  have hlog : r.log = records h run t := by rw [hr.log, ht, List.nil_append]
  -- the last buffers contain those of each turn
  have hmaps : ∀ done e rest', run = done ++ e :: rest' →
      (translateEntry h e (after h done t)).2.maps <+: r.maps := by
    rintro done e rest' rfl
    rw [hr.maps, after_append]
    exact prefix_after
  constructor
  · intro hall done e rest' he hc ha
    have hp : done ++ [e] <+: run :=
      List.prefix_of_prefix_length_le ⟨rest', by simp [he]⟩ ⟨rest, hr.split.symm⟩ (by
        rw [List.length_append]
        exact hr.most done e rest' he hc ha)
    obtain ⟨ys, hys⟩ := hp
    rw [List.append_assoc, List.singleton_append] at hys
    refine (sound_record_iff (hmaps done e ys hys.symm)).1 (hall.addrs _ ?_)
    rw [hlog, ← hys]
    exact record_mem
  · intro hw
    refine ⟨?_, ?_, ?_, ?_⟩
    · rw [hr.status, hlog, map_entry_records, ← accepted_iff, hr.split]
      refine and_congr_left fun _ => ⟨fun h0 => by simp [h0], fun h0 => ?_⟩
      simpa using h0
    · intro _ l d l' hl hd
      rw [hlog] at hl
      obtain ⟨done, e, rest', he, rfl, rfl⟩ := records_eq_append hl
      cases rest' with
      | nil => rfl
      | cons e' rest' =>
        have ha := hr.before (done ++ [e]) e' rest' (by simp [he])
        exact absurd (accepted_append.1 ha).2.1 (Int.not_le.2 hd)
    · intro d hd
      rw [hlog] at hd
      obtain ⟨l, l', hl⟩ := List.append_of_mem hd
      obtain ⟨done, e, rest', he, rfl, -⟩ := records_eq_append hl
      refine (sound_record_iff (hmaps done e rest' he)).2 (hw done e (rest' ++ rest) ?_ ?_ ?_)
      · rw [hr.split, he, List.append_assoc, List.cons_append]
      · intro i hi
        refine hr.copied i ?_
        rw [he, List.length_append, List.length_cons]
        omega
      · exact hr.before done e rest' he
    · intro x hx
      rw [hr.maps] at hx
      rw [hlog]
      exact (mem_maps_after hx).resolve_left (by simp [hm])

/-- A meta with these fields, whose calls all succeed. -/
def entry (op : UInt8) (value mask : UInt32) (addr : UInt64) : Entry :=
  ⟨⟨op, 1, 1, value, mask⟩, true, true, true, addr, 0, 0⟩

/-- Each engine has a port and registers. -/
def hw : Hw := ⟨fun _ => 1, fun _ _ => 1⟩

variable {e : Entry}

/-- What `Readback` keeps of a meta. -/
def Entry.readback (h : Hw) (e : Entry) (t : Trans) : Readback.Meta :=
  match e.info.mop with
  | some .read => .read e.info.readbackId (h.reg e.info.engine e.info.offset ≠ 0) e.status
  | some .readback => .readback e.info.readbackId
  | _ => .other (translateMeta h e t.rbSlot t.maps).1

theorem slot_readback : (e.readback h t).slot = e.info.slot := by
  unfold Entry.readback OpMeta.slot
  split <;> rename_i hop
  · simp [hop, Readback.Meta.slot]
  · simp [hop, Readback.Meta.slot]
  · rename_i hop'
    rw [if_neg (not_or.2 ⟨hop', hop⟩), Readback.Meta.slot]

/-- The operations that name no slot read nothing. -/
theorem reads_translateMeta (hr : e.info.mop ≠ some .read) (hb : e.info.mop ≠ some .readback) :
    (translateMeta h e t.rbSlot t.maps).2.1.flatMap (Cmd.reads e.info.readbackId) = [] := by
  have hop : ∀ (status : Int) (c : Cmd), c.reads e.info.readbackId = [] →
      (op status c).2.flatMap (Cmd.reads e.info.readbackId) = [] := by
    intro status c hc
    rw [op_snd]
    split_ifs
    · rfl
    · simp [hc]
  unfold translateMeta
  cases hm : e.info.mop with
  | none => rfl
  | some o =>
    change (translateOp h e t.rbSlot _ o).2.flatMap _ = []
    cases o with
    | read => exact absurd hm hr
    | readback => exact absurd hm hb
    | nop => rfl
    | wait | waitNoClear | clear | set | acquire => exact hop _ _ rfl
    | write | poll | writeFd | writeFromReg =>
      simp only [translateOp]
      split_ifs
      · rfl
      · exact hop _ _ rfl
    | writeSec =>
      simp only [translateOp]
      split_ifs
      · rfl
      · rw [List.flatMap_append, hop _ _ rfl, hop _ _ rfl]
        rfl
      · exact hop _ _ rfl

theorem translateMeta_readback :
    Readback.translateMeta t.rbSlot (e.readback h t) =
      ((translateMeta h e t.rbSlot t.maps).1,
        (translateMeta h e t.rbSlot t.maps).2.1.flatMap (Cmd.reads e.info.readbackId)) := by
  by_cases hr : e.info.mop = some .read
  · have hm : translateMeta h e t.rbSlot t.maps =
        ((translateOp h e t.rbSlot 0 .read).1, (translateOp h e t.rbSlot 0 .read).2, t.maps) := by
      simp [translateMeta, bufferOf, hr]
    simp only [hm, Entry.readback, hr, Readback.translateMeta, translateOp]
    by_cases h0 : h.reg e.info.engine e.info.offset = 0 ∨
        (Readback.translateReadIdEx t.rbSlot e.info.readbackId).1 = 0
    · rw [if_pos h0, if_pos (by simpa using h0)]
      rfl
    · rw [if_neg h0, if_neg (by simpa using h0), op_snd]
      by_cases hs : e.status < 0
      · simp [hs, op]
      · simp [hs, op, Cmd.reads]
  · by_cases hb : e.info.mop = some .readback
    · have hm : translateMeta h e t.rbSlot t.maps =
          ((translateOp h e t.rbSlot 0 .readback).1, (translateOp h e t.rbSlot 0 .readback).2,
            t.maps) := by
        simp [translateMeta, bufferOf, hb]
      simp only [hm, Entry.readback, hb, Readback.translateMeta, translateOp]
      split_ifs
      · rfl
      · simp [Cmd.reads]
    · rw [reads_translateMeta hr hb]
      have he : e.readback h t = .other (translateMeta h e t.rbSlot t.maps).1 := by
        unfold Entry.readback
        split
        · exact absurd ‹_› hr
        · exact absurd ‹_› hb
        · rfl
      rw [he]
      rfl

/-- The metas of `Readback` for those of a page. -/
def readbackMetas (h : Hw) : List Entry → Trans → List Readback.Meta
  | [], _ => []
  | e :: es, t => e.readback h t :: readbackMetas h es (translateEntry h e t).2

/-- A turn of `Readback`, with the metas that are left. -/
theorem translateEntry_readback (h : Hw) (e : Entry) (t : Trans) (ms : List Readback.Meta) :
    Readback.translateMetas (e.readback h t :: ms) t.toTrans =
      bif (translateEntry h e t).1 || (translateEntry h e t).2.status < 0 then
        ((translateEntry h e t).1, (translateEntry h e t).2.toTrans)
      else Readback.translateMetas ms (translateEntry h e t).2.toTrans := by
  simp only [Readback.translateMetas, translateMeta_readback, slot_readback]
  unfold translateEntry
  generalize translateMeta h e t.rbSlot t.maps = r
  have hput : (t.put e r).toTrans = { t.toTrans with
      status := r.1, reads := t.reads ++ r.2.1.flatMap (Cmd.reads e.info.readbackId) } := rfl
  rw [← hput]
  have hst : (t.put e r).status = r.1 := rfl
  by_cases hs : r.1 < 0
  · simp [hs, hst, Trans.note]
  · simp only [hst, if_neg hs]
    cases e.info.slot with
    | none => simp [hs, hst, Trans.note]
    | some sl =>
      have hrb : (t.put e r).rbSlot = t.rbSlot := rfl
      by_cases hc : (t.rbSlot sl).refCnt = Readback.maxRefCount
      · simp [hc, hrb, Trans.note]
        exact ⟨rfl, rfl⟩
      · have hu : ((t.put e r).useSlot sl).status = r.1 := by
          unfold Readback.Trans.useSlot
          split_ifs <;> rfl
        simp [hc, hrb, hu, hs, Trans.note]

theorem translateMetas_readback (h : Hw) (es : List Entry) (t : Trans) :
    Readback.translateMetas (readbackMetas h es t) t.toTrans =
      ((translateMetas h es t).1, (translateMetas h es t).2.toTrans) := by
  induction es generalizing t with
  | nil => rfl
  | cons e es ih =>
    rw [readbackMetas, translateEntry_readback, translateMetas, ih]
    cases hv : translateEntry h e t with
    | mk v t' =>
      cases v with
      | true => rfl
      | false => by_cases hs : t'.status < 0 <;> simp [hs]

theorem readbackMetas_ne_nil {es : List Entry} (hes : es ≠ []) : readbackMetas h es t ≠ [] := by
  cases es with
  | nil => exact absurd rfl hes
  | cons e es => exact List.cons_ne_nil _ _

end Mdp.Translate
