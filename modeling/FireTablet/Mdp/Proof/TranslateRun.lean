import FireTablet.Mdp.Translate

/-!
# One meta of a job

What a turn of the translation does: it writes the base of the meta's buffer with the offset added,
in the 32 bits of an instruction (`Entry.base`), and it leaves a record of the meta (`record`).

The translation of a page and of the pages after it, against the translation of the metas one after
the other (`after`). A meta that `translate_meta` refuses ends its page only (`Refused`), so the
translation goes on after it when there is another page (`translatePages_cases`).
-/

namespace Mdp.Translate

open Readback (RbSlot SlotId einval)

variable {h : Hw} {e : Entry} {t : Trans} {maps : List Mapping} {rb : SlotId → RbSlot}

/-! ## Addresses -/

theorem written_writeRegEx (reg : UInt32) (v : UInt64) (mask : UInt32) :
    (writeRegEx reg v mask).written = some (v.toNat % 4294967296) := by
  have hb : (argB v).toNat = v.toNat / 65536 % 65536 := by
    simp only [argB, UInt64.toNat_toUInt16, UInt64.toNat_shiftRight, UInt64.toNat_and]
    change (v.toNat &&& 4294901760) >>> 16 % 2 ^ 16 = _
    rw [Nat.shiftRight_and_distrib]
    change (v.toNat >>> 16 &&& 65535) % 2 ^ 16 = _
    rw [show (65535 : Nat) = 2 ^ 16 - 1 from rfl, Nat.and_two_pow_sub_one_eq_mod,
      Nat.shiftRight_eq_div_pow, Nat.mod_mod]
  have hc : (argC v).toNat = v.toNat % 65536 := by
    simp only [argC, UInt64.toNat_toUInt16, UInt64.toNat_and]
    change (v.toNat &&& (2 ^ 16 - 1)) % 2 ^ 16 = _
    rw [Nat.and_two_pow_sub_one_eq_mod, Nat.mod_mod]
  simp only [writeRegEx, Cmd.written, hb, hc, Option.some.injEq]
  omega

/-- The address at which the buffer of a meta is mapped: by an earlier meta, or by this one. -/
def Entry.base (e : Entry) (maps : List Mapping) : UInt64 :=
  match maps.find? (·.fd = e.info.fd) with
  | some x => x.mva
  | none => e.addr

theorem mapFd_eq (hm : mapFd e maps ≠ 0) : mapFd e maps = e.addr := by
  unfold mapFd at hm ⊢
  split_ifs at hm ⊢ <;> first | rfl | exact absurd rfl hm

theorem prefix_translateFd : maps <+: (translateFd h e maps).2 := by
  unfold translateFd
  by_cases hp : h.port e.info.engine = 0
  · rw [if_pos hp]
  · rw [if_neg hp]
    cases maps.find? (·.fd = e.info.fd) with
    | some x => exact List.prefix_rfl
    | none =>
      by_cases hm : mapFd e maps = 0
      · simp only [if_pos hm, List.prefix_rfl]
      · simp only [if_neg hm, List.prefix_append]

/-- A buffer's address is its base with the offset added, and the base is in the table. -/
theorem translateFd_base (hf : (translateFd h e maps).1 ≠ 0) :
    (translateFd h e maps).1 = e.base maps + e.info.fdOffset.toUInt64 ∧
      (translateFd h e maps).2.find? (·.fd = e.info.fd) = some ⟨e.info.fd, e.base maps⟩ := by
  unfold translateFd Entry.base at *
  by_cases hp : h.port e.info.engine = 0
  · simp [if_pos hp] at hf
  · simp only [if_neg hp] at hf ⊢
    cases hx : maps.find? (·.fd = e.info.fd) with
    | some x =>
      have hfd : x.fd = e.info.fd := by simpa using List.find?_some hx
      refine ⟨rfl, ?_⟩
      change maps.find? _ = _
      rw [hx, ← hfd]
    | none =>
      simp only [hx] at hf ⊢
      by_cases hm : mapFd e maps = 0
      · simp [if_pos hm] at hf
      · rw [if_neg hm, mapFd_eq hm]
        refine ⟨rfl, ?_⟩
        rw [List.find?_append, hx, Option.none_or]
        simp

/-- A buffer is in the table before, or it is that of the meta. -/
theorem mem_translateFd {x : Mapping} (hx : x ∈ (translateFd h e maps).2) :
    x ∈ maps ∨ x = ⟨e.info.fd, e.addr⟩ := by
  unfold translateFd at hx
  by_cases hp : h.port e.info.engine = 0
  · rw [if_pos hp] at hx
    exact .inl hx
  · rw [if_neg hp] at hx
    cases hf : maps.find? (·.fd = e.info.fd) with
    | some y => exact .inl (by simpa only [hf] using hx)
    | none =>
      simp only [hf] at hx
      by_cases hm : mapFd e maps = 0
      · exact .inl (by simpa only [if_pos hm] using hx)
      · rw [if_neg hm, mapFd_eq hm] at hx
        exact (List.mem_append.1 hx).imp_right List.mem_singleton.1

/-- An address that is found in a table stays what it is when the table grows. -/
theorem find?_of_prefix {maps' : List Mapping} {p : Mapping → Bool} {x : Mapping}
    (hp : maps <+: maps') (hx : maps.find? p = some x) : maps'.find? p = some x := by
  obtain ⟨ys, rfl⟩ := hp
  rw [List.find?_append, hx, Option.some_or]

/-! ## Metas -/

theorem op_snd (status : Int) (c : Cmd) : (op status c).2 = if status < 0 then [] else [c] := rfl

theorem prefix_bufferOf : maps <+: (bufferOf h e maps).2 := by
  unfold bufferOf
  split_ifs
  · exact prefix_translateFd
  · exact List.prefix_rfl

theorem translateMeta_maps : (translateMeta h e rb maps).2.2 = (bufferOf h e maps).2 := by
  unfold translateMeta
  cases e.info.mop <;> rfl

theorem prefix_translateMeta : maps <+: (translateMeta h e rb maps).2.2 :=
  translateMeta_maps ▸ prefix_bufferOf

theorem mem_translateMeta {x : Mapping} (hx : x ∈ (translateMeta h e rb maps).2.2) :
    x ∈ maps ∨ x = ⟨e.info.fd, e.addr⟩ := by
  rw [translateMeta_maps, bufferOf] at hx
  split_ifs at hx
  · exact mem_translateFd hx
  · exact .inl hx

/-- A meta that names a buffer writes nothing, or the address of the buffer. -/
theorem translateMeta_writeFd (h : Hw) (rb : SlotId → RbSlot) (maps : List Mapping)
    (hop : e.info.mop = some .writeFd) :
    ((translateMeta h e rb maps).1 < 0 ∧ (translateMeta h e rb maps).2.1 = []) ∨
      0 ≤ (translateMeta h e rb maps).1 ∧ ∃ reg, (translateMeta h e rb maps).2.1 =
        [writeRegEx reg (e.base maps + e.info.fdOffset.toUInt64) 0xffffffff] ∧
      (translateMeta h e rb maps).2.2.find? (·.fd = e.info.fd) =
        some ⟨e.info.fd, e.base maps⟩ := by
  have hb : bufferOf h e maps = translateFd h e maps := if_pos hop
  have hm : translateMeta h e rb maps =
      ((translateOp h e rb (translateFd h e maps).1 .writeFd).1,
        (translateOp h e rb (translateFd h e maps).1 .writeFd).2, (translateFd h e maps).2) := by
    simp only [translateMeta, hop, hb]
  rw [hm]
  simp only [translateOp]
  by_cases hr : h.reg e.info.engine e.info.offset = 0 ∨ (translateFd h e maps).1 = 0
  · rw [if_pos hr]
    exact .inl ⟨by decide, rfl⟩
  · obtain ⟨haddr, hfind⟩ := translateFd_base (fun hf => hr (.inr hf))
    rw [if_neg hr]
    rcases lt_or_ge e.status 0 with hs | hs
    · exact .inl ⟨hs, if_pos hs⟩
    · refine .inr ⟨hs, h.reg e.info.engine e.info.offset, ?_, hfind⟩
      rw [op_snd, if_neg (Int.not_lt.2 hs), haddr]

/-! ## Turns -/

/-- The record that a turn leaves of its meta. -/
def record (h : Hw) (e : Entry) (t : Trans) : Done :=
  ⟨e, (translateEntry h e t).2.status, (translateMeta h e t.rbSlot t.maps).2.1⟩

/-- A turn ends with the status of `translate_meta`, or returns at once since a slot has no room in
its count. -/
theorem translateEntry_cases :
    (translateEntry h e t).2.log = t.log ++ [record h e t] ∧
      (translateEntry h e t).2.maps = (translateMeta h e t.rbSlot t.maps).2.2 ∧
      ((translateEntry h e t).1 = false ∧
          (translateEntry h e t).2.status = (translateMeta h e t.rbSlot t.maps).1 ∨
        (translateEntry h e t).1 = true ∧ (translateEntry h e t).2.status = einval ∧
          0 ≤ (translateMeta h e t.rbSlot t.maps).1) := by
  unfold record translateEntry
  generalize translateMeta h e t.rbSlot t.maps = r
  by_cases hs : r.1 < 0
  · have hs' : (t.put e r).status < 0 := hs
    simp only [if_pos hs']
    exact ⟨rfl, rfl, .inl ⟨trivial, rfl⟩⟩
  · have hs' : ¬ (t.put e r).status < 0 := hs
    simp only [if_neg hs']
    cases e.info.slot with
    | none => exact ⟨rfl, rfl, .inl ⟨rfl, rfl⟩⟩
    | some sl =>
      by_cases hc : ((t.put e r).rbSlot sl).refCnt = Readback.maxRefCount
      · simp only [if_pos hc]
        exact ⟨rfl, rfl, .inr ⟨trivial, rfl, Int.not_lt.1 hs⟩⟩
      · simp only [if_neg hc]
        have hu : ∀ t : Readback.Trans, (t.useSlot sl).status = t.status := by
          intro t
          unfold Readback.Trans.useSlot
          split_ifs <;> rfl
        refine ⟨?_, rfl, .inl ⟨trivial, hu _⟩⟩
        rfl

theorem translateEntry_log : (translateEntry h e t).2.log = t.log ++ [record h e t] :=
  translateEntry_cases.1

theorem prefix_translateEntry : t.maps <+: (translateEntry h e t).2.maps :=
  translateEntry_cases.2.1 ▸ prefix_translateMeta

theorem translateEntry_true (hv : (translateEntry h e t).1 = true) :
    (translateEntry h e t).2.status < 0 ∧ 0 ≤ (translateMeta h e t.rbSlot t.maps).1 := by
  rcases (translateEntry_cases (h := h) (e := e) (t := t)).2.2 with ⟨hf, -⟩ | ⟨-, hs, hm⟩
  · simp [hf] at hv
  · exact ⟨by rw [hs]; decide, hm⟩

theorem translateEntry_false (hv : (translateEntry h e t).1 = false) :
    (translateEntry h e t).2.status = (translateMeta h e t.rbSlot t.maps).1 := by
  rcases (translateEntry_cases (h := h) (e := e) (t := t)).2.2 with ⟨-, hs⟩ | ⟨ht, -⟩
  · exact hs
  · simp [ht] at hv

/-- A meta is accepted with the status of `translate_meta`. -/
theorem translateMeta_nonneg (ha : 0 ≤ (translateEntry h e t).2.status) :
    0 ≤ (translateMeta h e t.rbSlot t.maps).1 := by
  cases hv : (translateEntry h e t).1 with
  | true => exact (translateEntry_true hv).2
  | false => exact translateEntry_false hv ▸ ha

/-! ## What a turn writes -/

/-- The address of a meta's buffer fits the register that it is written to, if it is. -/
def Exact (h : Hw) (e : Entry) (t : Trans) : Prop :=
  e.info.mop = some .writeFd → 0 ≤ (translateMeta h e t.rbSlot t.maps).1 →
    (e.base t.maps).toNat + e.info.fdOffset.toNat < 2 ^ 32

/-- A record writes the base of its meta's buffer with the offset added. -/
def Done.Sound (maps : List Mapping) (d : Done) : Prop :=
  d.entry.info.mop = some .writeFd → ∀ c ∈ d.cmds, ∃ x,
    maps.find? (·.fd = d.entry.info.fd) = some x ∧
      c.written = some (x.mva.toNat + d.entry.info.fdOffset.toNat)

theorem sound_record_iff (hp : (translateEntry h e t).2.maps <+: maps) :
    (record h e t).Sound maps ↔ Exact h e t := by
  refine forall_congr' fun (hop : e.info.mop = some .writeFd) => ?_
  change (∀ c ∈ (translateMeta h e t.rbSlot t.maps).2.1, ∃ x,
    maps.find? (·.fd = e.info.fd) = some x ∧
      c.written = some (x.mva.toNat + e.info.fdOffset.toNat)) ↔ _
  rcases translateMeta_writeFd h t.rbSlot t.maps hop with
    ⟨hs, hc⟩ | ⟨hs, reg, hc, hfind⟩
  · simp [hc, hs]
  · rw [translateEntry_cases.2.1] at hp
    have hx := find?_of_prefix hp hfind
    have hsum : (e.base t.maps + e.info.fdOffset.toUInt64).toNat =
        ((e.base t.maps).toNat + e.info.fdOffset.toNat) % 2 ^ 64 := by
      rw [UInt64.toNat_add, UInt32.toNat_toUInt64]
    simp only [hc, List.mem_singleton, forall_eq, written_writeRegEx, Option.some.injEq,
      forall_const, hs, hsum]
    constructor
    · rintro ⟨x, hx', hw⟩
      obtain rfl : x = ⟨e.info.fd, e.base t.maps⟩ := Option.some.inj (hx'.symm.trans hx)
      change _ = (e.base t.maps).toNat + _ at hw
      omega
    · intro hlt
      refine ⟨_, hx, ?_⟩
      change _ = (e.base t.maps).toNat + _
      omega

variable {h : Hw} {e : Entry} {t r : Trans} {es es' : List Entry} {copyIn : Nat → Bool}
  {page : Nat}

/-! ## One meta after the other -/

/-- The translation after the turns of some metas. -/
def after (h : Hw) : List Entry → Trans → Trans
  | [], t => t
  | e :: es, t => after h es (translateEntry h e t).2

/-- Every meta is translated. -/
def Accepted (h : Hw) : List Entry → Trans → Prop
  | [], _ => True
  | e :: es, t => 0 ≤ (translateEntry h e t).2.status ∧ Accepted h es (translateEntry h e t).2

/-- The first meta that is not translated is refused by `translate_meta`. -/
def Refused (h : Hw) : List Entry → Trans → Prop
  | [], _ => False
  | e :: es, t => (translateMeta h e t.rbSlot t.maps).1 < 0 ∨
    0 ≤ (translateEntry h e t).2.status ∧ Refused h es (translateEntry h e t).2

/-- The records that the turns leave. -/
def records (h : Hw) : List Entry → Trans → List Done
  | [], _ => []
  | e :: es, t => record h e t :: records h es (translateEntry h e t).2

theorem after_append : after h (es ++ es') t = after h es' (after h es t) := by
  induction es generalizing t with
  | nil => rfl
  | cons e es ih => exact ih

theorem after_log : (after h es t).log = t.log ++ records h es t := by
  induction es generalizing t with
  | nil => simp [after, records]
  | cons e es ih => rw [after, ih, translateEntry_log, records, List.append_assoc]; rfl

theorem prefix_after : t.maps <+: (after h es t).maps := by
  induction es generalizing t with
  | nil => exact List.prefix_rfl
  | cons e es ih => exact prefix_translateEntry.trans ih

theorem accepted_append :
    Accepted h (es ++ es') t ↔ Accepted h es t ∧ Accepted h es' (after h es t) := by
  induction es generalizing t with
  | nil => simp [Accepted, after]
  | cons e es ih => rw [List.cons_append, Accepted, ih, Accepted, after, and_assoc]

theorem refused_append (ha : Accepted h es t) :
    Refused h (es ++ es') t ↔ Refused h es' (after h es t) := by
  induction es generalizing t with
  | nil => rfl
  | cons e es ih =>
    have hn : ¬ (translateMeta h e t.rbSlot t.maps).1 < 0 :=
      Int.not_lt.2 (translateMeta_nonneg ha.1)
    rw [List.cons_append, Refused, ih ha.2, after]
    exact ⟨fun hr => (hr.resolve_left hn).2, fun hr => .inr ⟨ha.1, hr⟩⟩

theorem map_entry_records : (records h es t).map (·.entry) = es := by
  induction es generalizing t with
  | nil => rfl
  | cons e es ih => rw [records, List.map_cons, ih]; rfl

theorem accepted_iff : Accepted h es t ↔ ∀ d ∈ records h es t, 0 ≤ d.status := by
  induction es generalizing t with
  | nil => simp [Accepted, records]
  | cons e es ih => rw [Accepted, ih, records, List.forall_mem_cons]; rfl

theorem status_after (ht : 0 ≤ t.status) (ha : Accepted h es t) : 0 ≤ (after h es t).status := by
  induction es generalizing t with
  | nil => exact ht
  | cons e es ih => exact ih ha.1 ha.2

/-- A record is that of a meta after the turns of those before it. -/
theorem records_eq_append {l l' : List Done} {d : Done} (hr : records h es t = l ++ d :: l') :
    ∃ done e rest, es = done ++ e :: rest ∧ d = record h e (after h done t) ∧
      l' = records h rest (after h (done ++ [e]) t) := by
  induction es generalizing t l with
  | nil => simp [records] at hr
  | cons e es ih =>
    cases l with
    | nil =>
      obtain ⟨rfl, rfl⟩ := List.cons.inj hr
      exact ⟨[], e, es, rfl, rfl, rfl⟩
    | cons d' l =>
      obtain ⟨done, e', rest, rfl, hd, hl⟩ := ih (List.cons.inj hr).2
      exact ⟨e :: done, e', rest, rfl, hd, hl⟩

theorem record_mem {done rest : List Entry} :
    record h e (after h done t) ∈ records h (done ++ e :: rest) t := by
  induction done generalizing t with
  | nil => exact List.mem_cons_self
  | cons e' done ih => exact List.mem_cons_of_mem _ ih

/-- The buffers mapped are those of metas that had their turns. -/
theorem mem_maps_after {x : Mapping} (hx : x ∈ (after h es t).maps) :
    x ∈ t.maps ∨ ∃ d ∈ records h es t, x = ⟨d.entry.info.fd, d.entry.addr⟩ := by
  induction es generalizing t with
  | nil => exact .inl hx
  | cons e es ih =>
    rcases ih hx with hx | ⟨d, hd, hx⟩
    · rw [translateEntry_cases.2.1] at hx
      exact (mem_translateMeta hx).imp_right fun hx => ⟨_, List.mem_cons_self, hx⟩
    · exact .inr ⟨d, List.mem_cons_of_mem _ hd, hx⟩

/-! ## Pages -/

/-- The first meta that is not translated, after those in `done`. -/
def Fails (h : Hw) (done : List Entry) (e : Entry) (t : Trans) : Prop :=
  Accepted h done t ∧ (translateEntry h e (after h done t)).2.status < 0

/-- The metas of a page are translated up to the first that fails. -/
theorem translateMetas_cases (h : Hw) (es : List Entry) (t : Trans) :
    Accepted h es t ∧ translateMetas h es t = (false, after h es t) ∨
      ∃ done e rest, es = done ++ e :: rest ∧ Fails h done e t ∧
        translateMetas h es t = translateEntry h e (after h done t) := by
  induction es generalizing t with
  | nil => exact .inl ⟨trivial, rfl⟩
  | cons e es ih =>
    rcases lt_or_ge (translateEntry h e t).2.status 0 with hs | hs
    · refine .inr ⟨[], e, es, rfl, ⟨trivial, hs⟩, ?_⟩
      rw [translateMetas, after]
      split
      · rename_i heq
        exact heq.symm
      · rename_i heq
        rw [if_pos (by simpa [heq] using hs), heq]
    · have hv : (translateEntry h e t).1 = false :=
        Bool.eq_false_iff.2 fun hv => absurd hs (Int.not_le.2 (translateEntry_true hv).1)
      have hm : translateMetas h (e :: es) t = translateMetas h es (translateEntry h e t).2 := by
        rw [translateMetas]
        split
        · rename_i heq
          simp [heq] at hv
        · rename_i heq
          rw [if_neg (by simpa [heq] using hs), heq]
      rw [hm]
      rcases ih (translateEntry h e t).2 with ⟨ha, heq⟩ | ⟨done, e', rest, rfl, hf, heq⟩
      · exact .inl ⟨⟨hs, ha⟩, heq⟩
      · exact .inr ⟨e :: done, e', rest, rfl, ⟨⟨hs, hf.1⟩, hf.2⟩, heq⟩

theorem Fails.not_accepted {done rest : List Entry} (hf : Fails h done e t) :
    ¬ Accepted h (done ++ e :: rest) t := by
  intro ha
  exact absurd (accepted_append.1 ha).2.1 (Int.not_le.2 hf.2)

/-- A meta that fails is refused unless the translation returns at once. -/
theorem Fails.refused_iff {done rest : List Entry} (hf : Fails h done e t) :
    Refused h (done ++ e :: rest) t ↔ (translateEntry h e (after h done t)).1 = false := by
  rw [refused_append hf.1, Refused]
  cases hv : (translateEntry h e (after h done t)).1 with
  | true =>
    have hm := (translateEntry_true hv).2
    simp [Int.not_lt.2 hm, Int.not_le.2 hf.2]
  | false => simpa using .inl (translateEntry_false hv ▸ hf.2)

/-! ## A job -/

theorem translateMetas_log (h : Hw) (es : List Entry) (t : Trans) :
    ∃ ds, (translateMetas h es t).2.log = t.log ++ ds ∧ (es ≠ [] → ds ≠ []) := by
  rcases translateMetas_cases h es t with ⟨-, heq⟩ | ⟨done, e, rest, -, -, heq⟩
  · rw [heq]
    refine ⟨_, after_log, fun hes => ?_⟩
    cases es with
    | nil => exact absurd rfl hes
    | cons e es => exact List.cons_ne_nil _ _
  · rw [heq, translateEntry_log, after_log, List.append_assoc]
    exact ⟨_, rfl, fun _ => by simp⟩

theorem translatePages_nil : translatePages h copyIn page [] t = t := by
  rw [translatePages, if_pos rfl]

theorem translatePages_copy (hes : es ≠ []) (hc : copyIn page = false) :
    translatePages h copyIn page es t = { t with status := einval } := by
  rw [translatePages, if_neg hes]
  simp [hc]

theorem translatePages_page (hes : es ≠ []) (hc : copyIn page = true) :
    translatePages h copyIn page es t =
      bif (translateMetas h (es.take metaCountInPage) t).1 then
        (translateMetas h (es.take metaCountInPage) t).2
      else translatePages h copyIn (page + 1) (es.drop metaCountInPage)
        (translateMetas h (es.take metaCountInPage) t).2 := by
  rw [translatePages, if_neg hes]
  simp only [hc, Bool.not_true, Bool.false_eq_true, if_false]
  split <;> rename_i heq <;> simp [heq]

/-- A translation only adds records. -/
theorem prefix_translatePages : t.log <+: (translatePages h copyIn page es t).log := by
  induction page, es, t using translatePages.induct h copyIn with
  | case1 => rw [translatePages_nil]
  | case2 page es t hes hc =>
    rw [translatePages_copy hes (by simpa using hc)]
  | case3 page es t hes hc t' heq =>
    obtain ⟨ds, hds, -⟩ := translateMetas_log h (es.take metaCountInPage) t
    rw [translatePages_page hes (by simpa using hc), heq]
    rw [heq] at hds
    exact ⟨ds, hds.symm⟩
  | case4 page es t hes hc t' heq ih =>
    obtain ⟨ds, hds, -⟩ := translateMetas_log h (es.take metaCountInPage) t
    rw [translatePages_page hes (by simpa using hc), heq]
    rw [heq] at hds
    exact (List.prefix_append t.log ds).trans (hds ▸ ih)

theorem take_ne_nil (hes : es ≠ []) : es.take metaCountInPage ≠ [] := by
  simp [metaCountInPage, hes]

/-- A record that is not the last one is that of a meta that failed. -/
def Broken (t : Trans) : Prop := ∃ l d l', t.log = l ++ d :: l' ∧ l' ≠ [] ∧ d.status < 0

/-- A page that is translated after a failing meta. -/
theorem broken_translatePages {l : List Done} {d : Done} (hes : es ≠ [])
    (hc : copyIn page = true) (hl : t.log = l ++ [d]) (hd : d.status < 0) :
    Broken (translatePages h copyIn page es t) := by
  obtain ⟨ds, hds, hne⟩ := translateMetas_log h (es.take metaCountInPage) t
  have hlog : t.log ++ ds <+: (translatePages h copyIn page es t).log := by
    rw [translatePages_page hes hc, ← hds]
    cases (translateMetas h (es.take metaCountInPage) t).1 with
    | true => exact List.prefix_rfl
    | false => exact prefix_translatePages
  obtain ⟨ds', hds'⟩ := hlog
  refine ⟨l, d, ds ++ ds', ?_, by simp [hne (take_ne_nil hes)], hd⟩
  rw [← hds', hl]
  simp

/-- No page follows the one on which a meta is refused, if it is copied. -/
def LastPage (h : Hw) (copyIn : Nat → Bool) (page : Nat) (es : List Entry) (t : Trans) : Prop :=
  ∀ n, n * metaCountInPage < es.length → (∀ j ≤ n, copyIn (page + j) = true) →
    ¬ Refused h (es.take (n * metaCountInPage)) t

/-- The pages with the metas before `n` are copied. -/
def Copied (copyIn : Nat → Bool) (page n : Nat) : Prop :=
  ∀ i < n, copyIn (page + i / metaCountInPage) = true

/-- A translation that does nothing after it fails: all metas are translated, a page is not copied,
or a meta fails. -/
inductive Straight (h : Hw) (copyIn : Nat → Bool) (page : Nat) (es : List Entry) (t : Trans) :
    Trans → Prop
  | all (ha : Accepted h es t) (hc : Copied copyIn page es.length) :
      Straight h copyIn page es t (after h es t)
  | short (done rest : List Entry) (he : es = done ++ rest) (hr : rest ≠ [])
      (ha : Accepted h done t) (hc : Copied copyIn page done.length)
      (hn : copyIn (page + done.length / metaCountInPage) = false) :
      Straight h copyIn page es t { after h done t with status := einval }
  | fail (done : List Entry) (e : Entry) (rest : List Entry) (status : Int)
      (he : es = done ++ e :: rest) (hf : Fails h done e t) (hs : status < 0)
      (hc : Copied copyIn page (done.length + 1)) :
      Straight h copyIn page es t { after h (done ++ [e]) t with status := status }

theorem metaCountInPage_eq : metaCountInPage = 256 := rfl

theorem copied_page {n : Nat} (hc : copyIn page = true)
    (h' : Copied copyIn (page + 1) (n - metaCountInPage)) : Copied copyIn page n := by
  intro i hi
  rw [Copied, metaCountInPage_eq] at h'
  rw [metaCountInPage_eq]
  rcases lt_or_ge i 256 with hp | hp
  · rw [Nat.div_eq_of_lt hp]
    exact hc
  · have h1 := h' (i - 256) (by omega)
    rwa [show page + 1 + (i - 256) / 256 = page + i / 256 by omega] at h1

/-- The metas before a page that is not the last one fill their page. -/
theorem length_take_page (hd : es.drop metaCountInPage ≠ []) :
    (es.take metaCountInPage).length = metaCountInPage := by
  have := List.length_pos_of_ne_nil hd
  rw [List.length_drop] at this
  rw [List.length_take]
  omega

theorem straight_page (hc : copyIn page = true) (ha : Accepted h (es.take metaCountInPage) t)
    (hs : Straight h copyIn (page + 1) (es.drop metaCountInPage)
      (after h (es.take metaCountInPage) t) r) : Straight h copyIn page es t r := by
  have hes := List.take_append_drop metaCountInPage es
  cases hs with
  | all ha' hc' =>
    rw [← after_append, hes]
    rw [List.length_drop] at hc'
    exact .all (hes ▸ accepted_append.2 ⟨ha, ha'⟩) (copied_page hc hc')
  | short done rest he hr ha' hc' hn =>
    have hlen := length_take_page (show es.drop metaCountInPage ≠ [] by simp [he, hr])
    rw [← after_append]
    refine .short _ rest (by rw [List.append_assoc, ← he, hes]) hr (accepted_append.2 ⟨ha, ha'⟩)
      (copied_page hc ?_) ?_
    · rwa [List.length_append, hlen, Nat.add_sub_cancel_left]
    · rw [List.length_append, hlen]
      rw [metaCountInPage_eq] at hn ⊢
      rwa [show page + (256 + done.length) / 256 = page + 1 + done.length / 256 by omega]
  | fail done e rest status he hf hs hc' =>
    have hlen := length_take_page (show es.drop metaCountInPage ≠ [] by simp [he])
    rw [← after_append, ← List.append_assoc]
    refine .fail _ e rest status (by rw [List.append_assoc, ← he, hes])
      ⟨accepted_append.2 ⟨ha, hf.1⟩, ?_⟩ hs (copied_page hc ?_)
    · rw [after_append]
      exact hf.2
    · rwa [List.length_append, hlen, Nat.add_assoc, Nat.add_sub_cancel_left]

theorem lastPage_page (hc : copyIn page = true) (ha : Accepted h (es.take metaCountInPage) t) :
    LastPage h copyIn page es t ↔ LastPage h copyIn (page + 1) (es.drop metaCountInPage)
      (after h (es.take metaCountInPage) t) := by
  have hpage : ∀ n, Refused h (es.take ((n + 1) * metaCountInPage)) t ↔
      Refused h ((es.drop metaCountInPage).take (n * metaCountInPage))
        (after h (es.take metaCountInPage) t) := by
    intro n
    rw [Nat.add_mul, Nat.one_mul, Nat.add_comm, List.take_add, refused_append ha]
  constructor
  · intro hl n hn hj
    rw [← hpage]
    rw [List.length_drop] at hn
    refine hl (n + 1) (by rw [Nat.add_mul]; omega) fun j hj' => ?_
    cases j with
    | zero => exact hc
    | succ j => exact (Nat.add_right_comm page 1 j) ▸ hj j (Nat.le_of_succ_le_succ hj')
  · intro hl n hn hj
    cases n with
    | zero => simp [Refused]
    | succ n =>
      rw [hpage]
      refine hl n (by rw [List.length_drop]; rw [Nat.add_mul] at hn; omega) fun j hj' => ?_
      exact (Nat.add_right_comm page 1 j) ▸ hj (j + 1) (Nat.succ_le_succ hj')

section
variable {done rest : List Entry} (he : es.take metaCountInPage = done ++ e :: rest)
  (hf : Fails h done e t)
include he hf

theorem refused_take_iff {n : Nat} (hn : 0 < n) :
    Refused h (es.take (n * metaCountInPage)) t ↔
      (translateEntry h e (after h done t)).1 = false := by
  obtain ⟨ys, hys⟩ : es.take metaCountInPage <+: es.take (n * metaCountInPage) :=
    List.take_prefix_take_left (Nat.le_mul_of_pos_left _ hn)
  rw [← hys, he, List.append_assoc, List.cons_append]
  exact hf.refused_iff

/-- A meta fails on a page, and nothing is translated after it. -/
theorem straight_fail (hc : copyIn page = true) {status : Int} (hs : status < 0) :
    Straight h copyIn page es t
      { (translateEntry h e (after h done t)).2 with status := status } := by
  have hes := List.take_append_drop metaCountInPage es
  rw [he, List.append_assoc, List.cons_append] at hes
  have hlen : done.length + 1 ≤ metaCountInPage := by
    have := congrArg List.length he
    rw [List.length_take, List.length_append, List.length_cons] at this
    omega
  have hr : Straight h copyIn page es t { after h (done ++ [e]) t with status := status } :=
    .fail done e _ status hes.symm hf hs (copied_page hc fun i hi => by omega)
  rwa [after_append] at hr

theorem lastPage_of (hl : ∀ n, 0 < n → n * metaCountInPage < es.length →
    (∀ j ≤ n, copyIn (page + j) = true) → (translateEntry h e (after h done t)).1 = true) :
    LastPage h copyIn page es t := by
  intro n hn hj
  rcases Nat.eq_zero_or_pos n with rfl | hpos
  · simp [Refused]
  · rw [refused_take_iff he hf hpos, hl n hpos hn hj]
    simp

end

/-- A translation does nothing after it fails, or goes on with a page after the one on which a meta
is refused. -/
theorem translatePages_cases (h : Hw) (copyIn : Nat → Bool) (page : Nat) (es : List Entry)
    (t : Trans) :
    LastPage h copyIn page es t ∧ Straight h copyIn page es t (translatePages h copyIn page es t) ∨
      ¬ LastPage h copyIn page es t ∧ Broken (translatePages h copyIn page es t) := by
  induction page, es, t using translatePages.induct h copyIn with
  | case1 page t =>
    rw [translatePages_nil]
    exact .inl ⟨fun n hn => by simp at hn, .all trivial fun i hi => by simp at hi⟩
  | case2 page es t hes hc =>
    have hc' : copyIn page = false := by simpa using hc
    rw [translatePages_copy hes hc']
    refine .inl ⟨fun n _ hj => ?_, ?_⟩
    · simpa [hc'] using hj 0 (Nat.zero_le n)
    · exact .short [] es rfl hes trivial (fun i hi => by simp at hi) (by simpa using hc')
  | case3 page es t hes hc t' heq =>
    have hc' : copyIn page = true := by simpa using hc
    rw [translatePages_page hes hc', heq]
    rcases translateMetas_cases h (es.take metaCountInPage) t with
      ⟨-, ha⟩ | ⟨done, e, rest, he, hf, hm⟩
    · simp [heq] at ha
    · rw [heq] at hm
      have hv : (translateEntry h e (after h done t)).1 = true := by rw [← hm]
      have hs := straight_fail he hf hc' hf.2
      rw [← hm] at hs
      exact .inl ⟨lastPage_of he hf fun _ _ _ _ => hv, hs⟩
  | case4 page es t hes hc t' heq ih =>
    have hc' : copyIn page = true := by simpa using hc
    rw [translatePages_page hes hc', heq]
    simp only [cond_false]
    rcases translateMetas_cases h (es.take metaCountInPage) t with
      ⟨ha, ha'⟩ | ⟨done, e, rest, he, hf, hm⟩
    · obtain rfl : t' = after h (es.take metaCountInPage) t := by
        rw [heq] at ha'
        exact (Prod.mk.inj ha').2
      rw [lastPage_page hc' ha]
      exact ih.imp_left fun hi => ⟨hi.1, straight_page hc' ha hi.2⟩
    · rw [heq] at hm
      have hv : (translateEntry h e (after h done t)).1 = false := by rw [← hm]
      have ht : t' = (translateEntry h e (after h done t)).2 := by rw [← hm]
      by_cases hd : es.drop metaCountInPage = []
      · have hlen : es.length ≤ metaCountInPage := List.drop_eq_nil_iff.1 hd
        rw [hd, translatePages_nil, ht]
        refine .inl ⟨lastPage_of he hf fun n hpos hn _ => ?_, straight_fail he hf hc' hf.2⟩
        have := Nat.le_mul_of_pos_left metaCountInPage hpos
        omega
      · cases hnext : copyIn (page + 1) with
        | false =>
          rw [translatePages_copy hd hnext, ht]
          refine .inl ⟨lastPage_of he hf fun n hpos _ hj => ?_,
            straight_fail he hf hc' (by decide)⟩
          simpa [hnext] using hj 1 hpos
        | true =>
          -- the translation goes on after the meta that is refused
          refine .inr ⟨fun hl => ?_, ?_⟩
          · refine hl 1 ?_ ?_ ((refused_take_iff he hf Nat.one_pos).2 hv)
            · rw [Nat.one_mul]
              exact Nat.lt_of_not_le fun hle => hd (List.drop_eq_nil_iff.2 hle)
            · intro j hj
              match j with
              | 0 => exact hc'
              | 1 => exact hnext
          · have hlog := translateEntry_log (h := h) (e := e) (t := after h done t)
            rw [← ht] at hlog
            exact broken_translatePages hd hnext hlog hf.2

end Mdp.Translate
