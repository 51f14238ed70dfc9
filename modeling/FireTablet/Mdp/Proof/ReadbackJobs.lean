import FireTablet.Mdp.Proof.ReadbackTables

/-!
# Jobs that read into slots

A translation counts each slot it reads into once, as long as it has room for it (`Trans.Fits`,
`translateUserJob_fits`). A wait gives the counts of its job back.
-/

namespace Mdp.Readback

variable {s : State} {sl : SlotId} {f : FileId} {t : Trans} {rb rb' : SlotId → RbSlot}

/-! ## Metas -/

/-- A meta is translated: its slot has the memory that it names. -/
def Meta.valid (rb : SlotId → RbSlot) : Meta → Bool
  | .read id regOk status => regOk ∧ (translateReadIdEx rb id).1 ≠ 0 ∧ 0 ≤ status
  | .readback id => (translateReadIdEx rb id).1 ≠ 0
  | .other status => 0 ≤ status

/-- The slots of the metas up to the first that is not valid. -/
def named (rb : SlotId → RbSlot) (ms : List Meta) : List SlotId :=
  (ms.takeWhile (·.valid rb)).filterMap Meta.slot

/-- The slots that a submission names before it fails. -/
def Submit.named (u : Submit) (rb : SlotId → RbSlot) : List SlotId :=
  (u.pages.takeWhile (·.copyIn)).flatMap fun p => Readback.named rb p.metas

theorem named_cons_invalid {m : Meta} {ms : List Meta} (h : m.valid rb = false) :
    named rb (m :: ms) = [] := by simp [named, h]

theorem named_cons_none {m : Meta} {ms : List Meta} (h : m.valid rb = true)
    (hs : m.slot = none) : named rb (m :: ms) = named rb ms := by
  simp [named, h, hs]

theorem named_cons_some {m : Meta} {ms : List Meta} (h : m.valid rb = true)
    (hs : m.slot = some sl) : named rb (m :: ms) = sl :: named rb ms := by
  simp [named, h, hs]

/-- A read of a slot, within its memory. -/
def Read.Within (rb : SlotId → RbSlot) (r : Read) : Prop :=
  r.pa = (rb r.slot).paStart ∧ r.offset < (rb r.slot).count

theorem translateReadIdEx_within {id : UInt32} (h : (translateReadIdEx rb id).1 ≠ 0) :
    ∃ sl, slotOf id = some sl ∧
      Read.Within rb ⟨sl, (translateReadIdEx rb id).1, (translateReadIdEx rb id).2⟩ := by
  unfold translateReadIdEx at h ⊢
  cases hs : slotOf id with
  | none => simp [hs] at h
  | some sl =>
    refine ⟨sl, rfl, ?_⟩
    simp only [hs] at h ⊢
    by_cases hc : id.toNat % 65536 ≥ (rb sl).count
    · simp [if_pos hc] at h
    · simp only [if_neg hc] at h ⊢
      rw [if_neg h]
      exact ⟨rfl, Nat.lt_of_not_le hc⟩

theorem translateReadIdEx_congr
    (h : ∀ sl, (rb' sl).count = (rb sl).count ∧ (rb' sl).paStart = (rb sl).paStart)
    (id : UInt32) : translateReadIdEx rb' id = translateReadIdEx rb id := by
  unfold translateReadIdEx
  cases slotOf id with
  | none => rfl
  | some sl => simp [h sl]

theorem translateMeta_congr
    (h : ∀ sl, (rb' sl).count = (rb sl).count ∧ (rb' sl).paStart = (rb sl).paStart) (m : Meta) :
    translateMeta rb' m = translateMeta rb m := by
  cases m <;> simp only [translateMeta, translateReadIdEx_congr h]

theorem translateMeta_invalid {m : Meta} (h : m.valid rb = false) :
    (translateMeta rb m).1 < 0 ∧ (translateMeta rb m).2 = [] := by
  have hneg : einval < 0 := by decide
  cases m with
  | read id regOk status =>
    simp only [translateMeta]
    by_cases hr : !regOk ∨ (translateReadIdEx rb id).1 = 0
    · simp only [if_pos hr, hneg, and_self]
    · simp only [if_neg hr]
      rw [not_or] at hr
      have hst : status < 0 := by
        by_contra hn
        have hreg : regOk = true := by simpa using hr.1
        simp [Meta.valid, hreg, hr.2, Int.not_lt.1 hn] at h
      simp only [if_pos hst]
      exact ⟨hst, trivial⟩
  | readback id =>
    have h0 : (translateReadIdEx rb id).1 = 0 := by simpa [Meta.valid] using h
    simp only [translateMeta, if_pos h0, hneg, and_self]
  | other status =>
    simp only [Meta.valid, decide_eq_false_iff_not, not_le] at h
    exact ⟨h, rfl⟩

/-- A valid meta adds a read of its slot, or none when it names no slot. -/
theorem translateMeta_valid {m : Meta} (h : m.valid rb = true) :
    0 ≤ (translateMeta rb m).1 ∧
      ((m.slot = none ∧ (translateMeta rb m).2 = []) ∨
        ∃ r, m.slot = some r.slot ∧ (translateMeta rb m).2 = [r] ∧ r.Within rb) := by
  cases m with
  | read id regOk status =>
    simp only [Meta.valid, decide_eq_true_eq] at h
    obtain ⟨hreg, h0, hst⟩ := h
    have hr : ¬ (!regOk ∨ (translateReadIdEx rb id).1 = 0) := by simp [hreg, h0]
    have hst' : ¬ status < 0 := by omega
    obtain ⟨sl, hs, hw⟩ := translateReadIdEx_within h0
    simp only [translateMeta, if_neg hr, if_neg hst', Meta.slot, hs]
    exact ⟨hst, .inr ⟨_, rfl, by simp [readInto, hs], hw⟩⟩
  | readback id =>
    have h0 : (translateReadIdEx rb id).1 ≠ 0 := by simpa [Meta.valid] using h
    obtain ⟨sl, hs, hw⟩ := translateReadIdEx_within h0
    simp only [translateMeta, if_neg h0, Meta.slot, hs]
    exact ⟨le_refl _, .inr ⟨_, rfl, by simp [readInto, hs], hw⟩⟩
  | other status =>
    simp only [Meta.valid, decide_eq_true_eq] at h
    exact ⟨h, .inl ⟨rfl, rfl⟩⟩

/-! ## Translations -/

local instance slotId_lawfulBEq : LawfulBEq SlotId := inferInstance

/-- The slots with the counts of some of them one higher. -/
def bump (rb : SlotId → RbSlot) (sls : List SlotId) (sl : SlotId) : RbSlot :=
  { rb sl with refCnt := (rb sl).refCnt + if sl ∈ sls then 1 else 0 }

theorem bump_nil : bump rb [] = rb := by
  funext sl
  simp [bump]

/-- A translation from `rb` on has counted the slots that it reads into. -/
structure Translated (rb : SlotId → RbSlot) (t : Trans) : Prop where
  slots : t.rbSlot = bump rb t.slotIds
  nodup : t.slotIds.Nodup
  counted : ∀ sl, sl ∈ t.slotIds ↔ sl ∈ t.reads.map (·.slot)
  within : ∀ r ∈ t.reads, r.Within rb

/-- There is room for the slots that are still to be read into, in their counts and in the task. -/
structure Trans.Fits (t : Trans) (n : List SlotId) : Prop where
  below : ∀ sl ∈ n, (t.rbSlot sl).refCnt < maxRefCount ∧
    (sl ∉ t.slotIds → 2 ≤ n.count sl → (t.rbSlot sl).refCnt + 1 < maxRefCount)
  room : (t.slotIds ++ n).toFinset.card ≤ mdpSlotNum

theorem Translated.congr (h : Translated rb t) (m : Meta) :
    translateMeta t.rbSlot m = translateMeta rb m :=
  translateMeta_congr (fun sl => by rw [h.slots]; exact ⟨rfl, rfl⟩) m

theorem Translated.setStatus (h : Translated rb t) (status : Int) :
    Translated rb { t with status := status, reads := t.reads ++ [] } where
  slots := h.slots
  nodup := h.nodup
  counted := by simpa using h.counted
  within := by simpa using h.within

/-- A slot that fits is counted for the read into it. -/
theorem Translated.useSlot (h : Translated rb t) {n : List SlotId} {r : Read} (status : Int)
    (hf : t.Fits (r.slot :: n)) (hr : r.Within rb) :
    Translated rb (Trans.useSlot { t with status := status, reads := t.reads ++ [r] } r.slot) ∧
      (Trans.useSlot { t with status := status, reads := t.reads ++ [r] } r.slot).Fits n := by
  obtain ⟨hb, hroom⟩ := hf
  have hwithin : ∀ r' ∈ t.reads ++ [r], r'.Within rb := fun r' hm =>
    (List.mem_append.1 hm).elim (h.within r') fun hm => List.mem_singleton.1 hm ▸ hr
  by_cases hin : r.slot ∈ t.slotIds
  · -- the slot is there: no count changes
    simp only [Trans.useSlot, if_pos hin]
    refine ⟨⟨h.slots, h.nodup, fun sl => ?_, hwithin⟩, fun sl hsl => ?_, ?_⟩
    · rw [h.counted, List.map_append, List.mem_append]
      refine ⟨.inl, fun hm => hm.elim id fun hm => ?_⟩
      rw [List.mem_singleton.1 hm]
      exact (h.counted _).1 hin
    · obtain ⟨h1, h2⟩ := hb sl (List.mem_cons_of_mem _ hsl)
      exact ⟨h1, fun hn hc => h2 hn (hc.trans (List.count_le_count_cons ..))⟩
    · refine le_trans (Finset.card_le_card fun x hx => ?_) hroom
      simp only [List.mem_toFinset, List.mem_append, List.mem_cons] at hx ⊢
      exact hx.imp_right .inr
  · have hlen : t.slotIds.length < mdpSlotNum := by
      refine lt_of_lt_of_le ?_ hroom
      rw [← List.toFinset_card_of_nodup h.nodup]
      refine Finset.card_lt_card (Finset.ssubset_iff_of_subset ?_ |>.2 ⟨r.slot, ?_, ?_⟩)
      · intro x hx
        simp only [List.mem_toFinset, List.mem_append] at hx ⊢
        exact .inl hx
      · simp
      · simpa using hin
    simp only [Trans.useSlot, if_neg hin, if_pos hlen]
    have hmem : ∀ sl, sl ∈ t.slotIds ++ [r.slot] ↔ sl ∈ t.slotIds ∨ sl = r.slot := by simp
    refine ⟨⟨?_, ?_, fun sl => ?_, hwithin⟩, fun sl hsl => ?_, ?_⟩
    · funext sl
      by_cases he : sl = r.slot
      · subst he
        simp [h.slots, bump, hin]
      · simp [h.slots, bump, he]
    · exact List.nodup_append.2 ⟨h.nodup, List.nodup_singleton _, fun a ha b hb' he =>
        hin (by rwa [← List.mem_singleton.1 hb', ← he])⟩
    · rw [hmem, h.counted, List.map_append, List.mem_append, List.map_singleton,
        List.mem_singleton]
    · by_cases he : sl = r.slot
      · -- it is read into again, so its count had room for one more
        subst he
        have h2 := (hb r.slot List.mem_cons_self).2 hin
        have hcount : 2 ≤ (r.slot :: n).count r.slot := by
          rw [List.count_cons_self]
          have := List.count_pos_iff.2 hsl
          omega
        simp only [Function.update_self]
        exact ⟨h2 hcount, fun hn => absurd ((hmem _).2 (.inr rfl)) hn⟩
      · obtain ⟨h1, h2⟩ := hb sl (List.mem_cons_of_mem _ hsl)
        simp only [Function.update_of_ne he]
        refine ⟨h1, fun hn hc => h2 (fun hm => hn ((hmem sl).2 (.inl hm))) ?_⟩
        rwa [List.count_cons_of_ne (Ne.symm he)]
    · refine le_trans (Finset.card_le_card fun x hx => ?_) hroom
      simp only [List.mem_toFinset, List.mem_append, List.mem_cons, List.not_mem_nil,
        or_false] at hx ⊢
      tauto

/-- The metas of a page whose slots fit. -/
theorem translateMetas_fits : ∀ {ms : List Meta} {n : List SlotId} {t : Trans},
    Translated rb t → t.Fits (named rb ms ++ n) →
    ∃ t', translateMetas ms t = (false, t') ∧ Translated rb t' ∧ t'.Fits n ∧
      ((∀ m ∈ ms, m.valid rb = true) → (ms = [] → 0 ≤ t.status) → 0 ≤ t'.status)
  | [], _, t, h, hf => ⟨t, rfl, h, hf, fun _ h0 => h0 rfl⟩
  | m :: ms, n, t, h, hf => by
    simp only [translateMetas, h.congr]
    cases hv : m.valid rb with
    | false =>
      obtain ⟨hneg, hnil⟩ := translateMeta_invalid hv
      rw [named_cons_invalid hv] at hf
      simp only [hnil, if_pos hneg]
      exact ⟨_, rfl, h.setStatus _, ⟨hf.below, hf.room⟩,
        fun hall => absurd (hall m List.mem_cons_self) (by simp [hv])⟩
    | true =>
      obtain ⟨hst, hslot⟩ := translateMeta_valid hv
      have hst' : ¬ (translateMeta rb m).1 < 0 := by omega
      simp only [if_neg hst']
      rcases hslot with ⟨hs, hnil⟩ | ⟨r, hs, hone, hr⟩
      · rw [named_cons_none hv hs] at hf
        simp only [hs, hnil]
        obtain ⟨t', h1, h2, h3, h4⟩ := translateMetas_fits
          (h.setStatus (translateMeta rb m).1) (n := n) ⟨hf.below, hf.room⟩
        exact ⟨t', h1, h2, h3, fun hall _ =>
          h4 (fun m' hm => hall m' (List.mem_cons_of_mem _ hm)) fun _ => hst⟩
      · rw [named_cons_some hv hs, List.cons_append] at hf
        have hmax : (t.rbSlot r.slot).refCnt ≠ maxRefCount :=
          (hf.below _ List.mem_cons_self).1.ne
        simp only [hs, hone, if_neg hmax]
        obtain ⟨hT, hF⟩ := h.useSlot (translateMeta rb m).1 hf hr
        obtain ⟨t', h1, h2, h3, h4⟩ := translateMetas_fits hT hF
        refine ⟨t', h1, h2, h3, fun hall _ =>
          h4 (fun m' hm => hall m' (List.mem_cons_of_mem _ hm)) fun _ => ?_⟩
        simp only [Trans.useSlot]
        split_ifs <;> exact hst

/-- A translation whose pages are all copied and whose slots fit. -/
theorem translateUserJob_fits : ∀ {ps : List Page} {t : Trans}, (∀ p ∈ ps, p.copyIn = true) →
    Translated rb t → t.Fits (ps.flatMap fun p => named rb p.metas) →
    Translated rb (translateUserJob ps t) ∧
      ((∀ p, ps.getLast? = some p → ∀ m ∈ p.metas, m.valid rb = true) →
        (ps = [] → 0 ≤ t.status) → 0 ≤ (translateUserJob ps t).status)
  | [], _, _, h, _ => ⟨h, fun _ h0 => h0 rfl⟩
  | p :: ps, t, hc, h, hf => by
    have hp : p.copyIn = true := hc p List.mem_cons_self
    obtain ⟨t', h1, h2, h3, h4⟩ := translateMetas_fits h hf
    obtain ⟨h5, h6⟩ := translateUserJob_fits (fun q hq => hc q (List.mem_cons_of_mem _ hq)) h2 h3
    simp only [translateUserJob, hp, Bool.not_true, Bool.false_eq_true, if_false, h1]
    refine ⟨h5, fun hlast _ => h6 (fun q hq => hlast q ?_) fun hnil => ?_⟩
    · rw [List.getLast?_cons, hq]
      rfl
    · subst hnil
      exact h4 (hlast p rfl) fun hn => absurd hn p.nonempty

/-! ## Translations that count nothing -/

theorem translateMetas_idle : ∀ (ms : List Meta) {t : Trans}, t.slotIds = [] → t.reads = [] →
    (∀ sl, (named t.rbSlot ms).head? = some sl → (t.rbSlot sl).refCnt = maxRefCount) →
    (translateMetas ms t).2.rbSlot = t.rbSlot ∧
      (((translateMetas ms t).1 = true ∧ (translateMetas ms t).2.status < 0) ∨
        (named t.rbSlot ms = [] ∧ (translateMetas ms t).1 = false ∧
          (translateMetas ms t).2.slotIds = [] ∧ (translateMetas ms t).2.reads = []))
  | [], _, hs, hr, _ => ⟨rfl, .inr ⟨rfl, rfl, hs, hr⟩⟩
  | m :: ms, t, hs, hr, hmax => by
    simp only [translateMetas]
    cases hv : m.valid t.rbSlot with
    | false =>
      obtain ⟨hneg, hnil⟩ := translateMeta_invalid hv
      simp only [hnil, if_pos hneg]
      exact ⟨trivial, .inr ⟨named_cons_invalid hv, trivial, hs, by simpa using hr⟩⟩
    | true =>
      obtain ⟨hst, hslot⟩ := translateMeta_valid hv
      have hst' : ¬ (translateMeta t.rbSlot m).1 < 0 := by omega
      simp only [if_neg hst']
      rcases hslot with ⟨hsl, hnil⟩ | ⟨r, hsl, hone, -⟩
      · simp only [hsl, hnil, List.append_nil]
        rw [named_cons_none hv hsl] at hmax ⊢
        exact translateMetas_idle ms (t := { t with status := (translateMeta t.rbSlot m).1 }) hs hr
          hmax
      · have hm := hmax r.slot (by rw [named_cons_some hv hsl]; rfl)
        simp only [hsl, if_pos hm]
        exact ⟨trivial, .inl ⟨trivial, by decide⟩⟩

/-- A translation that names no slot, or first one that cannot be counted, counts nothing. -/
theorem translateUserJob_idle : ∀ (ps : List Page) {t : Trans}, t.slotIds = [] → t.reads = [] →
    (∀ sl, ((ps.takeWhile (·.copyIn)).flatMap fun p => named t.rbSlot p.metas).head? = some sl →
      (t.rbSlot sl).refCnt = maxRefCount) →
    (translateUserJob ps t).rbSlot = t.rbSlot ∧
      ((translateUserJob ps t).status < 0 ∨
        ((translateUserJob ps t).slotIds = [] ∧ (translateUserJob ps t).reads = []))
  | [], _, hs, hr, _ => ⟨rfl, .inr ⟨hs, hr⟩⟩
  | p :: ps, t, hs, hr, hmax => by
    simp only [translateUserJob]
    cases hp : p.copyIn with
    | false => exact ⟨by simp, .inl (by simp [einval])⟩
    | true =>
      rw [List.takeWhile_cons_of_pos (by simpa using hp), List.flatMap_cons] at hmax
      obtain ⟨hrb, hcase⟩ := translateMetas_idle p.metas hs hr fun sl hsl =>
        hmax sl (by rw [List.head?_append, hsl]; rfl)
      rcases hm : translateMetas p.metas t with ⟨returned, t'⟩
      simp only [hm] at hrb hcase
      simp only [Bool.not_true, Bool.false_eq_true, if_false]
      rcases hcase with ⟨rfl, hneg⟩ | ⟨hnil, rfl, hs', hr'⟩
      · exact ⟨hrb, .inl hneg⟩
      · rw [hnil, List.nil_append] at hmax
        have := translateUserJob_idle ps hs' hr' (by rw [hrb]; exact hmax)
        rwa [hrb] at this

end Mdp.Readback
