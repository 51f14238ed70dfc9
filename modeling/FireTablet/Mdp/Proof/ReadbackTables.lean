import FireTablet.Mdp.Readback
import Mathlib.Tactic.SplitIfs

/-!
# The slot tables

`Slots` ties the two levels of masks, the slots, their memory and the jobs to each other. It is kept
by taking a free slot for new memory and by clearing a slot that no job reads into
(`freeReadbackSlots_spec`).
-/

namespace Mdp.Readback

variable {s : State} {sl sl' : SlotId} {w w' : WriteAddr} {f : FileId}

/-- The bit of a slot is set. -/
def State.Taken (s : State) (sl : SlotId) : Prop := sl.2 ∈ s.allocSlot sl.1

instance (s : State) (sl : SlotId) : Decidable (s.Taken sl) :=
  inferInstanceAs (Decidable (_ ∈ _))

/-- The memory that a slot records, for a file. -/
def RbSlot.mem (r : RbSlot) (f : FileId) : WriteAddr := ⟨r.paStart, r.count, f⟩

/-- The slots that a job reads into. -/
def Job.slots (j : Job) : List SlotId := j.reads.map (·.slot)

/-- A job reads into slots it has counted once, within their memory, and its task is there. -/
structure Reads (rbSlot : SlotId → RbSlot) (j : Job) : Prop where
  nodup : j.slotIds.Nodup
  counted : ∀ sl, sl ∈ j.slotIds ↔ sl ∈ j.slots
  within : ∀ r ∈ j.reads, r.pa = (rbSlot r.slot).paStart ∧ r.offset < (rbSlot r.slot).count
  alive : j.dead = false

/-- The tables in order. -/
structure Slots (s : State) : Prop where
  taken : ∀ sl, s.Taken sl → ∃ f, (s.rbSlot sl).fp = some f ∧ (s.rbSlot sl).mem f ∈ s.writeAddr
  free : ∀ sl, ¬ s.Taken sl → s.rbSlot sl = .unused
  group : ∀ g, g ∈ s.allocSlotGroup ↔ s.allocSlot g = Finset.univ
  used : ∀ sl, (s.rbSlot sl).refCnt = s.jobs.countP (sl ∈ ·.slots)
  reads : ∀ j ∈ s.jobs, Reads s.rbSlot j
  own : ∀ sl sl', s.Taken sl → s.Taken sl' → (s.rbSlot sl).paStart = (s.rbSlot sl').paStart →
    sl = sl'
  size : ∀ w ∈ s.writeAddr, w.pa ≠ 0 ∧ 0 < w.count
  apart : s.writeAddr.Pairwise WriteAddr.Apart

theorem slots_init : Slots init where
  taken _ h := absurd h (Finset.notMem_empty _)
  free _ _ := rfl
  group _ := ⟨fun h => absurd h (Finset.notMem_empty _),
    fun h => absurd (Finset.mem_univ (0 : Fin 64)) (h.symm ▸ Finset.notMem_empty _)⟩
  used _ := rfl
  reads _ h := absurd h List.not_mem_nil
  own _ _ h := absurd h (Finset.notMem_empty _)
  size _ h := absurd h List.not_mem_nil
  apart := .nil

/-! ## Ids and masks -/

theorem ffz_eq_none {m : Finset (Fin 64)} : ffz m = none ↔ m = Finset.univ := by
  simp [ffz, Finset.eq_univ_iff_forall]

theorem ffz_notMem {m : Finset (Fin 64)} {b : Fin 64} (h : ffz m = some b) : b ∉ m := by
  have := List.find?_some h
  simpa using this

theorem slotOf_startId (sl : SlotId) : slotOf (startId sl) = some sl := by
  obtain ⟨g, b⟩ := sl
  have hid : (startId (g, b)).toNat = (b.val + g.val * 64) * 65536 := by
    simp only [startId, UInt32.toNat_ofNat']
    omega
  have hg : (b.val + g.val * 64) * 65536 / 65536 / 64 = g.val := by omega
  have hb : (b.val + g.val * 64) * 65536 / 65536 % 64 = b.val := by omega
  simp only [slotOf, hid, hg, hb]
  exact dif_pos (by omega)

theorem mem_allSlots (sl : SlotId) : sl ∈ allSlots := by
  obtain ⟨g, b⟩ := sl
  exact List.mem_product.2 ⟨List.mem_finRange g, List.mem_finRange b⟩

@[simp] theorem taken_takeSlot : (s.takeSlot sl).Taken sl' ↔ sl' = sl ∨ s.Taken sl' := by
  obtain ⟨g, b⟩ := sl
  obtain ⟨g', b'⟩ := sl'
  by_cases hg : g' = g
  · subst hg
    simp [State.Taken, State.takeSlot]
  · simp [State.Taken, State.takeSlot, hg]

@[simp] theorem taken_clearSlot : (s.clearSlot sl).Taken sl' ↔ sl' ≠ sl ∧ s.Taken sl' := by
  obtain ⟨g, b⟩ := sl
  obtain ⟨g', b'⟩ := sl'
  by_cases hg : g' = g
  · subst hg
    simp [State.Taken, State.clearSlot, State.setSlot]
  · simp [State.Taken, State.clearSlot, State.setSlot, hg]

theorem not_taken_of_ffz {g b : Fin 64} (h : ffz (s.allocSlot g) = some b) : ¬ s.Taken (g, b) :=
  ffz_notMem h

/-- Setting a bit that was clear fills its group or leaves the masks of groups. -/
theorem Slots.group_takeSlot (h : Slots s) (hsl : ¬ s.Taken sl) (g : Fin 64) :
    g ∈ (s.takeSlot sl).allocSlotGroup ↔ (s.takeSlot sl).allocSlot g = Finset.univ := by
  have hnot : sl.1 ∉ s.allocSlotGroup := by
    rw [h.group]
    intro hu
    exact hsl (by rw [State.Taken, hu]; exact Finset.mem_univ _)
  simp only [State.takeSlot, Function.update_self]
  by_cases hg : g = sl.1
  · subst hg
    rw [Function.update_self]
    split_ifs with hu <;> simp [hu, hnot]
  · rw [Function.update_of_ne hg, ← h.group g]
    split_ifs <;> simp [hg]

/-- A group with a clear bit is not full. -/
theorem Slots.group_clearSlot (h : Slots s) (g : Fin 64) :
    g ∈ (s.clearSlot sl).allocSlotGroup ↔ (s.clearSlot sl).allocSlot g = Finset.univ := by
  have hne : (s.allocSlot sl.1).erase sl.2 ≠ Finset.univ := fun hu =>
    Finset.notMem_erase sl.2 (s.allocSlot sl.1) (hu ▸ Finset.mem_univ _)
  simp only [State.clearSlot, State.setSlot, Function.update_self, ne_eq, hne, not_false_eq_true,
    if_true, Finset.mem_erase]
  by_cases hg : g = sl.1
  · subst hg
    simp [hne]
  · simp [hg, h.group g]

/-! ## Memory -/

theorem WriteAddr.Apart.pa_ne (h : w.Apart w') (hw : 0 < w.count) (hw' : 0 < w'.count) :
    w.pa ≠ w'.pa := by
  simp only [WriteAddr.Apart] at h
  omega

/-- Freeing memory takes out this memory and no other. -/
theorem mem_eraseP_pa {l : List WriteAddr} (ha : l.Pairwise WriteAddr.Apart)
    (hs : ∀ w ∈ l, w.pa ≠ 0 ∧ 0 < w.count) (pa : Nat) :
    w ∈ l.eraseP (·.pa = pa) ↔ w ∈ l ∧ w.pa ≠ pa := by
  induction ha with
  | nil => simp
  | @cons x l hx hl ih =>
    have ih := ih fun w hm => hs w (List.mem_cons_of_mem _ hm)
    by_cases hp : x.pa = pa
    · rw [List.eraseP_cons_of_pos (by simpa using hp), List.mem_cons]
      refine ⟨fun hm => ⟨.inr hm, fun he => ?_⟩, ?_⟩
      · refine (hx _ hm).pa_ne (hs _ List.mem_cons_self).2 (hs _ (List.mem_cons_of_mem _ hm)).2 ?_
        exact hp.trans he.symm
      · rintro ⟨rfl | hm, hne⟩
        · exact absurd hp hne
        · exact hm
    · rw [List.eraseP_cons_of_neg (by simpa using hp), List.mem_cons, ih, List.mem_cons]
      refine ⟨?_, fun ⟨hm, hne⟩ => hm.imp_right fun hm => ⟨hm, hne⟩⟩
      rintro (rfl | ⟨hm, hne⟩)
      · exact ⟨.inl rfl, hp⟩
      · exact ⟨.inr hm, hne⟩

theorem freeWriteAddr_mem (hw : w ∈ s.writeAddr) :
    freeWriteAddr s w.pa = (0, { s with writeAddr := s.writeAddr.eraseP (·.pa = w.pa) }) :=
  if_pos (List.any_eq_true.2 ⟨w, hw, by simp⟩)

/-- New memory that is freed again leaves the list as it was. -/
theorem freeWriteAddr_new (hs : ∀ w' ∈ s.writeAddr, w'.pa ≠ w.pa) :
    freeWriteAddr { s with writeAddr := s.writeAddr ++ [w] } w.pa = (0, s) := by
  rw [freeWriteAddr_mem (List.mem_append_right _ (List.mem_singleton.2 rfl))]
  have herase : (s.writeAddr ++ [w]).eraseP (·.pa = w.pa) = s.writeAddr := by
    rw [List.eraseP_append_right _ fun w' hm => by simpa using hs w' hm]
    simp
  simp only [herase]

/-! ## Taking a slot -/

/-- A slot taken for new memory. -/
def State.give (s : State) (sl : SlotId) (w : WriteAddr) : State :=
  { (s.takeSlot sl).setSlot sl ⟨w.count, 0, w.pa, some w.fp⟩ with
    writeAddr := s.writeAddr ++ [w] }

@[simp] theorem taken_give : (s.give sl w).Taken sl' ↔ sl' = sl ∨ s.Taken sl' := taken_takeSlot

theorem rbSlot_give_self : (s.give sl w).rbSlot sl = ⟨w.count, 0, w.pa, some w.fp⟩ :=
  Function.update_self ..

theorem rbSlot_give_ne (h : sl' ≠ sl) : (s.give sl w).rbSlot sl' = s.rbSlot sl' :=
  Function.update_of_ne h ..

/-- No job reads into a slot that is free. -/
theorem Slots.slots_taken (h : Slots s) {j : Job} (hj : j ∈ s.jobs) (hsl : sl ∈ j.slots) :
    s.Taken sl := by
  by_contra ht
  have h0 : (s.rbSlot sl).refCnt = 0 := by rw [h.free sl ht]; rfl
  rw [h.used sl, List.countP_eq_zero] at h0
  exact h0 j hj (by simpa using hsl)

theorem Slots.give (h : Slots s) (hsl : ¬ s.Taken sl) (h0 : w.pa ≠ 0) (hc : 0 < w.count)
    (hw : ∀ w' ∈ s.writeAddr, w'.Apart w) : Slots (s.give sl w) where
  taken sl' ht := by
    by_cases he : sl' = sl
    · subst he
      rw [rbSlot_give_self]
      exact ⟨w.fp, rfl, List.mem_append_right _ (List.mem_singleton.2 rfl)⟩
    · obtain ⟨f, hf, hm⟩ := h.taken sl' ((taken_give.1 ht).resolve_left he)
      rw [rbSlot_give_ne he]
      exact ⟨f, hf, List.mem_append_left _ hm⟩
  free sl' ht := by
    rw [taken_give, not_or] at ht
    rw [rbSlot_give_ne ht.1]
    exact h.free sl' ht.2
  group := h.group_takeSlot hsl
  used sl' := by
    by_cases he : sl' = sl
    · subst he
      rw [rbSlot_give_self]
      have := h.used sl'
      rw [h.free sl' hsl] at this
      exact this
    · rw [rbSlot_give_ne he]
      exact h.used sl'
  reads j hj := by
    obtain ⟨h1, h2, h3, h4⟩ := h.reads j hj
    refine ⟨h1, h2, fun r hr => ?_, h4⟩
    have ht : s.Taken r.slot := h.slots_taken hj (List.mem_map_of_mem hr)
    have hne : r.slot ≠ sl := fun he => hsl (by rwa [he] at ht)
    rw [rbSlot_give_ne hne]
    exact h3 r hr
  own sl1 sl2 h1 h2 he := by
    -- no memory in use has the address of the new one
    have hnew : ∀ sl', sl' ≠ sl → s.Taken sl' → (s.rbSlot sl').paStart ≠ w.pa := fun sl' _ ht => by
      obtain ⟨f, -, hm⟩ := h.taken sl' ht
      exact (hw _ hm).pa_ne (h.size _ hm).2 hc
    rw [taken_give] at h1 h2
    by_cases he1 : sl1 = sl <;> by_cases he2 : sl2 = sl
    · rw [he1, he2]
    · rw [he1, rbSlot_give_self, rbSlot_give_ne he2] at he
      exact absurd he.symm (hnew sl2 he2 (h2.resolve_left he2))
    · rw [he2, rbSlot_give_self, rbSlot_give_ne he1] at he
      exact absurd he (hnew sl1 he1 (h1.resolve_left he1))
    · rw [rbSlot_give_ne he1, rbSlot_give_ne he2] at he
      exact h.own sl1 sl2 (h1.resolve_left he1) (h2.resolve_left he2) he
  size w' hm := by
    rcases List.mem_append.1 hm with hm | hm
    · exact h.size w' hm
    · rw [List.mem_singleton.1 hm]
      exact ⟨h0, hc⟩
  apart := List.pairwise_append.2 ⟨h.apart, List.pairwise_singleton _ _,
    fun w' hm w'' hm' => List.mem_singleton.1 hm' ▸ hw w' hm⟩

/-- An allocation succeeds when the request is good, there is memory and a group is not full. -/
def AllocReq.Succeeds (c : AllocReq) (s : State) (f : FileId) : Prop :=
  c.copyIn = true ∧ c.count.toNat ≠ 0 ∧ c.count.toNat ≤ cmdqMaxWriteAddrCount ∧
    c.hasMem s f = true ∧ s.allocSlotGroup ≠ Finset.univ

instance (c : AllocReq) (s : State) (f : FileId) : Decidable (c.Succeeds s f) :=
  inferInstanceAs (Decidable (_ ∧ _))

/-- An allocation fails and leaves the tables, or it takes a free slot. -/
theorem allocReadbackSlots_spec (h : Slots s) (c : AllocReq) :
    (¬ c.Succeeds s f ∧ (allocReadbackSlots s f c).1.result < 0 ∧
      (allocReadbackSlots s f c).2 = s) ∨
    (c.Succeeds s f ∧ ∃ sl, ¬ s.Taken sl ∧
      allocReadbackSlots s f c = (if c.copyOut then ⟨0, (startId sl).toNat⟩ else ⟨efault, 0⟩,
        s.give sl ⟨c.mem, c.count.toNat, f⟩)) := by
  have hneg : efault < 0 ∧ einval < 0 ∧ enomem < 0 := by decide
  by_cases hin : c.copyIn = true
  swap
  · exact .inl ⟨fun hs => hin hs.1, by simp [allocReadbackSlots, hin, hneg]⟩
  by_cases hc : c.count.toNat ≠ 0 ∧ c.count.toNat ≤ cmdqMaxWriteAddrCount
  swap
  · refine .inl ⟨fun hs => hc ⟨hs.2.1, hs.2.2.1⟩, ?_⟩
    have hc' : c.count.toNat = 0 ∨ c.count.toNat > cmdqMaxWriteAddrCount := by omega
    have h22 : einval ≠ 0 := by decide
    simp only [allocReadbackSlots, allocWriteAddr, hin, if_pos hc', Bool.not_true,
      Bool.false_eq_true, if_false, if_pos h22]
    split_ifs <;> exact ⟨hneg.2.1, rfl⟩
  have hmax : ¬ c.count.toNat > maxCountInRbSlot := by
    have := hc.2
    simp only [cmdqMaxWriteAddrCount, maxCountInRbSlot] at this ⊢
    omega
  have hc' : ¬ (c.count.toNat = 0 ∨ c.count.toNat > cmdqMaxWriteAddrCount) := by omega
  by_cases hm : c.hasMem s f = true
  swap
  · refine .inl ⟨fun hs => hm hs.2.2.2.1, ?_⟩
    simp [allocReadbackSlots, allocWriteAddr, hin, hmax, if_neg hc', hm, enomem]
  obtain ⟨hm0, hma⟩ : c.mem ≠ 0 ∧ ∀ w ∈ s.writeAddr, w.Apart ⟨c.mem, c.count.toNat, f⟩ := by
    simpa [AllocReq.hasMem] using hm
  have hnew : ∀ w' ∈ s.writeAddr, w'.pa ≠ c.mem := fun w' hw' =>
    (hma w' hw').pa_ne (h.size w' hw').2 (Nat.pos_of_ne_zero hc.1)
  simp only [allocReadbackSlots, allocWriteAddr, hin, hmax, if_neg hc', hm, Bool.not_true,
    Bool.false_eq_true, if_false, ne_eq, not_true]
  cases hg : ffz s.allocSlotGroup with
  | none =>
    exact .inl ⟨fun hs => hs.2.2.2.2 (ffz_eq_none.1 hg), hneg.2.2,
      congrArg Prod.snd (freeWriteAddr_new (w := ⟨c.mem, c.count.toNat, f⟩) hnew)⟩
  | some g =>
    have hfull : s.allocSlot g ≠ Finset.univ := fun hu => ffz_notMem hg ((h.group g).2 hu)
    cases hb : ffz (s.allocSlot g) with
    | none => exact absurd (ffz_eq_none.1 hb) hfull
    | some b =>
      have ht : ¬ s.Taken (g, b) := not_taken_of_ffz hb
      have hu : s.allocSlotGroup ≠ Finset.univ := fun he => by simp [ffz_eq_none.2 he] at hg
      refine .inr ⟨⟨hin, hc.1, hc.2, hm, hu⟩, (g, b), ht, ?_⟩
      have hrb : s.rbSlot (g, b) = .unused := h.free _ ht
      simp only [hb, State.takeSlot, State.setSlot, hrb, RbSlot.unused, if_false, not_true,
        State.give]
      cases c.copyOut <;> rfl

/-! ## Freeing a slot -/

/-- A slot freed with its memory. -/
def State.release (s : State) (sl : SlotId) : State :=
  { s.clearSlot sl with writeAddr := s.writeAddr.eraseP (·.pa = (s.rbSlot sl).paStart) }

@[simp] theorem taken_release : (s.release sl).Taken sl' ↔ sl' ≠ sl ∧ s.Taken sl' :=
  taken_clearSlot

theorem rbSlot_release_self (h : (s.rbSlot sl).refCnt = 0) :
    (s.release sl).rbSlot sl = .unused := by
  simp [State.release, State.clearSlot, State.setSlot, RbSlot.unused, h]

theorem rbSlot_release_ne (h : sl' ≠ sl) : (s.release sl).rbSlot sl' = s.rbSlot sl' :=
  Function.update_of_ne h ..

/-- The memory of a taken slot is there to be freed. -/
theorem Slots.freeWriteAddr_clearSlot (h : Slots s) (ht : s.Taken sl) :
    freeWriteAddr (s.clearSlot sl) (s.rbSlot sl).paStart = (0, s.release sl) := by
  obtain ⟨f, -, hm⟩ := h.taken sl ht
  exact freeWriteAddr_mem (s := s.clearSlot sl) hm

theorem Slots.release (h : Slots s) (ht : s.Taken sl) (h0 : (s.rbSlot sl).refCnt = 0) :
    Slots (s.release sl) where
  taken sl' ht' := by
    rw [taken_release] at ht'
    obtain ⟨f, hf, hm⟩ := h.taken sl' ht'.2
    rw [rbSlot_release_ne ht'.1]
    refine ⟨f, hf, (mem_eraseP_pa h.apart h.size _).2 ⟨hm, fun he => ?_⟩⟩
    exact ht'.1 (h.own sl' sl ht'.2 ht he)
  free sl' ht' := by
    by_cases he : sl' = sl
    · rw [he]
      exact rbSlot_release_self h0
    · rw [rbSlot_release_ne he]
      exact h.free sl' fun hn => ht' (taken_release.2 ⟨he, hn⟩)
  group := h.group_clearSlot
  used sl' := by
    by_cases he : sl' = sl
    · subst he
      rw [rbSlot_release_self h0]
      exact h0.symm.trans (h.used sl')
    · rw [rbSlot_release_ne he]
      exact h.used sl'
  reads j hj := by
    obtain ⟨h1, h2, h3, h4⟩ := h.reads j hj
    refine ⟨h1, h2, fun r hr => ?_, h4⟩
    have hne : r.slot ≠ sl := fun he => by
      rw [h.used sl, List.countP_eq_zero] at h0
      have hm : sl ∈ j.slots := he ▸ List.mem_map_of_mem hr
      exact h0 j hj (by simpa using hm)
    rw [rbSlot_release_ne hne]
    exact h3 r hr
  own sl1 sl2 h1 h2 he := by
    rw [taken_release] at h1 h2
    rw [rbSlot_release_ne h1.1, rbSlot_release_ne h2.1] at he
    exact h.own sl1 sl2 h1.2 h2.2 he
  size w hm := h.size w (List.mem_of_mem_eraseP hm)
  apart := h.apart.sublist List.eraseP_sublist

/-- A taken slot that no job reads into can be freed by its file. -/
theorem freeReadbackSlots_taken (h : Slots s) {start : UInt32} (hs : slotOf start = some sl)
    (ht : s.Taken sl) (hf : (s.rbSlot sl).fp = some f) (h0 : (s.rbSlot sl).refCnt = 0) :
    freeReadbackSlots s f true start = (0, s.release sl) := by
  have ht' : ¬ sl.2 ∉ s.allocSlot sl.1 := not_not.2 ht
  simp only [freeReadbackSlots, hs, Bool.not_true, Bool.false_eq_true, if_false,
    if_neg ht', hf, h0, ne_eq, not_true]
  exact h.freeWriteAddr_clearSlot ht

/-- A call to free a slot fails and changes nothing, or frees a slot of the file that no job reads
into. -/
theorem freeReadbackSlots_spec (h : Slots s) (copyIn : Bool) (start : UInt32) :
    (freeReadbackSlots s f copyIn start).2 = s ∨
    ∃ sl, s.Taken sl ∧ (s.rbSlot sl).refCnt = 0 ∧
      freeReadbackSlots s f copyIn start = (0, s.release sl) := by
  cases copyIn with
  | false => exact .inl rfl
  | true =>
    cases hs : slotOf start with
    | none => exact .inl (by simp [freeReadbackSlots, hs])
    | some sl =>
      by_cases h1 : s.Taken sl ∧ (s.rbSlot sl).fp = some f ∧ (s.rbSlot sl).refCnt = 0
      · exact .inr ⟨sl, h1.1, h1.2.2, freeReadbackSlots_taken h hs h1.1 h1.2.1 h1.2.2⟩
      · left
        simp only [State.Taken] at h1
        simp only [freeReadbackSlots, hs, Bool.not_true, Bool.false_eq_true, if_false]
        split_ifs with h2 h3 h4
        · rfl
        · rfl
        · exact absurd ⟨h2, not_not.1 h3, not_not.1 h4⟩ h1
        · rfl

end Mdp.Readback
