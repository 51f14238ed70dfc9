import FireTablet.Lib.Run
import FireTablet.Lbat.Service

/-!
# What each user of the low-battery service waits for

`Armed`: each threshold of a user is linked or in the user's debounce slot exactly when the user has
to wait for it after the last callback. `Inv` adds that the lists are sorted, that the cached
entries are their first ones and that the hardware has their limits. An interrupt of a threshold
while the other direction of the same user is being debounced takes over the only slot, and the
threshold in it is lost; every other step keeps the invariant.
-/

namespace Lbat

/-! ## The order of the lists -/

theorem hvListCmp_le (a b : Thd) : hvListCmp a b ≤ 0 ↔ a.volt ≤ b.volt := by
  have ha := a.lt
  have hb := b.lt
  unfold thdVoltMax at ha hb
  rw [hvListCmp, CInt.i32_eq (by unfold CInt.IsI32; omega)]
  omega

theorem lvListCmp_le (a b : Thd) : lvListCmp a b ≤ 0 ↔ b.volt ≤ a.volt := by
  have ha := a.lt
  have hb := b.lt
  unfold thdVoltMax at ha hb
  rw [lvListCmp, CInt.i32_eq (by unfold CInt.IsI32; omega)]
  omega

/-- A comparison that orders thresholds. -/
structure Ordering (cmp : Thd → Thd → Int) : Prop where
  total : ∀ a b, cmp a b ≤ 0 ∨ cmp b a ≤ 0
  trans : ∀ a b c, cmp a b ≤ 0 → cmp b c ≤ 0 → cmp a c ≤ 0

theorem ordering_hv : Ordering hvListCmp := by
  constructor <;> intros <;> simp only [hvListCmp_le] at * <;> omega

theorem ordering_lv : Ordering lvListCmp := by
  constructor <;> intros <;> simp only [lvListCmp_le] at * <;> omega

/-! ## One direction -/

/-- A sorted list without a threshold twice, and the limit of the cached entry in the hardware. -/
structure Dir.Ok (r : Ratio) (cmp : Thd → Thd → Int) (d : Dir) : Prop where
  sorted : d.list.Pairwise fun a b => cmp a b ≤ 0
  nodup : d.list.Nodup
  limit : ∀ t, d.cur = some t → d.limit = voltToRaw r t.volt

/-- The cached entry is the first one. -/
def Dir.Fresh (d : Dir) : Prop := d.cur = d.list.head?

section
variable {r : Ratio} {cmp : Thd → Thd → Int} {d : Dir} {thd : Thd}

theorem link_list (h : d.Ok r cmp) :
    (d.link r cmp thd).list = d.list.orderedInsert (fun a b => cmp a b ≤ 0) thd := by
  have hs : d.list.insertionSort (fun a b => cmp a b ≤ 0) = d.list := h.sorted.insertionSort_eq
  simp only [Dir.link]
  split_ifs <;> rw [List.insertionSort_cons, hs]

theorem mem_link (h : d.Ok r cmp) {t : Thd} :
    t ∈ (d.link r cmp thd).list ↔ t = thd ∨ t ∈ d.list := by
  rw [link_list h, List.mem_orderedInsert]

theorem link_fresh (r : Ratio) (cmp : Thd → Thd → Int) (d : Dir) (thd : Thd) :
    (d.link r cmp thd).Fresh := by
  simp only [Dir.link, Dir.Fresh]
  split_ifs with h
  · exact h
  · rfl

theorem link_ok (hc : Ordering cmp) (h : d.Ok r cmp) (hnew : thd ∉ d.list) :
    (d.link r cmp thd).Ok r cmp := by
  have : Std.Total fun a b => cmp a b ≤ 0 := ⟨hc.total⟩
  have : IsTrans Thd fun a b => cmp a b ≤ 0 := ⟨hc.trans⟩
  refine ⟨?_, ?_, ?_⟩
  · rw [link_list h]
    exact h.sorted.orderedInsert thd _
  · rw [link_list h]
    exact (List.perm_orderedInsert _ thd _).nodup_iff.2 (List.nodup_cons.2 ⟨hnew, h.nodup⟩)
  · intro t ht
    simp only [Dir.link] at ht ⊢
    split_ifs at ht ⊢ with hcur
    · exact h.limit t ht
    · simp only at ht ⊢
      rw [ht]
      rfl

/-- The first entry after linking is the linked one, or one that comes strictly before it. -/
theorem link_head (thd : Thd) (h : d.Ok r cmp) :
    ∃ t, (d.link r cmp thd).list.head? = some t ∧ (t = thd ∨ ¬ cmp thd t ≤ 0) := by
  rw [link_list h]
  cases d.list with
  | nil => exact ⟨thd, rfl, .inl rfl⟩
  | cons t l =>
    rw [List.orderedInsert_cons]
    split_ifs with hle
    · exact ⟨thd, rfl, .inl rfl⟩
    · exact ⟨t, rfl, .inr hle⟩

theorem mem_unlink (h : d.Ok r cmp) {t : Thd} :
    t ∈ (d.unlink thd).list ↔ t ≠ thd ∧ t ∈ d.list := h.nodup.mem_erase_iff

theorem unlink_ok (thd : Thd) (h : d.Ok r cmp) : (d.unlink thd).Ok r cmp :=
  ⟨h.sorted.sublist List.erase_sublist, h.nodup.erase thd, h.limit⟩

/-- Unlinking an entry that is not the first one leaves the first one. -/
theorem unlink_fresh {t : Thd} (h : d.Fresh) (ht : d.list.head? = some t) (hne : t ≠ thd) :
    (d.unlink thd).Fresh := by
  unfold Dir.Fresh Dir.unlink at *
  rw [h, ht]
  cases hl : d.list with
  | nil => simp [hl] at ht
  | cons a l =>
    obtain rfl : a = t := by simpa [hl] using ht
    simp [hne]

theorem renew_list (r : Ratio) (d : Dir) : (d.renew r).list = d.list := by
  unfold Dir.renew
  cases d.list <;> rfl

theorem renew_fresh (r : Ratio) (d : Dir) : (d.renew r).Fresh := by
  unfold Dir.Fresh
  rw [renew_list]
  unfold Dir.renew
  cases d.list <;> rfl

theorem renew_ok (h : d.Ok r cmp) : (d.renew r).Ok r cmp := by
  refine ⟨(renew_list r d).symm ▸ h.sorted, (renew_list r d).symm ▸ h.nodup, fun t ht => ?_⟩
  unfold Dir.renew at ht ⊢
  cases hl : d.list with
  | nil => simp [hl] at ht
  | cons a l =>
    rw [hl] at ht
    obtain rfl : a = t := by simpa using ht
    rfl

end

/-! ## Users -/

@[simp] theorem Thds.hv_ne_lv1 (u : Thds) : u.hv ≠ u.lv1 := by simp [Thds.hv, Thds.lv1]
@[simp] theorem Thds.hv_ne_lv2 (u : Thds) : u.hv ≠ u.lv2 := by simp [Thds.hv, Thds.lv2]
@[simp] theorem Thds.lv1_ne_lv2 (u : Thds) : u.lv1 ≠ u.lv2 := by simp [Thds.lv1, Thds.lv2]
@[simp] theorem Thds.lv1_ne_hv (u : Thds) : u.lv1 ≠ u.hv := (Thds.hv_ne_lv1 u).symm
@[simp] theorem Thds.lv2_ne_hv (u : Thds) : u.lv2 ≠ u.hv := (Thds.hv_ne_lv2 u).symm
@[simp] theorem Thds.lv2_ne_lv1 (u : Thds) : u.lv2 ≠ u.lv1 := (Thds.lv1_ne_lv2 u).symm
@[simp] theorem Thds.hv_user (u : Thds) : u.hv.user = u.idx := rfl
@[simp] theorem Thds.lv1_user (u : Thds) : u.lv1.user = u.idx := rfl
@[simp] theorem Thds.lv2_user (u : Thds) : u.lv2.user = u.idx := rfl

/-- **What a user waits for**, with the two lists: the high threshold after `lv1` and `lv2`, `lv1`
at the beginning and after the high one, `lv2` after `lv1`. Each is linked, or in the debounce slot
with the work queued. -/
structure Armed (hvList lvList : List Thd) (x : LbatUser) : Prop where
  hv : (x.thds.hv ∈ hvList ∨ x.debThdPtr = some x.thds.hv) ↔
    (x.last = some x.thds.lv1 ∨ x.last = some x.thds.lv2)
  lv1 : (x.thds.lv1 ∈ lvList ∨ x.debThdPtr = some x.thds.lv1) ↔
    (x.last = none ∨ x.last = some x.thds.hv)
  lv2 : (x.thds.lv2 ∈ lvList ∨ x.debThdPtr = some x.thds.lv2) ↔ x.last = some x.thds.lv1
  slot : ∀ t, x.debThdPtr = some t → t ∉ hvList ∧ t ∉ lvList ∧
    (t = x.thds.hv ∨ t = x.thds.lv1 ∨ t = x.thds.lv2)
  last : x.last = none ∨ x.last = some x.thds.hv ∨ x.last = some x.thds.lv1 ∨
    x.last = some x.thds.lv2
  work : x.debThdPtr ≠ none → x.debWork ≠ none

/-- The invariant of the service, but for the cached entries. -/
structure Core (r : Ratio) (s : Service) : Prop where
  hvOk : s.hv.Ok r hvListCmp
  lvOk : s.lv.Ok r lvListCmp
  hvMem : ∀ t ∈ s.hv.list, ∃ x, s.users[t.user]? = some x ∧ t = x.thds.hv
  lvMem : ∀ t ∈ s.lv.list, ∃ x, s.users[t.user]? = some x ∧ (t = x.thds.lv1 ∨ t = x.thds.lv2)
  users : ∀ (i : Nat) x, s.users[i]? = some x → x.thds.idx = i ∧ Armed s.hv.list s.lv.list x

/-- The invariant of the service. -/
structure Inv (r : Ratio) (s : Service) : Prop extends Core r s where
  hvFresh : s.hv.Fresh
  lvFresh : s.lv.Fresh
  enabled : s.users ≠ [] → s.en = true ∧ (s.hv.cur ≠ none → s.hv.en = true) ∧
    (s.lv.cur ≠ none → s.lv.en = true)
  held : s.held = false

theorem Inv.init (r : Ratio) : Inv r .init where
  hvOk := ⟨.nil, .nil, by simp [Service.init]⟩
  lvOk := ⟨.nil, .nil, by simp [Service.init]⟩
  hvMem := by simp [Service.init]
  lvMem := by simp [Service.init]
  users := by simp [Service.init]
  hvFresh := rfl
  lvFresh := rfl
  enabled := by simp [Service.init]
  held := rfl

/-! ## How a user's waiting changes -/

section
variable {hl ll hl' ll' : List Thd} {x x' : LbatUser}

theorem armed_hv (hlast : x.last = some x.thds.hv) (hdeb : x.debThdPtr = none)
    (h1 : x.thds.hv ∉ hl) (h2 : x.thds.lv1 ∈ ll) (h3 : x.thds.lv2 ∉ ll) : Armed hl ll x := by
  constructor <;> simp [hlast, hdeb, h1, h2, h3]

theorem armed_lv1 (hlast : x.last = some x.thds.lv1) (hdeb : x.debThdPtr = none)
    (h1 : x.thds.hv ∈ hl) (h2 : x.thds.lv1 ∉ ll) (h3 : x.thds.lv2 ∈ ll) : Armed hl ll x := by
  constructor <;> simp [hlast, hdeb, h1, h2, h3]

/-- After `lv2` the high threshold goes on to be waited for as before. -/
theorem armed_lv2 (hlast : x.last = some x.thds.lv2)
    (hdeb : x.debThdPtr = none ∧ x.thds.hv ∈ hl ∨
      x.debThdPtr = some x.thds.hv ∧ x.thds.hv ∉ hl ∧ x.thds.hv ∉ ll ∧ x.debWork ≠ none)
    (h2 : x.thds.lv1 ∉ ll) (h3 : x.thds.lv2 ∉ ll) : Armed hl ll x := by
  obtain ⟨hd, h1⟩ | ⟨hd, h1, h4, h5⟩ := hdeb
  · constructor <;> simp [hlast, hd, h1, h2, h3]
  · constructor <;> simp [hlast, hd, h1, h2, h3, h4, h5]

/-- A linked threshold moves into the empty slot. -/
theorem Armed.toSlot {t : Thd} (h : Armed hl ll x) (hdeb : x.debThdPtr = none)
    (hown : t = x.thds.hv ∨ t = x.thds.lv1 ∨ t = x.thds.lv2)
    (ht : t ∈ hl ∧ t = x.thds.hv ∨ t ∈ ll ∧ t ≠ x.thds.hv)
    (hhl : ∀ t', t' ∈ hl' ↔ t' ≠ t ∧ t' ∈ hl) (hll : ∀ t', t' ∈ ll' ↔ t' ≠ t ∧ t' ∈ ll)
    (hthds : x'.thds = x.thds) (hlast : x'.last = x.last) (hdeb' : x'.debThdPtr = some t)
    (hwork : x'.debWork ≠ none) : Armed hl' ll' x' := by
  obtain ⟨h1, h2, h3, -, h5, -⟩ := h
  simp only [hdeb, or_false, reduceCtorEq] at h1 h2 h3
  constructor
  · rw [hthds, hlast, hdeb', hhl, ← h1]
    obtain rfl | rfl | rfl := hown <;> simp_all
  · rw [hthds, hlast, hdeb', hll, ← h2]
    obtain rfl | rfl | rfl := hown <;> simp_all
  · rw [hthds, hlast, hdeb', hll, ← h3]
    obtain rfl | rfl | rfl := hown <;> simp_all
  · intro t' ht'
    obtain rfl : t = t' := Option.some.inj (hdeb'.symm.trans ht')
    rw [hhl, hll, hthds]
    exact ⟨fun hh => hh.1 rfl, fun hh => hh.1 rfl, hown⟩
  · rw [hlast, hthds]
    exact h5
  · exact fun _ => hwork

/-- The threshold in the slot is linked again. -/
theorem Armed.fromSlot {t : Thd} (h : Armed hl ll x) (hdeb : x.debThdPtr = some t)
    (hhl : ∀ t', t' ∈ hl' ↔ t' = t ∧ t = x.thds.hv ∨ t' ∈ hl)
    (hll : ∀ t', t' ∈ ll' ↔ t' = t ∧ t ≠ x.thds.hv ∨ t' ∈ ll)
    (hthds : x'.thds = x.thds) (hlast : x'.last = x.last) (hdeb' : x'.debThdPtr = none) :
    Armed hl' ll' x' := by
  obtain ⟨h1, h2, h3, h4, h5, -⟩ := h
  obtain ⟨-, -, hown⟩ := h4 t hdeb
  simp only [hdeb, Option.some.injEq] at h1 h2 h3
  constructor
  · rw [hthds, hlast, hdeb', hhl, ← h1]
    obtain rfl | rfl | rfl := hown <;> simp
  · rw [hthds, hlast, hdeb', hll, ← h2]
    obtain rfl | rfl | rfl := hown <;> simp
  · rw [hthds, hlast, hdeb', hll, ← h3]
    obtain rfl | rfl | rfl := hown <;> simp
  · simp [hdeb']
  · rw [hlast, hthds]
    exact h5
  · simp [hdeb']

/-- The same lists, slot and last event. -/
theorem Armed.congr (h : Armed hl ll x) (hthds : x'.thds = x.thds) (hlast : x'.last = x.last)
    (hdeb : x'.debThdPtr = x.debThdPtr) (hwork : x.debThdPtr ≠ none → x'.debWork ≠ none)
    (hhl : ∀ t, t = x.thds.hv ∨ t = x.thds.lv1 ∨ t = x.thds.lv2 → (t ∈ hl' ↔ t ∈ hl))
    (hll : ∀ t, t = x.thds.hv ∨ t = x.thds.lv1 ∨ t = x.thds.lv2 → (t ∈ ll' ↔ t ∈ ll)) :
    Armed hl' ll' x' := by
  obtain ⟨h1, h2, h3, h4, h5, -⟩ := h
  constructor
  · rw [hthds, hlast, hdeb, hhl _ (.inl rfl)]
    exact h1
  · rw [hthds, hlast, hdeb, hll _ (.inr (.inl rfl))]
    exact h2
  · rw [hthds, hlast, hdeb, hll _ (.inr (.inr rfl))]
    exact h3
  · intro t ht
    obtain ⟨ha, hb, hown⟩ := h4 t (hdeb ▸ ht)
    exact ⟨fun hh => ha ((hhl t hown).1 hh), fun hh => hb ((hll t hown).1 hh), hthds ▸ hown⟩
  · rw [hlast, hthds]
    exact h5
  · rw [hdeb]
    exact hwork

end

/-! ## The next thresholds -/

section
variable {r : Ratio} {s : Service} {u : Thds}

theorem setNext_hv (hlv : s.lv.Ok r lvListCmp) (hnew : u.lv1 ∉ s.lv.list) :
    ∃ d, lbatSetNextThd r s u u.hv = { s with lv := d } ∧ d.Ok r lvListCmp ∧ d.Fresh ∧
      ∀ t, t ∈ d.list ↔ (t = u.lv1 ∨ t ∈ s.lv.list) ∧ t ≠ u.lv2 := by
  have hok := link_ok ordering_lv hlv hnew
  have hmem : ∀ t, t ∈ (s.lv.link r lvListCmp u.lv1).list ↔ t = u.lv1 ∨ t ∈ s.lv.list :=
    fun t => mem_link hlv
  have hfresh := link_fresh r lvListCmp s.lv u.lv1
  simp only [lbatSetNextThd, if_pos, linkLv]
  by_cases h2 : u.lv2 ∈ (s.lv.link r lvListCmp u.lv1).list
  · refine ⟨_, if_pos h2, unlink_ok _ hok, ?_, fun t => ?_⟩
    · -- the first entry is not below `lv1`, so it is not `lv2`
      obtain ⟨t, ht, hlt⟩ := link_head u.lv1 hlv
      refine unlink_fresh hfresh ht ?_
      obtain rfl | hlt := hlt
      · exact u.lv1_ne_lv2
      · rintro rfl
        rw [lvListCmp_le] at hlt
        exact hlt u.lv2_le
    · rw [mem_unlink hok, hmem, and_comm]
  · refine ⟨_, if_neg h2, hok, hfresh, fun t => ?_⟩
    rw [hmem]
    refine ⟨fun h => ⟨h, ?_⟩, fun h => h.1⟩
    rintro rfl
    exact h2 ((hmem _).2 h)

theorem setNext_lv1 (hhv : s.hv.Ok r hvListCmp) (hlv : s.lv.Ok r lvListCmp)
    (hnew : u.hv ∉ s.hv.list) :
    ∃ d d', lbatSetNextThd r s u u.lv1 = { s with hv := d, lv := d' } ∧
      d.Ok r hvListCmp ∧ d.Fresh ∧ (∀ t, t ∈ d.list ↔ t = u.hv ∨ t ∈ s.hv.list) ∧
      d'.Ok r lvListCmp ∧ (s.lv.Fresh → d'.Fresh) ∧
      ∀ t, t ∈ d'.list ↔ t = u.lv2 ∨ t ∈ s.lv.list := by
  have hok := link_ok ordering_hv hhv hnew
  simp only [lbatSetNextThd, if_neg u.lv1_ne_hv, if_pos, linkHv, linkLv]
  by_cases h2 : u.lv2 ∈ s.lv.list
  · refine ⟨_, _, if_pos h2, hok, link_fresh _ _ _ _, fun t => mem_link hhv, hlv, id, fun t => ?_⟩
    refine ⟨.inr, ?_⟩
    rintro (rfl | h)
    · exact h2
    · exact h
  · exact ⟨_, _, if_neg h2, hok, link_fresh _ _ _ _, fun t => mem_link hhv,
      link_ok ordering_lv hlv h2, fun _ => link_fresh _ _ _ _, fun t => mem_link hlv⟩

theorem setNext_lv2 : lbatSetNextThd r s u u.lv2 = s := by
  simp [lbatSetNextThd]

end

end Lbat
