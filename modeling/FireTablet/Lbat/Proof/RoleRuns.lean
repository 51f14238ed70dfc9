import FireTablet.Lbat.Proof.Roles

/-!
# No threshold of the low-battery service is lost

Every handler keeps `Inv`, unless an interrupt comes while the other direction of its user is being
debounced; the run lemma (`roles_kept`) and the runs that lose a threshold follow.
-/

namespace Lbat

section
variable {r : Ratio} {s s' : Service}

/-! ## One user changes -/

theorem Core.change {i : Nat} {x x' : LbatUser} (h : Core r s) (hx : s.users[i]? = some x)
    (hu : s'.users = s.users.set i x') (ht : x'.thds = x.thds)
    (hhv : s'.hv.Ok r hvListCmp) (hlv : s'.lv.Ok r lvListCmp)
    (hnewh : ∀ t ∈ s'.hv.list, t ∈ s.hv.list ∨ t = x.thds.hv)
    (hnewl : ∀ t ∈ s'.lv.list, t ∈ s.lv.list ∨ t = x.thds.lv1 ∨ t = x.thds.lv2)
    (hotherh : ∀ t, t.user ≠ i → (t ∈ s'.hv.list ↔ t ∈ s.hv.list))
    (hotherl : ∀ t, t.user ≠ i → (t ∈ s'.lv.list ↔ t ∈ s.lv.list))
    (harmed : Armed s'.hv.list s'.lv.list x') : Core r s' := by
  obtain ⟨hidx, -⟩ := h.users i x hx
  have hget : s'.users[i]? = some x' := by
    rw [hu, List.getElem?_set_self (List.getElem?_eq_some_iff.1 hx).1]
  have hother : ∀ j, j ≠ i → s'.users[j]? = s.users[j]? := by
    intro j hj
    rw [hu, List.getElem?_set_ne hj.symm]
  -- a user that is found in the old table is found in the new one, with the same thresholds
  have hfind : ∀ (j : Nat) (y : LbatUser), s.users[j]? = some y →
      ∃ y' : LbatUser, s'.users[j]? = some y' ∧ y'.thds = y.thds := by
    intro j y hy
    by_cases hj : j = i
    · subst hj
      obtain rfl : x = y := Option.some.inj (hx.symm.trans hy)
      exact ⟨x', hget, ht⟩
    · exact ⟨y, (hother j hj).trans hy, rfl⟩
  refine ⟨hhv, hlv, ?_, ?_, ?_⟩
  · intro t hmem
    obtain hold | rfl := hnewh t hmem
    · obtain ⟨y, hy, he⟩ := h.hvMem t hold
      obtain ⟨y', hy', hth⟩ := hfind _ y hy
      exact ⟨y', hy', by rw [hth]; exact he⟩
    · exact ⟨x', by rw [Thds.hv_user, hidx]; exact hget, by rw [ht]⟩
  · intro t hmem
    obtain hold | hnew := hnewl t hmem
    · obtain ⟨y, hy, he⟩ := h.lvMem t hold
      obtain ⟨y', hy', hth⟩ := hfind _ y hy
      exact ⟨y', hy', by rw [hth]; exact he⟩
    · refine ⟨x', ?_, by rw [ht]; exact hnew⟩
      obtain rfl | rfl := hnew
      · rw [Thds.lv1_user, hidx]
        exact hget
      · rw [Thds.lv2_user, hidx]
        exact hget
  · intro j y hy
    by_cases hj : j = i
    · subst hj
      obtain rfl : x' = y := Option.some.inj (hget.symm.trans hy)
      exact ⟨by rw [ht]; exact hidx, harmed⟩
    · rw [hother j hj] at hy
      obtain ⟨hyidx, hya⟩ := h.users j y hy
      have hown : ∀ t, t = y.thds.hv ∨ t = y.thds.lv1 ∨ t = y.thds.lv2 → t.user ≠ i := by
        rintro t (rfl | rfl | rfl) <;> simpa [hyidx] using hj
      exact ⟨hyidx, hya.congr rfl rfl rfl hya.work (fun t ht => hotherh t (hown t ht))
        fun t ht => hotherl t (hown t ht)⟩

/-- A user changes that neither list nor slot is about. -/
theorem Core.setUser {i : Nat} {x x' : LbatUser} (h : Core r s) (hx : s.users[i]? = some x)
    (ht : x'.thds = x.thds) (hlast : x'.last = x.last) (hdeb : x'.debThdPtr = x.debThdPtr)
    (hwork : x.debThdPtr ≠ none → x'.debWork ≠ none) : Core r (s.setUser i x') :=
  h.change hx rfl ht h.hvOk h.lvOk (fun _ => .inl) (fun _ => .inl) (fun _ _ => .rfl)
    (fun _ _ => .rfl) ((h.users i x hx).2.congr ht hlast hdeb hwork (fun _ _ => .rfl)
      fun _ _ => .rfl)

/-- What no handler needs of a direction: whether it is enabled. -/
theorem Core.congr (h : Core r s) (hu : s'.users = s.users) (hhv : s'.hv.Ok r hvListCmp)
    (hlv : s'.lv.Ok r lvListCmp) (hhl : s'.hv.list = s.hv.list) (hll : s'.lv.list = s.lv.list) :
    Core r s' := by
  refine ⟨hhv, hlv, ?_, ?_, ?_⟩
  · rw [hhl, hu]
    exact h.hvMem
  · rw [hll, hu]
    exact h.lvMem
  · rw [hhl, hll, hu]
    exact h.users

/-- The lists hold thresholds of their direction only. -/
theorem Core.hv_notMem (h : Core r s) (u : Thds) : u.hv ∉ s.lv.list := by
  intro hm
  obtain ⟨y, -, hy | hy⟩ := h.lvMem _ hm
  · exact absurd (congrArg Thd.role hy) (by simp [Thds.hv, Thds.lv1])
  · exact absurd (congrArg Thd.role hy) (by simp [Thds.hv, Thds.lv2])

theorem Core.lv_notMem (h : Core r s) {u : Thds} {t : Thd} (ht : t = u.lv1 ∨ t = u.lv2) :
    t ∉ s.hv.list := by
  intro hm
  obtain ⟨y, -, hy⟩ := h.hvMem _ hm
  obtain rfl | rfl := ht
  · exact absurd (congrArg Thd.role hy) (by simp [Thds.hv, Thds.lv1])
  · exact absurd (congrArg Thd.role hy) (by simp [Thds.hv, Thds.lv2])

/-! ## The hardware after a handler -/

theorem irq_hv (s : Service) : (lbatIrqEnable (lbatIrqDisable s)).hv =
    { s.hv with en := decide (s.hv.cur ≠ none) } := by
  unfold lbatIrqEnable lbatIrqDisable
  cases hc : s.hv.cur <;> simp [hc]

theorem irq_lv (s : Service) : (lbatIrqEnable (lbatIrqDisable s)).lv =
    { s.lv with en := decide (s.lv.cur ≠ none) } := by
  unfold lbatIrqEnable lbatIrqDisable
  cases hc : s.lv.cur <;> simp [hc]

/-- Disabling and enabling the interrupts enables what is waited for. -/
theorem Core.irq (h : Core r s) (hhv : s.hv.Fresh) (hlv : s.lv.Fresh) (hheld : s.held = false) :
    Inv r (lbatIrqEnable (lbatIrqDisable s)) where
  toCore := by
    refine h.congr rfl ?_ ?_ ?_ ?_
    · rw [irq_hv]
      exact ⟨h.hvOk.sorted, h.hvOk.nodup, h.hvOk.limit⟩
    · rw [irq_lv]
      exact ⟨h.lvOk.sorted, h.lvOk.nodup, h.lvOk.limit⟩
    · rw [irq_hv]
    · rw [irq_lv]
  hvFresh := by
    rw [irq_hv]
    exact hhv
  lvFresh := by
    rw [irq_lv]
    exact hlv
  enabled := by
    intro _
    rw [irq_hv, irq_lv]
    exact ⟨rfl, by simp, by simp⟩
  held := hheld

/-! ## Interrupts -/

/-- The user of the cached entry. -/
def Service.curUser (s : Service) (d : Dir) : Option LbatUser :=
  d.cur.bind fun t => s.users[t.user]?

/-- An interrupt without a cached entry. -/
theorem Inv.noCur (h : Inv r s) (hu : s'.users = s.users)
    (hhv : s'.hv = s.hv ∨ s.hv.cur = none ∧ s'.hv = { s.hv with en := false })
    (hlv : s'.lv = s.lv ∨ s.lv.cur = none ∧ s'.lv = { s.lv with en := false })
    (hen : s'.en = s.en) (hheld : s'.held = s.held) : Inv r s' := by
  have hhl : s'.hv.list = s.hv.list ∧ s'.hv.cur = s.hv.cur ∧ s'.hv.limit = s.hv.limit := by
    obtain he | ⟨-, he⟩ := hhv <;> rw [he] <;> exact ⟨rfl, rfl, rfl⟩
  have hll : s'.lv.list = s.lv.list ∧ s'.lv.cur = s.lv.cur ∧ s'.lv.limit = s.lv.limit := by
    obtain he | ⟨-, he⟩ := hlv <;> rw [he] <;> exact ⟨rfl, rfl, rfl⟩
  refine ⟨h.toCore.congr hu ?_ ?_ hhl.1 hll.1, ?_, ?_, ?_, hheld.trans h.held⟩
  · refine ⟨hhl.1 ▸ h.hvOk.sorted, hhl.1 ▸ h.hvOk.nodup, fun t ht => ?_⟩
    rw [hhl.2.2]
    exact h.hvOk.limit t (hhl.2.1 ▸ ht)
  · refine ⟨hll.1 ▸ h.lvOk.sorted, hll.1 ▸ h.lvOk.nodup, fun t ht => ?_⟩
    rw [hll.2.2]
    exact h.lvOk.limit t (hll.2.1 ▸ ht)
  · rw [Dir.Fresh, hhl.1, hhl.2.1]
    exact h.hvFresh
  · rw [Dir.Fresh, hll.1, hll.2.1]
    exact h.lvFresh
  · intro hne
    obtain ⟨h1, h2, h3⟩ := h.enabled (hu ▸ hne)
    refine ⟨hen.trans h1, fun hc => ?_, fun hc => ?_⟩
    · obtain he | ⟨hn, -⟩ := hhv
      · rw [he] at hc ⊢
        exact h2 hc
      · exact absurd (hhl.2.1.trans hn) hc
    · obtain he | ⟨hn, -⟩ := hlv
      · rw [he] at hc ⊢
        exact h3 hc
      · exact absurd (hll.2.1.trans hn) hc

theorem event_debounce {x : LbatUser} {t : Thd} {prd times : Nat} (ht : times ≠ 0) :
    event r s x t prd times =
      s.setUser t.user ({ x with debCnt := 0, debThdPtr := some t }.queue prd) := if_pos ht

theorem event_now {x : LbatUser} {t : Thd} {prd times : Nat} (ht : times = 0) :
    event r s x t prd times =
      (lbatSetNextThd r s x.thds t).setUser t.user { x with last := some t } :=
  if_neg (not_not_intro ht)

theorem batHIntHandler_eq {t : Thd} {x : LbatUser} (hcur : s.hv.cur = some t)
    (hheld : s.held = false) (hx : s.users[t.user]? = some x) :
    batHIntHandler r s =
      let s₁ := event r { s with hv := s.hv.unlink t } x t x.hvDebPrd x.hvDebTimes
      some (lbatIrqEnable (lbatIrqDisable { s₁ with hv := s₁.hv.renew r })) := by
  simp [batHIntHandler, hcur, hheld, hx]

theorem batLIntHandler_eq {t : Thd} {x : LbatUser} (hcur : s.lv.cur = some t)
    (hheld : s.held = false) (hx : s.users[t.user]? = some x) :
    batLIntHandler r s =
      let s₁ := event r { s with lv := s.lv.unlink t } x t x.lvDebPrd x.lvDebTimes
      some (lbatIrqEnable (lbatIrqDisable { s₁ with lv := s₁.lv.renew r })) := by
  simp [batLIntHandler, hcur, hheld, hx]

/-- A threshold of another user is none of the thresholds of this one. -/
theorem ne_of_user {u : Thds} {t : Thd} (h : t.user ≠ u.idx) :
    t ≠ u.hv ∧ t ≠ u.lv1 ∧ t ≠ u.lv2 := by
  refine ⟨?_, ?_, ?_⟩ <;> rintro rfl <;> exact h rfl

theorem Inv.hInt (h : Inv r s) (hfree : ∀ x ∈ s.curUser s.hv, x.debThdPtr = none) :
    ∃ s', batHIntHandler r s = some s' ∧ Inv r s' := by
  cases hcur : s.hv.cur with
  | none =>
    refine ⟨_, by simp [batHIntHandler, hcur]; rfl, ?_⟩
    exact h.noCur rfl (.inr ⟨hcur, by rw [← hcur]⟩) (.inl rfl) rfl rfl
  | some t =>
    have hmem : t ∈ s.hv.list := List.mem_of_head? (h.hvFresh ▸ hcur)
    obtain ⟨x, hx, rfl⟩ := h.hvMem t hmem
    have hdeb : x.debThdPtr = none := hfree x (by simp only [Service.curUser, hcur]; exact hx)
    obtain ⟨hidx, ha⟩ := h.users _ x hx
    refine ⟨_, batHIntHandler_eq hcur h.held hx, ?_⟩
    have hok := unlink_ok x.thds.hv h.hvOk
    have hunl : ∀ t', t' ∈ ((s.hv.unlink x.thds.hv).renew r).list ↔
        t' ≠ x.thds.hv ∧ t' ∈ s.hv.list := by
      intro t'
      rw [renew_list]
      exact mem_unlink h.hvOk
    have hhv := ha.hv.1 (.inl hmem)
    have hlv1 : x.thds.lv1 ∉ s.lv.list := by
      intro hl
      obtain hn | hn := ha.lv1.1 (.inl hl) <;> simp [hn] at hhv
    by_cases htimes : x.hvDebTimes = 0
    · -- delivered at once
      obtain ⟨d, he, hdok, hdf, hdm⟩ := setNext_hv (r := r)
        (s := { s with hv := s.hv.unlink x.thds.hv }) (u := x.thds) h.lvOk hlv1
      rw [event_now htimes, he]
      refine Core.irq (h.toCore.change hx rfl rfl
        (renew_ok hok) hdok (fun t' ht' => .inl ((hunl t').1 ht').2) ?_ ?_ ?_ ?_)
        (renew_fresh _ _) hdf h.held
      · intro t' ht'
        obtain ⟨h1 | h1, -⟩ := (hdm t').1 ht'
        · exact .inr (.inl h1)
        · exact .inl h1
      · intro t' ht'
        exact (hunl t').trans (and_iff_right (ne_of_user ht').1)
      · intro t' ht'
        obtain ⟨-, h1, h2⟩ := ne_of_user ht'
        exact (hdm t').trans ((and_iff_left h2).trans (or_iff_right h1))
      · refine armed_hv rfl hdeb ?_ ?_ ?_
        · exact fun hh => ((hunl _).1 hh).1 rfl
        · exact (hdm _).2 ⟨.inl rfl, x.thds.lv1_ne_lv2⟩
        · exact fun hh => ((hdm _).1 hh).2 rfl
    · rw [event_debounce htimes]
      refine Core.irq (h.toCore.change hx rfl rfl (renew_ok hok) h.lvOk
        (fun t' ht' => .inl ((hunl t').1 ht').2) (fun _ => .inl) ?_ (fun _ _ => .rfl) ?_)
        (renew_fresh _ _) h.lvFresh h.held
      · intro t' ht'
        exact (hunl t').trans (and_iff_right (ne_of_user ht').1)
      · refine ha.toSlot hdeb (.inl rfl) (.inl ⟨hmem, rfl⟩) hunl (fun t' => ?_) rfl rfl rfl
          (by simp [LbatUser.queue])
        refine ⟨fun hh => ⟨?_, hh⟩, fun hh => hh.2⟩
        rintro rfl
        exact h.toCore.hv_notMem x.thds hh

theorem Inv.lInt (h : Inv r s)
    (hfree : ∀ x ∈ s.curUser s.lv, x.lvDebTimes ≠ 0 → x.debThdPtr = none) :
    ∃ s', batLIntHandler r s = some s' ∧ Inv r s' := by
  cases hcur : s.lv.cur with
  | none =>
    refine ⟨_, by simp [batLIntHandler, hcur]; rfl, ?_⟩
    exact h.noCur rfl (.inl rfl) (.inr ⟨hcur, by rw [← hcur]⟩) rfl rfl
  | some t =>
    have hmem : t ∈ s.lv.list := List.mem_of_head? (h.lvFresh ▸ hcur)
    obtain ⟨x, hx, hown⟩ := h.lvMem t hmem
    have hdeb : x.lvDebTimes ≠ 0 → x.debThdPtr = none :=
      hfree x (by simp only [Service.curUser, hcur]; exact hx)
    obtain ⟨hidx, ha⟩ := h.users _ x hx
    refine ⟨_, batLIntHandler_eq hcur h.held hx, ?_⟩
    have hok := unlink_ok t h.lvOk
    have hunl : ∀ t', t' ∈ ((s.lv.unlink t).renew r).list ↔ t' ≠ t ∧ t' ∈ s.lv.list := by
      intro t'
      rw [renew_list]
      exact mem_unlink h.lvOk
    have hother : ∀ t', t'.user ≠ t.user →
        (t' ∈ ((s.lv.unlink t).renew r).list ↔ t' ∈ s.lv.list) := by
      intro t' ht'
      refine (hunl t').trans (and_iff_right ?_)
      rintro rfl
      exact ht' rfl
    by_cases htimes : x.lvDebTimes = 0
    · rw [event_now htimes]
      obtain rfl | rfl := hown
      · -- `lv1` is delivered: the high threshold and `lv2` are waited for next
        have hlast := ha.lv1.1 (.inl hmem)
        have hhv : x.thds.hv ∉ s.hv.list := by
          intro hh
          have := ha.hv.1 (.inl hh)
          obtain hn | hn := hlast <;> simp [hn] at this
        have hslot : x.debThdPtr = none := by
          cases hd : x.debThdPtr with
          | none => rfl
          | some t' =>
            obtain ⟨-, h2, rfl | rfl | rfl⟩ := ha.slot t' hd
            · have := ha.hv.1 (.inr hd)
              obtain hn | hn := hlast <;> simp [hn] at this
            · exact absurd hmem h2
            · have := ha.lv2.1 (.inr hd)
              obtain hn | hn := hlast <;> simp [hn] at this
        obtain ⟨d, d', he, hdok, hdf, hdm, hdok', -, hdm'⟩ := setNext_lv1 (r := r)
          (s := { s with lv := s.lv.unlink x.thds.lv1 }) (u := x.thds) h.hvOk hok hhv
        rw [he]
        have hlist : ∀ t', t' ∈ (d'.renew r).list ↔
            t' = x.thds.lv2 ∨ t' ≠ x.thds.lv1 ∧ t' ∈ s.lv.list := by
          intro t'
          rw [renew_list, hdm']
          exact or_congr_right (mem_unlink h.lvOk)
        refine Core.irq (h.toCore.change hx rfl rfl
          hdok (renew_ok hdok') ?_ ?_ ?_ ?_ ?_) hdf (renew_fresh _ _) h.held
        · exact fun t' ht' => ((hdm t').1 ht').symm
        · intro t' ht'
          obtain h1 | ⟨-, h1⟩ := (hlist t').1 ht'
          · exact .inr (.inr h1)
          · exact .inl h1
        · intro t' ht'
          exact (hdm t').trans (or_iff_right (ne_of_user ht').1)
        · intro t' ht'
          obtain ⟨-, h1, h2⟩ := ne_of_user ht'
          exact (hlist t').trans ((or_iff_right h2).trans (and_iff_right h1))
        · refine armed_lv1 rfl hslot ((hdm _).2 (.inl rfl)) ?_ ((hlist _).2 (.inl rfl))
          intro hh
          obtain h1 | ⟨h1, -⟩ := (hlist _).1 hh
          · exact x.thds.lv1_ne_lv2 h1
          · exact h1 rfl
      · -- `lv2` is delivered: the high threshold goes on to be waited for
        have hlast := ha.lv2.1 (.inl hmem)
        rw [setNext_lv2]
        refine Core.irq (h.toCore.change hx rfl rfl
          h.hvOk (renew_ok hok) (fun _ => .inl) (fun t' ht' => .inl ((hunl t').1 ht').2)
          (fun _ _ => .rfl) hother ?_) h.hvFresh (renew_fresh _ _) h.held
        have hlv1 : x.thds.lv1 ∉ s.lv.list := by
          intro hh
          have := ha.lv1.1 (.inl hh)
          simp [hlast] at this
        refine armed_lv2 rfl ?_ (fun hh => hlv1 ((hunl _).1 hh).2) fun hh => ((hunl _).1 hh).1 rfl
        cases hd : x.debThdPtr with
        | none =>
          exact .inl ⟨rfl, (ha.hv.2 (.inl hlast)).resolve_right (by simp [hd])⟩
        | some t' =>
          obtain ⟨h1, h2, rfl | rfl | rfl⟩ := ha.slot t' hd
          · exact .inr ⟨rfl, h1, fun hh => h2 ((hunl _).1 hh).2, ha.work (by simp [hd])⟩
          · have := ha.lv1.1 (.inr hd)
            simp [hlast] at this
          · exact absurd hmem h2
    · rw [event_debounce htimes]
      refine Core.irq (h.toCore.change hx rfl rfl h.hvOk (renew_ok hok) (fun _ => .inl)
        (fun t' ht' => .inl ((hunl t').1 ht').2) (fun _ _ => .rfl) hother ?_) h.hvFresh
        (renew_fresh _ _) h.held
      have hne : t ≠ x.thds.hv := by
        obtain rfl | rfl := hown
        · exact x.thds.lv1_ne_hv
        · exact x.thds.lv2_ne_hv
      refine ha.toSlot (hdeb htimes) (.inr hown) (.inr ⟨hmem, hne⟩) (fun t' => ?_) hunl rfl rfl rfl
        (by simp [LbatUser.queue])
      refine ⟨fun hh => ⟨?_, hh⟩, fun hh => hh.2⟩
      rintro rfl
      exact h.toCore.lv_notMem hown hh

/-! ## Debounce -/

section
variable {i : Nat} {x : LbatUser} {t : Thd} (h : Inv r s) (hx : s.users[i]? = some x)
  (hd : x.debThdPtr = some t)
include h hx hd

/-- An event is delivered after its debounce. -/
theorem Inv.debDeliver {x' : LbatUser} (hthds : x'.thds = x.thds) (hlast : x'.last = some t) :
    Inv r (debDone (lbatSetNextThd r s x.thds t) i x') := by
  obtain ⟨hidx, ha⟩ := h.users i x hx
  obtain ⟨hnh, hnl, hown⟩ := ha.slot t hd
  subst hidx
  obtain rfl | rfl | rfl := hown
  · have hhv := ha.hv.1 (.inr hd)
    have hlv1 : x.thds.lv1 ∉ s.lv.list := by
      intro hl
      obtain hn | hn := ha.lv1.1 (.inl hl) <;> simp [hn] at hhv
    obtain ⟨d, he, hdok, hdf, hdm⟩ := setNext_hv (r := r) (s := s) h.lvOk hlv1
    rw [he]
    refine Core.irq (h.toCore.change hx rfl hthds h.hvOk hdok (fun _ => .inl) ?_
      (fun _ _ => .rfl) ?_ (armed_hv ?_ rfl ?_ ?_ ?_)) h.hvFresh hdf h.held
    · intro t' ht'
      obtain ⟨h1 | h1, -⟩ := (hdm t').1 ht'
      · exact .inr (.inl h1)
      · exact .inl h1
    · intro t' ht'
      obtain ⟨-, h1, h2⟩ := ne_of_user ht'
      exact (hdm t').trans ((and_iff_left h2).trans (or_iff_right h1))
    · exact hlast.trans (by rw [hthds])
    · rw [hthds]
      exact hnh
    · rw [hthds]
      exact (hdm _).2 ⟨.inl rfl, x.thds.lv1_ne_lv2⟩
    · rw [hthds]
      exact fun hh => ((hdm _).1 hh).2 rfl
  · have hl := ha.lv1.1 (.inr hd)
    have hhv : x.thds.hv ∉ s.hv.list := by
      intro hh
      have := ha.hv.1 (.inl hh)
      obtain hn | hn := hl <;> simp [hn] at this
    obtain ⟨d, d', he, hdok, hdf, hdm, hdok', hdf', hdm'⟩ := setNext_lv1 (r := r) (s := s)
      (u := x.thds) h.hvOk h.lvOk hhv
    rw [he]
    refine Core.irq (h.toCore.change hx rfl hthds hdok hdok' ?_ ?_ ?_ ?_
      (armed_lv1 ?_ rfl ?_ ?_ ?_)) hdf (hdf' h.lvFresh) h.held
    · exact fun t' ht' => ((hdm t').1 ht').symm
    · exact fun t' ht' => ((hdm' t').1 ht').symm.imp id .inr
    · exact fun t' ht' => (hdm t').trans (or_iff_right (ne_of_user ht').1)
    · exact fun t' ht' => (hdm' t').trans (or_iff_right (ne_of_user ht').2.2)
    · exact hlast.trans (by rw [hthds])
    · rw [hthds]
      exact (hdm _).2 (.inl rfl)
    · rw [hthds]
      intro hh
      obtain h1 | h1 := (hdm' _).1 hh
      · exact x.thds.lv1_ne_lv2 h1
      · exact hnl h1
    · rw [hthds]
      exact (hdm' _).2 (.inl rfl)
  · have hl := ha.lv2.1 (.inr hd)
    have hlv1 : x.thds.lv1 ∉ s.lv.list := by
      intro hh
      have := ha.lv1.1 (.inl hh)
      simp [hl] at this
    rw [setNext_lv2]
    refine Core.irq (h.toCore.change hx rfl hthds h.hvOk h.lvOk (fun _ => .inl) (fun _ => .inl)
      (fun _ _ => .rfl) (fun _ _ => .rfl) (armed_lv2 ?_ (.inl ⟨rfl, ?_⟩) ?_ ?_)) h.hvFresh
      h.lvFresh h.held
    · exact hlast.trans (by rw [hthds])
    · rw [hthds]
      exact (ha.hv.2 (.inl hl)).resolve_right (by simp [hd])
    · rw [hthds]
      exact hlv1
    · rw [hthds]
      exact hnl

/-- An event that is not ignored is counted, and delivered when the count is reached. -/
theorem Inv.debCount {prd times : Nat} :
    Inv r (debCount r s i { x with debWork := none } t prd times) := by
  simp only [Lbat.debCount]
  split_ifs
  · exact ⟨h.toCore.setUser hx rfl rfl rfl fun _ => by simp [LbatUser.queue], h.hvFresh, h.lvFresh,
      fun hne => h.enabled (fun he => hne (by simp [Service.setUser, he])), h.held⟩
  · exact h.debDeliver hx hd rfl rfl

/-- An ignored event at the high threshold is waited for again. -/
theorem Inv.ignoreHv (ht : t = x.thds.hv) :
    Inv r (debDone (linkHv r s t) i { x with debWork := none }) := by
  obtain ⟨hidx, ha⟩ := h.users i x hx
  obtain ⟨hnh, -, -⟩ := ha.slot t hd
  have hmem : ∀ t', t' ∈ (s.hv.link r hvListCmp t).list ↔ t' = t ∨ t' ∈ s.hv.list :=
    fun t' => mem_link h.hvOk
  subst hidx
  refine Core.irq (h.toCore.change hx rfl rfl (link_ok ordering_hv h.hvOk hnh) h.lvOk ?_
    (fun _ => .inl) ?_ (fun _ _ => .rfl) (ha.fromSlot hd (fun t' => ?_) (fun t' => ?_) rfl rfl
    rfl)) (link_fresh _ _ _ _) h.lvFresh h.held
  · exact fun t' ht' => ((hmem t').1 ht').symm.imp id fun he => he.trans ht
  · exact fun t' ht' => (hmem t').trans (or_iff_right fun he => (ne_of_user ht').1 (he.trans ht))
  · exact (hmem t').trans (or_congr_left (and_iff_left ht).symm)
  · exact (or_iff_right fun hh => hh.2 ht).symm

/-- An ignored event at a low threshold is waited for again. -/
theorem Inv.ignoreLv (ht : t = x.thds.lv1 ∨ t = x.thds.lv2) :
    Inv r (debDone (linkLv r s t) i { x with debWork := none }) := by
  obtain ⟨hidx, ha⟩ := h.users i x hx
  obtain ⟨-, hnl, -⟩ := ha.slot t hd
  have hmem : ∀ t', t' ∈ (s.lv.link r lvListCmp t).list ↔ t' = t ∨ t' ∈ s.lv.list :=
    fun t' => mem_link h.lvOk
  have hne : t ≠ x.thds.hv := by
    obtain rfl | rfl := ht
    · exact x.thds.lv1_ne_hv
    · exact x.thds.lv2_ne_hv
  subst hidx
  refine Core.irq (h.toCore.change hx rfl rfl h.hvOk (link_ok ordering_lv h.lvOk hnl)
    (fun _ => .inl) ?_ (fun _ _ => .rfl) ?_ (ha.fromSlot hd (fun t' => ?_) (fun t' => ?_) rfl rfl
    rfl)) h.hvFresh (link_fresh _ _ _ _) h.held
  · intro t' ht'
    obtain rfl | h1 := (hmem t').1 ht'
    · exact .inr ht
    · exact .inl h1
  · intro t' ht'
    refine (hmem t').trans (or_iff_right ?_)
    rintro rfl
    exact ht.elim (ne_of_user ht').2.1 (ne_of_user ht').2.2
  · exact (or_iff_right fun hh => hne hh.2).symm
  · exact (hmem t').trans (or_congr_left (and_iff_left hne).symm)

end

theorem Inv.debHandler (h : Inv r s) {i adcOut : Nat}
    (hs : lbatDebHandler r s i adcOut = some s') : Inv r s' := by
  unfold lbatDebHandler at hs
  simp only [h.held, Bool.false_eq_true, if_false] at hs
  obtain ⟨x, hx, hs⟩ := Option.bind_eq_some_iff.1 hs
  split_ifs at hs with hq
  cases hd : x.debThdPtr with
  | none =>
    simp only [hd, Option.some.injEq] at hs
    subst hs
    exact ⟨h.toCore.setUser hx rfl rfl hd.symm fun hne => absurd hd hne, h.hvFresh, h.lvFresh,
      fun hne => h.enabled (fun he => hne (by simp [Service.setUser, he])), h.held⟩
  | some t =>
    have hcount : ∀ prd times,
        Inv r (Lbat.debCount r s i { x with debWork := none } t prd times) :=
      fun _ _ => h.debCount hx hd
    simp only [hd] at hs hcount
    have hown := ((h.users i x hx).2.slot t hd).2.2
    split_ifs at hs with h1 h2 h3 h4
    · have hi := h.ignoreHv hx hd h1
      simp only [hd] at hi
      exact Option.some.inj hs ▸ hi
    · exact Option.some.inj hs ▸ hcount _ _
    · have hi := h.ignoreLv hx hd h3
      simp only [hd] at hi
      exact Option.some.inj hs ▸ hi
    · exact Option.some.inj hs ▸ hcount _ _
    · exact absurd (hown.resolve_left h1) h3

/-! ## Users -/

/-- The parameters of a registration that succeeds. -/
def ValidUser (hv lv1 lv2 : Nat) : Prop :=
  hv < thdVoltMax ∧ thdVoltMin < lv1 ∧ lv1 ≤ hv ∧ lv2 ≤ lv1 ∧ lv2 ≠ 0

instance (hv lv1 lv2 : Nat) : Decidable (ValidUser hv lv1 lv2) :=
  inferInstanceAs (Decidable (_ ∧ _))

theorem link_en (r : Ratio) (cmp : Thd → Thd → Int) (d : Dir) (thd : Thd) :
    (d.link r cmp thd).en = d.en := by
  simp only [Dir.link]
  split_ifs <;> rfl

/-- A user that has just been registered waits for `lv1`. -/
theorem Core.newUser (h : Core r s) (u : Thds) (hidx : u.idx = s.users.length)
    (hu : s'.users = s.users ++ [⟨u, 0, none, 0, 0, 0, 0, none, none⟩])
    (hhl : s'.hv.list = s.hv.list) (hhv : s'.hv.Ok r hvListCmp) (hlv : s'.lv.Ok r lvListCmp)
    (hll : ∀ t, t ∈ s'.lv.list ↔ t = u.lv1 ∨ t ∈ s.lv.list) : Core r s' := by
  have hnew : s'.users[u.idx]? = some ⟨u, 0, none, 0, 0, 0, 0, none, none⟩ := by
    rw [hu, hidx, List.getElem?_concat_length]
  have hold : ∀ (j : Nat) (y : LbatUser), s.users[j]? = some y → s'.users[j]? = some y := by
    intro j y hy
    rw [hu, List.getElem?_append_left (List.getElem?_eq_some_iff.1 hy).1]
    exact hy
  have hlt : ∀ t, t ∈ s.hv.list ∨ t ∈ s.lv.list → t.user ≠ u.idx := by
    rintro t (ht | ht) he
    · obtain ⟨y, hy, -⟩ := h.hvMem t ht
      have := (List.getElem?_eq_some_iff.1 hy).1
      omega
    · obtain ⟨y, hy, -⟩ := h.lvMem t ht
      have := (List.getElem?_eq_some_iff.1 hy).1
      omega
  refine ⟨hhv, hlv, ?_, ?_, ?_⟩
  · intro t ht
    obtain ⟨y, hy, he⟩ := h.hvMem t (hhl ▸ ht)
    exact ⟨y, hold _ y hy, he⟩
  · intro t ht
    obtain rfl | ht := (hll t).1 ht
    · exact ⟨_, hnew, .inl rfl⟩
    · obtain ⟨y, hy, he⟩ := h.lvMem t ht
      exact ⟨y, hold _ y hy, he⟩
  · intro j y hy
    rw [hu, List.getElem?_append] at hy
    split_ifs at hy with hj
    · obtain ⟨hyidx, hya⟩ := h.users j y hy
      refine ⟨hyidx, hya.congr rfl rfl rfl hya.work (fun _ _ => by rw [hhl]) fun t ht => ?_⟩
      refine (hll t).trans (or_iff_right ?_)
      rintro rfl
      have hne : u.idx ≠ j := by omega
      obtain he | he | he := ht <;>
        exact hne ((congrArg Thd.user he).trans (by simpa using hyidx))
    · rw [List.getElem?_singleton] at hy
      split_ifs at hy with h0
      obtain rfl := Option.some.inj hy
      refine ⟨show u.idx = j by omega, ?_⟩
      constructor
      · rw [hhl]
        simpa using fun hh => hlt _ (.inl hh) rfl
      · simpa using (hll _).2 (.inl rfl)
      · simpa [hll] using fun hh => hlt _ (.inr hh) rfl
      · simp
      · simp
      · simp

theorem enable_hv (s : Service) : (lbatIrqEnable s).hv =
    { s.hv with en := s.hv.en || decide (s.hv.cur ≠ none) } := by
  unfold lbatIrqEnable
  by_cases hc : s.hv.cur = none <;> simp [hc]
  rw [← hc]

theorem enable_lv (s : Service) : (lbatIrqEnable s).lv =
    { s.lv with en := s.lv.en || decide (s.lv.cur ≠ none) } := by
  unfold lbatIrqEnable
  by_cases hc : s.lv.cur = none <;> simp [hc]
  rw [← hc]

theorem Inv.register (h : Inv r s) {hv lv1 lv2 : Nat} (hvalid : ValidUser hv lv1 lv2)
    (hlink : s.users = [] ∨ s.lv.list ≠ []) {ret : Int}
    (hs : lbatUserRegister r s hv lv1 lv2 true true true = some (ret, s')) : Inv r s' := by
  obtain ⟨h1, h2, h3, h4, h5⟩ := hvalid
  unfold lbatUserRegister at hs
  unfold thdVoltMin at h2
  simp only [h.held, Bool.false_eq_true, if_false, not_true_eq_false, false_or,
    dif_neg (show ¬ (thdVoltMax ≤ hv ∨ lv1 ≤ thdVoltMin) by unfold thdVoltMin; omega),
    dif_neg (show ¬ (hv < lv1 ∨ lv1 < lv2) by omega),
    if_neg (show ¬ (hv = 0 ∨ lv1 = 0 ∨ lv2 = 0) by omega)] at hs
  generalize hu : (⟨s.users.length, hv, lv1, lv2, _, _, _⟩ : Thds) = u at hs
  have hidx : u.idx = s.users.length := by rw [← hu]
  have hnew : u.lv1 ∉ s.lv.list := by
    intro hm
    obtain ⟨y, hy, -⟩ := h.lvMem _ hm
    have := (List.getElem?_eq_some_iff.1 hy).1
    rw [Thds.lv1_user] at this
    omega
  have hok := link_ok ordering_lv h.lvOk hnew
  have hfresh := link_fresh r lvListCmp s.lv u.lv1
  by_cases hsize : userSize ≤ s.users.length
  · simp [hsize] at hs
  · rw [if_neg hsize, Option.some.injEq, Prod.mk.injEq] at hs
    obtain ⟨-, rfl⟩ := hs
    by_cases hfirst : s.users.length = 0
    · -- the first user: the interrupts are enabled
      rw [if_pos hfirst]
      refine ⟨h.toCore.newUser u hidx rfl ?_ ?_ ?_ fun t => ?_, ?_, ?_, fun _ => ?_, h.held⟩
      · rw [enable_hv]
        rfl
      · rw [enable_hv]
        exact ⟨h.hvOk.sorted, h.hvOk.nodup, h.hvOk.limit⟩
      · rw [enable_lv]
        exact ⟨hok.sorted, hok.nodup, hok.limit⟩
      · rw [enable_lv]
        exact mem_link h.lvOk
      · rw [enable_hv]
        exact h.hvFresh
      · rw [enable_lv]
        exact hfresh
      · rw [enable_hv, enable_lv]
        exact ⟨rfl, fun hc => by simpa using .inr hc, fun hc => by simpa using .inr hc⟩
    · rw [if_neg hfirst]
      have hne : s.users ≠ [] := fun he => hfirst (by rw [he]; rfl)
      obtain ⟨e1, e2, e3⟩ := h.enabled hne
      refine ⟨h.toCore.newUser u hidx rfl rfl h.hvOk hok fun t => mem_link h.lvOk, h.hvFresh,
        hfresh, fun _ => ⟨e1, e2, fun _ => ?_⟩, h.held⟩
      -- some low threshold was waited for, so the low interrupt is enabled
      refine (link_en r lvListCmp s.lv u.lv1).trans (e3 ?_)
      rw [h.lvFresh]
      exact fun he => hlink.elim hne fun hl => hl (List.head?_eq_none_iff.1 he)

theorem Inv.setDebounce (h : Inv r s) (i a b c d : Nat) :
    Inv r (lbatUserSetDebounce s i a b c d) := by
  unfold lbatUserSetDebounce
  rw [List.modify_eq_set_getElem?]
  cases hx : s.users[i]? with
  | none => exact h
  | some x =>
    obtain ⟨-, ha⟩ := h.users i x hx
    exact ⟨h.toCore.setUser hx rfl rfl rfl ha.work, h.hvFresh, h.lvFresh,
      fun hne => h.enabled (fun he => hne (by simp [he])), h.held⟩

/-! ## Runs -/

/-- An interrupt does not take over a slot that is in use, and a registration succeeds and finds a
low threshold linked, if it is not the first. -/
def Separate (s : Service) : Ev → Prop
  | .hInt => ∀ x ∈ s.curUser s.hv, x.debThdPtr = none
  | .lInt => ∀ x ∈ s.curUser s.lv, x.lvDebTimes ≠ 0 → x.debThdPtr = none
  | .register hv lv1 lv2 callback userAlloc thdAlloc =>
    ValidUser hv lv1 lv2 ∧ callback = true ∧ userAlloc = true ∧ thdAlloc = true ∧
      (s.users = [] ∨ s.lv.list ≠ [])
  | _ => True

instance (s : Service) : ∀ ev, Decidable (Separate s ev)
  | .hInt => inferInstanceAs (Decidable (∀ x ∈ s.curUser s.hv, x.debThdPtr = none))
  | .lInt =>
    inferInstanceAs (Decidable (∀ x ∈ s.curUser s.lv, x.lvDebTimes ≠ 0 → x.debThdPtr = none))
  | .register .. => inferInstanceAs (Decidable (_ ∧ _))
  | .setDebounce .. => .isTrue trivial
  | .debWork .. => .isTrue trivial

/-- **One handler** keeps the invariant. -/
theorem Inv.step (h : Inv r s) {ev : Ev} {ret : Int} (hsep : Separate s ev)
    (hs : Lbat.step r s ev = some (ret, s')) : Inv r s' := by
  cases ev with
  | register hv lv1 lv2 callback userAlloc thdAlloc =>
    obtain ⟨hvalid, rfl, rfl, rfl, hlink⟩ := hsep
    exact h.register hvalid hlink hs
  | setDebounce i a b c d =>
    rw [← show _ = s' from congrArg Prod.snd (Option.some.inj hs)]
    exact h.setDebounce i a b c d
  | hInt =>
    obtain ⟨t, ht, hi⟩ := h.hInt hsep
    simp only [Lbat.step, ht, Option.map_some, Option.some.injEq, Prod.mk.injEq] at hs
    exact hs.2 ▸ hi
  | lInt =>
    obtain ⟨t, ht, hi⟩ := h.lInt hsep
    simp only [Lbat.step, ht, Option.map_some, Option.some.injEq, Prod.mk.injEq] at hs
    exact hs.2 ▸ hi
  | debWork i adcOut =>
    obtain ⟨t, ht, he⟩ := Option.map_eq_some_iff.1 hs
    obtain rfl : t = s' := congrArg Prod.snd he
    exact h.debHandler ht

end

/-- The cached entry of a direction is the first of its list, in the order of the direction, and the
hardware has its limit. -/
structure Dir.First (r : Ratio) (before : Nat → Nat → Prop) (d : Dir) : Prop where
  nodup : d.list.Nodup
  cur : d.cur = d.list.head?
  first : ∀ t, d.cur = some t → ∀ t' ∈ d.list, before t.volt t'.volt
  limit : ∀ t, d.cur = some t → d.limit = voltToRaw r t.volt

theorem Dir.Ok.first {r : Ratio} {cmp : Thd → Thd → Int} {before : Nat → Nat → Prop} {d : Dir}
    (h : d.Ok r cmp) (hf : d.Fresh) (hcmp : ∀ a b, cmp a b ≤ 0 ↔ before a.volt b.volt)
    (hrefl : ∀ n, before n n) : d.First r before := by
  refine ⟨h.nodup, hf, fun t ht t' ht' => ?_, h.limit⟩
  rw [hf] at ht
  cases hl : d.list with
  | nil => simp [hl] at ht'
  | cons a l =>
    obtain rfl : a = t := by simpa [hl] using ht
    rw [hl] at ht'
    obtain rfl | hm := List.mem_cons.1 ht'
    · exact hrefl _
    · have hs := h.sorted
      rw [hl] at hs
      exact (hcmp a t').1 (List.rel_of_pairwise_cons hs hm)

/-- Each list has only the users' thresholds of its own direction. -/
structure OwnThresholds (s : Service) : Prop where
  hv : ∀ t ∈ s.hv.list, ∃ x ∈ s.users, t = x.thds.hv
  lv : ∀ t ∈ s.lv.list, ∃ x ∈ s.users, t = x.thds.lv1 ∨ t = x.thds.lv2

theorem Core.own {r : Ratio} {s : Service} (h : Core r s) : OwnThresholds s where
  hv t ht := by
    obtain ⟨x, hx, he⟩ := h.hvMem t ht
    exact ⟨x, List.mem_of_getElem? hx, he⟩
  lv t ht := by
    obtain ⟨x, hx, he⟩ := h.lvMem t ht
    exact ⟨x, List.mem_of_getElem? hx, he⟩

/-- **What the service waits for.** In every state of a run in which no interrupt of a user takes
over the user's debounce slot, each user's thresholds are linked or debounced exactly as its last
callback asks, no threshold is linked twice or in the other direction's list, each direction has the
first entry of its list in the hardware with its interrupt enabled, and the mutex is free. -/
theorem roles_kept (r : Ratio) (evs : List Ev) (es : List (Ev × Int)) (s : Service)
    (hrun : Sys.run (step r) .init evs = some (es, s))
    (hsep : Sys.Along (step r) Separate .init evs) :
    (∀ (i : Nat) x, s.users[i]? = some x → Armed s.hv.list s.lv.list x) ∧
    OwnThresholds s ∧
    s.hv.First r (· ≤ ·) ∧ s.lv.First r (· ≥ ·) ∧
    (s.users ≠ [] → s.en = true ∧ (s.hv.cur ≠ none → s.hv.en = true) ∧
      (s.lv.cur ≠ none → s.lv.en = true)) ∧
    s.held = false := by
  have h : Inv r s :=
    Sys.run_inv (fun s ev o s' hi hp hs => hi.step hp hs) evs _ _ _ (.init r) hsep hrun
  exact ⟨fun i x hx => (h.users i x hx).2, h.own,
    h.hvOk.first h.hvFresh hvListCmp_le Nat.le_refl,
    h.lvOk.first h.lvFresh lvListCmp_le Nat.le_refl, h.enabled, h.held⟩

/-- A user with thresholds 4000, 3500 and 3300 mV that debounces once in both directions gets its
`lv1`: the ADC reads about 3154 mV. -/
def toLv1 : List Ev :=
  [.register 4000 3500 3300 true true true, .setDebounce 0 10 1 10 1, .lInt, .debWork 0 2050]

/-- The high threshold is debounced and ignored. -/
theorem roles_kept_ignored :
    ∃ es s, Sys.run (step (7, 2)) .init (toLv1 ++ [.hInt, .debWork 0 2050]) = some (es, s) ∧
      ((∀ (i : Nat) x, s.users[i]? = some x → Armed s.hv.list s.lv.list x) ∧
        OwnThresholds s ∧
        s.hv.First (7, 2) (· ≤ ·) ∧ s.lv.First (7, 2) (· ≥ ·) ∧
        (s.users ≠ [] → s.en = true ∧ (s.hv.cur ≠ none → s.hv.en = true) ∧
          (s.lv.cur ≠ none → s.lv.en = true)) ∧
        s.held = false) ∧
      s.hv.list.map Thd.volt = [4000] ∧ s.lv.list.map Thd.volt = [3300] :=
  ⟨_, _, rfl, roles_kept (7, 2) (toLv1 ++ [.hInt, .debWork 0 2050]) _ _ rfl (by decide), rfl, rfl⟩

/-- While the high threshold is debounced, `lv2` takes over the slot and is delivered: the user,
which should wait for the high threshold, waits for nothing. -/
theorem roles_kept_fails :
    ∃ es s x, Sys.run (step (7, 2)) .init (toLv1 ++ [.hInt, .lInt, .debWork 0 2050]) =
        some (es, s) ∧ s.users = [x] ∧ x.last = some x.thds.lv2 ∧
      x.thds.hv ∉ s.hv.list ∧ x.debThdPtr ≠ some x.thds.hv ∧
      s.hv.list = [] ∧ s.lv.list = [] ∧ x.debThdPtr = none :=
  ⟨_, _, _, rfl, rfl, by decide, by decide, by decide, rfl, rfl, rfl⟩

end Lbat
