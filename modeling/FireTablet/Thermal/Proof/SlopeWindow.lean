import FireTablet.Thermal.Sensor

/-!
# The slope window

Read from the current entry, the ring holds the last samples in order, so the entry after the one
just written is the sample taken a window before. The invariant holds over every run in which no
change of the window's size runs out of memory; a slope is then refused its period exactly if
polling delay times window makes no second (`slope_window_iff`).
-/

namespace Thermal.Sensor

open CInt

/-! ## The ring -/

namespace Window

/-- The temperatures from the current entry on, around the ring. -/
def view (w : Window) : List Int := w.temps.drop w.cur ++ w.temps.take w.cur

variable (w : Window)

theorem view_eq : w.view = w.temperature :: (w.temps.drop (w.cur + 1) ++ w.temps.take w.cur) := by
  unfold view temperature
  rw [List.drop_eq_getElem_cons w.cur_lt]
  rfl

@[simp] theorem length_view : w.view.length = w.temps.length := by
  have := w.cur_lt
  simp only [view, List.length_append, List.length_drop, List.length_take]
  omega

theorem view_head : w.view[0]? = some w.temperature := by
  rw [view_eq]
  rfl

@[simp] theorem length_store (data : Int) : (w.store data).temps.length = w.temps.length :=
  List.length_set

@[simp] theorem length_next : w.next.temps.length = w.temps.length := rfl

/-- To store a sample and go on puts it behind the others, in place of the oldest. -/
theorem view_store_next (data : Int) : (w.store data).next.view = w.view.tail ++ [data] := by
  have hlt := w.cur_lt
  have hcur : (w.store data).next.cur = if w.cur + 1 < w.temps.length then w.cur + 1 else 0 := by
    simp only [next, store, List.length_set]
  have htemps : (w.store data).next.temps = w.temps.set w.cur data := rfl
  rw [view_eq w, List.tail_cons]
  unfold view
  rw [hcur, htemps]
  by_cases hlast : w.cur + 1 < w.temps.length
  · rw [if_pos hlast, List.drop_set_of_lt (Nat.lt_succ_self _), List.take_add_one,
      List.getElem?_set_self hlt, List.take_set_of_le (Nat.le_refl _), List.append_assoc]
    rfl
  · have hend : w.cur + 1 = w.temps.length := by omega
    rw [if_neg hlast, List.drop_zero, List.take_zero, List.append_nil, hend, List.drop_length,
      List.nil_append, List.set_eq_take_append_cons_drop, if_pos hlt, hend, List.drop_length]

/-- The entry after the current one is not touched by a store. -/
theorem temperature_store_next (data : Int) (h : 2 ≤ w.temps.length) :
    (w.store data).next.temperature = w.next.temperature := by
  have hlt := w.cur_lt
  unfold temperature next store
  simp only [List.get_eq_getElem, List.length_set]
  rw [List.getElem_set_ne]
  split <;> omega

end Window

/-! ## Samples -/

/-- The poll takes a sample. -/
def Fod.Takes (g : Fod) (now : Time) : Prop := g.pollingDelay ≠ 0 ∧ ¬ g.waits now

instance (g : Fod) (now : Time) : Decidable (g.Takes now) := inferInstanceAs (Decidable (_ ∧ _))

/-- The samples since the last reset or change of the window's size, the last one last. -/
def samples (g : Fod) (hist : List Int) : Event → List Int
  | .poll data now => if g.Takes now then hist ++ [data] else hist
  | .wpcOnlineWork => if g.wpcOnlineStatus = 0 then [] else hist
  | .windowSizeStore (some size) _ => if size.toNat < 2 then hist else []
  | _ => hist

/-- One event, with the samples. -/
def windowStep (s : Fod × List Int) (e : Event) : Option (Int × Fod × List Int) :=
  match handle s.1 e with
  | .ok (ret, g) => some (ret, g, samples s.1 s.2 e)
  | .error _ => none

/-- A poll compares its sample with the one taken a window before, and divides by the period, from
the sample on that is number `windowSize + extra`; before that it gives no slope. A failed change of
the window's size leaves the window, its samples and the lock. Nothing waits for ever. -/
def StepOk (extra : Nat) (g : Fod) (hist : List Int) (e : Event) : Prop :=
  match e with
  | .poll data now =>
    if g.Takes now ∧ g.windowSize + extra ≤ (hist ++ [data]).length then
      ∃ g' first, (hist ++ [data])[(hist ++ [data]).length - g.windowSize]? = some first ∧
        g.period g.pollingDelay ≠ 0 ∧ handle g e = .ok (g.slope g.pollingDelay first data, g')
    else ∃ g', handle g e = .ok (0, g')
  | .windowSizeStore _ _ =>
    ∃ ret g', handle g e = .ok (ret, g') ∧ (ret < 0 → g'.windowSize = g.windowSize ∧
      g'.window = g.window ∧ g'.fodTempCnt = g.fodTempCnt ∧ g'.locked = g.locked)
  | e => ∃ ret g', handle g e = .ok (ret, g')

/-- No change of the window's size runs out of memory. -/
def Event.Intact : Event → Prop
  | .windowSizeStore (some size) allocs => size.toNat < 2 ∨ size.toNat - 1 ≤ allocs
  | _ => True

/-- Polling delay times window makes a second where the poll divides, and the sample that completes
the window gives no slope where one is due already. -/
def Meets (extra : Nat) (g : Fod) (e : Event) : Prop :=
  match e with
  | .poll data now => g.Takes now → g.fodTempCnt + 1 < g.windowSize + extra ∨
    1000 ≤ u32 (g.pollingDelay * (g.windowSize - 1)) ∧
      (extra = 0 → g.fodTempCnt + 1 = g.windowSize →
        g.slope g.pollingDelay g.window.next.temperature data = 0)
  | e => e.Intact

instance (e : Event) : Decidable e.Intact :=
  match e with
  | .poll _ _ | .wpcOnlineEvent _ | .wpcOnlineWork | .pollingStore _ | .fodDelayStore _ |
    .windowSizeStore none _ => isTrue trivial
  | .windowSizeStore (some _) _ => inferInstanceAs (Decidable (_ ∨ _))

instance (extra : Nat) (g : Fod) (e : Event) : Decidable (Meets extra g e) :=
  match e with
  | .poll _ _ => inferInstanceAs (Decidable (_ → _))
  | .wpcOnlineEvent intval => inferInstanceAs (Decidable (Event.Intact (.wpcOnlineEvent intval)))
  | .wpcOnlineWork => inferInstanceAs (Decidable (Event.Intact .wpcOnlineWork))
  | .pollingStore parsed => inferInstanceAs (Decidable (Event.Intact (.pollingStore parsed)))
  | .fodDelayStore parsed => inferInstanceAs (Decidable (Event.Intact (.fodDelayStore parsed)))
  | .windowSizeStore parsed allocs =>
    inferInstanceAs (Decidable (Event.Intact (.windowSizeStore parsed allocs)))

/-- The ring and what it says of the samples. -/
structure Ring (g : Fod) (hist : List Int) : Prop where
  size : g.window.temps.length = g.windowSize
  two_le : 2 ≤ g.windowSize
  fits : g.windowSize < 4294967296
  unlocked : g.locked = false
  cnt : g.fodTempCnt = min hist.length g.windowSize
  recent : ∃ old, g.window.view <:+ old ++ hist

/-! ## One event -/

theorem ring_empty {g : Fod} (hsize : g.window.temps.length = g.windowSize)
    (htwo : 2 ≤ g.windowSize) (hfits : g.windowSize < 4294967296) (hlock : g.locked = false)
    (hcnt : g.fodTempCnt = 0) : Ring g [] where
  size := hsize
  two_le := htwo
  fits := hfits
  unlocked := hlock
  cnt := by rw [hcnt, List.length_nil, Nat.zero_min]
  recent := ⟨g.window.view, by simp only [List.append_nil, List.suffix_refl]⟩

section
variable {g : Fod} {hist : List Int} (h : Ring g hist)
include h

theorem Ring.last_eq : u32 (g.windowSize - 1) = g.windowSize - 1 := by
  have h1 := h.two_le
  have h2 := h.fits
  exact u32_eq (by omega) (by omega)

theorem Ring.period_eq : g.period g.pollingDelay =
    u32 (g.pollingDelay * (g.windowSize - 1)) / 1000 := by
  unfold Fod.period dmf
  rw [h.last_eq]
  exact i32_eq (by unfold IsI32 u32; omega)

theorem Ring.period_ne_zero_iff :
    g.period g.pollingDelay ≠ 0 ↔ 1000 ≤ u32 (g.pollingDelay * (g.windowSize - 1)) := by
  rw [h.period_eq]
  have : 0 ≤ u32 (g.pollingDelay * (g.windowSize - 1)) := Int.emod_nonneg _ (by decide)
  omega

/-- The window after a sample holds the last samples. -/
theorem Ring.recent_store (data : Int) :
    ∃ old, (g.window.store data).next.view <:+ old ++ (hist ++ [data]) := by
  obtain ⟨old, hsuffix⟩ := h.recent
  obtain ⟨before, hbefore⟩ := (List.tail_suffix _).trans hsuffix
  refine ⟨old, before, ?_⟩
  rw [Window.view_store_next, ← List.append_assoc, hbefore, List.append_assoc]

/-- The entry after the one just written is the sample taken a window before. -/
theorem Ring.oldest (data : Int) (hlen : g.windowSize ≤ (hist ++ [data]).length) :
    (hist ++ [data])[(hist ++ [data]).length - g.windowSize]? =
      some (g.window.store data).next.temperature := by
  obtain ⟨old, hsuffix⟩ := h.recent_store data
  have hview := (g.window.store data).next.view_head
  have hlength : (g.window.store data).next.view.length = g.windowSize := by
    rw [Window.length_view, Window.length_next, Window.length_store, h.size]
  rw [List.suffix_iff_eq_drop.1 hsuffix, List.getElem?_drop, hlength, List.length_append,
    List.getElem?_append_right (by omega)] at hview
  rw [← hview]
  congr 1
  omega

theorem Ring.poll_eq (data : Int) (now : Time) :
    handle g (.poll data now) =
      (g.calculateRaisingRate data g.pollingDelay now).map fun r => (r.2, r.1) := by
  show (g.poll data now).map _ = _
  unfold Fod.poll
  rw [if_neg (by rw [h.unlocked]; decide)]

theorem Ring.taken {now : Time} (htake : g.Takes now) (data : Int) :
    handle g (.poll data now) =
      if g.fodTempCnt < g.windowSize then
        .ok (0, { g with
          window := (g.window.store data).next
          fodTempCnt := g.fodTempCnt + 1 })
      else if g.period g.pollingDelay = 0 then .error .divisionByZero
      else .ok (g.slope g.pollingDelay (g.window.store data).next.temperature data,
        { g with window := (g.window.store data).next }) := by
  have h2 := h.two_le
  rw [h.poll_eq]
  unfold Fod.calculateRaisingRate
  rw [if_neg htake.1, if_neg htake.2, h.last_eq]
  by_cases hlt : g.fodTempCnt < g.windowSize
  · rw [if_pos hlt, if_pos (by omega)]
    rfl
  · rw [if_neg hlt, if_neg (by omega)]
    dsimp only
    split <;> rfl

/-- A poll that takes no sample. -/
theorem Ring.not_taken {now : Time} (htake : ¬ g.Takes now) (data : Int) :
    ∃ timerStart, handle g (.poll data now) = .ok (0, { g with timerStart }) := by
  rw [h.poll_eq]
  unfold Fod.calculateRaisingRate
  by_cases hdelay : g.pollingDelay = 0
  · rw [if_pos hdelay]
    exact ⟨g.timerStart, rfl⟩
  · have hwaits : g.waits now := Classical.not_not.1 fun hw => htake ⟨hdelay, hw⟩
    rw [if_neg hdelay, if_pos hwaits]
    split
    · exact ⟨now, rfl⟩
    · exact ⟨g.timerStart, rfl⟩

/-- Only the window, its size, the count and the lock matter. -/
theorem Ring.congr {g' : Fod} (hsize : g'.windowSize = g.windowSize) (hwin : g'.window = g.window)
    (hcnt : g'.fodTempCnt = g.fodTempCnt) (hlock : g'.locked = g.locked) : Ring g' hist where
  size := by rw [hsize, hwin]; exact h.size
  two_le := by rw [hsize]; exact h.two_le
  fits := by rw [hsize]; exact h.fits
  unlocked := hlock.trans h.unlocked
  cnt := by rw [hsize, hcnt]; exact h.cnt
  recent := by rw [hwin]; exact h.recent

theorem Ring.poll_keep {data : Int} {now : Time} {ret : Int} {g' : Fod}
    (hstep : handle g (.poll data now) = .ok (ret, g')) :
    Ring g' (samples g hist (.poll data now)) := by
  by_cases htake : g.Takes now
  · rw [h.taken htake] at hstep
    have hcnt := h.cnt
    rw [show samples g hist (.poll data now) = hist ++ [data] from if_pos htake]
    have hsize : (g.window.store data).next.temps.length = g.windowSize := by
      rw [Window.length_next, Window.length_store, h.size]
    split at hstep
    · cases hstep
      refine ⟨hsize, h.two_le, h.fits, h.unlocked, ?_, h.recent_store data⟩
      rw [List.length_append]
      show g.fodTempCnt + 1 = min (hist.length + [data].length) g.windowSize
      rw [List.length_singleton]
      omega
    · split at hstep
      · cases hstep
      · cases hstep
        refine ⟨hsize, h.two_le, h.fits, h.unlocked, ?_, h.recent_store data⟩
        rw [List.length_append]
        show g.fodTempCnt = min (hist.length + [data].length) g.windowSize
        rw [List.length_singleton]
        omega
  · obtain ⟨timerStart, heq⟩ := h.not_taken htake data
    rw [heq] at hstep
    cases hstep
    rw [show samples g hist (.poll data now) = hist from if_neg htake]
    exact h.congr rfl rfl rfl rfl

/-- The charger's work never waits for ever; without a charger the samples start afresh. -/
theorem Ring.wpcOnlineWork : ∃ g', g.wpcOnlineWork = .ok g' ∧
    Ring g' (samples g hist .wpcOnlineWork) := by
  unfold Fod.wpcOnlineWork
  by_cases hstatus : g.wpcOnlineStatus = 0
  · rw [if_neg (not_not_intro hstatus), if_neg (by rw [h.unlocked]; decide)]
    rw [show samples g hist .wpcOnlineWork = [] from if_pos hstatus]
    exact ⟨_, rfl, ring_empty h.size h.two_le h.fits h.unlocked rfl⟩
  · rw [if_pos hstatus]
    rw [show samples g hist .wpcOnlineWork = hist from if_neg hstatus]
    refine ⟨_, rfl, ?_⟩
    split
    · exact h.congr rfl rfl rfl rfl
    · exact h

/-- A change of the window's size is refused, made, or runs out of memory with the lock held. -/
theorem Ring.windowSizeStore (parsed : Option UInt32) (allocs : Nat) :
    (g.windowSizeStore parsed allocs = .ok (g, -einval) ∧
      samples g hist (.windowSizeStore parsed allocs) = hist ∧
        Event.Intact (.windowSizeStore parsed allocs)) ∨
    (∃ g', g.windowSizeStore parsed allocs = .ok (g', 0) ∧
      Ring g' (samples g hist (.windowSizeStore parsed allocs)) ∧
        Event.Intact (.windowSizeStore parsed allocs)) ∨
    ∃ g', g.windowSizeStore parsed allocs = .ok (g', -enomem) ∧ g'.locked = true ∧
      ¬ Event.Intact (.windowSizeStore parsed allocs) := by
  cases parsed with
  | none => exact .inl ⟨rfl, rfl, trivial⟩
  | some size =>
    unfold Fod.windowSizeStore Event.Intact
    dsimp only
    by_cases hsmall : size.toNat < 2
    · rw [if_pos hsmall]
      exact .inl ⟨rfl, if_pos hsmall, .inl hsmall⟩
    · rw [if_neg hsmall, if_neg (by rw [h.unlocked]; decide)]
      rw [show samples g hist (.windowSizeStore (some size) allocs) = [] from if_neg hsmall]
      by_cases hmem : size.toNat - 1 ≤ allocs
      · rw [if_pos hmem]
        refine .inr (.inl ⟨_, rfl, ring_empty ?_ (Nat.not_lt.1 hsmall) size.toNat_lt h.unlocked rfl,
          .inr hmem⟩)
        have hlen := g.window.cur_lt
        simp only [Window.addTail, Window.clear, List.length_append, List.length_take,
          List.length_replicate]
        omega
      · rw [if_neg hmem]
        exact .inr (.inr ⟨_, rfl, rfl, not_or.2 ⟨hsmall, hmem⟩⟩)

/-- A change of the window's size that does not run out of memory, and every other event, keeps the
ring. -/
theorem Ring.keep {e : Event} (he : e.Intact) {ret : Int} {g' : Fod}
    (hstep : handle g e = .ok (ret, g')) : Ring g' (samples g hist e) := by
  cases e with
  | poll data now => exact h.poll_keep hstep
  | wpcOnlineEvent intval =>
    cases hstep
    exact h.congr rfl rfl rfl rfl
  | wpcOnlineWork =>
    obtain ⟨g1, heq, hring⟩ := h.wpcOnlineWork
    change g.wpcOnlineWork.map _ = _ at hstep
    rw [heq] at hstep
    cases hstep
    exact hring
  | pollingStore parsed =>
    cases hstep
    show Ring (g.pollingStore parsed).1 hist
    unfold Fod.pollingStore
    cases parsed with
    | none => exact h
    | some delay =>
      dsimp only
      split
      · exact h
      · exact h.congr rfl rfl rfl rfl
  | fodDelayStore parsed =>
    cases hstep
    cases parsed with
    | none => exact h
    | some delay => exact h.congr rfl rfl rfl rfl
  | windowSizeStore parsed allocs =>
    change (g.windowSizeStore parsed allocs).map _ = _ at hstep
    rcases h.windowSizeStore parsed allocs with ⟨heq, hs, -⟩ | ⟨g1, heq, hring, -⟩ | ⟨g1, -, -, hno⟩
    · rw [heq] at hstep
      cases hstep
      rw [hs]
      exact h
    · rw [heq] at hstep
      cases hstep
      exact hring
    · exact absurd he hno

/-! ## What is asked of an event -/

theorem Ring.poll_ok_iff {extra : Nat} (hextra : extra ≤ 1) (data : Int) (now : Time) :
    StepOk extra g hist (.poll data now) ↔ Meets extra g (.poll data now) := by
  have hcnt := h.cnt
  have h2 := h.two_le
  have hlen : (hist ++ [data]).length = hist.length + 1 := by
    rw [List.length_append, List.length_singleton]
  by_cases htake : g.Takes now
  · show (if _ then _ else _) ↔ (_ → _)
    simp only [htake, true_and, true_imp_iff]
    by_cases hdue : g.windowSize + extra ≤ (hist ++ [data]).length
    · rw [if_pos hdue, h.oldest data (by omega), h.taken htake, ← h.period_ne_zero_iff,
        ← Window.temperature_store_next g.window data (by rw [h.size]; exact h2)]
      have hnot : ¬ g.fodTempCnt + 1 < g.windowSize + extra := by omega
      simp only [hnot, false_or, Option.some.injEq, exists_eq_left']
      by_cases hfull : g.fodTempCnt < g.windowSize
      · -- the sample that completes the window: the poll returns no slope
        have hzero : extra = 0 ∧ g.fodTempCnt + 1 = g.windowSize := by omega
        rw [if_pos hfull]
        simp only [hzero.1, hzero.2, true_imp_iff]
        constructor
        · rintro ⟨g', hperiod, heq⟩
          exact ⟨hperiod, (Prod.mk.inj (Except.ok.inj heq)).1.symm⟩
        · rintro ⟨hperiod, hslope⟩
          exact ⟨_, hperiod, by rw [hslope]⟩
      · rw [if_neg hfull]
        have hne : ¬ g.fodTempCnt + 1 = g.windowSize := by omega
        simp only [hne, false_imp_iff, implies_true, and_true]
        constructor
        · rintro ⟨g', hperiod, -⟩
          exact hperiod
        · intro hperiod
          exact ⟨_, hperiod, by rw [if_neg hperiod]⟩
    · rw [if_neg hdue]
      have hfew : g.fodTempCnt + 1 < g.windowSize + extra := by omega
      have hfull : g.fodTempCnt < g.windowSize := by omega
      simp only [hfew, true_or, iff_true]
      rw [h.taken htake, if_pos hfull]
      exact ⟨_, rfl⟩
  · obtain ⟨timerStart, heq⟩ := h.not_taken htake data
    show (if _ then _ else _) ↔ (_ → _)
    simp only [htake, false_and, if_false, false_imp_iff, iff_true]
    exact ⟨_, heq⟩

/-- **One event**: the property holds of it if and only if its condition does. -/
theorem Ring.ok_iff {extra : Nat} (hextra : extra ≤ 1) (e : Event) :
    StepOk extra g hist e ↔ Meets extra g e := by
  cases e with
  | poll data now => exact h.poll_ok_iff hextra data now
  | wpcOnlineEvent intval => exact iff_of_true ⟨_, _, rfl⟩ trivial
  | wpcOnlineWork =>
    obtain ⟨g', heq, -⟩ := h.wpcOnlineWork
    exact iff_of_true ⟨0, g', by show g.wpcOnlineWork.map _ = _; rw [heq]; rfl⟩ trivial
  | pollingStore parsed => exact iff_of_true ⟨_, _, rfl⟩ trivial
  | fodDelayStore parsed => exact iff_of_true ⟨_, _, rfl⟩ trivial
  | windowSizeStore parsed allocs =>
    have hmap : handle g (.windowSizeStore parsed allocs) =
      (g.windowSizeStore parsed allocs).map fun r => (r.2, r.1) := rfl
    rcases h.windowSizeStore parsed allocs with
      ⟨heq, -, hyes⟩ | ⟨g', heq, -, hyes⟩ | ⟨g', heq, hlock, hno⟩
    · rw [heq] at hmap
      exact iff_of_true ⟨_, _, hmap, fun _ => ⟨rfl, rfl, rfl, rfl⟩⟩ hyes
    · rw [heq] at hmap
      exact iff_of_true ⟨_, _, hmap, fun hneg => absurd hneg (Int.lt_irrefl 0)⟩ hyes
    · rw [heq] at hmap
      refine iff_of_false ?_ hno
      rintro ⟨ret, g1, hstep, hkept⟩
      rw [hmap] at hstep
      cases hstep
      have hkeep := (hkept (show -enomem < 0 by decide)).2.2.2
      rw [hlock, h.unlocked] at hkeep
      cases hkeep

omit h in
theorem Meets.intact {extra : Nat} {e : Event} (he : Meets extra g e) : e.Intact := by
  cases e with
  | poll data now => trivial
  | wpcOnlineEvent intval => trivial
  | wpcOnlineWork => trivial
  | pollingStore parsed => trivial
  | fodDelayStore parsed => trivial
  | windowSizeStore parsed allocs => exact he

omit h in
/-- Where the property holds of an event, the event is handled. -/
theorem StepOk.handled {extra : Nat} {e : Event} (hok : StepOk extra g hist e) :
    ∃ ret g', handle g e = .ok (ret, g') := by
  cases e with
  | poll data now =>
    unfold StepOk at hok
    dsimp only at hok
    split at hok
    · obtain ⟨g', first, -, -, heq⟩ := hok
      exact ⟨_, g', heq⟩
    · obtain ⟨g', heq⟩ := hok
      exact ⟨_, g', heq⟩
  | windowSizeStore parsed allocs =>
    obtain ⟨ret, g', heq, -⟩ := hok
    exact ⟨ret, g', heq⟩
  | wpcOnlineEvent intval => exact hok
  | wpcOnlineWork => exact hok
  | pollingStore parsed => exact hok
  | fodDelayStore parsed => exact hok

end

/-! ## Runs -/

theorem windowStep_some {s s' : Fod × List Int} {e : Event} {ret : Int}
    (h : windowStep s e = some (ret, s')) :
    handle s.1 e = .ok (ret, s'.1) ∧ s'.2 = samples s.1 s.2 e := by
  unfold windowStep at h
  split at h
  · rename_i ret1 g heq
    cases h
    exact ⟨heq, rfl⟩
  · cases h

theorem ring_keep_step {s s' : Fod × List Int} {e : Event} {ret : Int} (h : Ring s.1 s.2)
    (he : e.Intact) (hstep : windowStep s e = some (ret, s')) : Ring s'.1 s'.2 := by
  obtain ⟨hhandle, hsamples⟩ := windowStep_some hstep
  rw [hsamples]
  exact h.keep he hhandle

theorem ring_init {ret : Int} {allocs : Nat} {delay : Int} {g : Fod} {r : Int}
    (h : fodInit ret allocs delay = .ok (some g, r)) : Ring g [] := by
  unfold fodInit at h
  split at h
  · cases h
  · split at h
    · cases h
    · cases h
      exact ring_empty rfl (show 2 ≤ 5 by decide) (show 5 < 4294967296 by decide) rfl rfl

section
variable {extra : Nat} (hextra : extra ≤ 1)
include hextra

/-- In a run whose events all meet the condition nothing goes wrong. -/
theorem run_ok {s : Fod × List Int} (hring : Ring s.1 s.2) {es : List Event}
    (halong : Sys.Along windowStep (fun s e => Meets extra s.1 e) s es) :
    (Sys.run windowStep s es).isSome ∧
      Sys.Along windowStep (fun s e => StepOk extra s.1 s.2 e) s es := by
  have hstep : ∀ (pre : List (Event × Int)) (s : Fod × List Int) (e : Event), Ring s.1 s.2 →
      Meets extra s.1 e → ∃ ret s', windowStep s e = some (ret, s') ∧ Ring s'.1 s'.2 := by
    intro _ s e h he
    obtain ⟨ret, g', hhandle⟩ := ((h.ok_iff hextra e).2 he).handled
    have heq : windowStep s e = some (ret, g', samples s.1 s.2 e) := by
      unfold windowStep
      rw [hhandle]
    exact ⟨ret, _, heq, ring_keep_step h he.intact heq⟩
  constructor
  · obtain ⟨evs, s', hrun, -⟩ := Sys.run_hist_along hstep es [] s hring halong
    rw [hrun]
    rfl
  · exact (Sys.along_iff (I := fun s => Ring s.1 s.2) (fun s e h => (h.ok_iff hextra e).symm)
      (fun s e ret s' h he hstep => ring_keep_step h he.intact hstep) es s hring).1 halong

end

theorem run_ring {s s' : Fod × List Int} (hring : Ring s.1 s.2) {es : List Event}
    (hintact : ∀ e ∈ es, e.Intact) {evs : List (Event × Int)}
    (hrun : Sys.run windowStep s es = some (evs, s')) : Ring s'.1 s'.2 :=
  (Sys.run_trace id (I := fun s => Ring s.1 s.2) (P := Event.Intact) (R := fun _ _ _ _ => True)
    (fun _ _ _ _ h he hstep => ⟨ring_keep_step h he hstep, trivial⟩) es s s' evs hring hintact
    hrun).1

/-- From the start the property holds along every run whose events all meet the condition; and after
every run in which no change of the window's size ran out of memory it holds of the next event
exactly if the condition does. A slope may be asked for from the sample on that completes the window
(`extra` is 0), or from the one after it. -/
theorem slope_window_iff {ret : Int} {allocs : Nat} {delay : Int} {g0 : Fod} {r : Int}
    (hinit : fodInit ret allocs delay = .ok (some g0, r)) {extra : Nat} (hextra : extra ≤ 1) :
    (∀ es, Sys.Along windowStep (fun s e => Meets extra s.1 e) (g0, []) es →
      (Sys.run windowStep (g0, []) es).isSome ∧
        Sys.Along windowStep (fun s e => StepOk extra s.1 s.2 e) (g0, []) es) ∧
    ∀ es evs g hist, Sys.run windowStep (g0, []) es = some (evs, g, hist) →
      (∀ e ∈ es, e.Intact) → ∀ e, (StepOk extra g hist e ↔ Meets extra g e) := by
  have hring : Ring g0 [] := ring_init hinit
  refine ⟨fun es halong => run_ok hextra hring halong, ?_⟩
  intro es evs g hist hrun hintact e
  have hring' : Ring g hist := run_ring hring hintact hrun
  exact hring'.ok_iff hextra e

/-- A window of two samples that are polled once a second gives a slope on the third sample. -/
theorem slope_window_two :
    ∃ g0, fodInit 0 4 1000 = .ok (some g0, 0) ∧
      Sys.Along windowStep (fun s e => StepOk 1 s.1 s.2 e) (g0, [])
        [.windowSizeStore (some 2) 1, .poll 30000 ⟨1, 1⟩, .poll 30000 ⟨2, 1⟩, .poll 30100 ⟨3, 1⟩,
          .poll 30300 ⟨4, 1⟩] := by
  refine ⟨_, rfl, ((slope_window_iff (show fodInit 0 4 1000 = .ok (some _, 0) from rfl)
    (Nat.le_refl 1)).1 _ ?_).2⟩
  decide

/-- With a delay of half a second between two samples the third one is divided by 0, and a change of
the window's size that runs out of memory leaves another window and the lock held. -/
theorem short_window_fails :
    ∃ g0 evs g hist g', fodInit 0 4 500 = .ok (some g0, 0) ∧
      Sys.run windowStep (g0, []) [.windowSizeStore (some 2) 1, .poll 30000 ⟨1, 1⟩,
        .poll 30000 ⟨2, 1⟩, .poll 30100 ⟨3, 1⟩] = some (evs, g, hist) ∧
      0 < g.pollingDelay ∧ 2 ≤ g.windowSize ∧ hist = [30000, 30100] ∧
      handle g (.poll 30300 ⟨4, 1⟩) = .error .divisionByZero ∧
      handle g0 (.windowSizeStore (some 8) 3) = .ok (-12, g') ∧ g0.locked = false ∧
      g'.locked = true ∧ g'.windowSize = 8 ∧ g0.windowSize = 5 := by
  refine ⟨_, _, _, _, _, rfl, rfl, ?_, ?_, rfl, rfl, rfl, rfl, rfl, rfl, rfl⟩
  · decide
  · decide

end Thermal.Sensor
