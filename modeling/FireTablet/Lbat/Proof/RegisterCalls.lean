import FireTablet.Lbat.Service
import FireTablet.Lib.Run

/-!
# Sequences of registrations

A registration releases the mutex, leaves everything as it was when it fails, and puts its user into
the table when it succeeds, exactly when it is made before the probe or every check and allocation
of it succeeds while the table has room (`register_calls`).
-/

namespace Lbat

variable {r : Ratio} {d : Driver} {c : Call}

/-- All the checks of a registration. -/
structure Call.Valid (c : Call) : Prop where
  hv_lt : c.hv < thdVoltMax
  lt_lv1 : thdVoltMin < c.lv1
  lv1_le : c.lv1 ≤ c.hv
  lv2_le : c.lv2 ≤ c.lv1
  lv2_pos : 0 < c.lv2
  callback : c.callback = true

/-- All the allocations of a registration succeed. -/
structure Call.HasMemory (c : Call) : Prop where
  user : c.userAlloc = true
  hv : c.hvAlloc = true
  lv1 : c.lv1Alloc = true
  lv2 : c.lv2Alloc = true

/-- A registration that goes well. -/
def Good (d : Driver) (c : Call) : Prop :=
  c.regmap = false ∨ c.Valid ∧ c.HasMemory ∧ d.service.users.length < userSize

/-- What a registration should do: it returns with the mutex free; with an error nothing has
changed; with success its user stands last in the table. -/
def Proper (r : Ratio) (d : Driver) (c : Call) : Prop :=
  ∃ ret d', register r d c = some (ret, d') ∧ d'.service.held = false ∧
    (ret ≠ 0 → d' = d) ∧
    (ret = 0 → ∃ u, d'.service.users = d.service.users ++ [u] ∧
      d'.service.users.length ≤ userSize ∧ u.thds.hvVolt = c.hv ∧ u.thds.lv1Volt = c.lv1 ∧
      u.thds.lv2Volt = c.lv2)

/-! ## One call -/

theorem kzalloc_eq_none {m : Heap} {ok : Bool} : (m.kzalloc ok).1 = none ↔ ok = false := by
  cases ok <;> simp [Heap.kzalloc]

theorem lbatThdInit_eq_none {m : Heap} {volt : Nat} {ok : Bool} :
    (lbatThdInit m volt ok).1 = none ↔ volt = 0 ∨ ok = false := by
  unfold lbatThdInit
  by_cases h : volt = 0
  · simp [h]
  · rw [if_neg h, kzalloc_eq_none]
    simp [h]

theorem Driver.out_held (d : Driver) (ret : Int) (user : Option Nat) :
    ∃ q, d.out ret user = some q ∧ q.2.service.held = true :=
  ⟨_, rfl, rfl⟩

/-- **The exits after the lock.** With every check and allocation successful the user is put into
the table, with the service as it was; every other exit leaves the mutex held. -/
theorem register_cases (hc : c.regmap = true) (hd : d.service.held = false) :
    (c.Valid ∧ c.HasMemory ∧ ∃ d₁ thds, d₁.service = d.service ∧ thds.hvVolt = c.hv ∧
        thds.lv1Volt = c.lv1 ∧ thds.lv2Volt = c.lv2 ∧ register r d c = lbatUserUpdate r d₁ thds) ∨
      ¬ (c.Valid ∧ c.HasMemory) ∧ ∃ q, register r d c = some q ∧ q.2.service.held = true := by
  unfold register
  rw [if_neg (by simp [hc] : ¬ (!c.regmap) = true), if_neg (by simp [hd])]
  rcases hu : d.heap.kzalloc c.userAlloc with ⟨_ | p, m⟩
  · have hno : c.userAlloc = false := kzalloc_eq_none.1 (by rw [hu])
    dsimp only
    exact .inr ⟨fun h => by simp [h.2.user] at hno, Driver.out_held ..⟩
  · have hyes : c.userAlloc = true := by
      refine Bool.eq_true_of_not_eq_false fun h => ?_
      have hnone := (kzalloc_eq_none (m := d.heap)).2 h
      rw [hu] at hnone
      cases hnone
    dsimp only
    by_cases hhv : thdVoltMax ≤ c.hv ∨ c.lv1 ≤ thdVoltMin
    · rw [dif_pos hhv]
      exact .inr ⟨fun h => by have := h.1.hv_lt; have := h.1.lt_lv1; omega, Driver.out_held ..⟩
    rw [dif_neg hhv]
    by_cases hlv : c.hv < c.lv1 ∨ c.lv1 < c.lv2
    · rw [dif_pos hlv]
      exact .inr ⟨fun h => by have := h.1.lv1_le; have := h.1.lv2_le; omega, Driver.out_held ..⟩
    rw [dif_neg hlv]
    cases hcb : c.callback with
    | false =>
      rw [if_pos (by rfl)]
      exact .inr ⟨fun h => by simp [h.1.callback] at hcb, Driver.out_held ..⟩
    | true =>
      rw [if_neg (by decide)]
      split
      next hnone =>
        refine .inr ⟨fun h => ?_, Driver.out_held ..⟩
        simp only [lbatThdInit_eq_none, h.2.hv, h.2.lv1, h.2.lv2, Bool.true_eq_false, or_false]
          at hnone
        have := h.1.lt_lv1
        have := h.1.lv1_le
        have := h.1.lv2_pos
        omega
      next hsome =>
        simp only [lbatThdInit_eq_none, not_or, Bool.not_eq_false] at hsome
        obtain ⟨⟨-, h1⟩, ⟨-, h2⟩, h3, h4⟩ := hsome
        exact .inl ⟨⟨by omega, by omega, by omega, by omega, by omega, hcb⟩, ⟨hyes, h1, h2, h4⟩,
          _, _, (by rfl), (by rfl), (by rfl), (by rfl), rfl⟩

/-- A user that has room in the table is put there. -/
theorem lbatUserUpdate_spec {thds : Thds} (hd : d.service.held = false)
    (hroom : d.service.users.length < userSize) :
    ∃ d', lbatUserUpdate r d thds = some (0, d') ∧ d'.service.held = false ∧
      ∃ u, d'.service.users = d.service.users ++ [u] ∧ u.thds = thds := by
  unfold lbatUserUpdate
  rw [if_neg (Nat.not_le.2 hroom)]
  refine ⟨_, rfl, ?_, _, rfl, rfl⟩
  dsimp only
  split
  · exact hd
  · exact hd

theorem proper_iff (hd : d.service.held = false) : Proper r d c ↔ Good d c := by
  cases hc : c.regmap with
  | false =>
    refine iff_of_true ⟨-eprobeDefer, d, ?_, hd, fun _ => rfl, fun h => absurd h (by decide)⟩
      (.inl hc)
    simp [register, hc]
  | true =>
    obtain ⟨hv, hm, d₁, thds, hs, h1, h2, h3, hreg⟩ | ⟨hno, q, hreg, hheld⟩ :=
      register_cases (r := r) hc hd
    · by_cases hroom : d.service.users.length < userSize
      · obtain ⟨d', hup, hfree, u, hu, ht⟩ :=
          lbatUserUpdate_spec (r := r) (d := d₁) (hs ▸ hd) (hs ▸ hroom)
        rw [hs] at hu
        refine iff_of_true ⟨0, d', hreg.trans hup, hfree, fun h => absurd rfl h,
          fun _ => ⟨u, hu, ?_, ht ▸ h1, ht ▸ h2, ht ▸ h3⟩⟩ (.inr ⟨hv, hm, hroom⟩)
        rw [hu, List.length_append, List.length_singleton]
        exact hroom
      · refine iff_of_false ?_ ?_
        · rintro ⟨ret, d', h, -⟩
          rw [hreg, lbatUserUpdate, hs, if_pos (Nat.le_of_not_lt hroom)] at h
          cases h
        · rintro (h | ⟨-, -, h⟩)
          · rw [hc] at h; cases h
          · exact hroom h
    · refine iff_of_false ?_ ?_
      · rintro ⟨ret, d', h, hfree, -⟩
        rw [hreg] at h
        cases h
        rw [hheld] at hfree
        cases hfree
      · rintro (h | ⟨hv, hm, -⟩)
        · rw [hc] at h; cases h
        · exact hno ⟨hv, hm⟩

/-! ## The service's registration -/

/-- After the probe, a registration does to the service what `lbatUserRegister` does. -/
theorem register_service (hc : c.regmap = true) :
    (register r d c).map (fun q => (q.1, q.2.service)) =
      lbatUserRegister r d.service c.hv c.lv1 c.lv2 c.callback c.userAlloc
        (c.hvAlloc && c.lv1Alloc && c.lv2Alloc) := by
  unfold register lbatUserRegister
  rw [if_neg (by simp [hc] : ¬ (!c.regmap) = true)]
  cases hd : d.service.held with
  | true => rfl
  | false =>
    rw [if_neg Bool.false_ne_true, if_neg Bool.false_ne_true]
    cases hu : c.userAlloc with
    | false => rfl
    | true =>
      rw [if_neg (by decide : ¬ ¬ true = true), Heap.kzalloc, if_pos rfl]
      dsimp only
      by_cases hhv : thdVoltMax ≤ c.hv ∨ c.lv1 ≤ thdVoltMin
      · rw [dif_pos hhv, dif_pos hhv]; rfl
      rw [dif_neg hhv, dif_neg hhv]
      by_cases hlv : c.hv < c.lv1 ∨ c.lv1 < c.lv2
      · rw [dif_pos hlv, dif_pos hlv]; rfl
      rw [dif_neg hlv, dif_neg hlv]
      cases hcb : c.callback with
      | false => rfl
      | true =>
        rw [if_neg (by decide : ¬ (!true) = true), if_neg (by decide : ¬ ¬ true = true)]
        have hiff : (¬ (c.hvAlloc && c.lv1Alloc && c.lv2Alloc) = true ∨ c.hv = 0 ∨ c.lv1 = 0 ∨
            c.lv2 = 0) ↔ (c.hv = 0 ∨ c.hvAlloc = false) ∨ (c.lv1 = 0 ∨ c.lv1Alloc = false) ∨
              c.lv2 = 0 ∨ c.lv2Alloc = false := by
          cases c.hvAlloc <;> cases c.lv1Alloc <;> cases c.lv2Alloc <;> simp
        simp only [lbatThdInit_eq_none]
        by_cases hthd : (c.hv = 0 ∨ c.hvAlloc = false) ∨ (c.lv1 = 0 ∨ c.lv1Alloc = false) ∨
            c.lv2 = 0 ∨ c.lv2Alloc = false
        · rw [if_pos hthd, if_pos (hiff.2 hthd)]; rfl
        · rw [if_neg hthd, if_neg (mt hiff.1 hthd), lbatUserUpdate]
          split <;> rfl

/-- A call as the service sees it, which does not keep its thresholds in memory of their own. -/
def serviceCall (r : Ratio) (s : Service) (c : Call) : Option (Int × Service) :=
  lbatUserRegister r s c.hv c.lv1 c.lv2 c.callback c.userAlloc
    (c.hvAlloc && c.lv1Alloc && c.lv2Alloc)

/-! ## Sequences of calls -/

/-- **Registrations.** From a state in which the mutex is free, all calls of a sequence do what they
should exactly when all go well. -/
theorem register_calls (r : Ratio) (d : Driver) (hd : d.service.held = false) (cs : List Call) :
    Sys.Along (register r) (Proper r) d cs ↔ Sys.Along (register r) Good d cs := by
  refine Sys.along_iff (I := fun d => d.service.held = false) (fun _ _ => proper_iff) ?_ cs d hd
  rintro d c ret d' - ⟨ret₁, d₁, h₁, hfree, -⟩ h
  rw [h₁] at h
  cases h
  exact hfree

/-- The driver before the first user. -/
def Driver.init : Driver := ⟨.init, ⟨∅, 0⟩⟩

/-- A registration of thresholds at 3500, 3400 and `lv2` mV, with memory for what `mem` says. -/
def callOf (regmap : Bool) (lv2 : Nat) (mem : Bool) : Call :=
  ⟨regmap, 3500, 3400, lv2, true, true, true, mem, true⟩

/-- A registration before the probe, and one after it. -/
theorem register_calls_two :
    Sys.Along (register (7, 2)) (Proper (7, 2)) Driver.init [callOf false 3300 true,
      callOf true 3300 true] :=
  (register_calls (7, 2) Driver.init rfl _).2 (Sys.along_cons (.inl rfl) (by rfl)
    ⟨.inr ⟨⟨by decide, by decide, by decide, by decide, by decide, rfl⟩, ⟨rfl, rfl, rfl, rfl⟩,
      by decide⟩, fun _ _ _ => trivial⟩)

/-- After a registration without a second low threshold the next one waits for ever. When there is
no memory for one threshold the others are not freed. The seventeenth user is written behind the
table. -/
theorem register_calls_otherwise :
    ¬ Sys.Along (register (7, 2)) (Proper (7, 2)) Driver.init [callOf true 0 true] ∧
      (Sys.run (register (7, 2)) Driver.init [callOf true 0 true, callOf true 3300 true]).isSome =
        false ∧
      ((register (7, 2) Driver.init (callOf true 3300 false)).map fun q => (q.1, q.2.heap.live)) =
        some (-22, {1, 2}) ∧
      (Sys.run (register (7, 2)) Driver.init (List.replicate 17 (callOf true 3300 true))).isSome =
        false := by
  refine ⟨fun h => ?_, by decide +kernel, by decide +kernel, by decide +kernel⟩
  obtain ⟨ret, d', hreg, hfree, -⟩ := h.1
  have hheld : ((register (7, 2) Driver.init (callOf true 0 true)).map fun q =>
      q.2.service.held) = some true := by
    decide +kernel
  rw [hreg, Option.map_some, hfree] at hheld
  cases hheld

/-- **The driver refines the service**: after the probe every sequence of registrations answers and
leaves the service as the same calls of the service alone do, and blocks where they do. -/
theorem registers_service (r : Ratio) {cs : List Call} (hcs : ∀ c ∈ cs, c.regmap = true)
    (d : Driver) : (Sys.run (register r) d cs).map (fun q => (q.1, q.2.service)) =
      Sys.run (serviceCall r) d.service cs := by
  induction cs generalizing d with
  | nil => rfl
  | cons c cs ih =>
    have hc : (register r d c).map (fun q => (q.1, q.2.service)) = serviceCall r d.service c :=
      register_service (hcs c List.mem_cons_self)
    have ih := ih fun c hm => hcs c (List.mem_cons_of_mem _ hm)
    cases hreg : register r d c with
    | none =>
      rw [hreg, Option.map_none] at hc
      rw [Sys.run_cons_none cs hreg, Sys.run_cons_none cs hc.symm, Option.map_none]
    | some q =>
      obtain ⟨ret, d'⟩ := q
      rw [hreg, Option.map_some] at hc
      rw [Sys.run_cons_some cs hreg, Sys.run_cons_some cs hc.symm, ← ih d', Option.map_map,
        Option.map_map]
      rfl

theorem registers_service_two :
    (Sys.run (register (7, 2)) Driver.init [callOf true 3300 true, callOf true 0 true]).map
        (fun q => (q.1, q.2.service)) =
      Sys.run (serviceCall (7, 2)) .init [callOf true 3300 true, callOf true 0 true] :=
  registers_service (7, 2) (by decide) Driver.init

end Lbat
