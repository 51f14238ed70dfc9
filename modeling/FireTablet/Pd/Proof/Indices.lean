import FireTablet.Lib.Run
import FireTablet.Pd.Charging

/-!
# The indices of the capabilities

While an adapter is plugged in, the remembered indices are indices of its capabilities (`Held`), and
the one in use is the one it last accepted (`pd_indices`). `EventOk` is when this carries over to
the next adapter.
-/

namespace Pd

/-! ## Indices -/

/-- An index of the adapter's capabilities, or 0. -/
def Below (a : Adapter) (i : Int) : Prop := 0 ≤ i ∧ (i < a.caps.length ∨ i = 0)

theorem below_zero (a : Adapter) : Below a 0 := ⟨Int.le_refl _, .inr rfl⟩

theorem Below.lt {a : Adapter} {i : Int} (h : Below a i) (hn : a.caps ≠ []) :
    i < a.caps.length := by
  have := List.length_pos_iff.2 hn
  obtain ⟨-, h | h⟩ := h <;> omega

theorem mem_indices {cap : PowerCap} {i : Int} (h : i ∈ cap.indices) : 0 ≤ i ∧ i < cap.nr := by
  obtain ⟨n, hn, rfl⟩ := List.mem_map.1 h
  have := List.mem_range.1 hn
  simp only [Int.ofNat_eq_natCast]
  omega

/-- A choice among the indices. -/
theorem foldl_below {a : Adapter} {cap : PowerCap} (hn : cap.nr ≤ a.caps.length)
    {f : Int → Int → Int} (hf : ∀ x i, f x i = x ∨ f x i = i) {x : Int} (hx : Below a x) :
    Below a (cap.indices.foldl f x) := by
  refine List.foldlRecOn cap.indices f hx ?_
  intro x hx i hi
  obtain ⟨h0, h1⟩ := mem_indices hi
  obtain h | h := hf x i
  · rwa [h]
  · rw [h]
    exact ⟨h0, .inl (by omega)⟩

theorem nextIdx_below {a : Adapter} {cap : PowerCap} (hn : cap.nr ≤ a.caps.length) (dt : Dt)
    (lt : Int → Int → Bool) {x : Int} (hx : Below a x) : Below a (nextIdx dt cap lt x) := by
  refine foldl_below hn ?_ hx
  intro x i
  split_ifs <;> first | exact .inl rfl | exact .inr rfl

/-! ## What is remembered -/

/-- Nothing is remembered. -/
structure Fresh (d : Dev) : Prop where
  maxWatt : d.pdCapMaxWatt = -1
  idx : d.pdIdx = -1
  reset : d.pdResetIdx = -1
  boost : d.pdBoostIdx = 0
  buck : d.pdBuckIdx = 0

/-- The algorithm runs. -/
def Running (d : Dev) : Prop := d.state = .run ∨ d.state = .tuning ∨ d.state = .postcc

instance (d : Dev) : Decidable (Running d) := inferInstanceAs (Decidable (_ ∨ _))

/-- What is remembered is about the adapter. -/
structure Held (a : Adapter) (d : Dev) : Prop where
  adapter : d.adapter = some a
  idx : d.pdIdx = -1 ∨ a.accepted = some d.pdIdx
  reset : d.pdResetIdx = -1 ∨ Below a d.pdResetIdx
  boost : Below a d.pdBoostIdx
  buck : Below a d.pdBuckIdx

theorem Fresh.held {d : Dev} (h : Fresh d) {a : Adapter} (ha : d.adapter = some a) : Held a d :=
  ⟨ha, .inl h.idx, .inl h.reset, h.boost ▸ below_zero a, h.buck ▸ below_zero a⟩

/-- The adapter with another capability accepted. -/
def Adapter.withAccepted (a : Adapter) (i : Int) : Adapter := { a with accepted := some i }

section
variable (dt : Dt)

/-- A request that is accepted. -/
theorem requestCap_eq {p : Probe} (hret : p.ret = 0) (d : Dev) (idx : Int) :
    ∃ c1 c2, requestCap dt d idx p = { accept d idx with chg1 := c1, chg2 := c2 } := by
  simp only [requestCap, if_pos hret, setMivr]
  split_ifs <;> exact ⟨_, _, rfl⟩

theorem setup_used (d : Dev) (idx : Int) (p : Probe) : (mtkPdcSetup dt d idx p).2 = [idx] := rfl

/-- A set-up whose request is accepted. -/
theorem setup_held {a : Adapter} {d : Dev} {idx : Int} {p : Probe} (h : Held a d)
    (hn : d.cap.nr ≤ a.caps.length) (hi : Below a idx) (hret : p.ret = 0) :
    ∃ a', a'.caps = a.caps ∧ Held a' (mtkPdcSetup dt d idx p).1 ∧
      (mtkPdcSetup dt d idx p).1.cap = d.cap ∧
      (mtkPdcSetup dt d idx p).1.pdResetIdx = d.pdResetIdx ∧
      (mtkPdcSetup dt d idx p).1.state = d.state := by
  have hneg : ¬ idx < 0 := Int.not_lt.2 hi.1
  simp only [mtkPdcSetup]
  by_cases hreq : d.pdIdx ≠ idx ∨ forceUpdate dt (d.cap.entry idx).maxMv p
  · obtain ⟨c1, c2, he⟩ := requestCap_eq dt hret d idx
    simp only [if_pos hreq, he, mtkPdcGetIdx, if_neg hneg]
    refine ⟨a.withAccepted idx, rfl, ⟨?_, .inr rfl, h.reset, ?_, ?_⟩, rfl, rfl, rfl⟩
    · simp only [accept, h.adapter]
      rfl
    · exact nextIdx_below hn dt (fun x y => x < y) hi
    · exact nextIdx_below hn dt (fun x y => y < x) hi
  · have hidx : d.pdIdx = idx := by
      by_contra hne
      exact hreq (.inl hne)
    simp only [if_neg hreq]
    refine ⟨a, rfl, ⟨h.adapter, ?_, h.reset, h.boost, h.buck⟩, trivial, trivial, trivial⟩
    obtain hno | hacc := h.idx
    · omega
    · exact .inr (hidx ▸ hacc)

theorem initTable_eq {a : Adapter} {d : Dev} (ha : d.adapter = some a) (env : Env) :
    mtkPdcInitTable d env = { d with cap := if env.pdReady = some true then a.powerCap env.selected
      else { d.cap with nr := 0, selectedCapIdx := 255 } } := by
  simp only [mtkPdcInitTable, pdHalIsPdAdapterReady, ha]
  cases env.pdReady with
  | none => rfl
  | some b => cases b <;> rfl

/-- The table has the adapter's capabilities, or none. -/
theorem initTable_held {a : Adapter} {d : Dev} (h : Held a d) (env : Env) :
    Held a (mtkPdcInitTable d env) ∧ (mtkPdcInitTable d env).cap.nr ≤ a.caps.length := by
  rw [initTable_eq h.adapter]
  refine ⟨⟨h.adapter, h.idx, h.reset, h.boost, h.buck⟩, ?_⟩
  split_ifs
  · exact Nat.le_refl _
  · exact Nat.zero_le _

theorem resetIdx_held {a : Adapter} {d : Dev} (h : Held a d) (hn : d.cap.nr ≤ a.caps.length) :
    Held a (mtkPdcGetResetIdx dt d) ∧ Below a (mtkPdcGetResetIdx dt d).pdResetIdx ∧
      (mtkPdcGetResetIdx dt d).cap = d.cap ∧ (mtkPdcGetResetIdx dt d).state = d.state := by
  unfold mtkPdcGetResetIdx
  split_ifs with hreset
  · have hb := foldl_below hn (f := fun idx i => if (d.cap.entry i).minMv = dt.vbusL ∧
      (d.cap.entry i).maxMv = dt.vbusL then i else idx) (by
        intro x i
        split_ifs
        · exact .inr rfl
        · exact .inl rfl) (below_zero a)
    exact ⟨⟨h.adapter, h.idx, .inr hb, h.boost, h.buck⟩, hb, rfl, rfl⟩
  · exact ⟨h, h.reset.resolve_left hreset, rfl, rfl⟩

theorem capMaxWatt_held {a : Adapter} {d : Dev} (h : Held a d) :
    Held a (mtkPdcGetCapMaxWatt dt d) ∧ (mtkPdcGetCapMaxWatt dt d).cap = d.cap ∧
      (mtkPdcGetCapMaxWatt dt d).pdResetIdx = d.pdResetIdx ∧
      (mtkPdcGetCapMaxWatt dt d).state = d.state := by
  unfold mtkPdcGetCapMaxWatt
  split_ifs
  · exact ⟨⟨h.adapter, h.idx, h.reset, h.boost, h.buck⟩, rfl, rfl, rfl⟩
  · exact ⟨h, rfl, rfl, rfl⟩

theorem reset_held {a : Adapter} {d : Dev} {env : Env} (h : Held a d)
    (hret : env.resetProbe.ret = 0) :
    ∃ a', a'.caps = a.caps ∧ Held a' (mtkPdcReset dt d env).1 ∧
      Below a (mtkPdcReset dt d env).1.pdResetIdx ∧
      (mtkPdcReset dt d env).2 = [(mtkPdcReset dt d env).1.pdResetIdx] ∧
      (mtkPdcReset dt d env).1.cap.nr ≤ a.caps.length ∧
      (mtkPdcReset dt d env).1.state = d.state := by
  obtain ⟨h1, hn1⟩ := initTable_held h env
  obtain ⟨h2, hb2, hc2, hs2⟩ := resetIdx_held dt h1 hn1
  have hn2 : (mtkPdcGetResetIdx dt (mtkPdcInitTable d env)).cap.nr ≤ a.caps.length := by
    rw [hc2]
    exact hn1
  obtain ⟨a', ha', h3, hc3, hr3, hs3⟩ := setup_held dt h2 hn2 hb2 hret
  unfold mtkPdcReset
  refine ⟨a', ha', h3, ?_, ?_, ?_, ?_⟩
  · rw [hr3]
    exact hb2
  · rw [hr3, setup_used]
  · rw [hc3]
    exact hn2
  · rw [hs3, hs2, initTable_eq h.adapter]

/-- The adapter has selected one of its capabilities, if it has any. -/
def SelectedOk (a : Adapter) (selected : Nat) : Prop :=
  a.caps = [] ∨ selected % 256 < a.caps.length ∨ pdCapMaxNr ≤ selected % 256

/-- The indices used are indices of the adapter's capabilities. -/
def UsedOk (a : Adapter) (used : List Int) : Prop := ∀ i ∈ used, 0 ≤ i ∧ i < a.caps.length

theorem Below.used {a : Adapter} {i : Int} (h : Below a i) (hn : a.caps ≠ []) :
    0 ≤ i ∧ i < a.caps.length := ⟨h.1, h.lt hn⟩

/-- The choice is between indices of the adapter. -/
theorem chooseIdx_below {a : Adapter} {d : Dev} (h : Held a d) {env : Env}
    (hc : d.cap = a.powerCap env.selected) (hn : a.caps ≠ []) (hs : SelectedOk a env.selected)
    (ibus : Int) :
    Below a (chooseIdx dt d env ibus).1.idx ∧ UsedOk a (chooseIdx dt d env ibus).2 := by
  have hsel : Below a (if pdCapMaxNr ≤ d.cap.selectedCapIdx then 0 else d.cap.selectedCapIdx) := by
    rw [hc]
    split_ifs with h10
    · exact below_zero a
    · obtain hs | hs | hs := hs
      · exact absurd hs hn
      · refine ⟨Int.natCast_nonneg _, .inl ?_⟩
        exact Int.ofNat_lt.2 hs
      · exact absurd hs h10
  have hidx : (chooseIdx dt d env ibus).1.idx = d.pdBoostIdx ∨
      (chooseIdx dt d env ibus).1.idx = d.pdBuckIdx ∨ (chooseIdx dt d env ibus).1.idx =
        if pdCapMaxNr ≤ d.cap.selectedCapIdx then 0 else (d.cap.selectedCapIdx : Int) := by
    simp only [chooseIdx]
    generalize (if pdCapMaxNr ≤ d.cap.selectedCapIdx then (0 : Int) else d.cap.selectedCapIdx) = sel
    split_ifs <;> first | exact .inl rfl | exact .inr (.inl rfl) | exact .inr (.inr rfl)
  have hb : Below a (chooseIdx dt d env ibus).1.idx := by
    obtain h0 | h0 | h0 := hidx
    · exact h0 ▸ h.boost
    · exact h0 ▸ h.buck
    · exact h0 ▸ hsel
  refine ⟨hb, ?_⟩
  rintro i (_ | ⟨_, _ | ⟨_, _ | ⟨_, ⟨⟩⟩⟩⟩)
  · exact hsel.used hn
  · exact h.buck.used hn
  · exact hb.used hn

/-- What a step that reads the table leaves, and the choice it makes. -/
theorem getSetting_held {a : Adapter} {d : Dev} {env : Env} (h : Held a d)
    (hs : SelectedOk a env.selected) (hret : env.resetProbe.ret = 0) :
    ∃ a', a'.caps = a.caps ∧ Held a' (mtkPdcGetSetting dt d env).1.2 ∧
      (mtkPdcGetSetting dt d env).1.2.cap.nr ≤ a.caps.length ∧
      (mtkPdcGetSetting dt d env).1.2.state = d.state ∧
      UsedOk a (mtkPdcGetSetting dt d env).2 ∧
      ∀ s, (mtkPdcGetSetting dt d env).1.1 = some s → a.caps ≠ [] ∧ Below a s.idx := by
  obtain ⟨h1, hn1⟩ := initTable_held h env
  obtain ⟨h2, -, hc2, hs2⟩ := resetIdx_held dt h1 hn1
  obtain ⟨h3, hc3, -, hs3⟩ := capMaxWatt_held dt h2
  have hcap : (mtkPdcGetCapMaxWatt dt (mtkPdcGetResetIdx dt (mtkPdcInitTable d env))).cap =
      (mtkPdcInitTable d env).cap := hc3.trans hc2
  have hstate : (mtkPdcGetCapMaxWatt dt (mtkPdcGetResetIdx dt (mtkPdcInitTable d env))).state =
      d.state := by
    rw [hs3, hs2, initTable_eq h.adapter]
  simp only [mtkPdcGetSetting]
  generalize mtkPdcGetCapMaxWatt dt (mtkPdcGetResetIdx dt (mtkPdcInitTable d env)) = d1
    at h3 hcap hstate
  by_cases hnr : d1.cap.nr = 0
  · simp only [if_pos hnr]
    exact ⟨a, rfl, h3, by omega, hstate, (fun _ h => nomatch h), (fun _ h => nomatch h)⟩
  -- the table was read, so it is the adapter's
  have hne : a.caps ≠ [] := by
    intro he
    rw [hcap] at hnr
    rw [he, List.length_nil] at hn1
    omega
  have hfull : d1.cap = a.powerCap env.selected := by
    rw [hcap, initTable_eq h.adapter] at hnr ⊢
    split_ifs at hnr ⊢
    · rfl
    · exact absurd rfl hnr
  have hle : d1.cap.nr ≤ a.caps.length := by
    rw [hfull]
    exact Nat.le_refl _
  simp only [if_neg hnr]
  cases env.ibus with
  | none => exact ⟨a, rfl, h3, hle, hstate, (fun _ h => nomatch h), (fun _ h => nomatch h)⟩
  | some ibus =>
    simp only
    generalize (if ibus.tdiv 1000 = 0 then 1000 else ibus.tdiv 1000) = ib
    split_ifs with hdrop
    · obtain ⟨a', ha', h4, hb4, hu4, hn4, hs4⟩ := reset_held dt h3 hret
      refine ⟨a', ha', h4, hn4, hs4.trans hstate, ?_, ?_⟩
      · intro i hi
        rw [hu4] at hi
        simp only [List.cons_append, List.nil_append, List.mem_cons, List.not_mem_nil, or_false,
          or_self] at hi
        exact hi ▸ hb4.used hne
      · rintro s ⟨⟩
        exact ⟨hne, hb4⟩
    · obtain ⟨hb, hu⟩ := chooseIdx_below dt h3 hfull hne hs ib
      refine ⟨a, rfl, h3, hle, hstate, hu, ?_⟩
      rintro s ⟨⟩
      exact ⟨hne, hb⟩

/-- Programming the chargers leaves what is remembered. -/
theorem setCharger_frame (d : Dev) (env : Env) :
    (setCharger dt d env).2.adapter = d.adapter ∧ (setCharger dt d env).2.pdIdx = d.pdIdx ∧
      (setCharger dt d env).2.pdResetIdx = d.pdResetIdx ∧
      (setCharger dt d env).2.pdBoostIdx = d.pdBoostIdx ∧
      (setCharger dt d env).2.pdBuckIdx = d.pdBuckIdx ∧
      (setCharger dt d env).2.state = d.state := by
  unfold setCharger
  by_cases hdual : dt.dualChargersInSeries = true
  · rw [if_pos hdual]
    simp only [pdDcsSetCharger]
    cases hst : d.state <;> split_ifs <;>
      first | exact ⟨rfl, rfl, rfl, rfl, rfl, rfl⟩ | exact ⟨rfl, rfl, rfl, rfl, rfl, hst⟩
  · rw [if_neg hdual]
    simp only [pdScSetCharger]
    split_ifs <;> exact ⟨rfl, rfl, rfl, rfl, rfl, rfl⟩

theorem limitBy_held {a : Adapter} {d : Dev} (h : Held a d) (s : Option Setting) :
    Held a (limitBy d s) ∧ (limitBy d s).cap = d.cap ∧ (limitBy d s).state = d.state := by
  obtain ⟨h1, h2, h3, h4, h5⟩ := h
  cases s with
  | none => exact ⟨⟨h1, h2, h3, h4, h5⟩, rfl, rfl⟩
  | some s =>
    simp only [limitBy]
    split_ifs <;> exact ⟨⟨h1, h2, h3, h4, h5⟩, rfl, rfl⟩

/-- **A run step** uses indices of the adapter's capabilities only. -/
theorem pdRun_held {a : Adapter} {d : Dev} {env : Env} (h : Held a d)
    (hs : SelectedOk a env.selected) (hret : env.resetProbe.ret = 0) (hret' : env.probe.ret = 0) :
    ∃ a', a'.caps = a.caps ∧ Held a' (pdRun dt d env).1.2 ∧ UsedOk a (pdRun dt d env).2 ∧
      (pdRun dt d env).1.2.state = d.state := by
  obtain ⟨a1, ha1, h1, hn1, hs1, hu1, hset⟩ := getSetting_held dt h hs hret
  simp only [pdRun]
  generalize mtkPdcGetSetting dt d env = r at h1 hn1 hs1 hu1 hset
  obtain ⟨h2, hc2, hs2⟩ := limitBy_held h1 (r.1.1.filter fun s => s.idx ≠ -1)
  generalize hsetting : r.1.1.filter (fun s => decide (s.idx ≠ -1)) = setting at h2 hc2 hs2
  cases setting with
  | none =>
    simp only
    obtain ⟨f1, f2, f3, f4, f5, f6⟩ := setCharger_frame dt (limitBy r.1.2 none) env
    refine ⟨a1, ha1, ⟨f1.trans h2.adapter, ?_, ?_, ?_, ?_⟩, ?_, ?_⟩
    · exact f2 ▸ h2.idx
    · exact f3 ▸ h2.reset
    · exact f4 ▸ h2.boost
    · exact f5 ▸ h2.buck
    · rw [List.append_nil]
      exact hu1
    · rw [f6, hs2, hs1]
  | some s =>
    have hmem : r.1.1 = some s := (Option.filter_eq_some_iff.1 hsetting).1
    obtain ⟨hne, hb⟩ := hset s hmem
    have hb1 : Below a1 s.idx := by
      unfold Below
      rw [ha1]
      exact hb
    obtain ⟨a2, ha2, h3, -, -, hs3⟩ := setup_held dt h2 (by rw [hc2, ha1]; exact hn1) hb1
      hret'
    simp only
    obtain ⟨f1, f2, f3, f4, f5, f6⟩ := setCharger_frame dt
      (mtkPdcSetup dt (limitBy r.1.2 (some s)) s.idx env.probe).1 env
    refine ⟨a2, ha2.trans ha1, ⟨f1.trans h3.adapter, ?_, ?_, ?_, ?_⟩, ?_, ?_⟩
    · exact f2 ▸ h3.idx
    · exact f3 ▸ h3.reset
    · exact f4 ▸ h3.boost
    · exact f5 ▸ h3.buck
    · intro i hi
      obtain hi | hi := List.mem_append.1 hi
      · exact hu1 i hi
      · rw [setup_used] at hi
        obtain rfl := List.mem_singleton.1 hi
        exact hb.used hne
    · rw [f6, hs3, hs2, hs1]

end

/-! ## Events -/

/-- The indices are about the adapter that is plugged in, and without one nothing is remembered. -/
structure Inv (d : Dev) : Prop where
  unplugged : d.adapter = none → Fresh d ∧ ¬ Running d
  plugged : ∀ a, d.adapter = some a → Held a d

/-- When an event goes well: the adapter has selected one of its capabilities and accepts what is
requested, a stop finds an adapter that is ready and has capabilities, and the adapter is plugged
out while the algorithm runs or has nothing to forget. -/
def EventOk (d : Dev) : Event → Prop
  | .startAlgo env => (∀ a, d.adapter = some a → SelectedOk a env.selected) ∧
      env.resetProbe.ret = 0 ∧ env.probe.ret = 0
  | .stopAlgo env => Running d → env.pdReady = some true ∧ env.resetProbe.ret = 0 ∧
      ∀ a, d.adapter = some a → a.caps ≠ []
  | .plugOut => Running d ∨ Fresh d
  | _ => True

/-- What an event may use and remember. -/
def Indexed (d : Dev) (_ : Event) (o : Out) (d' : Dev) : Prop :=
  (∀ i ∈ o.used, ∃ a, d.adapter = some a ∧ 0 ≤ i ∧ i < a.caps.length) ∧
    (d'.pdIdx = -1 ∨ ∃ a, d'.adapter = some a ∧ a.accepted = some d'.pdIdx)

theorem Inv.indexed {d d' : Dev} (h : Inv d') (e : Event) {o : Out}
    (hu : ∀ i ∈ o.used, ∃ a, d.adapter = some a ∧ 0 ≤ i ∧ i < a.caps.length) :
    Indexed d e o d' := by
  refine ⟨hu, ?_⟩
  cases ha : d'.adapter with
  | none => exact .inl (h.unplugged ha).1.idx
  | some a =>
    obtain h1 | h1 := (h.plugged a ha).idx
    · exact .inl h1
    · exact .inr ⟨a, rfl, h1⟩

theorem Held.inv {a : Adapter} {d : Dev} (h : Held a d) : Inv d :=
  ⟨(fun hn => by rw [h.adapter] at hn; cases hn), fun b hb => by
    rw [h.adapter, Option.some.injEq] at hb
    exact hb ▸ h⟩

/-- Changes of the state and the currents leave what is remembered. -/
theorem Inv.of_eq {d d' : Dev} (h : Inv d) (ha : d'.adapter = d.adapter)
    (hw : d'.pdCapMaxWatt = d.pdCapMaxWatt) (hi : d'.pdIdx = d.pdIdx)
    (hr : d'.pdResetIdx = d.pdResetIdx) (hb : d'.pdBoostIdx = d.pdBoostIdx)
    (hk : d'.pdBuckIdx = d.pdBuckIdx) (hrun : Running d' → Running d) : Inv d' := by
  constructor
  · intro hn
    obtain ⟨⟨f1, f2, f3, f4, f5⟩, hnr⟩ := h.unplugged (ha ▸ hn)
    exact ⟨⟨hw.trans f1, hi.trans f2, hr.trans f3, hb.trans f4, hk.trans f5⟩,
      fun hr => hnr (hrun hr)⟩
  · intro a haa
    obtain ⟨h1, h2, h3, h4, h5⟩ := h.plugged a (ha ▸ haa)
    exact ⟨ha.trans h1, hi ▸ h2, hr ▸ h3, hb ▸ h4, hk ▸ h5⟩

section
variable (dt : Dt)

theorem start_inv {d : Dev} {env : Env} (h : Inv d) (hok : EventOk d (.startAlgo env)) :
    Inv (pdStartAlgo dt d env).1.2 ∧ ∀ i ∈ (pdStartAlgo dt d env).2,
      ∃ a, d.adapter = some a ∧ 0 ≤ i ∧ i < a.caps.length := by
  obtain ⟨hsel, hr, hp⟩ := hok
  cases ha : d.adapter with
  | none =>
    -- without an adapter the algorithm neither runs nor starts
    obtain ⟨-, hnr⟩ := h.unplugged ha
    have hready : pdHalIsPdAdapterReady d env = .taChecking := by
      unfold pdHalIsPdAdapterReady
      rw [ha]
    unfold pdStartAlgo
    cases hst : d.state with
    | hwUninit | hwFail | taNotSupport => exact ⟨h, fun _ hi => nomatch hi⟩
    | hwReady =>
      rw [hready]
      exact ⟨h, fun _ hi => nomatch hi⟩
    | run => exact absurd (.inl hst) hnr
    | tuning => exact absurd (.inr (.inl hst)) hnr
    | postcc => exact absurd (.inr (.inr hst)) hnr
  | some a =>
    have hheld := h.plugged a ha
    have hrun : ∀ d', Held a d' → Inv (pdRun dt d' env).1.2 ∧
        ∀ i ∈ (pdRun dt d' env).2, ∃ b, some a = some b ∧ 0 ≤ i ∧ i < b.caps.length := by
      intro d' hd'
      obtain ⟨a', -, h', hu, -⟩ := pdRun_held dt hd' (hsel a ha) hr hp
      exact ⟨h'.inv, fun i hi => ⟨a, rfl, hu i hi⟩⟩
    have hstate : ∀ st, Inv { d with state := st } := fun st =>
      Held.inv ⟨hheld.adapter, hheld.idx, hheld.reset, hheld.boost, hheld.buck⟩
    unfold pdStartAlgo
    cases hst : d.state with
    | hwUninit | hwFail | taNotSupport => exact ⟨h, fun _ hi => nomatch hi⟩
    | hwReady =>
      simp only
      cases pdHalIsPdAdapterReady d env with
      | ready =>
        simp only
        split_ifs
        · exact hrun _ ⟨hheld.adapter, hheld.idx, hheld.reset, hheld.boost, hheld.buck⟩
        · exact ⟨h, fun _ hi => nomatch hi⟩
      | taNotSupport => exact ⟨hstate _, fun _ hi => nomatch hi⟩
      | initFail | taChecking | notReady | running | done => exact ⟨h, fun _ hi => nomatch hi⟩
    | run | tuning | postcc => exact hrun d hheld

theorem disable2_eq (d : Dev) : ∃ c, disable2 dt d = { d with chg2 := c } := by
  unfold disable2
  split_ifs
  · exact ⟨_, rfl⟩
  · exact ⟨d.chg2, rfl⟩

theorem stop_inv {d : Dev} {env : Env} (h : Inv d) (hok : EventOk d (.stopAlgo env)) :
    Inv (pdStopAlgo dt d env).1 ∧ ∀ i ∈ (pdStopAlgo dt d env).2,
      ∃ a, d.adapter = some a ∧ 0 ≤ i ∧ i < a.caps.length := by
  by_cases hrun : Running d
  · obtain ⟨-, hr, hne⟩ := hok hrun
    cases ha : d.adapter with
    | none => exact absurd hrun (h.unplugged ha).2
    | some a =>
      obtain ⟨a', -, h', hb, hu, -, -⟩ := reset_held dt (h.plugged a ha) hr
      have hused : ∀ i ∈ (mtkPdcReset dt d env).2,
          ∃ b, some a = some b ∧ 0 ≤ i ∧ i < b.caps.length := by
        intro i hi
        rw [hu] at hi
        obtain rfl := List.mem_singleton.1 hi
        exact ⟨a, rfl, hb.used (hne a ha)⟩
      obtain ⟨c2, hc2⟩ := disable2_eq dt { setInputCurrent1 (setChargingCurrent1
        (mtkPdcReset dt d env).1 pdFailCurrent) pdFailCurrent with state := .hwReady }
      have hinv : Inv (disable2 dt { setInputCurrent1 (setChargingCurrent1
          (mtkPdcReset dt d env).1 pdFailCurrent) pdFailCurrent with state := .hwReady }) := by
        rw [hc2]
        exact Held.inv ⟨h'.adapter, h'.idx, h'.reset, h'.boost, h'.buck⟩
      unfold pdStopAlgo
      obtain hst | hst | hst := hrun <;> rw [hst] <;> exact ⟨hinv, hused⟩
  · unfold pdStopAlgo
    cases hst : d.state with
    | hwUninit | hwFail | hwReady | taNotSupport => exact ⟨h, fun _ hi => nomatch hi⟩
    | run => exact absurd (.inl hst) hrun
    | tuning => exact absurd (.inr (.inl hst)) hrun
    | postcc => exact absurd (.inr (.inr hst)) hrun

theorem full_inv {d : Dev} (h : Inv d) (env : Env) : Inv (pdFullEvt dt d env) := by
  unfold pdFullEvt
  cases hst : d.state with
  | hwUninit | hwFail | hwReady | taNotSupport => exact h
  | run | tuning | postcc =>
    simp only
    split_ifs <;> first
      | exact h
      | exact h.of_eq rfl rfl rfl rfl rfl rfl fun hr => (by
          simp only [Running, hst, true_or, or_true])

theorem plugout_inv {d : Dev} (h : Running d ∨ Fresh d) :
    Inv (pdPlugoutReset dt d) := by
  have hnone : ∀ d' : Dev, d'.adapter = none → Fresh d' → ¬ Running d' → Inv d' :=
    fun d' ha hf hr => ⟨fun _ => ⟨hf, hr⟩, fun a haa => by rw [ha] at haa; cases haa⟩
  unfold pdPlugoutReset
  cases hst : d.state with
  | hwUninit | hwFail | hwReady =>
    obtain h | ⟨h1, h2, h3, h4, h5⟩ := h
    · simp [Running, hst] at h
    · exact hnone _ rfl ⟨h1, h2, h3, h4, h5⟩ (by simp [Running])
  | taNotSupport =>
    obtain h | ⟨h1, h2, h3, h4, h5⟩ := h
    · simp [Running, hst] at h
    · exact hnone _ rfl ⟨h1, h2, h3, h4, h5⟩ (by simp [Running])
  | run | tuning | postcc =>
    obtain ⟨c2, hc2⟩ := disable2_eq dt { d with adapter := none, state := .hwReady }
    simp only [hc2]
    exact hnone _ rfl ⟨rfl, rfl, rfl, rfl, rfl⟩ (by simp [Running])

theorem ready_inv {d : Dev} (h : Inv d) (env : Env) : Inv (pdIsAlgoReady dt d env).2 := by
  unfold pdIsAlgoReady
  cases hst : d.state with
  | hwUninit | hwFail | taNotSupport | run | tuning | postcc => exact h
  | hwReady =>
    simp only
    cases pdHalIsPdAdapterReady d env with
    | ready | taChecking => exact h
    | initFail | taNotSupport | notReady | running | done =>
      exact h.of_eq rfl rfl rfl rfl rfl rfl fun hr => (by simp [Running] at hr)

/-- **One event.** -/
theorem step_indexed {d : Dev} {e : Event} (h : Inv d) (hok : EventOk d e) :
    ∃ o d', step dt d e = some (o, d') ∧ Inv d' ∧ Indexed d e o d' := by
  have hquiet : ∀ d' r, Inv d' → Inv d' ∧ Indexed d e ⟨r, []⟩ d' :=
    fun d' r h' => ⟨h', h'.indexed e fun _ hi => nomatch hi⟩
  cases e with
  | plugIn caps le =>
    refine ⟨_, _, rfl, hquiet _ _ ?_⟩
    split_ifs with hs
    · exact h
    · have ha : d.adapter = none := by
        cases hd : d.adapter with
        | none => rfl
        | some a =>
          rw [hd] at hs
          exact absurd rfl hs
      obtain ⟨⟨f1, f2, f3, f4, f5⟩, -⟩ := h.unplugged ha
      have hf : Fresh { d with adapter := some ⟨caps, none, le⟩ } := ⟨f1, f2, f3, f4, f5⟩
      exact (hf.held rfl).inv
  | isAlgoReady env => exact ⟨_, _, rfl, hquiet _ _ (ready_inv dt h env)⟩
  | startAlgo env =>
    obtain ⟨h', hu⟩ := start_inv dt h hok
    exact ⟨_, _, rfl, h', h'.indexed _ hu⟩
  | stopAlgo env =>
    obtain ⟨h', hu⟩ := stop_inv dt h hok
    exact ⟨_, _, rfl, h', h'.indexed _ hu⟩
  | full env => exact ⟨_, _, rfl, hquiet _ _ (full_inv dt h env)⟩
  | plugOut => exact ⟨_, _, rfl, hquiet _ _ (plugout_inv dt hok)⟩
  | setSetting s =>
    exact ⟨_, _, rfl, hquiet _ _ (h.of_eq rfl rfl rfl rfl rfl rfl fun hr => hr)⟩

end

/-- **The capability indices.** In every run of events that go well, every index with which the
algorithm reads or requests a capability is an index of the adapter that is plugged in, and the
remembered index in use is the one this adapter last accepted. -/
theorem pd_indices (dt : Dt) (chg1 chg2 : Charger) (es : List Event)
    (hok : Sys.Along (step dt) EventOk (initAlgo chg1 chg2) es) :
    ∃ os d', Sys.run (step dt) (initAlgo chg1 chg2) es = some (os, d') ∧
      Sys.Trace Indexed (initAlgo chg1 chg2) os d' := by
  have hinit : Inv (initAlgo chg1 chg2) :=
    ⟨fun _ => ⟨⟨rfl, rfl, rfl, rfl, rfl⟩, by simp [Running, initAlgo]⟩, fun _ ha => nomatch ha⟩
  obtain ⟨os, d', hrun, -, htrace⟩ := Sys.run_sim id (fun d e hi hp => step_indexed dt hi hp) es
    (initAlgo chg1 chg2) hinit hok
  exact ⟨os, d', hrun, htrace⟩

/-- The default settings for one charger. -/
def dtDefault : Dt :=
  ⟨5000, 10000, 5000000, 14, 100000, 4600000, 80, 3000000, 3000000, 3200000, 1500000, 1500000,
    false⟩

/-- A charger that is off. -/
def chargerOff : Charger := ⟨0, 0, 0, false, false⟩

/-- What a call reads with a ready adapter and a bus current in mA. -/
def envAt (ibus : Int) : Env :=
  ⟨some true, 0, 50, some (ibus * 1000), 5000, false, false, 4600000, 4600000, false, false, 0, -1,
    -1, -1, ⟨4600000, 4600000, false, 4600000, 500000, 0⟩,
    ⟨4600000, 4600000, false, 4600000, 500000, 0⟩⟩

/-- No limits. -/
def noLimit : Event := .setSetting ⟨4350000, -1, -1, -1, -1⟩

/-! An adapter for 5 V and 9 V, and one for 5 V. -/

def plugTwo : Event :=
  .plugIn [⟨5000, 5000, 3000, 15000000⟩, ⟨9000, 9000, 2000, 18000000⟩] (by decide)

def plugOne : Event := .plugIn [⟨5000, 5000, 3000, 15000000⟩] (by decide)

theorem pd_indices_swap :
    ∃ os d', Sys.run (step dtDefault) (initAlgo chargerOff chargerOff)
        [noLimit, plugTwo, .startAlgo (envAt 500), .plugOut, plugOne] = some (os, d') ∧
      Sys.Trace Indexed (initAlgo chargerOff chargerOff) os d' := by
  refine pd_indices dtDefault chargerOff chargerOff _ ?_
  refine Sys.along_cons trivial rfl (Sys.along_cons trivial rfl (Sys.along_cons ⟨?_, rfl, rfl⟩ rfl
    (Sys.along_cons (.inl (by decide)) rfl (Sys.along_cons trivial rfl trivial))))
  rintro a ⟨⟩
  exact .inr (.inl (by decide))

/-- The battery is full before the adapter is plugged out: of the next adapter, which has one
capability, the second one is read and requested. -/
theorem pd_indices_fails :
    (Sys.run (step dtDefault) (initAlgo chargerOff chargerOff)
      [noLimit, plugTwo, .startAlgo (envAt 500), .full (envAt 500), .plugOut, noLimit, plugOne,
        .startAlgo (envAt 3000)]).map (fun q => (q.1.getLast?.map fun e => e.2.used,
          q.2.adapter.map fun a => a.caps.length)) = some (some [0, 0, 1, 1], some 1) := by
  decide

end Pd
