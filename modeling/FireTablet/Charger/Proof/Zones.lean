import FireTablet.Charger.Jeita

/-!
# What a pass of the JEITA machine does

The zone after a pass is the one of the pass before if it is kept, else the one that contains the
temperature (`jeitaZone_kept`, `jeitaZone_contains`), and it alone decides whether the battery may
be charged. A zone never keeps a temperature that it contains, so a second pass at the same
temperature finds what the first one left.
-/

namespace Charger

variable {d : JeitaThres} {temp : Int} {z z' : JeitaZone}

/-- The rule of the code: by hysteresis, or from the coldest zone over two thresholds at once. -/
def JeitaThres.Keeps (d : JeitaThres) (temp : Int) (z : JeitaZone) : Prop :=
  d.Kept temp z ∨ d.KeptCold temp z

/-- Charging is allowed in the zones between the outermost ones. -/
def JeitaZone.inner (z : JeitaZone) : Bool := decide (z ≠ .belowT0 ∧ z ≠ .aboveT4)

theorem jeitaZone_kept (h : d.Ordered) (hk : d.Keeps temp z) :
    jeitaZone d temp z = (z, z.inner) := by
  obtain ⟨h01, h12, h23, h34, -, -, -, -, -⟩ := h
  rcases hk with hk | ⟨rfl, hc, hx⟩
  · cases z with
    | t2ToT3 => exact hk.elim
    | belowT0 | t0ToT1 | t1ToT2 | t3ToT4 | aboveT4 =>
      obtain ⟨⟨hlo, hhi⟩, hx⟩ := hk
      unfold jeitaZone
      -- the bands above the temperature's are skipped, its own keeps the zone
      repeat rw [if_neg (by omega)]
      rw [if_pos (by omega)]
      simp [hx, JeitaZone.inner]
  · obtain ⟨hlo, hhi⟩ := hc
    unfold jeitaZone
    rw [if_neg (by omega), if_neg (by omega), if_neg (by omega), if_pos hlo]
    simp [hx, JeitaZone.inner]

theorem jeitaZone_contains (h : d.Ordered) (hc : d.Contains temp z') (hk : ¬ d.Keeps temp z) :
    jeitaZone d temp z = (z', z'.inner) := by
  obtain ⟨h01, h12, h23, h34, -, -, -, -, -⟩ := h
  simp only [JeitaThres.Keeps, not_or] at hk
  obtain ⟨hk, hcold⟩ := hk
  unfold jeitaZone
  cases z' with
  | belowT0 =>
    have hc : temp < d.tempT0Thres := hc
    rw [if_neg (by omega), if_neg (by omega), if_neg (by omega), if_neg (by omega),
      if_neg (by omega)]
    rfl
  | aboveT4 =>
    have hc : d.tempT4Thres ≤ temp := hc
    rw [if_pos hc]
    rfl
  | t3ToT4 =>
    obtain ⟨hlo, hhi⟩ := hc
    rw [if_neg (by omega), if_pos hlo, if_neg]
    · rfl
    · rintro ⟨rfl, hx⟩
      exact hk ⟨⟨hlo, hhi⟩, hx⟩
  | t2ToT3 =>
    obtain ⟨hlo, hhi⟩ := hc
    rw [if_neg (by omega), if_neg (by omega), if_pos hlo, if_neg]
    · rfl
    · rintro (⟨rfl, hx⟩ | ⟨rfl, hx⟩)
      · exact hk ⟨⟨hlo, hhi⟩, hx⟩
      · exact hk ⟨⟨hlo, hhi⟩, hx⟩
  | t1ToT2 =>
    obtain ⟨hlo, hhi⟩ := hc
    rw [if_neg (by omega), if_neg (by omega), if_neg (by omega), if_pos hlo, if_neg]
    · rfl
    · rintro ⟨rfl | rfl, hx⟩
      · exact hk ⟨⟨hlo, hhi⟩, hx⟩
      · exact hcold ⟨rfl, ⟨hlo, hhi⟩, hx⟩
  | t0ToT1 =>
    obtain ⟨hlo, hhi⟩ := hc
    rw [if_neg (by omega), if_neg (by omega), if_neg (by omega), if_neg (by omega), if_pos hlo,
      if_neg]
    · rfl
    · rintro ⟨rfl, hx⟩
      exact hk ⟨⟨hlo, hhi⟩, hx⟩

/-- Every temperature is in a zone. -/
theorem exists_contains (d : JeitaThres) (temp : Int) : ∃ z, d.Contains temp z := by
  by_cases h0 : temp < d.tempT0Thres
  · exact ⟨.belowT0, h0⟩
  by_cases h1 : temp < d.tempT1Thres
  · exact ⟨.t0ToT1, not_lt.1 h0, h1⟩
  by_cases h2 : temp < d.tempT2Thres
  · exact ⟨.t1ToT2, not_lt.1 h1, h2⟩
  by_cases h3 : temp < d.tempT3Thres
  · exact ⟨.t2ToT3, not_lt.1 h2, h3⟩
  by_cases h4 : temp < d.tempT4Thres
  · exact ⟨.t3ToT4, not_lt.1 h3, h4⟩
  · exact ⟨.aboveT4, not_lt.1 h4⟩

theorem Keeps.not_contains (h : d.Ordered) (hk : d.Keeps temp z) : ¬ d.Contains temp z := by
  obtain ⟨h01, h12, h23, h34, -, -, -, -, -⟩ := h
  rcases hk with hk | ⟨rfl, ⟨hlo, hhi⟩, hx⟩
  · cases z with
    | t2ToT3 => exact hk.elim
    | belowT0 | t0ToT1 | t1ToT2 | t3ToT4 | aboveT4 =>
      obtain ⟨⟨hlo, hhi⟩, hx⟩ := hk
      intro hc
      simp only [JeitaThres.Contains] at hc
      omega
  · intro hc
    simp only [JeitaThres.Contains] at hc
    omega

/-- A zone that is kept is kept inside the thresholds. -/
theorem Keeps.between (h : d.Ordered) (hk : d.Keeps temp z) :
    d.tempT0Thres ≤ temp ∧ temp < d.tempT4Thres := by
  obtain ⟨h01, h12, h23, h34, -, -, -, -, -⟩ := h
  rcases hk with hk | ⟨rfl, ⟨hlo, hhi⟩, hx⟩
  · cases z with
    | t2ToT3 => exact hk.elim
    | belowT0 | t0ToT1 | t1ToT2 | t3ToT4 | aboveT4 =>
      obtain ⟨⟨hlo, hhi⟩, hx⟩ := hk
      omega
  · omega

theorem Contains.inner (hc : d.Contains temp z) (h : d.Ordered) :
    z.inner = false ↔ temp < d.tempT0Thres ∨ d.tempT4Thres ≤ temp := by
  obtain ⟨h01, h12, h23, h34, -, -, -, -, -⟩ := h
  cases z with
  | belowT0 =>
    have hc : temp < d.tempT0Thres := hc
    simp [JeitaZone.inner, hc]
  | aboveT4 =>
    have hc : d.tempT4Thres ≤ temp := hc
    simp [JeitaZone.inner, hc]
  | t0ToT1 | t1ToT2 | t2ToT3 | t3ToT4 =>
    obtain ⟨hlo, hhi⟩ := hc
    simp [JeitaZone.inner]
    omega

/-- Charging is off outside the thresholds, and in an outermost zone that is kept. -/
theorem jeitaZone_off (h : d.Ordered) :
    (jeitaZone d temp z).2 = false ↔ temp < d.tempT0Thres ∨ d.tempT4Thres ≤ temp ∨
      ((z = .belowT0 ∨ z = .aboveT4) ∧ d.Keeps temp z) := by
  by_cases hk : d.Keeps temp z
  · have hin := Keeps.between h hk
    simp only [jeitaZone_kept h hk, JeitaZone.inner, hk, and_true, decide_eq_false_iff_not]
    constructor
    · intro hz
      exact Or.inr (Or.inr (by tauto))
    · rintro (hlo | hhi | hz)
      · omega
      · omega
      · tauto
  · obtain ⟨z', hc⟩ := exists_contains d temp
    simp only [jeitaZone_contains h hc hk, Contains.inner hc h, hk, and_false, or_false]

/-- Two passes at one temperature are one. -/
theorem jeitaZone_again (h : d.Ordered) (temp : Int) (z : JeitaZone) :
    jeitaZone d temp (jeitaZone d temp z).1 = jeitaZone d temp z := by
  by_cases hk : d.Keeps temp z
  · rw [jeitaZone_kept h hk]
    exact jeitaZone_kept h hk
  · obtain ⟨z', hc⟩ := exists_contains d temp
    rw [jeitaZone_contains h hc hk]
    exact jeitaZone_contains h hc fun hk' => Keeps.not_contains h hk' hc

theorem jeitaPass (h : d.Ordered) (data : CvData) (stage : Option Int) (temp : Int) (j : SwJeita) :
    JeitaPass d data d.Keeps stage temp j (doSwJeitaStateMachine d data stage temp j) where
  zone_kept := by
    intro hk
    simp only [doSwJeitaStateMachine, jeitaZone_kept h hk]
  zone_contains := by
    intro hk
    obtain ⟨z', hc⟩ := exists_contains d temp
    simpa only [doSwJeitaStateMachine, jeitaZone_contains h hc hk] using hc
  charging_off := jeitaZone_off h
  cv_eq := rfl
  again := by
    refine ⟨(jeitaZone d temp j.sm).1, ?_⟩
    simp only [doSwJeitaStateMachine, jeitaZone_again h]

/-! ## The temperatures at which charging is allowed -/

theorem mem_allowed (h : d.Ordered) :
    temp ∈ d.allowed z ↔ d.tempT0Thres ≤ temp ∧ temp < d.tempT4Thres ∧
      ¬ ((z = .belowT0 ∨ z = .aboveT4) ∧ d.Keeps temp z) := by
  have hoff : (jeitaZone d temp z).2 = false ↔ _ := jeitaZone_off h
  rw [← Bool.not_eq_true] at hoff
  simp only [JeitaThres.allowed, Set.mem_ofPred_eq]
  constructor
  · intro hon
    have := mt hoff.2 (not_not.2 hon)
    simp only [not_or, not_lt, not_le] at this
    exact this
  · rintro ⟨hlo, hhi, hz⟩
    by_contra hn
    rcases hoff.1 hn with hlt | hge | hk
    · omega
    · omega
    · exact hz hk

theorem allowed_inner (h : d.Ordered) (hz : z.inner = true) :
    d.allowed z = Set.Ico d.tempT0Thres d.tempT4Thres := by
  ext temp
  rw [mem_allowed h]
  simp only [JeitaZone.inner, decide_eq_true_eq] at hz
  simp [hz.1, hz.2]

theorem allowed_aboveT4 (h : d.Ordered) :
    d.allowed .aboveT4 = Set.Ico d.tempT0Thres d.tempT4ThresMinusXDegree := by
  ext temp
  rw [mem_allowed h]
  obtain ⟨h01, h12, h23, h34, -, -, -, -, h4⟩ := h
  simp only [JeitaThres.Keeps, JeitaThres.Kept, JeitaThres.KeptCold, JeitaThres.Contains,
    Set.mem_Ico, or_true, true_and, reduceCtorEq, false_and, or_false]
  omega

/-- From the coldest zone there are two intervals: one in the next zone, one behind the hysteresis
point of the zone after it. -/
theorem allowed_belowT0 (h : d.Ordered) :
    d.allowed .belowT0 = Set.Ioo d.tempT0ThresPlusXDegree d.tempT1Thres ∪
      Set.Ico (min (d.tempT1ThresPlusXDegree + 1) d.tempT2Thres) d.tempT4Thres := by
  ext temp
  rw [mem_allowed h]
  obtain ⟨h01, h12, h23, h34, h0, h1, -, -, -⟩ := h
  simp only [JeitaThres.Keeps, JeitaThres.Kept, JeitaThres.KeptCold, JeitaThres.Contains,
    Set.mem_union, Set.mem_Ioo, Set.mem_Ico, true_or, true_and]
  omega

/-! ## All passes -/

theorem jeitaRun_snoc (data : CvData) (readings : List (Option Int × Int)) (r : Option Int × Int)
    (j : SwJeita) : jeitaRun d data (readings ++ [r]) j =
      doSwJeitaStateMachine d data r.1 r.2 (jeitaRun d data readings j) := by
  simp only [jeitaRun, List.foldl_append, List.foldl_cons, List.foldl_nil]

/-- In every run each pass keeps or finds the zone, and charging is off exactly outside the
thresholds and in an outermost zone that is kept. Only the coldest zone allows charging in two
intervals. -/
theorem jeita_zones (h : d.Ordered) (data : CvData) (readings : List (Option Int × Int))
    (stage : Option Int) (temp : Int) (j : SwJeita) :
    JeitaPass d data (fun temp z => d.Kept temp z ∨ d.KeptCold temp z) stage temp
        (jeitaRun d data readings j) (jeitaRun d data (readings ++ [(stage, temp)]) j) ∧
      (∀ z, z ≠ .belowT0 → (d.allowed z).OrdConnected) ∧
      d.allowed .belowT0 = Set.Ioo d.tempT0ThresPlusXDegree d.tempT1Thres ∪
        Set.Ico (min (d.tempT1ThresPlusXDegree + 1) d.tempT2Thres) d.tempT4Thres := by
  refine ⟨?_, ?_, allowed_belowT0 h⟩
  · rw [jeitaRun_snoc]
    exact jeitaPass h data stage temp _
  · intro z hz
    by_cases ha : z = .aboveT4
    · subst ha
      rw [allowed_aboveT4 h]
      exact Set.ordConnected_Ico
    · rw [allowed_inner h (by simp [JeitaZone.inner, hz, ha])]
      exact Set.ordConnected_Ico

/-- Thresholds 0, 10, 20, 45 and 50 degrees. -/
def spreadThres : JeitaThres where
  tempT4Thres := 50
  tempT4ThresMinusXDegree := 47
  tempT3Thres := 45
  tempT3ThresMinusXDegree := 39
  tempT2Thres := 20
  tempT2ThresPlusXDegree := 26
  tempT1Thres := 10
  tempT1ThresPlusXDegree := 16
  tempT0Thres := 0
  tempT0ThresPlusXDegree := 2

theorem spreadThres_ordered : spreadThres.Ordered := by
  constructor <;> decide

/-- The voltages of `mtk_charger.h`, in every stage. -/
def defaultCv : CvData :=
  let c : CvSet := ⟨4400000, 4240000, 4240000, 4240000, 4040000, 4040000⟩
  ⟨c, c, c⟩

theorem jeita_zones_spread :
    spreadThres.Ordered ∧
      (JeitaPass spreadThres defaultCv
        (fun temp z => spreadThres.Kept temp z ∨ spreadThres.KeptCold temp z) none 12
        (jeitaRun spreadThres defaultCv [(none, -5)] ⟨.t2ToT3, .t2ToT3, 0, true⟩)
        (jeitaRun spreadThres defaultCv ([(none, -5)] ++ [(none, 12)]) ⟨.t2ToT3, .t2ToT3, 0, true⟩) ∧
      (∀ z, z ≠ .belowT0 → (spreadThres.allowed z).OrdConnected) ∧
      spreadThres.allowed .belowT0 =
        Set.Ioo spreadThres.tempT0ThresPlusXDegree spreadThres.tempT1Thres ∪
        Set.Ico (min (spreadThres.tempT1ThresPlusXDegree + 1) spreadThres.tempT2Thres)
          spreadThres.tempT4Thres) :=
  ⟨spreadThres_ordered, jeita_zones spreadThres_ordered defaultCv [(none, -5)] none 12
    ⟨.t2ToT3, .t2ToT3, 0, true⟩⟩

/-- From -5 degrees to 12 the zone stays below `t0`, which neither holds the temperature nor is
beside the zone that does; charging is off at 12 degrees, but would be allowed at 5 and at 18. -/
theorem jeita_zones_two_steps :
    spreadThres.Ordered ∧
      let j := jeitaRun spreadThres defaultCv [(none, -5)] ⟨.t2ToT3, .t2ToT3, 0, true⟩
      let j' := jeitaRun spreadThres defaultCv [(none, -5), (none, 12)] ⟨.t2ToT3, .t2ToT3, 0, true⟩
      j.sm = .belowT0 ∧ j'.sm = .belowT0 ∧ j'.charging = false ∧
        ¬ spreadThres.Kept 12 j.sm ∧ ¬ spreadThres.Contains 12 j'.sm ∧
        spreadThres.tempT0ThresPlusXDegree < 12 ∧
        ¬ JeitaPass spreadThres defaultCv spreadThres.Kept none 12 j j' ∧
        ¬ (spreadThres.allowed j.sm).OrdConnected := by
  have hkept : ¬ spreadThres.Kept 12 .belowT0 := by
    rintro ⟨⟨-, hhi⟩, -⟩
    exact absurd hhi (by decide)
  have hcontains : ¬ spreadThres.Contains 12 .belowT0 :=
    fun hc => absurd (show (12 : Int) < 0 from hc) (by decide)
  refine ⟨spreadThres_ordered, by decide, by decide, by decide, hkept, hcontains, by decide, ?_, ?_⟩
  · intro hp
    exact hcontains (hp.zone_contains hkept)
  · intro hord
    have h5 : (5 : Int) ∈ spreadThres.allowed .belowT0 :=
      show (jeitaZone spreadThres 5 .belowT0).2 = true by decide
    have h18 : (18 : Int) ∈ spreadThres.allowed .belowT0 :=
      show (jeitaZone spreadThres 18 .belowT0).2 = true by decide
    have h12 : (12 : Int) ∈ spreadThres.allowed .belowT0 :=
      hord.out h5 h18 ⟨by decide, by decide⟩
    have h12 : (jeitaZone spreadThres 12 .belowT0).2 = true := h12
    exact absurd h12 (by decide)

end Charger
