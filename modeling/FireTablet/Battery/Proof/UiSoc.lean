import FireTablet.Lib.Run
import FireTablet.Battery.Algo

/-!
# The displayed charge

Every division is by a displayed charge or a capacity that is not zero, and every change of the
displayed charge is by a gap from 0 to 100 (`ui_soc_kept`). `EventOk` is when an event does both.
-/

namespace Battery

open CInt

/-! ## Gaps -/

theorem htGapOf_ge (q u : Int) : 15 ≤ htGapOf q u := by
  simp only [htGapOf, carMinGap]
  split_ifs <;> omega

theorem ltGapOf_ge (q u x : Int) : 15 ≤ ltGapOf q u x := by
  simp only [ltGapOf, carMinGap]
  split_ifs <;> omega

/-- The gap down at 1 % and below. -/
def lowGap (q : Int) : Int := if q.tdiv 200 < carMinGap then carMinGap else q.tdiv 200

theorem ltGapOf_low {u : Int} (hu : u ≤ 100) (q x : Int) : ltGapOf q u x = lowGap q := by
  simp only [ltGapOf, lowGap, if_pos hu]

theorem tdiv_nonneg_of {x g : Int} (hx : 0 ≤ x) (hg : 15 ≤ g) : 0 ≤ x.tdiv g :=
  Int.tdiv_nonneg hx (by omega)

theorem fallGap_range (a : Algo) (d : Int) : 0 ≤ fallGap a d ∧ fallGap a d ≤ 100 := by
  simp only [fallGap]
  split_ifs <;> omega

/-- Below 1 % the gap is less than the displayed charge if the counter has fallen little. -/
theorem fallGap_lt {a : Algo} {d : Int} (hu0 : 0 < a.uiSoc) (hu : a.uiSoc ≤ 100)
    (hg : 0 < a.ltGap) (hd : d < a.uiSoc * a.ltGap) : fallGap a d < a.uiSoc := by
  have hsoc : ¬ (a.uiSoc > a.soc ∧ a.soc ≥ 100) := by omega
  have hlt : d.tdiv a.ltGap < a.uiSoc := by
    by_cases h0 : 0 ≤ d
    · rw [Int.tdiv_eq_ediv_of_nonneg h0]
      exact Int.ediv_lt_of_lt_mul hg hd
    · have hneg : d.tdiv a.ltGap ≤ 0 := by
        have := Int.tdiv_nonneg (a := -d) (b := a.ltGap) (by omega) (by omega)
        rw [Int.neg_tdiv] at this
        omega
      omega
  simp only [fallGap, if_neg hsoc]
  split_ifs <;> omega

/-! ## The parts of a handler -/

section
variable (cust : Cust)

/-- What the thresholds and the charge leave alone. -/
structure Kept (a a' : Algo) : Prop where
  uiSoc : a'.uiSoc = a.uiSoc
  prev : a'.prevCarBat0 = a.prevCarBat0
  qmax : a'.qmaxT0maTb1 = a.qmaxT0maTb1
  aging : a'.agingFactor = a.agingFactor
  done : a'.dodInitDone = a.dodInitDone

theorem Kept.trans {a b c : Algo} (h : Kept a b) (h' : Kept b c) : Kept a c :=
  ⟨h'.uiSoc.trans h.uiSoc, h'.prev.trans h.prev, h'.qmax.trans h.qmax, h'.aging.trans h.aging,
    h'.done.trans h.done⟩

/-- The capacity in use. -/
def Algo.quse (cust : Cust) (a : Algo) : Int := Battery.quse cust a.qmaxT0maTb1 a.agingFactor

theorem Kept.quse_eq {a a' : Algo} (h : Kept a a') : a'.quse cust = a.quse cust := by
  unfold Algo.quse
  rw [h.qmax, h.aging]

theorem map_div {f : Int → Algo} {x y : Int} (hy : y ≠ 0) :
    (div x y).map f = some (f (i32 (x.tdiv y))) := by
  rw [div, if_neg hy, Option.map_some]

theorem threshold_spec {a : Algo} (hu : a.uiSoc ≠ 0) (car : Int) :
    ∃ a' x, fgrUpdateUisocThreshold cust a car = some a' ∧ Kept a a' ∧ a'.soc = a.soc ∧
      a'.htGap = htGapOf (a.quse cust) a.uiSoc ∧ a'.ltGap = ltGapOf (a.quse cust) a.uiSoc x :=
  ⟨_, _, map_div hu, ⟨rfl, rfl, rfl, rfl, rfl⟩, rfl, rfl, rfl⟩

theorem gaps_spec {a : Algo} (hu : a.uiSoc ≠ 0) (c : Nat → Int) :
    ∃ a', fgrUpdateUisocGaps cust a c = some a' ∧ Kept a a' := by
  obtain ⟨a1, -, h1, k1, -⟩ := threshold_spec cust hu (c 0)
  obtain ⟨a2, -, h2, k2, -⟩ := threshold_spec cust (k1.uiSoc ▸ hu) (c 1)
  refine ⟨a2, ?_, k1.trans k2⟩
  rw [fgrUpdateUisocGaps, h1]
  exact h2

theorem cDod_spec {a : Algo} (hq : a.quse cust ≠ 0) (car : Int) :
    ∃ a', fgrUpdateCDod cust a car = some a' ∧ Kept a a' := by
  exact ⟨_, map_div hq, ⟨rfl, rfl, rfl, rfl, rfl⟩⟩

theorem int1_spec {a : Algo} (hq : a.quse cust ≠ 0) (c : Nat → Int) :
    ∃ a', fgrBatInt1Handler cust a c = some a' ∧ Kept a a' := by
  obtain ⟨a1, h1, k1⟩ := cDod_spec cust hq (c 0)
  refine ⟨fgrSetSocByVcMode (fgrUpdateFgBatInt1Threshold cust a1), ?_,
    k1.trans ⟨rfl, rfl, rfl, rfl, rfl⟩⟩
  rw [fgrBatInt1Handler, h1]
  rfl

theorem tempC_spec {t : Table} {a : Algo} (ha : a.agingFactor ≤ 10000)
    (hq : quse cust t.qmax a.agingFactor ≠ 0) (c : Nat → Int) :
    ∃ a', fgrTempCIntHandler cust t a c = some a' ∧ a'.uiSoc = a.uiSoc ∧
      a'.agingFactor = a.agingFactor ∧ a'.dodInitDone = a.dodInitDone ∧ a'.quse cust ≠ 0 := by
  have haging : (fgrConstructTable t a).agingFactor = a.agingFactor := if_neg (by omega)
  have hq' : (fgrConstructTable t a).quse cust ≠ 0 := by
    unfold Algo.quse
    rw [haging]
    exact hq
  obtain ⟨a1, h1, k1⟩ := cDod_spec cust hq' (c 0)
  refine ⟨fgrSetSocByVcMode a1, ?_, k1.uiSoc, k1.aging.trans haging, k1.done, ?_⟩
  · rw [fgrTempCIntHandler, h1]
    rfl
  · rw [show (fgrSetSocByVcMode a1).quse cust = a1.quse cust from rfl, k1.quse_eq]
    exact hq'

/-! ## Rises and falls -/

/-- A rise goes well: the displayed charge is not zero, and the distance does not overflow. -/
def RiseOk (a : Algo) (car : Int) : Prop := a.uiSoc ≠ 0 ∧ 0 ≤ moved a.prevCarBat0 car

/-- A fall goes well: without a charger from 1 % on; with one, from a charge above 1 % or by a
distance that does not use it up. -/
def FallOk (cust : Cust) (charger : Bool) (a : Algo) (car : Int) : Prop :=
  if charger then 0 < a.uiSoc ∧
    (100 < a.uiSoc ∨ moved a.prevCarBat0 car < a.uiSoc * lowGap (a.quse cust))
  else 100 ≤ a.uiSoc

instance (a : Algo) (car : Int) : Decidable (RiseOk a car) := inferInstanceAs (Decidable (_ ∧ _))

instance (charger : Bool) (a : Algo) (car : Int) : Decidable (FallOk cust charger a car) :=
  inferInstanceAs (Decidable (ite _ _ _))

/-- What a change of the displayed charge leaves alone. -/
structure Moved (a a' : Algo) : Prop where
  qmax : a'.qmaxT0maTb1 = a.qmaxT0maTb1
  aging : a'.agingFactor = a.agingFactor
  done : a'.dodInitDone = a.dodInitDone

theorem Kept.moved {a a' : Algo} (h : Kept a a') : Moved a a' := ⟨h.qmax, h.aging, h.done⟩

theorem Moved.trans {a b c : Algo} (h : Moved a b) (h' : Moved b c) : Moved a c :=
  ⟨h'.qmax.trans h.qmax, h'.aging.trans h.aging, h'.done.trans h.done⟩

theorem Moved.quse_eq {a a' : Algo} (h : Moved a a') : a'.quse cust = a.quse cust := by
  unfold Algo.quse
  rw [h.qmax, h.aging]

/-- **A rise** is by 0 to 100, up to 10000. -/
theorem h_spec {a : Algo} {c : Nat → Int} (h0 : 0 ≤ a.uiSoc) (h1 : a.uiSoc ≤ 10000)
    (hok : RiseOk a (c 0)) :
    ∃ a', fgrBatInt2HHandler cust a c = some a' ∧ Moved a a' ∧ a.uiSoc ≤ a'.uiSoc ∧
      a'.uiSoc ≤ a.uiSoc + 100 ∧ a'.uiSoc ≤ 10000 := by
  obtain ⟨hu, hm⟩ := hok
  obtain ⟨a1, -, ht, k1, -, hht, -⟩ := threshold_spec cust hu (c 1)
  have hge := htGapOf_ge (a.quse cust) a.uiSoc
  have hgap := tdiv_nonneg_of hm (hht ▸ hge : 15 ≤ a1.htGap)
  simp only [fgrBatInt2HHandler, ht, Option.bind_eq_bind, Option.bind_some, k1.prev]
  generalize (moved a.prevCarBat0 (c 0)).tdiv a1.htGap = gap at hgap
  generalize ha2 : (if (if gap > 100 then 100 else gap) > 0 then
    { a1 with prevCarBat0 := c 0 } else a1) = a2
  have k2 : Moved a1 a2 ∧ a2.uiSoc = a1.uiSoc := by
    subst ha2
    split_ifs <;> exact ⟨⟨rfl, rfl, rfl⟩, rfl⟩
  rw [k2.2, k1.uiSoc]
  generalize hui : (if a.uiSoc ≥ 10000 then (10000 : Int) else
    if i32 (a.uiSoc + if gap > 100 then 100 else gap) ≥ 10000 then 10000
    else i32 (a.uiSoc + if gap > 100 then 100 else gap)) = ui
  have hrange : a.uiSoc ≤ ui ∧ ui ≤ a.uiSoc + 100 ∧ ui ≤ 10000 := by
    have hi : i32 (a.uiSoc + if gap > 100 then 100 else gap) =
        a.uiSoc + if gap > 100 then 100 else gap := by
      refine i32_eq ?_
      unfold IsI32
      split_ifs <;> omega
    rw [hi] at hui
    split_ifs at hui <;> omega
  obtain ⟨a3, h3, k3⟩ := gaps_spec cust (a := { a2 with uiSoc := ui })
    (by simp only; omega) fun n => c (n + 2)
  refine ⟨a3, h3, k1.moved.trans (k2.1.trans ⟨k3.qmax, k3.aging, k3.done⟩), ?_⟩
  rw [k3.uiSoc]
  exact hrange

/-- **A fall** is by 0 to 100, and the displayed charge stays positive. -/
theorem l_spec {charger : Bool} {a : Algo} {c : Nat → Int} (h1 : a.uiSoc ≤ 10000)
    (hok : FallOk cust charger a (c 0)) :
    ∃ a', fgrBatInt2LHandler cust charger a c = some a' ∧ Moved a a' ∧ a'.uiSoc ≤ a.uiSoc ∧
      a.uiSoc - 100 ≤ a'.uiSoc ∧ 0 < a'.uiSoc := by
  have hpos : 0 < a.uiSoc := by
    unfold FallOk at hok
    split_ifs at hok
    · exact hok.1
    · omega
  obtain ⟨a1, x, ht, k1, -, -, hlt⟩ := threshold_spec cust (Int.ne_of_gt hpos) (c 1)
  have hge := ltGapOf_ge (a.quse cust) a.uiSoc x
  obtain ⟨hg0, hg1⟩ := fallGap_range a1 (moved a.prevCarBat0 (c 0))
  -- with a charger the fall does not use the charge up
  have huse : charger = true → fallGap a1 (moved a.prevCarBat0 (c 0)) < a.uiSoc := by
    intro hc
    rw [FallOk, if_pos hc] at hok
    obtain hbig | hsmall := hok.2
    · omega
    · by_cases hbig : 100 < a.uiSoc
      · omega
      · rw [← k1.uiSoc]
        refine fallGap_lt (by rw [k1.uiSoc]; exact hpos) (by rw [k1.uiSoc]; omega)
          (by rw [hlt]; omega) ?_
        rw [hlt, k1.uiSoc, ltGapOf_low (by omega)]
        exact hsmall
  have hfree : ¬ charger = true → 100 ≤ a.uiSoc := by
    intro hc
    rwa [FallOk, if_neg hc] at hok
  simp only [fgrBatInt2LHandler, ht, Option.bind_eq_bind, Option.bind_some, k1.prev]
  generalize fallGap a1 (moved a.prevCarBat0 (c 0)) = gap at hg0 hg1 huse
  generalize ha2 : (if gap > 0 then { a1 with prevCarBat0 := c 0 } else a1) = a2
  have k2 : Moved a1 a2 ∧ a2.uiSoc = a1.uiSoc := by
    subst ha2
    split_ifs <;> exact ⟨⟨rfl, rfl, rfl⟩, rfl⟩
  rw [k2.2, k1.uiSoc]
  have hi : i32 (a.uiSoc - gap) = a.uiSoc - gap := by
    refine i32_eq ?_
    unfold IsI32
    omega
  have hrange : fallTo charger a.uiSoc gap ≤ a.uiSoc ∧
      a.uiSoc - 100 ≤ fallTo charger a.uiSoc gap ∧ 0 < fallTo charger a.uiSoc gap := by
    unfold fallTo
    rw [hi]
    by_cases hc : charger = true
    · have := huse hc
      rw [if_pos hc]
      omega
    · have := hfree hc
      rw [if_neg hc]
      split_ifs <;> omega
  generalize fallTo charger a.uiSoc gap = ui at hrange
  obtain ⟨a3, h3, k3⟩ := gaps_spec cust (a := { a2 with uiSoc := ui })
    (by simp only; omega) fun n => c (n + 2)
  refine ⟨a3, h3, k1.moved.trans (k2.1.trans ⟨k3.qmax, k3.aging, k3.done⟩), ?_⟩
  rw [k3.uiSoc]
  exact hrange

theorem int2_spec {charger : Bool} {a : Algo} {c : Nat → Int} (h0 : 0 ≤ a.uiSoc)
    (h1 : a.uiSoc ≤ 10000) (hr : a.prevCarBat0 < c 0 → RiseOk a (c 1))
    (hf : c 0 < a.prevCarBat0 → FallOk cust charger a (c 1)) :
    ∃ a', fgrBatInt2Handler cust charger a c = some a' ∧ Moved a a' ∧
      0 ≤ a'.uiSoc ∧ a'.uiSoc ≤ 10000 ∧ a.uiSoc - 100 ≤ a'.uiSoc ∧ a'.uiSoc ≤ a.uiSoc + 100 ∧
      (a.prevCarBat0 < c 0 → a.uiSoc ≤ a'.uiSoc) ∧
      (c 0 < a.prevCarBat0 → a'.uiSoc ≤ a.uiSoc) := by
  obtain hlt | heq | hgt := Int.lt_trichotomy a.prevCarBat0 (c 0)
  · obtain ⟨a', h, k, r1, r2, r3⟩ := h_spec cust (c := fun n => c (n + 1)) h0 h1 (hr hlt)
    refine ⟨a', ?_, k, by omega, r3, by omega, r2, fun _ => r1, fun h => by omega⟩
    rw [fgrBatInt2Handler, if_pos hlt, h]
  · refine ⟨a, ?_, ⟨rfl, rfl, rfl⟩, h0, h1, by omega, by omega, fun _ => Int.le_refl _,
      fun _ => Int.le_refl _⟩
    rw [fgrBatInt2Handler, if_neg (by omega), if_neg (by omega)]
  · obtain ⟨a', h, k, r1, r2, r3⟩ := l_spec cust (c := fun n => c (n + 1)) h1 (hf hgt)
    refine ⟨a', ?_, k, by omega, by omega, r2, by omega, fun h => by omega, fun _ => r1⟩
    rw [fgrBatInt2Handler, if_neg (by omega), if_pos hgt, h]

theorem time_spec (charger : Bool) {a : Algo} (h0 : 0 ≤ a.uiSoc) (h1 : a.uiSoc ≤ 10000) :
    Moved a (fgrTimeHandler charger a) ∧ 0 ≤ (fgrTimeHandler charger a).uiSoc ∧
      (fgrTimeHandler charger a).uiSoc ≤ a.uiSoc ∧
      a.uiSoc - 100 ≤ (fgrTimeHandler charger a).uiSoc := by
  have hi : i32 (a.uiSoc - 100) = a.uiSoc - 100 := by
    refine i32_eq ?_
    unfold IsI32
    omega
  unfold fgrTimeHandler
  rw [hi]
  split_ifs
  · exact ⟨⟨rfl, rfl, rfl⟩, Int.le_refl _, h0, by simp only; omega⟩
  · exact ⟨⟨rfl, rfl, rfl⟩, by simp only; omega, by simp only; omega, Int.le_refl _⟩
  · exact ⟨⟨rfl, rfl, rfl⟩, h0, Int.le_refl _, by omega⟩

/-! ## One event -/

/-- The displayed charge is in range, and no division by the capacity fails. -/
structure Inv (cust : Cust) (g : Gm) : Prop where
  lo : 0 ≤ g.algo.uiSoc
  hi : g.algo.uiSoc ≤ 10000
  quse : g.algo.quse cust ≠ 0
  aging : g.algo.agingFactor ≤ 10000
  done : g.algo.dodInitDone = true

/-- The event is handled because the counter rose. -/
def Rises (g : Gm) (e : Event) : Prop :=
  e.intr = .batInt2Ht ∨
    ((e.intr = .batInt1Ht ∨ e.intr = .batInt1Lt) ∧ g.algo.prevCarBat0 < e.coulomb 1)

/-- The event is handled because the counter fell. -/
def Falls (g : Gm) (e : Event) : Prop :=
  e.intr = .batInt2Lt ∨
    ((e.intr = .batInt1Ht ∨ e.intr = .batInt1Lt) ∧ e.coulomb 1 < g.algo.prevCarBat0)

/-- When an event goes well. -/
def EventOk (cust : Cust) (g : Gm) (e : Event) : Prop :=
  match e.intr with
  | .batTmpCHt | .batTmpCLt => Battery.quse cust e.table.qmax g.algo.agingFactor ≠ 0
  | .batInt1Ht | .batInt1Lt =>
    (g.algo.prevCarBat0 < e.coulomb 1 → RiseOk g.algo (e.coulomb 2)) ∧
      (e.coulomb 1 < g.algo.prevCarBat0 → FallOk cust e.charger g.algo (e.coulomb 2))
  | .batInt2Ht => RiseOk g.algo (e.coulomb 0)
  | .batInt2Lt => FallOk cust e.charger g.algo (e.coulomb 0)
  | .dlptSd => g.algo.uiSoc < 50
  | _ => True

/-- What an event may do to the displayed and the published charge. -/
def Charged (g : Gm) (e : Event) (_ : Unit) (g' : Gm) : Prop :=
  0 ≤ g'.algo.uiSoc ∧ g'.algo.uiSoc ≤ 10000 ∧
    g.algo.uiSoc - 100 ≤ g'.algo.uiSoc ∧ g'.algo.uiSoc ≤ g.algo.uiSoc + 100 ∧
    (Rises g e → g.algo.uiSoc ≤ g'.algo.uiSoc) ∧ (Falls g e → g'.algo.uiSoc ≤ g.algo.uiSoc) ∧
    (e.intr = .dlptSd → g'.uiSoc = 0)

theorem endFlow_moved (g : Gm) (car cond : Int) :
    Moved g.algo (fgrIntEndFlow g car cond).algo ∧
      (fgrIntEndFlow g car cond).algo.uiSoc = g.algo.uiSoc := by
  simp only [fgrIntEndFlow]
  split_ifs <;> exact ⟨⟨rfl, rfl, rfl⟩, rfl⟩

/-- The displayed charge is published. -/
theorem endFlow_uiSoc {g : Gm} (hd : g.algo.dodInitDone = true) (car cond : Int) :
    (fgrIntEndFlow g car cond).uiSoc =
      (i32 ((if g.algo.uiSoc < 0 then 0 else g.algo.uiSoc) + 50)).tdiv 100 := by
  simp only [fgrIntEndFlow, if_pos hd]
  split_ifs <;> simp only [publish, uisocSet] <;> split_ifs <;> rfl

/-- The end of an event that leaves a good charge. -/
theorem endFlow_inv {g : Gm} {a : Algo} {e : Event} (hi : Inv cust g) (car : Int)
    (hm : Moved g.algo a) (h0 : 0 ≤ a.uiSoc) (h1 : a.uiSoc ≤ 10000)
    (h2 : g.algo.uiSoc - 100 ≤ a.uiSoc) (h3 : a.uiSoc ≤ g.algo.uiSoc + 100)
    (hr : Rises g e → g.algo.uiSoc ≤ a.uiSoc) (hf : Falls g e → a.uiSoc ≤ g.algo.uiSoc)
    (hd : e.intr ≠ .dlptSd) :
    Inv cust (fgrIntEndFlow { g with algo := a } car e.shutdownCond) ∧
      Charged g e () (fgrIntEndFlow { g with algo := a } car e.shutdownCond) := by
  obtain ⟨m, hu⟩ := endFlow_moved { g with algo := a } car e.shutdownCond
  have m' := hm.trans m
  constructor
  · refine ⟨hu ▸ h0, hu ▸ h1, ?_, ?_, ?_⟩
    · rw [m'.quse_eq]
      exact hi.quse
    · rw [m'.aging]
      exact hi.aging
    · rw [m'.done]
      exact hi.done
  · rw [Charged, hu]
    exact ⟨h0, h1, h2, h3, hr, hf, fun h => absurd h hd⟩

/-- An event that is not about the counter neither rises nor falls. -/
theorem not_rises {g : Gm} {e : Event} (h1 : e.intr ≠ .batInt1Ht) (h2 : e.intr ≠ .batInt1Lt)
    (h3 : e.intr ≠ .batInt2Ht) : ¬ Rises g e := by
  rintro (h | ⟨h | h, -⟩)
  · exact h3 h
  · exact h1 h
  · exact h2 h

theorem not_falls {g : Gm} {e : Event} (h1 : e.intr ≠ .batInt1Ht) (h2 : e.intr ≠ .batInt1Lt)
    (h3 : e.intr ≠ .batInt2Lt) : ¬ Falls g e := by
  rintro (h | ⟨h | h, -⟩)
  · exact h3 h
  · exact h1 h
  · exact h2 h

/-- The end of an event that leaves the displayed charge. -/
theorem endFlow_quiet {g : Gm} {a : Algo} {e : Event} (hi : Inv cust g) (car : Int)
    (hm : Moved g.algo a) (hu : a.uiSoc = g.algo.uiSoc) (hr : ¬ Rises g e) (hf : ¬ Falls g e)
    (hd : e.intr ≠ .dlptSd) :
    Inv cust (fgrIntEndFlow { g with algo := a } car e.shutdownCond) ∧
      Charged g e () (fgrIntEndFlow { g with algo := a } car e.shutdownCond) := by
  have h0 := hi.lo
  have h1 := hi.hi
  exact endFlow_inv cust hi car hm (by omega) (by omega) (by omega) (by omega)
    (fun h => absurd h hr) (fun h => absurd h hf) hd

/-- **One event.** -/
theorem doFgAlgo_spec {g : Gm} {e : Event} (hi : Inv cust g) (hok : EventOk cust g e) :
    ∃ g', doFgAlgo cust g e = some g' ∧ Inv cust g' ∧ Charged g e () g' := by
  have h0 := hi.lo
  have h1 := hi.hi
  cases hintr : e.intr with
  | batTmpCHt | batTmpCLt =>
    simp only [EventOk, hintr] at hok
    obtain ⟨a', ht, hu, ha, hd, hq⟩ := tempC_spec cust hi.aging hok e.coulomb
    have hnr : ¬ Rises g e := not_rises (by simp [hintr]) (by simp [hintr]) (by simp [hintr])
    have hnf : ¬ Falls g e := not_falls (by simp [hintr]) (by simp [hintr]) (by simp [hintr])
    obtain ⟨m, hu'⟩ := endFlow_moved { g with algo := a' } (e.coulomb 1) e.shutdownCond
    refine ⟨fgrIntEndFlow { g with algo := a' } (e.coulomb 1) e.shutdownCond, ?_,
      ⟨?_, ?_, ?_, ?_, ?_⟩, ?_⟩
    · simp only [doFgAlgo, hintr, ht, Option.map_some]
    · rw [hu', hu]
      exact h0
    · rw [hu', hu]
      exact h1
    · rw [m.quse_eq]
      exact hq
    · rw [m.aging, ha]
      exact hi.aging
    · rw [m.done, hd]
      exact hi.done
    · rw [Charged, hu', hu]
      exact ⟨h0, h1, by omega, by omega, fun h => absurd h hnr, fun h => absurd h hnf,
        fun h => by simp [hintr] at h⟩
  | batInt1Ht | batInt1Lt =>
    simp only [EventOk, hintr] at hok
    obtain ⟨a1, ha1, k1⟩ := int1_spec cust hi.quse e.coulomb
    have hr : a1.prevCarBat0 < e.coulomb 1 → RiseOk a1 (e.coulomb 2) := by
      intro h
      rw [RiseOk, k1.uiSoc, k1.prev]
      exact hok.1 (k1.prev ▸ h)
    have hf : e.coulomb 1 < a1.prevCarBat0 → FallOk cust e.charger a1 (e.coulomb 2) := by
      intro h
      rw [FallOk, k1.uiSoc, k1.prev, k1.quse_eq]
      exact hok.2 (k1.prev ▸ h)
    obtain ⟨a2, ha2, m2, r0, r1, r2, r3, r4, r5⟩ := int2_spec cust (c := fun n => e.coulomb (n + 1))
      (k1.uiSoc ▸ h0) (k1.uiSoc ▸ h1) hr hf
    rw [k1.uiSoc] at r2 r3 r4 r5
    rw [k1.prev] at r4 r5
    refine ⟨_, ?_, endFlow_inv cust hi (e.coulomb 6) (k1.moved.trans m2) r0 r1 r2 r3 ?_ ?_
      (by simp [hintr])⟩
    · simp only [doFgAlgo, hintr, ha1, ha2, Option.bind_eq_bind, Option.bind_some, Option.pure_def]
    · rintro (h | ⟨-, h⟩)
      · simp [hintr] at h
      · exact r4 h
    · rintro (h | ⟨-, h⟩)
      · simp [hintr] at h
      · exact r5 h
  | batInt2Ht =>
    simp only [EventOk, hintr] at hok
    obtain ⟨a1, ha1, m1, r1, r2, r3⟩ := h_spec cust h0 h1 hok
    obtain ⟨a2, ha2, k2⟩ := int1_spec cust (a := a1) (by rw [m1.quse_eq]; exact hi.quse)
      fun n => e.coulomb (n + 4)
    have hnf : ¬ Falls g e := not_falls (by simp [hintr]) (by simp [hintr]) (by simp [hintr])
    refine ⟨_, ?_, endFlow_inv cust (a := a2) hi (e.coulomb 5) (m1.trans k2.moved)
      (by rw [k2.uiSoc]; omega) (by rw [k2.uiSoc]; omega) (by rw [k2.uiSoc]; omega)
      (by rw [k2.uiSoc]; omega)
      (fun _ => by rw [k2.uiSoc]; exact r1) (fun h => absurd h hnf) (by simp [hintr])⟩
    simp only [doFgAlgo, hintr, ha1, ha2, Option.bind_eq_bind, Option.bind_some, Option.pure_def]
  | batInt2Lt =>
    simp only [EventOk, hintr] at hok
    obtain ⟨a1, ha1, m1, r1, r2, r3⟩ := l_spec cust h1 hok
    obtain ⟨a2, ha2, k2⟩ := int1_spec cust (a := a1) (by rw [m1.quse_eq]; exact hi.quse)
      fun n => e.coulomb (n + 4)
    have hnr : ¬ Rises g e := not_rises (by simp [hintr]) (by simp [hintr]) (by simp [hintr])
    refine ⟨_, ?_, endFlow_inv cust (a := a2) hi (e.coulomb 5) (m1.trans k2.moved)
      (by rw [k2.uiSoc]; omega) (by rw [k2.uiSoc]; omega) (by rw [k2.uiSoc]; omega)
      (by rw [k2.uiSoc]; omega)
      (fun h => absurd h hnr) (fun _ => by rw [k2.uiSoc]; exact r1) (by simp [hintr])⟩
    simp only [doFgAlgo, hintr, ha1, ha2, Option.bind_eq_bind, Option.bind_some, Option.pure_def]
  | fgTime =>
    obtain ⟨m, r0, r1, r2⟩ := time_spec e.charger h0 h1
    have hnr : ¬ Rises g e := not_rises (by simp [hintr]) (by simp [hintr]) (by simp [hintr])
    refine ⟨_, by simp only [doFgAlgo, hintr], endFlow_inv cust hi (e.coulomb 0) m r0 (by omega) r2
      (by omega) (fun h => absurd h hnr) (fun _ => r1) (by simp [hintr])⟩
  | dlptSd =>
    simp only [EventOk, hintr] at hok
    have hnr : ¬ Rises g e := not_rises (by simp [hintr]) (by simp [hintr]) (by simp [hintr])
    have hnf : ¬ Falls g e := not_falls (by simp [hintr]) (by simp [hintr]) (by simp [hintr])
    obtain ⟨m, hu⟩ := endFlow_moved (fgrDlptSdHandler g) (e.coulomb 0) e.shutdownCond
    refine ⟨fgrIntEndFlow (fgrDlptSdHandler g) (e.coulomb 0) e.shutdownCond, ?_, ⟨hu ▸ h0, hu ▸ h1,
      ?_, ?_, ?_⟩, ?_⟩
    · simp only [doFgAlgo, hintr]
    · rw [m.quse_eq]
      exact hi.quse
    · rw [m.aging]
      exact hi.aging
    · rw [m.done]
      exact hi.done
    · rw [Charged, hu]
      refine ⟨h0, h1, ?_, ?_, fun h => absurd h hnr, fun h => absurd h hnf, fun _ => ?_⟩
      · show g.algo.uiSoc - 100 ≤ g.algo.uiSoc
        omega
      · show g.algo.uiSoc ≤ g.algo.uiSoc + 100
        omega
      · rw [endFlow_uiSoc (g := fgrDlptSdHandler g) hi.done]
        show (i32 ((if g.algo.uiSoc < 0 then 0 else g.algo.uiSoc) + 50)).tdiv 100 = 0
        rw [if_neg (by omega), i32_eq (by unfold IsI32; omega)]
        exact Int.tdiv_eq_zero_of_lt (by omega) (by omega)
  | shutdown =>
    have hnr : ¬ Rises g e := not_rises (by simp [hintr]) (by simp [hintr]) (by simp [hintr])
    have hnf : ¬ Falls g e := not_falls (by simp [hintr]) (by simp [hintr]) (by simp [hintr])
    exact ⟨_, by simp only [doFgAlgo, hintr], endFlow_quiet cust
      (a := { g.algo with lowTrackingEnable := true }) hi (e.coulomb 0) ⟨rfl, rfl, rfl⟩ rfl hnr hnf
      (by simp [hintr])⟩
  | vbat2H =>
    have hnr : ¬ Rises g e := not_rises (by simp [hintr]) (by simp [hintr]) (by simp [hintr])
    have hnf : ¬ Falls g e := not_falls (by simp [hintr]) (by simp [hintr]) (by simp [hintr])
    exact ⟨_, by simp only [doFgAlgo, hintr], endFlow_quiet cust
      (a := fgrVbat2HIntHandler cust g.algo) hi (e.coulomb 0) ⟨rfl, rfl, rfl⟩ rfl hnr hnf (by simp [hintr])⟩
  | vbat2L =>
    have hnr : ¬ Rises g e := not_rises (by simp [hintr]) (by simp [hintr]) (by simp [hintr])
    have hnf : ¬ Falls g e := not_falls (by simp [hintr]) (by simp [hintr]) (by simp [hintr])
    have hm : Moved g.algo (fgrVbat2LIntHandler cust g.algo) ∧
        (fgrVbat2LIntHandler cust g.algo).uiSoc = g.algo.uiSoc := by
      unfold fgrVbat2LIntHandler
      split_ifs <;> exact ⟨⟨rfl, rfl, rfl⟩, rfl⟩
    exact ⟨_, by simp only [doFgAlgo, hintr], endFlow_quiet cust hi (e.coulomb 0) hm.1 hm.2 hnr hnf
      (by simp [hintr])⟩
  | other =>
    have hnr : ¬ Rises g e := not_rises (by simp [hintr]) (by simp [hintr]) (by simp [hintr])
    have hnf : ¬ Falls g e := not_falls (by simp [hintr]) (by simp [hintr]) (by simp [hintr])
    exact ⟨g, by simp only [doFgAlgo, hintr], hi, h0, h1, by omega, by omega,
      fun h => absurd h hnr, fun h => absurd h hnf, fun h => by simp [hintr] at h⟩

/-! ## Runs -/

/-- When a start goes well: the capacity in use is not zero, and the charge to start from is between
1 and 10000. -/
def StartOk (cust : Cust) (st : Start) : Prop :=
  Battery.quse cust st.table.qmax 10000 ≠ 0 ∧ 0 < st.d0.1 ∧ st.d0.1 ≤ 10000

theorem init_spec (g : Gm) {st : Start} (hok : StartOk cust st) :
    ∃ g', batteryAlgoInit cust g st = some g' ∧ Inv cust g' := by
  obtain ⟨hq, hlo, hhi⟩ := hok
  generalize ha0 : fgrConstructTable st.table { g.algo with agingFactor := 10000 } = a0
  have hq0 : a0.quse cust ≠ 0 := ha0 ▸ hq
  have haging : a0.agingFactor = 10000 := ha0 ▸ rfl
  -- setting the depth of discharge leaves the capacity
  generalize ha1 : (if cust.d0Sel = 1 then
    setFgCD0ByOcv (setFgCD0ByOcv a0 (socToOcvC a0.points st.d0.2))
      (socToOcvC (setFgCD0ByOcv a0 (socToOcvC a0.points st.d0.2)).points
        (setFgCD0ByOcv a0 (socToOcvC a0.points st.d0.2)).fgCD0Soc)
    else setFgCD0ByOcv a0 (socToOcvC a0.points st.d0.2)) = a1
  have hm1 : Moved a0 a1 := by
    subst ha1
    split_ifs <;> exact ⟨rfl, rfl, rfl⟩
  obtain ⟨a2, h2, k2⟩ := cDod_spec cust (a := a1) (by rw [hm1.quse_eq]; exact hq0)
    (st.coulomb 0)
  generalize ha3 : ({ fgrSetSocByVcMode { a2 with uiSoc := st.d0.1 } with
    dodInitDone := true } : Algo) = a3
  have hu3 : a3.uiSoc = st.d0.1 := ha3 ▸ rfl
  have hd3 : a3.dodInitDone = true := ha3 ▸ rfl
  have hq3 : a3.quse cust = a0.quse cust := by
    rw [← hm1.quse_eq, ← k2.quse_eq, ← ha3]
    rfl
  have hg3 : a3.agingFactor = 10000 := by
    rw [← haging, ← hm1.aging, ← k2.aging, ← ha3]
    rfl
  obtain ⟨a4, h4, k4⟩ := gaps_spec cust
    (a := { fgrUpdateFgBatInt1Threshold cust (fgrUpdateQuse cust a3) with
      prevCarBat0 := st.coulomb 1 })
    (show a3.uiSoc ≠ 0 by omega) fun n => st.coulomb (n + 2)
  refine ⟨publish 12000 { g with algo := { a4 with fgVbat2Lt := cust.vbat2DetVoltage1 } }, ?_,
    ⟨?_, ?_, ?_, ?_, ?_⟩⟩
  · have hdod : fgrDodInit cust st a0 (st.coulomb 0) = some a3 := by
      simp only [fgrDodInit, ha1, h2, Option.map_some, ha3]
    have hset : fgrSetInt1 cust { g with algo := a3 } (fun n => st.coulomb (n + 1)) =
        some (publish 12000 { g with algo := { a4 with fgVbat2Lt := cust.vbat2DetVoltage1 } }) := by
      simp only [fgrSetInt1, h4, Option.map_some]
    simp only [batteryAlgoInit, ha0, hdod, Option.bind_eq_bind, Option.bind_some, hset]
  · show 0 ≤ a4.uiSoc
    rw [k4.uiSoc]
    show 0 ≤ a3.uiSoc
    omega
  · show a4.uiSoc ≤ 10000
    rw [k4.uiSoc]
    show a3.uiSoc ≤ 10000
    omega
  · show a4.quse cust ≠ 0
    rw [k4.quse_eq]
    show a3.quse cust ≠ 0
    rw [hq3]
    exact hq0
  · show a4.agingFactor ≤ 10000
    rw [k4.aging]
    show a3.agingFactor ≤ 10000
    omega
  · show a4.dodInitDone = true
    rw [k4.done]
    exact hd3

end

/-- **The displayed charge.** After a good start, every run of events that go well never divides by
zero, and every event keeps the displayed charge in range, changes it by at most 1 % in the
direction of the counter, and publishes 0 when the battery is shut down. -/
theorem ui_soc_kept (cust : Cust) (g : Gm) (st : Start) (hst : StartOk cust st) :
    ∃ g0, batteryAlgoInit cust g st = some g0 ∧ 0 ≤ g0.algo.uiSoc ∧ g0.algo.uiSoc ≤ 10000 ∧
      ∀ es, Sys.Along (step cust) (EventOk cust) g0 es →
        ∃ os g', Sys.run (step cust) g0 es = some (os, g') ∧ Sys.Trace Charged g0 os g' := by
  obtain ⟨g0, h0, hi⟩ := init_spec cust g hst
  refine ⟨g0, h0, hi.lo, hi.hi, ?_⟩
  intro es hok
  have hstep : ∀ g e, Inv cust g → EventOk cust g e →
      ∃ o g', step cust g e = some (o, g') ∧ Inv cust g' ∧ Charged g e o g' := by
    intro g e hi hok
    obtain ⟨g', h, hi', hc⟩ := doFgAlgo_spec cust hi hok
    exact ⟨(), g', by rw [step, h, Option.map_some], hi', hc⟩
  obtain ⟨os, g', hrun, -, htrace⟩ := Sys.run_sim id hstep es g0 hi hok
  exact ⟨os, g', hrun, htrace⟩

/-- The default settings. -/
def custDefault : Cust := ⟨0, 0, 50, 34000, 33500, 34500⟩

/-- A battery of 2000 mAh. -/
def table2000 : Table := ⟨[⟨0, 42000⟩, ⟨20000, 34000⟩], 20000, by simp, by decide⟩

/-- Before the start. -/
def gmZero : Gm :=
  ⟨⟨[], 0, 0, 0, 0, 0, 0, 0, 0, 0, 0, 0, 0, 0, 0, 0, false, 0, 0, false⟩, 0, 0, 0, 0⟩

/-- A start with a displayed charge in percent, at the counter's zero. -/
def startAt (con0Uisoc : Int) : Start := ⟨table2000, 100, con0Uisoc, 3800, fun _ => 0⟩

/-- An event without a charger whose readings are all the same. -/
def eventAt (intr : Intr) (car shutdownCond : Int) : Event :=
  ⟨intr, fun _ => car, false, shutdownCond, table2000⟩

theorem ui_soc_kept_rise :
    ∃ g0 os g', batteryAlgoInit custDefault gmZero (startAt 50) = some g0 ∧
      Sys.run (step custDefault) g0 [eventAt .batInt2Ht 200 0] = some (os, g') ∧
      Sys.Trace Charged g0 os g' := by
  obtain ⟨g0, h0, -, -, hrun⟩ := ui_soc_kept custDefault gmZero (startAt 50)
    ⟨by decide, by decide, by decide⟩
  have hok : (batteryAlgoInit custDefault gmZero (startAt 50)).map
      (fun g => decide (RiseOk g.algo 200)) = some true := by decide
  rw [h0, Option.map_some, Option.some.injEq, decide_eq_true_eq] at hok
  obtain ⟨os, g', h, htrace⟩ := hrun [eventAt .batInt2Ht 200 0] ⟨hok, fun _ _ _ => trivial⟩
  exact ⟨g0, os, g', h0, h, htrace⟩

/-- At 50 % a shut down publishes 50, and a charge that has been counted down to 0 is divided by. -/
theorem ui_soc_kept_fails :
    ((batteryAlgoInit custDefault gmZero (startAt 50)).bind fun g =>
      (Sys.run (step custDefault) g [eventAt .dlptSd 0 0]).map fun q => q.2.uiSoc) = some 50 ∧
    ((batteryAlgoInit custDefault gmZero (startAt 1)).bind fun g =>
      (Sys.run (step custDefault) g [eventAt .shutdown 0 1, eventAt .fgTime 0 1]).map fun q =>
        q.2.algo.uiSoc) = some 0 ∧
    ((batteryAlgoInit custDefault gmZero (startAt 1)).bind fun g =>
      (Sys.run (step custDefault) g [eventAt .shutdown 0 1, eventAt .fgTime 0 1,
        eventAt .batInt2Lt (-100) 1]).map fun q => q.2.algo.uiSoc) = none := by
  decide

end Battery
