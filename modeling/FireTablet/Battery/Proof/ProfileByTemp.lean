import FireTablet.Battery.Proof.ProfileRows
import Mathlib.Data.List.Infix
import Mathlib.Data.List.Nodup

/-!
# The profile between two temperatures

A list of two or more profiles passes the order check whatever the temperatures are, and which
order is reported is that of the first two. In a list that is in order, the profiles found for a
temperature are the ones next to it (`profile_by_temperature`).
-/

namespace Battery

open CInt

/-! ## The order check -/

/-- The temperatures rise, or fall, all the way. -/
def Ascending (ts : List Int) : Prop := ts.Pairwise (· < ·)
def Descending (ts : List Int) : Prop := ts.Pairwise (· > ·)

theorem scanAscending_set (ts : List Int) : scanAscending ts (true, false) = (true, false) := by
  induction ts with
  | nil => rfl
  | cons s ts ih =>
    cases ts with
    | nil => rfl
    | cons t ts => rw [scanAscending, ih, ite_self]

theorem scanDescending_set (ts : List Int) : scanDescending ts (false, true) = (false, true) := by
  induction ts with
  | nil => rfl
  | cons s ts ih =>
    cases ts with
    | nil => rfl
    | cons t ts => rw [scanDescending, ih, ite_self]

/-- Only the first two temperatures decide. -/
theorem fgCheckTemperatureOrder_eq (s t : Int) (ts : List Int) :
    fgCheckTemperatureOrder (s :: t :: ts) = some (decide (s < t), !decide (s < t)) := by
  have hasc : scanAscending (s :: t :: ts) (false, false) = (decide (s ≤ t), false) := by
    by_cases h : s > t
    · rw [scanAscending, if_pos h, decide_eq_false (by omega)]
    · rw [scanAscending, if_neg h, scanAscending_set, decide_eq_true (by omega)]
  unfold fgCheckTemperatureOrder
  rw [hasc]
  by_cases h : s < t
  · rw [scanDescending, if_pos h, decide_eq_true h, decide_eq_true (by omega)]
    rfl
  · rw [scanDescending, if_neg h, scanDescending_set, decide_eq_false h]
    rfl

/-! ## Neighbours -/

/-- Two profiles that stand next to each other, in either order. -/
def Neighbours (ps : List TempProfile) (p q : TempProfile) : Prop := [p, q] <:+: ps ∨ [q, p] <:+: ps

theorem Neighbours.symm {ps : List TempProfile} {p q : TempProfile} (h : Neighbours ps p q) :
    Neighbours ps q p := Or.symm h

theorem Neighbours.reverse {ps : List TempProfile} {p q : TempProfile} (h : Neighbours ps p q) :
    Neighbours ps.reverse p q :=
  h.symm.imp (fun h => by simpa using List.reverse_infix.2 h)
    fun h => by simpa using List.reverse_infix.2 h

theorem Neighbours.mem {ps : List TempProfile} {p q : TempProfile} (h : Neighbours ps p q) :
    p ∈ ps ∧ q ∈ ps := by
  rcases h with h | h <;> exact ⟨h.subset (by simp), h.subset (by simp)⟩

/-- Which pair the search ends with: it has come to the first one without a hit, and its second
one is hit or the last. -/
theorem neighbours_spec (hit : TempProfile → Bool) {ps : List TempProfile} (h : 2 ≤ ps.length) :
    ∃ pre p q post, ps = pre ++ p :: q :: post ∧ neighbours hit ps = some (p, q) ∧
      (pre = [] ∨ hit p = false) ∧ (post = [] ∨ hit q = true) := by
  induction ps with
  | nil => simp at h
  | cons p ps ih =>
    cases ps with
    | nil => simp at h
    | cons q ps =>
      rw [neighbours]
      split
      next hc =>
        refine ⟨[], p, q, ps, rfl, rfl, .inl rfl, ?_⟩
        rcases Bool.or_eq_true_iff.1 hc with hc | hc
        · exact .inr hc
        · exact .inl (List.isEmpty_iff.1 hc)
      next hc =>
        simp only [Bool.or_eq_true, not_or, Bool.not_eq_true] at hc
        have hne : ps ≠ [] := fun he => by simp [he] at hc
        obtain ⟨pre, p', q', post, he, hn, hp, hq⟩ := ih (by
          have := List.length_pos_iff.2 hne
          simp only [List.length_cons]
          omega)
        refine ⟨p :: pre, p', q', post, by rw [he, List.cons_append], hn, .inr ?_, hq⟩
        rcases hp with rfl | hp
        · rw [List.nil_append] at he
          rw [← (List.cons.inj he).1]
          exact hc.1
        · exact hp

/-- The pair whose second one is the first hit. -/
theorem neighbours_at {hit : TempProfile → Bool} {pre post : List TempProfile} {p q : TempProfile}
    (hpre : ∀ x ∈ pre ++ [p], hit x = false) (hq : hit q = true) :
    neighbours hit (pre ++ p :: q :: post) = some (p, q) := by
  induction pre with
  | nil => rw [List.nil_append, neighbours, hq, Bool.true_or, if_pos rfl]
  | cons x pre ih =>
    have ih := ih fun y hy => hpre y (List.mem_cons_of_mem _ hy)
    cases pre with
    | nil =>
      rw [List.cons_append, List.nil_append, neighbours, hpre p (by simp)]
      exact ih
    | cons y pre =>
      rw [List.cons_append, List.cons_append, neighbours, hpre y (by simp)]
      rw [Bool.false_or, if_neg (by simp)]
      exact ih

/-! ## Lists in order -/

/-- The profiles are in order. -/
def Strict (ps : List TempProfile) : Prop :=
  Ascending (ps.map TempProfile.temperature) ∨ Descending (ps.map TempProfile.temperature)

theorem Strict.reverse {ps : List TempProfile} (h : Strict ps) : Strict ps.reverse := by
  unfold Strict Ascending Descending at h ⊢
  rw [List.map_reverse, List.pairwise_reverse, List.pairwise_reverse]
  exact h.symm

theorem Strict.nodup {ps : List TempProfile} (h : Strict ps) :
    (ps.map TempProfile.temperature).Nodup := by
  rcases h with h | h
  · exact h.imp Int.ne_of_lt
  · exact h.imp fun hlt => (Int.ne_of_lt hlt).symm

section
variable {ps : List TempProfile} (h : Strict ps)
include h

theorem Strict.inj {p q : TempProfile} (hp : p ∈ ps) (hq : q ∈ ps)
    (he : p.temperature = q.temperature) : p = q :=
  List.inj_on_of_nodup_map h.nodup hp hq he

/-- No profile is between neighbours. -/
theorem Strict.gap {p q x : TempProfile} (hn : Neighbours ps p q)
    (hlt : p.temperature < q.temperature) (hx : x ∈ ps) :
    x.temperature ≤ p.temperature ∨ q.temperature ≤ x.temperature := by
  have hcase : ∀ {a b : TempProfile} {R : Int → Int → Prop}, [a, b] <:+: ps →
      (ps.map TempProfile.temperature).Pairwise R → R a.temperature b.temperature ∧
        (R x.temperature a.temperature ∨ x = a ∨ x = b ∨ R b.temperature x.temperature) := by
    rintro a b R ⟨pre, post, rfl⟩ hR
    simp only [List.append_assoc, List.cons_append, List.nil_append, List.map_append,
      List.map_cons, List.pairwise_append, List.pairwise_cons] at hR
    simp only [List.append_assoc, List.mem_append, List.mem_cons, List.nil_append,
      List.cons_append] at hx
    obtain ⟨-, ⟨hab, hb, -⟩, hpre⟩ := hR
    refine ⟨hab _ (by simp), ?_⟩
    rcases hx with hx | rfl | rfl | hx
    · exact .inl (hpre _ (List.mem_map_of_mem hx) _ (by simp))
    · exact .inr (.inl rfl)
    · exact .inr (.inr (.inl rfl))
    · exact .inr (.inr (.inr (hb _ (List.mem_map_of_mem hx))))
  rcases h with h | h <;> rcases hn with hn | hn
  · rcases (hcase hn h).2 with h | rfl | rfl | h <;> omega
  · have := (hcase hn h).1
    omega
  · have := (hcase hn h).1
    omega
  · rcases (hcase hn h).2 with h | rfl | rfl | h <;> omega

/-- Two neighbours that enclose a temperature which is not one of theirs are the only ones. -/
theorem Strict.enclosing {p q p' q' : TempProfile} {t : Int} (hn : Neighbours ps p q)
    (hn' : Neighbours ps p' q') (hp : p.temperature < t) (hq : t < q.temperature)
    (hp' : p'.temperature ≤ t) (hq' : t ≤ q'.temperature) : p' = p ∧ q' = q := by
  have h1 := h.gap hn (by omega) hn'.mem.1
  have h2 := h.gap hn (by omega) hn'.mem.2
  have hlt : p'.temperature < q'.temperature := by omega
  have h3 := h.gap hn' hlt hn.mem.1
  have h4 := h.gap hn' hlt hn.mem.2
  exact ⟨h.inj hn'.mem.1 hn.mem.1 (by omega), h.inj hn'.mem.2 hn.mem.2 (by omega)⟩

end

/-- The neighbours found for a temperature: one below that the temperature is not below, except
the lowest, and one above that it is not above, except the highest. -/
structure Chosen (ps : List TempProfile) (t : Int) (low high : TempProfile) : Prop where
  near : Neighbours ps low high
  lt : low.temperature < high.temperature
  low_le : low.temperature ≤ t ∨ ∀ p ∈ ps, low.temperature ≤ p.temperature
  le_high : t ≤ high.temperature ∨ ∀ p ∈ ps, p.temperature ≤ high.temperature

/-- The search in a list in which `R` holds of temperatures that follow each other. -/
theorem neighbours_sorted {R : Int → Int → Prop} (hit : TempProfile → Bool)
    {ps : List TempProfile} (hR : (ps.map TempProfile.temperature).Pairwise R)
    (h : 2 ≤ ps.length) : ∃ p q, neighbours hit ps = some (p, q) ∧ [p, q] <:+: ps ∧
      R p.temperature q.temperature ∧
      (hit p = false ∨ ∀ x ∈ ps, x = p ∨ R p.temperature x.temperature) ∧
      (hit q = true ∨ ∀ x ∈ ps, x = q ∨ R x.temperature q.temperature) := by
  obtain ⟨pre, p, q, post, rfl, hn, hp, hq⟩ := neighbours_spec hit h
  simp only [List.map_append, List.map_cons, List.pairwise_append, List.pairwise_cons,
    List.mem_cons, List.mem_map] at hR
  obtain ⟨-, ⟨hpost, -⟩, hpre⟩ := hR
  refine ⟨p, q, hn, ⟨pre, post, by simp⟩, hpost _ (.inl rfl), ?_, ?_⟩
  · refine hp.symm.imp_right fun he x hx => ?_
    rw [he, List.nil_append, List.mem_cons, List.mem_cons] at hx
    rcases hx with rfl | rfl | hx
    · exact .inl rfl
    · exact .inr (hpost _ (.inl rfl))
    · exact .inr (hpost _ (.inr ⟨x, hx, rfl⟩))
  · refine hq.symm.imp_right fun he x hx => ?_
    rw [he] at hx
    rcases List.mem_append.1 hx with hx | hx
    · exact .inr (hpre _ ⟨x, hx, rfl⟩ _ (.inr (.inl rfl)))
    · rcases List.mem_cons.1 hx with rfl | hx
      · exact .inr (hpost _ (.inl rfl))
      · exact .inl (List.mem_singleton.1 hx)

/-! ## The code's search -/

/-- What the search takes for a hit. -/
def isHit (ascending : Bool) (t : Int) (p : TempProfile) : Bool :=
  if ascending then t ≤ p.temperature else t ≥ p.temperature

/-- What is reported for a list in order, and the neighbours that are found. -/
theorem Strict.chosen {ps : List TempProfile} (h : Strict ps) (h2 : 2 ≤ ps.length) (t : Int) :
    ∃ ascending low high,
      fgCheckTemperatureOrder (ps.map TempProfile.temperature) = some (ascending, !ascending) ∧
      (ascending = true ↔ Ascending (ps.map TempProfile.temperature)) ∧
      (ascending = false ↔ Descending (ps.map TempProfile.temperature)) ∧
      neighbours (isHit ascending t) ps = some (if ascending then (low, high) else (high, low)) ∧
      Chosen ps t low high := by
  obtain ⟨x, y, zs, hps⟩ : ∃ x y zs, ps = x :: y :: zs := by
    match ps, h2 with
    | x :: y :: zs, _ => exact ⟨x, y, zs, rfl⟩
  have hcheck : fgCheckTemperatureOrder (ps.map TempProfile.temperature) =
      some (decide (x.temperature < y.temperature), !decide (x.temperature < y.temperature)) := by
    rw [hps]
    exact fgCheckTemperatureOrder_eq ..
  have hfirst : ∀ {R : Int → Int → Prop}, (ps.map TempProfile.temperature).Pairwise R →
      R x.temperature y.temperature := fun hR => by
    rw [hps] at hR
    exact (List.pairwise_cons.1 hR).1 _ (by simp)
  rcases h with h | h
  · have hlt := hfirst h
    obtain ⟨p, q, hn, hpq, hR, hp, hq⟩ := neighbours_sorted (isHit true t) h h2
    refine ⟨true, p, q, by rw [hcheck, decide_eq_true hlt], by simp [h], ?_, hn, .inl hpq, hR, ?_,
      ?_⟩
    · have hnot : ¬ Descending (ps.map TempProfile.temperature) := fun hd => by
        have := hfirst hd
        omega
      simp [hnot]
    · simp only [isHit, if_true, decide_eq_false_iff_not] at hp
      refine hp.imp (by omega) fun hp x hx => ?_
      rcases hp x hx with rfl | hp <;> omega
    · simp only [isHit, if_true, decide_eq_true_eq] at hq
      refine hq.imp (by omega) fun hq x hx => ?_
      rcases hq x hx with rfl | hq <;> omega
  · have hlt := hfirst h
    obtain ⟨p, q, hn, hpq, hR, hp, hq⟩ := neighbours_sorted (isHit false t) h h2
    refine ⟨false, q, p, by rw [hcheck, decide_eq_false (by omega)], ?_, by simp [h], hn,
      .inr hpq, hR, ?_, ?_⟩
    · have hnot : ¬ Ascending (ps.map TempProfile.temperature) := fun hd => by
        have := hfirst hd
        omega
      simp [hnot]
    · refine hq.imp (by simp [isHit]) fun hq x hx => ?_
      rcases hq x hx with rfl | hq <;> omega
    · refine hp.imp (by simp [isHit]; omega) fun hp x hx => ?_
      rcases hp x hx with rfl | hp <;> omega

/-- The temperature, no further than the lowest and the highest one of the profiles. -/
def clamped (ps : List TempProfile) (t : Int) : Int :=
  max ((ps.map TempProfile.temperature).min?.getD 0)
    (min ((ps.map TempProfile.temperature).max?.getD 0) t)

theorem clamped_reverse (ps : List TempProfile) (t : Int) :
    clamped ps.reverse t = clamped ps t := by
  have hmin : ∀ l : List Int, l.reverse.min? = l.min? := fun l => by
    cases hl : l.min? with
    | none => rw [List.min?_eq_none_iff.1 hl]; rfl
    | some m => exact List.min?_eq_some_iff.2 (by simpa using List.min?_eq_some_iff.1 hl)
  have hmax : ∀ l : List Int, l.reverse.max? = l.max? := fun l => by
    cases hl : l.max? with
    | none => rw [List.max?_eq_none_iff.1 hl]; rfl
    | some m => exact List.max?_eq_some_iff.2 (by simpa using List.max?_eq_some_iff.1 hl)
  rw [clamped, clamped, List.map_reverse, hmin, hmax]

theorem Chosen.clampTemp {ps : List TempProfile} {t : Int} {low high : TempProfile}
    (h : Chosen ps t low high) :
    clampTemp low.temperature high.temperature t = clamped ps t := by
  have hmem := h.near.mem
  obtain ⟨lo, hlo⟩ : ∃ lo, (ps.map TempProfile.temperature).min? = some lo := by
    rw [← Option.isSome_iff_exists, List.isSome_min?_iff, ne_eq, List.map_eq_nil_iff]
    exact List.ne_nil_of_mem hmem.1
  obtain ⟨hi, hhi⟩ : ∃ hi, (ps.map TempProfile.temperature).max? = some hi := by
    rw [← Option.isSome_iff_exists, List.isSome_max?_iff, ne_eq, List.map_eq_nil_iff]
    exact List.ne_nil_of_mem hmem.1
  obtain ⟨hlo_mem, hlo_le⟩ := List.min?_eq_some_iff.1 hlo
  obtain ⟨hhi_mem, hhi_le⟩ := List.max?_eq_some_iff.1 hhi
  obtain ⟨l, hl, rfl⟩ := List.mem_map.1 hlo_mem
  obtain ⟨r, hr, rfl⟩ := List.mem_map.1 hhi_mem
  have h1 := hlo_le _ (List.mem_map_of_mem hmem.1)
  have h2 := hhi_le _ (List.mem_map_of_mem hmem.2)
  have h3 : low.temperature ≤ t ∨ low.temperature ≤ l.temperature := h.low_le.imp_right (· l hl)
  have h4 : t ≤ high.temperature ∨ r.temperature ≤ high.temperature := h.le_high.imp_right (· r hr)
  have hlt := h.lt
  rw [clamped, hlo, hhi, Option.getD_some, Option.getD_some, Battery.clampTemp]
  split
  · omega
  · split <;> omega

/-! ## Pointers -/

section
variable {d : TableData}

theorem findIdx?_temperature (ps : List TempProfile) (t : Int) :
    ps.findIdx? (·.temperature = t) = (ps.map TempProfile.temperature).findIdx? (· = t) := by
  rw [List.findIdx?_map]
  rfl

/-- The pointer to a profile of a list in order. -/
theorem fgGetProfile_mem (h : Strict d.profiles) {p : TempProfile} (hp : p ∈ d.profiles) :
    ∃ loc, d.fgGetProfile p.temperature = some loc ∧ d.rowsAt loc = p.rows := by
  unfold TableData.fgGetProfile
  split
  next i hi =>
    refine ⟨_, rfl, ?_⟩
    obtain ⟨hlt, hti, -⟩ := List.findIdx?_eq_some_iff_getElem.1 hi
    simp only [decide_eq_true_eq] at hti
    rw [TableData.rowsAt, List.getElem?_eq_getElem hlt, h.inj (List.getElem_mem hlt) hp hti]
    rfl
  next hi =>
    have := List.findIdx?_eq_none_iff.1 hi p hp
    simp at this

/-- The rows that were written are found again. -/
theorem rowsAt_setRows {idx : Int} {target : Loc} (h : d.fgGetProfile idx = some target)
    (rows : Nat → Row) : (d.setRows rows target).fgGetProfile idx = some target ∧
      (d.setRows rows target).rowsAt target = rows := by
  cases target with
  | profile i =>
    have htemp : (d.profiles.modify i fun p => { p with rows := rows }).map
        TempProfile.temperature = d.profiles.map TempProfile.temperature := by
      refine List.ext_getElem? fun k => ?_
      rw [List.getElem?_map, List.getElem?_map, List.getElem?_modify]
      split <;> cases d.profiles[k]? <;> rfl
    have hlt : i < d.profiles.length := by
      unfold TableData.fgGetProfile at h
      split at h
      next hi =>
        obtain rfl := Loc.profile.inj (Option.some.inj h)
        exact (List.findIdx?_eq_some_iff_getElem.1 hi).1
      next => split at h <;> [skip; split at h] <;> cases h
    constructor
    · rw [← h]
      unfold TableData.fgGetProfile
      rw [findIdx?_temperature, findIdx?_temperature]
      simp only [TableData.setRows, htemp]
      rfl
    · simp only [TableData.setRows, TableData.rowsAt, List.getElem?_modify,
        List.getElem?_eq_getElem hlt]
      rfl
  | tb0 => exact ⟨h, rfl⟩
  | tb1 => exact ⟨h, rfl⟩

end

/-! ## The construction -/

theorem tryInterpolation_isSome {i1 i2 : Int} (h : i1 < i2) (h' : i2 - i1 < 4294967296)
    (b1 b2 i : Int) : ∃ r, tryInterpolation i1 b1 i2 b2 i = some r := by
  rw [tryInterpolation, div, if_neg (i32_ne_zero (by omega) h')]
  exact ⟨_, rfl⟩

theorem TempProfile.diff_lt (p q : TempProfile) : q.temperature - p.temperature < 4294967296 := by
  have hp := p.temperature_int
  have hq := q.temperature_int
  unfold IsI32 at hp hq
  omega

section
variable (cust : PseudoCust) {d : TableData} (idx : Int)

theorem fillAlgo_isSome {low high : TempProfile} (hlt : low.temperature < high.temperature)
    (t : Int) (a : TempAlgo) : ∃ a', fillAlgo cust d low high t idx a = some a' := by
  have hsome := fun b1 b2 => tryInterpolation_isSome hlt (low.diff_lt high) b1 b2 t
  obtain ⟨p1, h1⟩ := hsome low.pseudo1 high.pseudo1
  obtain ⟨p100, h100⟩ := hsome low.pseudo100 high.pseudo100
  obtain ⟨q, hq⟩ := hsome (i32 (10 * low.qMax)) (i32 (10 * high.qMax))
  obtain ⟨qh, hqh⟩ := hsome (i32 (10 * low.qMaxHCurrent)) (i32 (10 * high.qMaxHCurrent))
  obtain ⟨z, hz⟩ := hsome (i32 (10 * low.shutdownHlZcv)) (i32 (10 * high.shutdownHlZcv))
  simp only [fillAlgo, h1, h100, hq, hqh, hz]
  split
  · split <;> split <;> exact ⟨_, rfl⟩
  · split <;> exact ⟨_, rfl⟩

/-- The table that is filled, in a list in order. -/
theorem construct_spec (h : Strict d.profiles) (h2 : 2 ≤ d.profiles.length) {target : Loc}
    (htarget : d.fgGetProfile idx = some target) (a : TempAlgo) :
    ∃ low high rows a', Chosen d.profiles a.lastTemp low high ∧
      (∀ p q, Ascending d.temperatures → [p, q] <:+: d.profiles → p.temperature < a.lastTemp →
        a.lastTemp ≤ q.temperature → low = p ∧ high = q) ∧
      fgrConstructBatteryProfile cust d idx a = some (d.setRows rows target, a') ∧
      ∀ j < d.fgGetSaddles, fillRow low.temperature high.temperature
        (clamped d.profiles a.lastTemp) (low.rows j) (high.rows j) (d.rowsAt target j) =
          some (rows j) := by
  obtain ⟨asc, low, high, hcheck, hasc, -, hn, hc⟩ := h.chosen h2 a.lastTemp
  obtain ⟨lowLoc, hlow, hlowRows⟩ := fgGetProfile_mem h hc.near.mem.1
  obtain ⟨highLoc, hhigh, hhighRows⟩ := fgGetProfile_mem h hc.near.mem.2
  have hfill := fun j => fillRow_spec hc.lt (low.diff_lt high) (clamped d.profiles a.lastTemp)
    (low.rows j) (high.rows j) (d.rowsAt target j)
  choose filled hfilled _ using hfill
  obtain ⟨rows, hrows, hrowsEq⟩ := fillRows_spec (n := d.fgGetSaddles) fun j _ => hfilled j
  obtain ⟨a', ha'⟩ := fillAlgo_isSome cust (d := d) idx hc.lt (clamped d.profiles a.lastTemp)
    { a with
      tTable := if idx = 255 then clamped d.profiles a.lastTemp else a.tTable
      tTableC := if idx = 254 then clamped d.profiles a.lastTemp else a.tTableC }
  have hbetween : constructBetween cust d low high target idx a =
      some (d.setRows rows target, a') := by
    simp only [constructBetween, hlow, hhigh, Option.bind_eq_bind, Option.bind_some, hlowRows,
      hhighRows, hc.clampTemp, hrows, ha']
    rfl
  refine ⟨low, high, rows, a', hc, fun p q hA hpq hp hq => ?_, ?_, fun j hj => by
    rw [hrowsEq j hj]; exact hfilled j⟩
  · obtain rfl := hasc.2 hA
    obtain ⟨pre, post, he⟩ := hpq
    have he' : d.profiles = pre ++ p :: q :: post := by rw [← he]; simp
    have hat : neighbours (isHit true a.lastTemp) d.profiles = some (p, q) := by
      rw [he']
      refine neighbours_at (fun x hx => ?_) (by simp [isHit, hq])
      have hle : x.temperature ≤ p.temperature := by
        rw [TableData.temperatures, he', List.map_append, Ascending, List.pairwise_append] at hA
        rcases List.mem_append.1 hx with hx | hx
        · exact Int.le_of_lt (hA.2.2 _ (List.mem_map_of_mem hx) _ (by simp))
        · rw [List.mem_singleton.1 hx]
      simp [isHit]
      omega
    rw [hat, if_pos rfl] at hn
    have := Prod.mk.inj (Option.some.inj hn)
    exact ⟨this.1.symm, this.2.symm⟩
  · have hhit : (fun p : TempProfile =>
        if asc then decide (a.lastTemp ≤ p.temperature) else decide (a.lastTemp ≥ p.temperature)) =
          isHit asc a.lastTemp := rfl
    simp only [fgrConstructBatteryProfile, htarget]
    rw [show fgCheckTemperatureOrder d.temperatures = some (asc, !asc) from hcheck]
    dsimp only
    rw [hhit, hn]
    cases asc <;> exact hbetween

end

/-! ## The rows that are filled -/

/-- A row of the table at a pointer. -/
def TableData.table (d : TableData) (idx : Int) (j : Nat) : Option Row :=
  (d.fgGetProfile idx).map fun loc => d.rowsAt loc j

theorem table_setRows {d : TableData} {idx : Int} {target : Loc}
    (h : d.fgGetProfile idx = some target) (rows : Nat → Row) (j : Nat) :
    (d.setRows rows target).table idx j = some (rows j) := by
  have hfound := rowsAt_setRows h rows
  rw [TableData.table, hfound.1, Option.map_some, hfound.2]

/-- The same profiles in the other order. -/
def TableData.reversed (d : TableData) : TableData := { d with profiles := d.profiles.reverse }

/-- A row for the temperature `t`: between those of two profiles that enclose it, and that of a
profile with this temperature. -/
structure Filled (ps : List TempProfile) (t : Int) (j : Nat) (r : Row) : Prop where
  between : ∀ p q, Neighbours ps p q → p.temperature ≤ t → t ≤ q.temperature →
    Between (p.rows j) (q.rows j) r
  own : ∀ p ∈ ps, p.temperature = t → Same (p.rows j) r

/-- The rows of neighbours are interpolated without a wrap. -/
def Fit (ps : List TempProfile) (n : Nat) : Prop :=
  ∀ p q, Neighbours ps p q → p.temperature < q.temperature →
    ∀ j < n, ExactRow (q.temperature - p.temperature) (p.rows j) (q.rows j)

theorem Filled.same {ps : List TempProfile} {t : Int} {j : Nat} {r r' : Row}
    (h : Filled ps t j r) (hs : Same r r') : Filled ps t j r' :=
  ⟨fun p q hn hp hq c hc => hs c hc ▸ h.between p q hn hp hq c hc,
    fun p hp ht c hc => (hs c hc).trans (h.own p hp ht c hc)⟩

theorem clampTemp_mem {low high : Int} (h : low < high) (t : Int) :
    low ≤ clampTemp low high t ∧ clampTemp low high t ≤ high := by
  unfold clampTemp
  split
  · omega
  · split <;> omega

section
variable {ps : List TempProfile} (h : Strict ps) {T : Int} {low high : TempProfile}
  (hc : Chosen ps T low high)
include h hc

theorem Chosen.filled {n j : Nat} (hfit : Fit ps n) (hj : j < n) {r f : Row}
    (hf : fillRow low.temperature high.temperature (clamped ps T) (low.rows j) (high.rows j) r =
      some f) : Filled ps (clamped ps T) j f := by
  have hmem := clampTemp_mem hc.lt T
  rw [hc.clampTemp] at hmem
  obtain ⟨hb, hl, hh⟩ := fillRow_between hc.lt (low.diff_lt high)
    (hfit low high hc.near hc.lt j hj) hmem.1 hmem.2 hf
  have hown : ∀ p ∈ ps, p.temperature = clamped ps T → Same (p.rows j) f := fun p hp he => by
    rcases h.gap hc.near hc.lt hp with hgap | hgap
    · rw [h.inj hp hc.near.mem.1 (by omega)]
      exact hl (by omega)
    · rw [h.inj hp hc.near.mem.2 (by omega)]
      exact hh (by omega)
  refine ⟨fun p q hn hp hq => ?_, hown⟩
  by_cases hpt : p.temperature = clamped ps T
  · exact (hown p hn.mem.1 hpt).between_left
  by_cases hqt : q.temperature = clamped ps T
  · exact (hown q hn.mem.2 hqt).between_right
  obtain ⟨rfl, rfl⟩ := h.enclosing hn hc.near (by omega) (by omega) hmem.1 hmem.2
  exact hb

/-- The row does not depend on which neighbours are found. -/
theorem Chosen.same {low' high' : TempProfile} (hc' : Chosen ps T low' high') {n j : Nat}
    (hfit : Fit ps n) (hj : j < n) {r r' f f' : Row}
    (hf : fillRow low.temperature high.temperature (clamped ps T) (low.rows j) (high.rows j) r =
      some f)
    (hf' : fillRow low'.temperature high'.temperature (clamped ps T) (low'.rows j)
      (high'.rows j) r' = some f') : Same f f' := by
  have hfilled := hc.filled h hfit hj hf
  have hfilled' := hc'.filled h hfit hj hf'
  have hmem := clampTemp_mem hc.lt T
  have hmem' := clampTemp_mem hc'.lt T
  rw [hc.clampTemp] at hmem
  rw [hc'.clampTemp] at hmem'
  by_cases hlow : low.temperature = clamped ps T
  · exact (hfilled.own low hc.near.mem.1 hlow).of_both (hfilled'.own low hc.near.mem.1 hlow)
  by_cases hhigh : high.temperature = clamped ps T
  · exact (hfilled.own high hc.near.mem.2 hhigh).of_both (hfilled'.own high hc.near.mem.2 hhigh)
  obtain ⟨rfl, rfl⟩ := h.enclosing hc.near hc'.near (by omega) (by omega) hmem'.1 hmem'.2
  exact fillRow_same hc.lt (low'.diff_lt high') hf hf'

end

theorem Chosen.of_reverse {ps : List TempProfile} {t : Int} {low high : TempProfile}
    (h : Chosen ps.reverse t low high) : Chosen ps t low high :=
  ⟨by simpa using h.near.reverse, h.lt,
    h.low_le.imp_right fun hle p hp => hle p (by simpa using hp),
    h.le_high.imp_right fun hle p hp => hle p (by simpa using hp)⟩

/-! ## What is expected -/

/-- What is expected of the profiles and the table `idx`: exactly the lists in order are accepted
and reported, and the table that is filled has the right rows, whichever way round the list is. -/
structure Interpolates (cust : PseudoCust) (d : TableData) (idx : Int) : Prop where
  accepts : fgCheckTemperatureOrder d.temperatures ≠ none ↔
    Ascending d.temperatures ∨ Descending d.temperatures
  reports : ∀ ascending descending,
    fgCheckTemperatureOrder d.temperatures = some (ascending, descending) →
      (ascending = true ↔ Ascending d.temperatures) ∧
        (descending = true ↔ Descending d.temperatures)
  fills : fgCheckTemperatureOrder d.temperatures ≠ none → ∀ a, ∃ d' a' e' b',
    fgrConstructBatteryProfile cust d idx a = some (d', a') ∧
      fgrConstructBatteryProfile cust d.reversed idx a = some (e', b') ∧
        ∀ j < d.fgGetSaddles, ∃ r r', d'.table idx j = some r ∧ e'.table idx j = some r' ∧
          Filled d.profiles (clamped d.profiles a.lastTemp) j r ∧ Same r r'

/-- Neighbouring temperatures are less than 32768 degrees apart. -/
def Close (ps : List TempProfile) : Prop :=
  ∀ p q, Neighbours ps p q → q.temperature - p.temperature < 32768

section
variable {d : TableData} {idx : Int}

theorem fgGetSaddles_eq (hsize : ∀ p ∈ d.profiles, ∀ q ∈ d.profiles, p.size = q.size)
    {p : TempProfile} (hp : p ∈ d.profiles) : d.fgGetSaddles = p.size.toNat := by
  unfold TableData.fgGetSaddles
  cases hh : d.profiles.head? with
  | none => simp [List.head?_eq_none_iff.1 hh] at hp
  | some q => simp [hsize q (List.mem_of_head? hh) p hp]

theorem reversed_saddles (h2 : 2 ≤ d.profiles.length)
    (hsize : ∀ p ∈ d.profiles, ∀ q ∈ d.profiles, p.size = q.size) :
    d.reversed.fgGetSaddles = d.fgGetSaddles := by
  obtain ⟨p, hp⟩ := List.exists_mem_of_length_pos (show 0 < d.profiles.length by omega)
  rw [fgGetSaddles_eq hsize hp]
  exact fgGetSaddles_eq (d := d.reversed) (fun p hp q hq => hsize p (List.mem_reverse.1 hp) q
    (List.mem_reverse.1 hq)) (List.mem_reverse.2 hp)

theorem reversed_target (h : Strict d.profiles) (ht : (d.fgGetProfile idx).isSome) :
    ∃ target, d.reversed.fgGetProfile idx = some target := by
  by_cases hex : ∃ p ∈ d.profiles, p.temperature = idx
  · obtain ⟨p, hp, rfl⟩ := hex
    obtain ⟨loc, hloc, -⟩ := fgGetProfile_mem (d := d.reversed) h.reverse
      (show p ∈ d.profiles.reverse by simpa using hp)
    exact ⟨loc, hloc⟩
  · have hnone : ∀ ps : List TempProfile, (∀ p ∈ ps, p ∈ d.profiles) →
        ps.findIdx? (·.temperature = idx) = none := fun ps hps =>
      List.findIdx?_eq_none_iff.2 fun p hp => by simpa using fun he => hex ⟨p, hps p hp, he⟩
    unfold TableData.fgGetProfile at ht ⊢
    rw [hnone d.profiles fun p hp => hp] at ht
    rw [hnone d.reversed.profiles fun p hp => by simpa [TableData.reversed] using hp]
    exact Option.isSome_iff_exists.1 ht

/-- Every list of two or more profiles is accepted. -/
theorem check_accepts (h2 : 2 ≤ d.profiles.length) :
    fgCheckTemperatureOrder d.temperatures ≠ none := by
  unfold TableData.temperatures
  match d.profiles, h2 with
  | x :: y :: zs, _ =>
    rw [List.map_cons, List.map_cons, fgCheckTemperatureOrder_eq]
    nofun

variable (cust : PseudoCust) (h2 : 2 ≤ d.profiles.length)
  (hsize : ∀ p ∈ d.profiles, ∀ q ∈ d.profiles, p.size = q.size)
  (ht : (d.fgGetProfile idx).isSome)
include h2 hsize ht

theorem interpolates_of_fit (h : Strict d.profiles) (hfit : Fit d.profiles d.fgGetSaddles) :
    Interpolates cust d idx := by
  obtain ⟨asc, -, -, hcheck, hasc, hdesc, -, -⟩ := h.chosen h2 0
  refine ⟨⟨fun _ => h, fun _ => check_accepts h2⟩, fun ascending descending hrep => ?_,
    fun _ a => ?_⟩
  · have heq := Prod.mk.inj (Option.some.inj (hcheck.symm.trans hrep))
    rw [← heq.1, ← heq.2, Bool.not_eq_true']
    exact ⟨hasc, hdesc⟩
  · obtain ⟨target, htarget⟩ := Option.isSome_iff_exists.1 ht
    obtain ⟨rtarget, hrtarget⟩ := reversed_target h ht
    obtain ⟨low, high, rows, a', hc, -, hd', hrows⟩ := construct_spec cust idx h h2 htarget a
    obtain ⟨low', high', rows', b', hc', -, he', hrows'⟩ := construct_spec cust (d := d.reversed)
      idx h.reverse (by simpa [TableData.reversed] using h2) hrtarget a
    have hcr : Chosen d.profiles a.lastTemp low' high' := hc'.of_reverse
    rw [show clamped d.reversed.profiles a.lastTemp = clamped d.profiles a.lastTemp from
      clamped_reverse .., reversed_saddles h2 hsize] at hrows'
    exact ⟨_, a', _, b', hd', he', fun j hj => ⟨rows j, rows' j, table_setRows htarget rows j,
      table_setRows hrtarget rows' j, hc.filled h hfit hj (hrows j hj),
      hc.same h hcr hfit hj (hrows j hj) (hrows' j hj)⟩⟩

omit h2 hsize ht in
/-- The row that a rising list gives for a temperature behind one of two neighbours and up to the
other. -/
theorem construct_row (hA : Ascending d.temperatures) (h2 : 2 ≤ d.profiles.length)
    (ht : ∃ target, d.fgGetProfile idx = some target) {p q : TempProfile}
    (hn : Neighbours d.profiles p q) (hlt : p.temperature < q.temperature) {a a' : TempAlgo}
    (hp : p.temperature < a.lastTemp) (hq : a.lastTemp ≤ q.temperature) {d' : TableData}
    (hd : fgrConstructBatteryProfile cust d idx a = some (d', a')) {j : Nat} {f : Row}
    (hj : j < d.fgGetSaddles) (hf : d'.table idx j = some f) :
    clamped d.profiles a.lastTemp = a.lastTemp ∧ ∃ r,
      fillRow p.temperature q.temperature a.lastTemp (p.rows j) (q.rows j) r = some f := by
  have hinfix : [p, q] <:+: d.profiles := by
    refine hn.resolve_right fun hinf => ?_
    obtain ⟨pre, post, he⟩ := hinf
    simp only [Ascending, TableData.temperatures, ← he, List.append_assoc, List.cons_append,
      List.nil_append, List.map_append, List.map_cons, List.pairwise_append, List.pairwise_cons,
      List.mem_cons] at hA
    have := hA.2.1.1 p.temperature (.inl rfl)
    omega
  obtain ⟨target, htarget⟩ := ht
  obtain ⟨low, high, rows, a'', hc, huniq, heq, hfill⟩ :=
    construct_spec cust idx (.inl hA) h2 htarget a
  obtain ⟨rfl, rfl⟩ := huniq p q hA hinfix hp hq
  have hcl : clamped d.profiles a.lastTemp = a.lastTemp := by
    rw [← hc.clampTemp, Battery.clampTemp, if_neg (by omega), if_neg (by omega)]
  obtain ⟨rfl, -⟩ := Prod.mk.inj (Option.some.inj (heq.symm.trans hd))
  obtain rfl : rows j = f := Option.some.inj ((table_setRows htarget rows j).symm.trans hf)
  have hrow := hfill j hj
  rw [hcl] at hrow
  exact ⟨hcl, _, hrow⟩

/-- Right rows for the temperatures behind one of two neighbours and up to the other, whichever
comes first: the list or its reverse is the rising one. -/
theorem Interpolates.row (h : Strict d.profiles) (hi : Interpolates cust d idx)
    {p q : TempProfile} (hn : Neighbours d.profiles p q) (hlt : p.temperature < q.temperature)
    {j : Nat} (hj : j < d.fgGetSaddles) {T : Int} (hp : p.temperature < T)
    (hq : T ≤ q.temperature) : ∃ r f, Filled d.profiles T j f ∧
      fillRow p.temperature q.temperature T (p.rows j) (q.rows j) r = some f := by
  let a : TempAlgo := ⟨T, 0, 0, 0, 0, 0, 0, 0, 0, 0⟩
  obtain ⟨d', a', e', b', hd', he', hrows⟩ := hi.fills (check_accepts h2) a
  obtain ⟨r, r', hr, hr', hfilled, hsame⟩ := hrows j hj
  rcases h with hA | hD
  · obtain ⟨hcl, r0, hrow⟩ := construct_row cust hA h2 (Option.isSome_iff_exists.1 ht) hn hlt
      (a := a) hp hq hd' hj hr
    rw [hcl] at hfilled
    exact ⟨r0, r, hfilled, hrow⟩
  · have hA : Ascending d.reversed.temperatures := by
      rw [TableData.temperatures, TableData.reversed, Ascending, List.map_reverse,
        List.pairwise_reverse]
      exact hD
    obtain ⟨hcl, r0, hrow⟩ := construct_row cust (d := d.reversed) hA
      (by simpa [TableData.reversed] using h2) (reversed_target (.inr hD) ht) hn.reverse hlt
      (a := a) hp hq he' (by rwa [reversed_saddles h2 hsize]) hr'
    rw [show clamped d.reversed.profiles a.lastTemp = _ from clamped_reverse ..] at hcl
    rw [hcl] at hfilled
    exact ⟨r0, r', hfilled.same hsame, hrow⟩

theorem fit_of_interpolates (h : Strict d.profiles) (hclose : Close d.profiles)
    (hi : Interpolates cust d idx) : Fit d.profiles d.fgGetSaddles := by
  intro p q hn hlt j hj c hc
  have hD := hclose p q hn
  obtain ⟨hmod, hrange⟩ := column_facts c hc
  have hp := hrange (p.rows j)
  have hq := hrange (q.rows j)
  rcases hmod with hmod | hmod
  · -- the value in the row for a temperature between them
    have hval : ∀ t, 0 < t → t ≤ q.temperature - p.temperature → ∃ f,
        Filled d.profiles (p.temperature + t) j f ∧
          c.get f = u32 (offset (q.temperature - p.temperature)
            (c.get (q.rows j) - c.get (p.rows j)) t + c.get (p.rows j)) := fun t ht0 htD => by
      obtain ⟨r, f, hfilled, hf⟩ := hi.row cust h2 hsize ht h hn hlt hj
        (T := p.temperature + t) (by omega) (by omega)
      obtain ⟨g, hg, hcol⟩ := fillRow_spec hlt (p.diff_lt q) (p.temperature + t) (p.rows j)
        (q.rows j) r
      obtain rfl : g = f := Option.some.inj (hg.symm.trans hf)
      refine ⟨g, hfilled, ?_⟩
      rw [hcol c hc, hmod, show p.temperature + t - p.temperature = t by omega]
      rfl
    rw [hmod] at hp hq
    refine exact_of_between (by omega) (by unfold IsI32; omega) hp.1 hp.2 hq.1 hq.2
      (fun t ht0 htD => ?_) ?_
    · obtain ⟨f, hfilled, hf⟩ := hval t ht0 htD
      rw [← hf]
      exact hfilled.between p q hn (by omega) (by omega) c hc
    · obtain ⟨f, hfilled, hf⟩ := hval (q.temperature - p.temperature) (by omega) (Int.le_refl _)
      rw [← hf]
      exact hfilled.own q hn.mem.2 (by omega) c hc
  · rw [hmod] at hp hq
    exact exact_of_close (by omega) hD hp.1 hp.2 hq.1 hq.2

/-- **Profiles by temperature.** Everything is as expected of profiles in order whose rows fit, and
of no others that are less than 32768 degrees apart; lists that are not in order are accepted. -/
theorem profile_by_temperature :
    (Strict d.profiles ∧ Fit d.profiles d.fgGetSaddles → Interpolates cust d idx) ∧
      (Interpolates cust d idx → Strict d.profiles) ∧
      (Close d.profiles → Interpolates cust d idx → Fit d.profiles d.fgGetSaddles) :=
  have hstrict : Interpolates cust d idx → Strict d.profiles := fun hi =>
    hi.accepts.1 (check_accepts h2)
  ⟨fun h => interpolates_of_fit cust h2 hsize ht h.1 h.2, hstrict, fun hclose hi =>
    fit_of_interpolates cust h2 hsize ht (hstrict hi) hclose hi⟩

end

/-- A profile of one row with a capacity. -/
def profileAt (t : Int) (mah : Fin 4294967296) (h : IsI32 t) : TempProfile :=
  ⟨t, 0, 0, 0, 0, 0, 1, fun _ => ⟨mah, 40000, 1000, 1000, 0⟩, h⟩

def tablesOf (ps : List TempProfile) : TableData :=
  ⟨ps, 255, 254, fun _ => ⟨0, 0, 0, 0, 0⟩, fun _ => ⟨0, 0, 0, 0, 0⟩⟩

def algoAt (t : Int) : TempAlgo := ⟨t, 0, 0, 0, 0, 0, 0, 0, 0, 0⟩

/-- Two profiles, which the theorem is about, are in order and close. -/
theorem profile_by_temperature_two :
    let d := tablesOf [profileAt 25 30000 (by decide), profileAt 50 31000 (by decide)]
    Strict d.profiles ∧
      (Strict d.profiles ∧ Fit d.profiles d.fgGetSaddles → Interpolates ⟨true, true⟩ d 255) ∧
        (Interpolates ⟨true, true⟩ d 255 → Strict d.profiles) ∧
          (Close d.profiles → Interpolates ⟨true, true⟩ d 255 → Fit d.profiles d.fgGetSaddles) :=
  ⟨.inl (by simp [Ascending, tablesOf, profileAt]),
    profile_by_temperature ⟨true, true⟩ (by decide) (by simp [tablesOf, profileAt]) (by decide)⟩

/-- Twice the same temperature is accepted as falling and ends in a division by zero. Temperatures
that rise and fall are accepted as rising. Far capacities, 50 degrees apart, wrap: at the upper
temperature the capacity is not that of its profile. -/
theorem profile_by_temperature_otherwise :
    (fgCheckTemperatureOrder [25, 25] = some (false, true) ∧ ¬ Descending [25, 25] ∧
      (fgrConstructBatteryProfile ⟨true, true⟩
        (tablesOf [profileAt 25 30000 (by decide), profileAt 25 31000 (by decide)]) 255
          (algoAt 25)).isNone = true) ∧
    (fgCheckTemperatureOrder [0, 25, 10] = some (true, false) ∧ ¬ Ascending [0, 25, 10]) ∧
    ((fgrConstructBatteryProfile ⟨true, true⟩
      (tablesOf [profileAt 0 0 (by decide), profileAt 50 50000000 (by decide)]) 255
        (algoAt 50)).bind fun r => (r.1.table 255 0).map Row.mah) ≠ some 50000000 := by
  refine ⟨⟨rfl, by simp [Descending], by decide +kernel⟩, ⟨rfl, by simp [Ascending]⟩,
    by decide +kernel⟩

end Battery
