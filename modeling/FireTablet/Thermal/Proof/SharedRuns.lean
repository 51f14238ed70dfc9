import FireTablet.Thermal.Governor
import FireTablet.Lib.Run
import Mathlib.Tactic.SplitIfs

/-!
# What the zones need of a shared device

The state of a device is at least what the last temperature of every zone requires (`Holds`) as long
as each visit takes a level that is deep enough where it moves the device (`Leads`): for its own
zone when it raises the device, and for all zones when it lowers it (`shared_along_iff`).
-/

namespace Thermal.Shared

variable {c : Config} {z : ZoneId} {temperature : Int} {d d' : Cdev c} {before : Nat}
  {temps : ZoneId → Option Int}

/-! ## What is asked of a device -/

/-- Whether a zone has a trip of the number of an instance, and it is satisfied. -/
def Satisfied (z : ZoneId) (temperature : Int) (i : Instance c) : Prop :=
  ∃ p ∈ (c.trips z)[i.trip.val]?, p.temp ≤ temperature

instance (i : Instance c) : Decidable (Satisfied z temperature i) := by
  unfold Satisfied
  infer_instance

/-- The level that a zone at a temperature requires of a device with its own instances, as far as
the device goes. -/
def required (z : ZoneId) (temperature : Int) (d : Cdev c) : Nat :=
  min (((d.instances.filter fun i => i.zone = z ∧ Satisfied z temperature i).map fun i =>
    i.trip.val + 1).foldr max 0) d.maxState

/-- A device is in a state that is deep enough for every zone. -/
def Enough (temps : ZoneId → Option Int) (d : Cdev c) : Prop :=
  ∀ z t, temps z = some t → required z t d ≤ d.curState

/-- Every device is. -/
def Holds (s : State c) : Prop := ∀ d, Enough s.temperature (s.devs d)

/-! ## When a pass does it -/

/-- The level of the last instance of a device, of whichever zone, whose trip number is that of a
satisfied trip, or what there was before, as far as the device goes. -/
def taken (z : ZoneId) (temperature : Int) (before : Nat) (d : Cdev c) : Nat :=
  min (((d.instances.filter fun i => Satisfied z temperature i).getLast?.map fun i =>
    i.trip.val + 1).getD before) d.maxState

/-- The level that is taken is deep enough for the zone when it raises the device, and for every
zone when the device is let go. A device that stays is deep enough for the zone. -/
def Leads (z : ZoneId) (temperature : Int) (temps : ZoneId → Option Int) (before : Nat)
    (d : Cdev c) : Prop :=
  let t := taken z temperature before d
  if d.curState < t then required z temperature d ≤ t
  else if t < d.curState then
    ∃ p ∈ entry (c.zone z temperature) (d.curState - 1),
      if belowHyst (c.zone z temperature) p then
        ∀ z' t', temps z' = some t' → required z' t' d ≤ t
      else required z temperature d ≤ d.curState
  else required z temperature d ≤ d.curState

/-- The state in which a visit leaves a device. -/
def left (z : ZoneId) (temperature : Int) (before : Nat) (d : Cdev c) : Option Nat :=
  let t := taken z temperature before d
  if d.curState < t then some t
  else if t < d.curState then
    (entry (c.zone z temperature) (d.curState - 1)).map fun p =>
      if belowHyst (c.zone z temperature) p then t else d.curState
  else some t

/-- Every device that is visited is led right from the state of the visited device before it, and
every other one is deep enough for the zone. -/
def Fair (z : ZoneId) (temperature : Int) (temps : ZoneId → Option Int) :
    Nat → List DevId → (DevId → Cdev c) → Prop
  | _, [], _ => True
  | before, d :: ds, devs =>
    if (devs d).Visited z then
      Leads z temperature temps before (devs d) ∧
        ∀ s ∈ left z temperature before (devs d), Fair z temperature temps s ds devs
    else
      required z temperature (devs d) ≤ (devs d).curState ∧
        Fair z temperature temps before ds devs

/-- The temperatures after a pass. -/
def State.after (s : State c) (p : Pass) : ZoneId → Option Int :=
  Function.update s.temperature p.zone (some p.temperature)

/-- A pass leads the devices of its zone right, and every other device is deep enough for it. -/
def Fits (s : State c) (p : Pass) : Prop :=
  Fair p.zone p.temperature (s.after p) 0 (c.devices p.zone) s.devs ∧
    ∀ d ∉ c.devices p.zone, required p.zone p.temperature (s.devs d) ≤ (s.devs d).curState

/-! ## One device -/

/-- Only instances of trip 0 have a target. -/
def Cdev.Clean (d : Cdev c) : Prop := ∀ i ∈ d.instances, i.trip.val ≠ 0 → i.target = none

theorem required_setTargets (f : Instance c → Option Nat) :
    required z temperature (d.setTargets f) = required z temperature d := by
  simp only [required, Cdev.setTargets, List.filter_map, List.map_map]
  rfl

theorem scan_eq (is : List (Instance c)) (before : Nat) : scan z temperature before is =
    ((is.filter fun i => Satisfied z temperature i).getLast?.map fun i =>
      i.trip.val + 1).getD before := by
  induction is generalizing before with
  | nil => rfl
  | cons i is ih =>
    change scan z temperature _ is = _
    rw [ih, List.filter_cons]
    cases hp : (c.trips z)[i.trip.val]? with
    | none => simp [Satisfied, hp]
    | some p =>
      by_cases ht : p.temp ≤ temperature
      · simp only [ge_iff_le, ht, if_true, Satisfied, hp, Option.mem_def, Option.some.injEq,
          exists_eq_left', decide_true, List.getLast?_cons, Option.map_some, Option.getD_some]
        cases (List.filter _ is).getLast? <;> rfl
      · simp [Satisfied, hp, ht]

/-- With one target for some instances, the deepest state asked for is that target. -/
theorem foldl_targets {t init : Nat} (is : List (Instance c)) (hi : init ≤ t)
    (ht : ∀ i ∈ is, i.target = none ∨ i.target = some t) :
    is.foldl Instance.deeper init = if ∃ i ∈ is, i.target = some t then t else init := by
  induction is generalizing init with
  | nil => simp
  | cons i is ih =>
    have ht' : ∀ i ∈ is, i.target = none ∨ i.target = some t :=
      fun j hj => ht j (List.mem_cons_of_mem _ hj)
    rw [List.foldl_cons]
    rcases ht i List.mem_cons_self with h0 | h0
    · have hstep : Instance.deeper init i = init := by simp [Instance.deeper, h0]
      rw [hstep, ih hi ht']
      simp [h0]
    · have hstep : Instance.deeper init i = t := by
        simp only [Instance.deeper, h0]
        split <;> omega
      rw [hstep, ih (Nat.le_refl t) ht']
      simp [h0]

theorem cleared_eq_none (hc : d.Clean) {i : Instance c} (hi : i ∈ d.instances)
    (h0 : i.trip.val ≠ 0) : cleared z i = none := by
  rw [cleared]
  split_ifs
  · rfl
  · exact hc i hi h0

/-- A visit leaves no other target. -/
theorem cleared_other (hc : d.Clean) (hv : d.Visited z) {i : Instance c} (hi : i ∈ d.instances) :
    cleared z i = none := by
  obtain ⟨k, -, hz, -⟩ := hv
  by_cases h0 : i.trip.val = 0
  · exact if_pos (h0 ▸ hz ▸ k.trip.pos)
  · exact cleared_eq_none hc hi h0

theorem apply_curState (hc : d.Clean) (hv : d.Visited z) {t : Nat} (ht : t ≤ d.maxState) :
    (apply z d t).curState = t := by
  have hd := foldl_targets (d.setTargets fun i =>
      if i.zone = z ∧ i.trip.val = 0 then some t else cleared z i).instances (Nat.zero_le t) (by
    intro j hj
    obtain ⟨k, hk, rfl⟩ := List.mem_map.1 hj
    by_cases hown : k.zone = z ∧ k.trip.val = 0
    · exact .inr (if_pos hown)
    · exact .inl ((if_neg hown).trans (cleared_other hc hv hk)))
  obtain ⟨i, hi, hz, h0⟩ := hv
  rw [if_pos ⟨_, List.mem_map_of_mem hi, if_pos ⟨hz, h0⟩⟩] at hd
  change min (List.foldl Instance.deeper 0 _) d.maxState = t
  rw [hd]
  exact Nat.min_eq_left ht

/-- What a visit does not change: what zones require, and that only trip 0 has targets. -/
structure Kept (d d' : Cdev c) : Prop where
  same : ∀ z t, required z t d' = required z t d
  clean : d'.Clean

theorem kept_setTargets (hc : d.Clean) : Kept d (d.setTargets (cleared z)) where
  same _ _ := required_setTargets _
  clean := by
    intro i hi h0
    obtain ⟨k, hk, rfl⟩ := List.mem_map.1 hi
    exact cleared_eq_none hc hk h0

theorem kept_apply (hc : d.Clean) (t : Nat) : Kept d (apply z d t) where
  same _ _ := required_setTargets (d := d) _
  clean := by
    intro i hi h0
    obtain ⟨k, hk, rfl⟩ := List.mem_map.1 hi
    exact (if_neg fun hown => h0 hown.2).trans (cleared_eq_none hc hk h0)

/-- A visit leaves the device, and the level for the next one, where the level that is taken
leads. -/
theorem visit_left (hc : d.Clean) (hv : d.Visited z) (temperature : Int) (before : Nat) :
    (∀ q ∈ visit z temperature before d, Kept d q.2) ∧
      (visit z temperature before d).map (fun q => (q.1, q.2.curState)) =
        (left z temperature before d).map fun s => (s, s) := by
  have ht : (if scan z temperature before d.instances > d.maxState then d.maxState
      else scan z temperature before d.instances) = taken z temperature before d := by
    rw [taken, ← scan_eq]
    split <;> omega
  have hmax : taken z temperature before d ≤ d.maxState := Nat.min_le_right ..
  simp only [visit, ht, left]
  generalize taken z temperature before d = t at hmax
  by_cases h1 : d.curState < t
  · simp only [if_pos h1, Option.map_some, apply_curState hc hv hmax, and_true]
    intro q hq
    obtain rfl := Option.some.inj hq
    exact kept_apply hc t
  · by_cases h2 : t < d.curState
    · simp only [if_neg h1, if_pos h2, gt_iff_lt]
      cases entry (c.zone z temperature) (d.curState - 1) with
      | none => simp
      | some p =>
        simp only [Option.bind_eq_bind, Option.bind_some, Option.map_some]
        split
        · refine ⟨fun q hq => ?_, by simp only [Option.map_some, apply_curState hc hv hmax]⟩
          obtain rfl := Option.some.inj hq
          exact kept_apply hc t
        · refine ⟨fun q hq => ?_, rfl⟩
          obtain rfl := Option.some.inj hq
          exact kept_setTargets hc
    · simp only [if_neg h1, if_neg h2, gt_iff_lt, Option.map_some, Cdev.setTargets]
      refine ⟨fun q hq => ?_, by rw [show d.curState = t by omega]⟩
      obtain rfl := Option.some.inj hq
      exact kept_setTargets hc

/-- The other zones need no more than the state before the visit. -/
theorem forall_required_iff (he : Enough temps d) {s : Nat} (hs : d.curState ≤ s) :
    (∀ z' t', Function.update temps z (some temperature) z' = some t' → required z' t' d ≤ s) ↔
      required z temperature d ≤ s := by
  refine ⟨fun h => h z temperature (Function.update_self ..), fun h z' t' ht => ?_⟩
  by_cases hz : z' = z
  · subst hz
    rw [Function.update_self, Option.some.injEq] at ht
    exact ht ▸ h
  · rw [Function.update_of_ne hz] at ht
    exact Nat.le_trans (he z' t' ht) hs

/-- The state in which a visit leaves a device is deep enough for every zone exactly when the level
that is taken leads right. -/
theorem leads_iff (he : Enough temps d) (before : Nat) :
    (∃ s, left z temperature before d = some s ∧
      ∀ z' t', Function.update temps z (some temperature) z' = some t' → required z' t' d ≤ s) ↔
      Leads z temperature (Function.update temps z (some temperature)) before d := by
  simp only [left, Leads]
  generalize taken z temperature before d = t
  by_cases h1 : d.curState < t
  · simp only [if_pos h1, Option.some.injEq, exists_eq_left']
    exact forall_required_iff he (Nat.le_of_lt h1)
  · by_cases h2 : t < d.curState
    · simp only [if_neg h1, if_pos h2]
      cases entry (c.zone z temperature) (d.curState - 1) with
      | none => simp
      | some p =>
        simp only [Option.map_some, Option.some.injEq, exists_eq_left', Option.mem_def]
        split
        · rfl
        · exact forall_required_iff he (Nat.le_refl _)
    · simp only [if_neg h1, if_neg h2, Option.some.injEq, exists_eq_left']
      rw [show t = d.curState by omega]
      exact forall_required_iff he (Nat.le_refl _)

theorem Kept.enough_iff (h : Kept d d') :
    Enough temps d' ↔ ∀ z t, temps z = some t → required z t d ≤ d'.curState := by
  simp only [Enough, h.same]

/-! ## All devices -/

variable {ds : List DevId} {devs devs' : DevId → Cdev c}

/-- A pass leaves the devices that the zone does not list. -/
theorem visitAll_frame (hc : ∀ d, (devs d).Clean)
    (h : visitAll z temperature before ds devs = some devs') :
    (∀ d ∉ ds, devs' d = devs d) ∧ ∀ d, (devs' d).Clean := by
  induction ds generalizing before devs with
  | nil =>
    obtain rfl := Option.some.inj h
    exact ⟨fun _ _ => rfl, hc⟩
  | cons d ds ih =>
    rw [visitAll] at h
    by_cases hv : (devs d).Visited z
    · rw [if_pos hv, Option.bind_eq_bind, Option.bind_eq_some_iff] at h
      obtain ⟨q, hq, h⟩ := h
      have hk := (visit_left (hc d) hv temperature before).1 q hq
      have hc' : ∀ e, (Function.update devs d q.2 e).Clean := by
        intro e
        by_cases he : e = d
        · rw [he, Function.update_self]
          exact hk.clean
        · rw [Function.update_of_ne he]
          exact hc e
      obtain ⟨hframe, hclean⟩ := ih hc' h
      refine ⟨fun e he => ?_, hclean⟩
      rw [List.mem_cons, not_or] at he
      rw [hframe e he.2, Function.update_of_ne he.1]
    · rw [if_neg hv] at h
      obtain ⟨hframe, hclean⟩ := ih hc h
      exact ⟨fun e he => hframe e fun hm => he (List.mem_cons_of_mem _ hm), hclean⟩

theorem fair_congr (h : ∀ d ∈ ds, devs d = devs' d) :
    Fair z temperature temps before ds devs ↔ Fair z temperature temps before ds devs' := by
  induction ds generalizing before with
  | nil => rfl
  | cons d ds ih =>
    have ht : ∀ d ∈ ds, devs d = devs' d := fun e he => h e (List.mem_cons_of_mem _ he)
    simp only [Fair, h d List.mem_cons_self, ih ht]

/-- One device, then the others. -/
theorem visitAll_cons_iff {d : DevId} {P : Cdev c → Prop} (hd : d ∉ ds)
    (hc : ∀ d, (devs d).Clean) :
    (∃ devs', visitAll z temperature before ds devs = some devs' ∧ ∀ e ∈ d :: ds, P (devs' e)) ↔
      P (devs d) ∧
        ∃ devs', visitAll z temperature before ds devs = some devs' ∧ ∀ e ∈ ds, P (devs' e) := by
  rw [← exists_and_left]
  refine exists_congr fun devs' => ?_
  rw [and_left_comm]
  refine and_congr_right fun h => ?_
  rw [List.forall_mem_cons, (visitAll_frame hc h).1 d hd]

/-- A pass leaves the devices that the zone lists deep enough for every zone exactly when it leads
them right. -/
theorem visitAll_iff (z : ZoneId) (temperature : Int) (hd : ds.Nodup)
    (hc : ∀ d, (devs d).Clean) (he : ∀ d ∈ ds, Enough temps (devs d)) (before : Nat) :
    (∃ devs', visitAll z temperature before ds devs = some devs' ∧
      ∀ d ∈ ds, Enough (Function.update temps z (some temperature)) (devs' d)) ↔
      Fair z temperature (Function.update temps z (some temperature)) before ds devs := by
  induction ds generalizing before devs with
  | nil => simp [visitAll, Fair]
  | cons d ds ih =>
    obtain ⟨hnd, hd⟩ := List.nodup_cons.1 hd
    have he' : ∀ e ∈ ds, Enough temps (devs e) := fun e h => he e (List.mem_cons_of_mem _ h)
    rw [visitAll, Fair]
    by_cases hv : (devs d).Visited z
    · rw [if_pos hv, if_pos hv, ← leads_iff (he d List.mem_cons_self)]
      obtain ⟨hk, hleft⟩ := visit_left (hc d) hv temperature before
      cases hq : visit z temperature before (devs d) with
      | none =>
        rw [hq, Option.map_none, eq_comm, Option.map_eq_none_iff] at hleft
        simp [hleft]
      | some q =>
        obtain ⟨t, x⟩ := q
        rw [hq, Option.map_some, eq_comm, Option.map_eq_some_iff] at hleft
        obtain ⟨s, hs, hsx⟩ := hleft
        obtain ⟨rfl, hcur⟩ := Prod.mk.inj hsx
        have hx : Kept (devs d) x := hk _ hq
        have hother : ∀ e ∈ ds, Function.update devs d x e = devs e := fun e h =>
          Function.update_of_ne (ne_of_mem_of_not_mem h hnd) ..
        have hc' : ∀ e, (Function.update devs d x e).Clean := by
          intro e
          by_cases hed : e = d
          · rw [hed, Function.update_self]
            exact hx.clean
          · rw [Function.update_of_ne hed]
            exact hc e
        have hrest := ih hd hc' (fun e h => hother e h ▸ he' e h) s
        rw [fair_congr hother] at hrest
        rw [Option.bind_eq_bind, Option.bind_some]
        refine (visitAll_cons_iff hnd hc').trans ?_
        rw [Function.update_self, hx.enough_iff, ← hcur, hrest]
        simp [hs]
    · rw [if_neg hv, if_neg hv, ← ih hd hc he',
        ← forall_required_iff (he d List.mem_cons_self) (Nat.le_refl _)]
      exact visitAll_cons_iff hnd hc

/-! ## Runs -/

/-- A pass is defined, and leaves every device deep enough for every zone. -/
def Good (s : State c) (p : Pass) : Prop := ∃ s', step s p = some ((), s') ∧ Holds s'

/-- What holds after every pass. -/
structure Inv (s : State c) : Prop where
  holds : Holds s
  clean : ∀ d, (s.devs d).Clean

theorem step_eq {s s' : State c} {p : Pass} (h : step s p = some ((), s')) :
    visitAll p.zone p.temperature 0 (c.devices p.zone) s.devs = some s'.devs ∧
      s'.temperature = s.after p := by
  obtain ⟨devs, hdevs, he⟩ := Option.map_eq_some_iff.1 h
  obtain rfl := (Prod.mk.inj he).2
  exact ⟨hdevs, rfl⟩

theorem good_iff {s : State c} (hi : Inv s) (p : Pass) : Good s p ↔ Fits s p := by
  have hlisted := visitAll_iff p.zone p.temperature (c.nodup p.zone) hi.clean
    (fun d _ => hi.holds d) 0
  have hunlisted : ∀ d, Enough (s.after p) (s.devs d) ↔
      required p.zone p.temperature (s.devs d) ≤ (s.devs d).curState := fun d =>
    forall_required_iff (hi.holds d) (Nat.le_refl _)
  rw [Fits, State.after, ← hlisted]
  constructor
  · rintro ⟨s', hs, hh⟩
    obtain ⟨hv, ht⟩ := step_eq hs
    have hafter : ∀ d, Enough (s.after p) (s'.devs d) := fun d => by
      rw [← ht]
      exact hh d
    refine ⟨⟨s'.devs, hv, fun d _ => hafter d⟩, fun d hd => (hunlisted d).1 ?_⟩
    rw [← (visitAll_frame hi.clean hv).1 d hd]
    exact hafter d
  · rintro ⟨⟨devs', hv, hall⟩, hrest⟩
    refine ⟨⟨s.after p, devs'⟩, ?_, fun d => ?_⟩
    · rw [step, hv]
      rfl
    · by_cases hd : d ∈ c.devices p.zone
      · exact hall d hd
      · change Enough _ (devs' d)
        rw [(visitAll_frame hi.clean hv).1 d hd]
        exact (hunlisted d).2 (hrest d hd)

theorem inv_start (devs : DevId → Cdev c) : Inv (start devs) where
  holds _ _ _ h := nomatch h
  clean _ i hi _ := by
    obtain ⟨k, -, rfl⟩ := List.mem_map.1 hi
    rfl

/-- **Shared devices**: in a run, every pass leaves every device in a state that is at least what
the last temperature of every zone requires exactly when every pass leads its devices right. -/
theorem shared_along_iff (devs : DevId → Cdev c) (ps : List Pass) :
    Sys.Along step Good (start devs) ps ↔ Sys.Along step Fits (start devs) ps := by
  refine Sys.along_iff (fun s p hi => good_iff hi p) (fun s p o s' hi hg h => ?_) ps _
    (inv_start devs)
  obtain ⟨s'', hs, hh⟩ := hg
  obtain rfl : s'' = s' := by
    rw [h, Option.some.injEq] at hs
    exact (Prod.mk.inj hs).2.symm
  exact ⟨hh, (visitAll_frame hi.clean (step_eq hs).1).2⟩

/-! ## A zone that lowers what another one needs -/

/-- Two zones with one trip each, and one device. -/
def twoZones : Config where
  trips := fun _ => [⟨45000, 2000⟩]
  spare := fun _ => []
  devices := fun _ => [0]
  nodup := fun _ => by decide

/-- The device bound to both zones. -/
def sharedDev : Cdev twoZones :=
  ⟨3, 0, false, [⟨0, ⟨0, by decide⟩, none⟩, ⟨1, ⟨0, by decide⟩, none⟩], by decide⟩

/-- After a hot zone has throttled the device, a cool one lets it go. -/
theorem shared_lowered :
    ¬ Sys.Along step Good (start fun _ => sharedDev) [⟨0, 50000⟩, ⟨1, 20000⟩] := by
  intro h
  obtain ⟨s, hs, hh⟩ := (h.2 () _ rfl).1
  cases hs
  exact absurd (hh 0 0 50000 rfl) (by decide)

end Thermal.Shared
