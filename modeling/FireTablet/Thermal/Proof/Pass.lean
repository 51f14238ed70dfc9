import FireTablet.Thermal.Governor
import Mathlib.Data.List.Forall2
import Mathlib.Tactic.SplitIfs

/-!
# What one pass of the governor does

`nextState` is the state that a device's own trips and its hysteresis ask for. The pass starts each
device from the level that the device before it was left at, and finds the last trip of a device
that is satisfied, not the highest: `Fair` says when this makes no difference (`throttle_pass`).
-/

namespace Thermal

variable {z : Zone}

/-! ## What is asked of a pass -/

/-- Whether a device's instance is of a trip that is satisfied. -/
def Satisfied (z : Zone) (i : Instance z.trips.length) : Prop :=
  (z.trips.get i.trip).temp ≤ z.temperature

instance (i : Instance z.trips.length) : Decidable (Satisfied z i) := by
  unfold Satisfied
  infer_instance

/-- The level that the highest satisfied trip of a device requires, as far as the device goes. -/
def required (z : Zone) (d : Cdev z.trips.length) : Nat :=
  min (((d.instances.filter fun i => Satisfied z i).map fun i => i.trip.val + 1).foldr max 0)
    d.maxState

/-- Whether the temperature is below the hysteresis point of a level. -/
def Below (z : Zone) (level : Nat) : Prop :=
  ∃ p ∈ entry z (level - 1), z.temperature < p.temp - p.hyst

instance (level : Nat) : Decidable (Below z level) := by
  unfold Below
  infer_instance

/-- The state of a device after a pass: what its trips require, but no less than its state while
the temperature is not below the hysteresis point of that. -/
def nextState (z : Zone) (d : Cdev z.trips.length) : Nat :=
  if required z d < d.curState then
    if Below z d.curState then required z d else d.curState
  else required z d

/-! ## When the pass does it -/

/-- The level that the pass takes for a device: of the last of its satisfied trips, or what it had
before, as far as the device goes. -/
def taken (z : Zone) (before : Nat) (d : Cdev z.trips.length) : Nat :=
  min (scan z before d.instances) d.maxState

/-- Whether the comparison that the code makes keeps a device at its state. -/
def Kept (z : Zone) (level : Nat) : Prop := ∃ p ∈ entry z (level - 1), belowHyst z p = false

/-- Whether it lets the device go. -/
def Dropped (z : Zone) (level : Nat) : Prop := ∃ p ∈ entry z (level - 1), belowHyst z p = true

/-- The level that is taken leads a device where its own trips do: it is the required one, or both
are no more than the device's state and the device is kept there. -/
def Leads (z : Zone) (before : Nat) (d : Cdev z.trips.length) : Prop :=
  if d.curState < required z d then taken z before d = required z d
  else if d.curState = required z d ∨ ¬ Below z d.curState then
    taken z before d = d.curState ∨ taken z before d < d.curState ∧ Kept z d.curState
  else taken z before d = required z d ∧ Dropped z d.curState

/-- Every device that is visited is led right from the state of the visited device before it, and
every other one has nothing to do. -/
def Fair (z : Zone) : Nat → List (Cdev z.trips.length) → Prop
  | _, [] => True
  | before, d :: ds =>
    if d.Visited then Leads z before d ∧ Fair z (nextState z d) ds
    else nextState z d = d.curState ∧ Fair z before ds

/-! ## One device -/

/-- A device's state after a visit that takes a level. -/
def after (z : Zone) (t : Nat) (d : Cdev z.trips.length) : Option Nat :=
  if d.curState < t then some t
  else if t < d.curState then
    (entry z (d.curState - 1)).map fun p => if belowHyst z p then t else d.curState
  else some t

theorem kept_iff {level : Nat} {p : Trip} (h : entry z (level - 1) = some p) :
    Kept z level ↔ belowHyst z p = false := by
  simp [Kept, h]

theorem dropped_iff {level : Nat} {p : Trip} (h : entry z (level - 1) = some p) :
    Dropped z level ↔ belowHyst z p = true := by
  simp [Dropped, h]

theorem after_eq_nextState (before : Nat) (d : Cdev z.trips.length) :
    after z (taken z before d) d = some (nextState z d) ↔ Leads z before d := by
  unfold after nextState Leads
  generalize taken z before d = t
  generalize required z d = r
  generalize d.curState = cur
  cases he : entry z (cur - 1) with
  | none =>
    have hk : ¬ Kept z cur := by simp [Kept, he]
    have hd : ¬ Dropped z cur := by simp [Dropped, he]
    have hb : ¬ Below z cur := by simp [Below, he]
    simp only [hk, hd, hb, Option.map_none, if_false, and_false, or_false, not_false_iff, or_true,
      if_true]
    split_ifs <;> simp <;> omega
  | some p =>
    rw [kept_iff he, dropped_iff he]
    by_cases hb : Below z cur <;> cases hp : belowHyst z p <;>
      simp only [hb, hp, Option.map_some, if_true, if_false, and_true, and_false, not_true,
        not_false_iff, or_true, or_false, Bool.false_eq_true, reduceCtorEq] <;>
      split_ifs <;> simp only [Option.some.injEq, true_iff, iff_false] <;> omega

variable {num : Nat}

/-- With one target for the instance of trip 0, the deepest state asked for is that target. -/
theorem foldl_targets (t : Nat) (is : List (Instance num)) (init : Nat) (hi : init ≤ t) :
    (is.map fun i => Instance.mk i.trip (if i.trip.val = 0 then some t else none)).foldl
      Instance.deeper init = if ∃ i ∈ is, i.trip.val = 0 then t else init := by
  induction is generalizing init with
  | nil => simp
  | cons i is ih =>
    rw [List.map_cons, List.foldl_cons]
    by_cases h0 : i.trip.val = 0
    · have hstep : (if t > init then t else init) = t := by
        split <;> omega
      simp only [h0, if_true, Instance.deeper, hstep]
      rw [ih t (Nat.le_refl t)]
      simp [h0]
    · simp only [h0, if_false, Instance.deeper]
      rw [ih init hi]
      simp [h0]

theorem apply_curState {d : Cdev z.trips.length} (hv : d.Visited) {t : Nat}
    (ht : t ≤ d.maxState) : (apply z d t).curState = t := by
  have hd := foldl_targets t d.instances 0 (Nat.zero_le _)
  rw [if_pos (show ∃ i ∈ d.instances, i.trip.val = 0 from hv)] at hd
  simp only [apply, Cdev.thermalCdevUpdate, Cdev.deepest, Cdev.setTargets, Bool.false_eq_true,
    if_false, hd]
  exact Nat.min_eq_left ht

/-- A visit leaves the device, and the level for the next one, where the level that is taken
leads. -/
theorem visit_after {d : Cdev z.trips.length} (hv : d.Visited) (before : Nat) :
    (visit z before d).map (fun q => (q.1, q.2.curState)) =
      (after z (taken z before d) d).map fun s => (s, s) := by
  have ht : (if scan z before d.instances > d.maxState then d.maxState
      else scan z before d.instances) = taken z before d := by
    rw [taken]
    split <;> omega
  have hmax : taken z before d ≤ d.maxState := Nat.min_le_right ..
  simp only [visit, ht, after]
  generalize taken z before d = t at hmax
  by_cases h1 : d.curState < t
  · simp only [if_pos h1, Option.map_some, apply_curState hv hmax]
  · by_cases h2 : t < d.curState
    · simp only [if_neg h1, if_pos h2, gt_iff_lt]
      cases entry z (d.curState - 1) with
      | none => rfl
      | some p =>
        simp only [Option.bind_eq_bind, Option.bind_some, Option.map_some]
        split
        · simp only [Option.map_some, apply_curState hv hmax]
        · rfl
    · simp only [if_neg h1, if_neg h2, gt_iff_lt, Option.map_some, Cdev.setTargets]
      rw [show d.curState = t by omega]

/-! ## All devices -/

/-- The state of every device is the one that is asked for. -/
def Done (z : Zone) (ds ds' : List (Cdev z.trips.length)) : Prop :=
  List.Forall₂ (fun d d' => d'.curState = nextState z d) ds ds'

/-- One device, then the others. -/
theorem done_cons {d d' : Cdev z.trips.length} {ds : List (Cdev z.trips.length)}
    {rest : Option (List (Cdev z.trips.length))} :
    (∃ ds', (rest.bind fun ds => some (d' :: ds)) = some ds' ∧ Done z (d :: ds) ds') ↔
      d'.curState = nextState z d ∧ ∃ ds', rest = some ds' ∧ Done z ds ds' := by
  cases rest with
  | none => simp
  | some ds'' => simp [Done]

theorem visitAll_iff (ds : List (Cdev z.trips.length)) (before : Nat) :
    (∃ ds', visitAll z before ds = some ds' ∧ Done z ds ds') ↔ Fair z before ds := by
  induction ds generalizing before with
  | nil => simp [visitAll, Fair, Done]
  | cons d ds ih =>
    rw [visitAll, Fair]
    by_cases hv : d.Visited
    · rw [if_pos hv, if_pos hv, ← after_eq_nextState]
      have hva := visit_after hv before
      cases hvis : visit z before d with
      | none =>
        rw [hvis, Option.map_none, eq_comm, Option.map_eq_none_iff] at hva
        simp [hva]
      | some q =>
        obtain ⟨t, d'⟩ := q
        rw [hvis, Option.map_some, eq_comm, Option.map_eq_some_iff] at hva
        obtain ⟨s, hs, he⟩ := hva
        obtain ⟨rfl, hcur⟩ := Prod.mk.inj he
        rw [hs, Option.some.injEq, Option.bind_eq_bind, Option.bind_some]
        refine done_cons.trans ?_
        rw [← hcur]
        exact and_congr_right fun h => by rw [← ih, h]
    · rw [if_neg hv, if_neg hv, ← ih before, eq_comm (a := nextState z d)]
      exact done_cons

/-- **One pass** of the governor leaves every device in the state that its own trips and its
hysteresis ask for exactly when every device is led right. -/
theorem throttle_pass (z : Zone) (ds : List (Cdev z.trips.length)) :
    (∃ ds', virtualSensorThrottle z ds = some ds' ∧ Done z ds ds') ↔ Fair z 0 ds :=
  visitAll_iff ds 0

/-! ## A device that is led wrong -/

/-- A zone with one trip, inside its hysteresis. -/
def warmZone : Zone := ⟨[⟨45000, 2000⟩], [], 44000⟩

/-- A device bound to the trip. -/
def boundAt (state : Nat) : Cdev warmZone.trips.length :=
  ⟨3, state, true, [⟨⟨0, by decide⟩, none⟩], by decide⟩

/-- A device that is kept throttled throttles the next one, whose trip is not satisfied. -/
theorem throttle_pass_carries :
    (virtualSensorThrottle warmZone [boundAt 1, boundAt 0]).map (·.map Cdev.curState) =
        some [1, 1] ∧
      [boundAt 1, boundAt 0].map (nextState warmZone) = [1, 0] := by
  decide +kernel

end Thermal
