import FireTablet.Lib.Run
import FireTablet.Battery.Coulomb
import Mathlib.Algebra.GroupWithZero.Nat

/-!
# The coulomb service over a run

Three invariants: of the lists (`Listed`), of the callbacks so far (`Tally`), and of the armed
interrupts (`Guard`), which holds of runs in which the counter is where it was read whenever the
thread comes back from a callback (`coulomb_kept`).
-/

namespace Battery.Service

open CInt

/-! ## Sides -/

@[simp] theorem key_key (side : Side) (x : Int) : side.key (side.key x) = x := by
  cases side
  · rfl
  · exact Int.neg_neg x

theorem i32_le {x : Int} (h : 0 ≤ x) : i32 x ≤ x := by
  unfold i32
  omega

theorem key_armed (s : Service) (side : Side) (v : Int) :
    side.key ((s.arm side v).armed side) = side.key s.counter + i32 v := by
  unfold arm
  simp only [Function.update_self, key_key]

theorem armed_other (s : Service) {side side' : Side} (h : side' ≠ side) (v : Int) :
    (s.arm side v).armed side' = s.armed side' := Function.update_of_ne h _ _

/-! ## Lists -/

/-- How often a consumer is linked. -/
def linkedIn (l : List Consumer) (id : Nat) : Nat := l.countP fun c => c.id = id

theorem linkedIn_unlink (l : List Consumer) (id id' : Nat) :
    linkedIn (unlink id l) id' = if id' = id then 0 else linkedIn l id' := by
  unfold linkedIn unlink
  rw [List.countP_filter]
  split_ifs with h
  · rw [List.countP_eq_zero]
    intro c _ hc
    simp only [ne_eq, decide_not, Bool.and_eq_true, decide_eq_true_eq, Bool.not_eq_eq_eq_not,
      Bool.not_true, decide_eq_false_iff_not] at hc
    omega
  · refine List.countP_congr fun c _ => ?_
    simp only [ne_eq, decide_not, Bool.and_eq_true, decide_eq_true_eq, Bool.not_eq_eq_eq_not,
      Bool.not_true, decide_eq_false_iff_not]
    omega

theorem link_perm (side : Side) (c : Consumer) (l : List Consumer) :
    (link side c l).Perm (c :: l) :=
  List.perm_orderedInsert _ _ _

theorem linkedIn_link (side : Side) (c : Consumer) (l : List Consumer) (id : Nat) :
    linkedIn (link side c l) id = linkedIn l id + if c.id = id then 1 else 0 := by
  unfold linkedIn
  rw [(link_perm side c l).countP_eq, List.countP_cons]
  simp only [decide_eq_true_eq]

/-- The order of a list. -/
def Sorted (side : Side) (l : List Consumer) : Prop :=
  l.Pairwise fun a b => side.key a.stop ≤ side.key b.stop

theorem sorted_link (side : Side) (c : Consumer) {l : List Consumer} (h : Sorted side l) :
    Sorted side (link side c l) := by
  induction l with
  | nil => exact List.pairwise_singleton _ _
  | cons d l ih =>
    obtain ⟨hd, hl⟩ := List.pairwise_cons.1 h
    unfold link
    rw [List.orderedInsert_cons]
    split_ifs with hlt
    · refine List.pairwise_cons.2 ⟨?_, h⟩
      intro b hb
      obtain rfl | hb := List.mem_cons.1 hb
      · exact Int.le_of_lt hlt
      · exact Int.le_trans (Int.le_of_lt hlt) (hd b hb)
    · refine List.pairwise_cons.2 ⟨?_, ih hl⟩
      intro b hb
      obtain rfl | hb := List.mem_cons.1 ((link_perm side c l).mem_iff.1 hb)
      · exact Int.not_lt.1 hlt
      · exact hd b hb

/-- A list whose first consumer is not due stops there. -/
theorem firstLeft_of_not_due {side : Side} {car : Int} {l : List Consumer}
    (h : ¬ (l.head?.any fun c => Due side car c) = true) : firstLeft side car l = l.head? := by
  cases l with
  | nil => rfl
  | cons c cs =>
    simp only [List.head?_cons, Option.any_some, decide_eq_true_eq] at h
    rw [firstLeft, if_neg h, List.head?_cons]

/-! ## The lists are kept -/

/-- The lists: every consumer at most once, in the list of its sign, and in order. -/
structure Listed (s : Service) : Prop where
  once : ∀ id, linkedIn (s.list .plus) id + linkedIn (s.list .minus) id ≤ 1
  sign : ∀ side, ∀ c ∈ s.list side, 0 < side.key c.gap
  sorted : ∀ side, Sorted side (s.list side)

/-- Consumers are unlinked, the one that is called back among them. -/
structure Served (s s' : Service) (o : Option Call) : Prop where
  sub : ∀ side, (s'.list side).Sublist (s.list side)
  called : ∀ call, o = some call → Due call.side call.car call.consumer ∧
    (call.consumer :: s'.list call.side).Sublist (s.list call.side)

theorem Served.refl (s : Service) : Served s s none :=
  ⟨fun _ => List.Sublist.refl _, fun _ h => by cases h⟩

theorem Served.trans {s s1 s2 : Service} {o : Option Call} (h : Served s s1 none)
    (h' : Served s1 s2 o) : Served s s2 o :=
  ⟨fun side => (h'.sub side).trans (h.sub side), fun call hc =>
    ⟨(h'.called call hc).1, (h'.called call hc).2.trans (h.sub _)⟩⟩

/-- Nothing but the lists matters. -/
theorem Served.of_list {s s1 s2 : Service} {o : Option Call} (h : Served s s1 o)
    (he : s2.list = s1.list) : Served s s2 o :=
  ⟨fun side => he ▸ h.sub side, fun call hc => he ▸ h.called call hc⟩

theorem Served.listed {s s' : Service} {o : Option Call} (h : Served s s' o) (hl : Listed s) :
    Listed s' := by
  refine ⟨?_, ?_, ?_⟩
  · intro id
    have h1 := (h.sub .plus).countP_le (p := fun c => decide (c.id = id))
    have h2 := (h.sub .minus).countP_le (p := fun c => decide (c.id = id))
    have h3 := hl.once id
    unfold linkedIn at *
    omega
  · exact fun side c hc => hl.sign side c ((h.sub side).subset hc)
  · exact fun side => (hl.sorted side).sublist (h.sub side)

theorem scan_spec (callback : Nat → Bool) (side : Side) (car : Int) (l : List Consumer) :
    (scan callback side car l).1.Sublist l ∧
    (∀ c, (scan callback side car l).2 = some c → Due side car c ∧
      (c :: (scan callback side car l).1).Sublist l) ∧
    ((scan callback side car l).2 = none → ∀ c, (scan callback side car l).1.head? = some c →
      ¬ Due side car c) := by
  induction l with
  | nil => exact ⟨List.Sublist.refl _, (fun _ h => nomatch h), (fun _ _ h => nomatch h)⟩
  | cons d l ih =>
    obtain ⟨h1, h2, h3⟩ := ih
    unfold scan
    by_cases hdue : Due side car d
    · cases hcb : callback d.id with
      | true =>
        simp only [if_pos hdue, if_true]
        refine ⟨List.sublist_cons_self _ _, ?_, fun h => by cases h⟩
        rintro c ⟨⟩
        exact ⟨hdue, List.Sublist.refl _⟩
      | false =>
        simp only [if_pos hdue, Bool.false_eq_true, if_false]
        exact ⟨h1.cons _, fun c hc => ⟨(h2 c hc).1, (h2 c hc).2.cons _⟩, h3⟩
    · simp only [if_neg hdue]
      refine ⟨List.Sublist.refl _, (fun _ h => nomatch h), ?_⟩
      rintro - c ⟨⟩
      exact hdue

section
variable (callback : Nat → Bool)

theorem handleSide_served (s : Service) (side : Side) (car : Int) :
    Served s (s.handleSide callback side car).1 (s.handleSide callback side car).2 := by
  obtain ⟨h1, h2, -⟩ := scan_spec callback side car (s.list side)
  have hsub : ∀ side', (Function.update s.list side
      (scan callback side car (s.list side)).1 side').Sublist (s.list side') := by
    intro side'
    by_cases h : side' = side
    · subst h
      rw [Function.update_self]
      exact h1
    · rw [Function.update_of_ne h]
  simp only [handleSide]
  cases hr : (scan callback side car (s.list side)).2 with
  | some c =>
    refine ⟨hsub, ?_⟩
    rintro call ⟨⟩
    refine ⟨(h2 c hr).1, ?_⟩
    show (c :: Function.update s.list side _ side).Sublist (s.list side)
    rw [Function.update_self]
    exact (h2 c hr).2
  | none =>
    cases (scan callback side car (s.list side)).1.head? with
    | some c => exact ⟨hsub, fun _ h => nomatch h⟩
    | none => exact ⟨hsub, fun _ h => nomatch h⟩

theorem handleMinus_served (s : Service) (car : Int) :
    Served s (s.handleMinus callback car).1 (s.handleMinus callback car).2 := by
  have h := handleSide_served callback s .minus car
  unfold handleMinus
  generalize s.handleSide callback .minus car = r at h
  obtain ⟨s1, o⟩ := r
  cases o with
  | some c => exact h
  | none => exact h.of_list rfl

theorem handlePlus_served (s : Service) (car : Int) :
    Served s (s.handlePlus callback car).1 (s.handlePlus callback car).2 := by
  have h := handleSide_served callback s .plus car
  unfold handlePlus
  generalize s.handleSide callback .plus car = r at h
  obtain ⟨s1, o⟩ := r
  cases o with
  | some c => exact h
  | none => exact h.trans (handleMinus_served callback s1 car)

theorem threadStep_served (s : Service) :
    Served s (s.threadStep callback).1 (s.threadStep callback).2 := by
  unfold threadStep
  cases s.thread with
  | waiting =>
    simp only
    split_ifs
    · exact (Served.refl s).of_list rfl
    · exact Served.refl s
  | woken => exact handlePlus_served callback s s.counter
  | callback side car =>
    cases side with
    | plus => exact handlePlus_served callback s car
    | minus => exact handleMinus_served callback s car

end

/-! ## Starts -/

/-- Arming leaves everything else. -/
theorem rearm_eq (s : Service) (side : Side) :
    ∃ v, s.rearm side = { s with armed := v } := by
  unfold rearm
  cases firstLeft side s.counter (s.list side) with
  | some c => exact ⟨_, rfl⟩
  | none => exact ⟨s.armed, rfl⟩

theorem start_list (s : Service) (id : Nat) {car : Int} (hcar : car ≠ 0) :
    (s.start id car).list = Function.update (fun side => unlink id (s.list side)) (sideOf car)
      (link (sideOf car) ⟨id, s.counter + car, car⟩ (unlink id (s.list (sideOf car)))) := by
  obtain ⟨v, hv⟩ := rearm_eq (s.relink id car) (sideOf car)
  simp only [start, if_neg hcar, hv]
  split_ifs <;> rfl

/-- How often a consumer is linked in the two lists. -/
def linked (s : Service) (id : Nat) : Nat :=
  linkedIn (s.list .plus) id + linkedIn (s.list .minus) id

theorem start_linked (s : Service) (id id' : Nat) {car : Int} (hcar : car ≠ 0) :
    (s.start id car).linked id' = if id' = id then 1 else s.linked id' := by
  unfold linked
  rw [start_list s id hcar]
  cases sideOf car <;>
    simp only [Function.update_self, ne_eq, reduceCtorEq, not_false_eq_true, Function.update_of_ne,
      linkedIn_link, linkedIn_unlink] <;> split_ifs <;> omega

theorem sorted_unlink {side : Side} {l : List Consumer} (h : Sorted side l) (id : Nat) :
    Sorted side (unlink id l) := h.sublist List.filter_sublist

theorem start_listed {s : Service} (hl : Listed s) (id : Nat) (car : Int) :
    Listed (s.start id car) := by
  by_cases hcar : car = 0
  · simp only [start, if_pos hcar]
    exact hl
  have hunlink : ∀ side, ∀ c ∈ unlink id (s.list side), 0 < side.key c.gap :=
    fun side c hc => hl.sign side c (List.mem_of_mem_filter hc)
  refine ⟨?_, ?_, ?_⟩
  · intro id'
    have h := start_linked s id id' hcar
    have h1 := hl.once id'
    unfold linked at h
    split_ifs at h <;> omega
  · intro side c hc
    rw [start_list s id hcar] at hc
    by_cases hs : side = sideOf car
    · subst hs
      rw [Function.update_self] at hc
      obtain rfl | hc := List.mem_cons.1 ((link_perm _ _ _).mem_iff.1 hc)
      · unfold sideOf
        split_ifs with h0
        · exact h0
        · show 0 < -car
          omega
      · exact hunlink _ c hc
    · rw [Function.update_of_ne hs] at hc
      exact hunlink _ c hc
  · intro side
    rw [start_list s id hcar]
    by_cases hs : side = sideOf car
    · subst hs
      rw [Function.update_self]
      exact sorted_link _ _ (sorted_unlink (hl.sorted _) id)
    · rw [Function.update_of_ne hs]
      exact sorted_unlink (hl.sorted _) id

/-! ## Resets -/

theorem linkedIn_shift (now : Int) (l : List Consumer) (id : Nat) :
    linkedIn (l.map (shift now)) id = linkedIn l id := by
  unfold linkedIn
  rw [List.countP_map]
  rfl

theorem shift_listed {s : Service} (hl : Listed s) (now : Int) (s' : Service)
    (he : s'.list = fun side => (s.list side).map (shift now)) : Listed s' := by
  refine ⟨?_, ?_, ?_⟩
  · intro id
    rw [he, linkedIn_shift, linkedIn_shift]
    exact hl.once id
  · intro side c hc
    rw [he] at hc
    obtain ⟨d, hd, rfl⟩ := List.mem_map.1 hc
    exact hl.sign side d hd
  · intro side
    rw [he]
    refine List.pairwise_map.2 ((hl.sorted side).imp ?_)
    intro a b hab
    cases side <;> simp only [Side.key, shift] at hab ⊢ <;> omega

/-! ## The armed interrupts -/

/-- The interrupt of a list is armed not beyond any of its ends. -/
def Armed (s : Service) (side : Side) : Prop :=
  ∀ c ∈ s.list side, side.key (s.armed side) ≤ side.key c.stop

/-- The thread is going to run, or a reset is under way. -/
def Pending (s : Service) : Prop :=
  s.coulombThreadTimeout = true ∨ 0 < s.wakes ∨ 0 < s.wakesArmed ∨ s.reset ≠ .none

/-- The interrupts are armed, or will be: a run of the thread arms the list for a rise first. -/
def Guard (s : Service) : Prop :=
  Pending s ∨ match s.thread with
    | .waiting => Armed s .plus ∧ Armed s .minus
    | .woken | .callback .plus _ => True
    | .callback .minus _ => Armed s .plus

theorem Armed.sub {s s' : Service} {side : Side} (h : Armed s side)
    (hl : (s'.list side).Sublist (s.list side)) (ha : s'.armed side = s.armed side) :
    Armed s' side := by
  intro c hc
  rw [ha]
  exact h c (hl.subset hc)

/-- Unlinking keeps the interrupts armed. -/
theorem Guard.sub {s s' : Service} (h : Guard s) (hl : ∀ side, (s'.list side).Sublist (s.list side))
    (ha : s'.armed = s.armed) (hp : Pending s → Pending s') (ht : s'.thread = s.thread) :
    Guard s' := by
  obtain h | h := h
  · exact .inl (hp h)
  · refine .inr ?_
    rw [ht]
    have hside : ∀ side, Armed s side → Armed s' side :=
      fun side h => h.sub (hl side) (congrFun ha side)
    cases hth : s.thread with
    | waiting =>
      rw [hth] at h
      exact ⟨hside _ h.1, hside _ h.2⟩
    | woken => trivial
    | callback side car =>
      cases side with
      | plus => trivial
      | minus =>
        rw [hth] at h
        exact hside _ h

/-- The list for which the interrupt was armed, at its first end. -/
theorem armed_of_head {s : Service} {side : Side} (hs : Sorted side (s.list side))
    (h : ∀ c, (s.list side).head? = some c → side.key (s.armed side) ≤ side.key c.stop) :
    Armed s side := by
  intro c hc
  cases hl : s.list side with
  | nil =>
    rw [hl] at hc
    cases hc
  | cons d l =>
    rw [hl] at hc hs h
    have hd := h d rfl
    obtain rfl | hc := List.mem_cons.1 hc
    · exact hd
    · exact Int.le_trans hd ((List.pairwise_cons.1 hs).1 c hc)

/-- **A start** arms the interrupt of its list, or the thread is going to run. -/
theorem start_guard {s : Service} (hl : Listed s) (h : Guard s) (id : Nat) (car : Int) :
    Guard (s.start id car) := by
  have hsorted := (start_listed hl id car).sorted
  by_cases hcar : car = 0
  · simp only [start, if_pos hcar]
    exact h
  have hlist := start_list s id hcar
  simp only [start, if_neg hcar] at hsorted hlist ⊢
  obtain ⟨v, hv⟩ := rearm_eq (s.relink id car) (sideOf car)
  split_ifs at hsorted hlist ⊢ with hdue
  · refine .inl (.inr (.inl ?_))
    rw [hv]
    exact Nat.succ_pos _
  · -- nothing is due: the interrupt is armed at the first end
    have hfirst : firstLeft (sideOf car) (s.relink id car).counter
        ((s.relink id car).list (sideOf car)) = ((s.relink id car).list (sideOf car)).head? := by
      refine firstLeft_of_not_due ?_
      rw [hv] at hdue
      exact hdue
    have harmed : Armed ((s.relink id car).rearm (sideOf car)) (sideOf car) := by
      refine armed_of_head (hsorted _) ?_
      intro c hc
      rw [hv] at hc hdue
      have hnot : ¬ Due (sideOf car) s.counter c := by
        intro hd
        refine hdue ?_
        unfold headDue
        rw [hc, Option.any_some]
        exact decide_eq_true hd
      unfold rearm
      rw [hfirst]
      rw [show ((s.relink id car).list (sideOf car)).head? = some c from hc]
      simp only
      rw [key_armed]
      have := i32_le (x := (sideOf car).key c.stop - (sideOf car).key s.counter) (by
        unfold Due at hnot
        omega)
      show (sideOf car).key s.counter +
        i32 ((sideOf car).key c.stop - (sideOf car).key s.counter) ≤ _
      omega
    have hother : ∀ side, side ≠ sideOf car → Armed s side →
        Armed ((s.relink id car).rearm (sideOf car)) side := by
      intro side hne ha
      refine ha.sub ?_ ?_
      · rw [hlist, Function.update_of_ne hne]
        exact List.filter_sublist
      · unfold rearm
        cases firstLeft (sideOf car) (s.relink id car).counter
            ((s.relink id car).list (sideOf car)) with
        | some c => exact armed_other _ hne _
        | none => rfl
    have hside : ∀ side, Armed s side → Armed ((s.relink id car).rearm (sideOf car)) side := by
      intro side ha
      by_cases hne : side = sideOf car
      · exact hne ▸ harmed
      · exact hother side hne ha
    have hth : ((s.relink id car).rearm (sideOf car)).thread = s.thread := by
      rw [hv]
      rfl
    obtain h | h := h
    · refine .inl ?_
      rw [hv]
      exact h
    · refine .inr ?_
      rw [hth]
      cases hs : s.thread with
      | waiting =>
        rw [hs] at h
        exact ⟨hside _ h.1, hside _ h.2⟩
      | woken => trivial
      | callback side car' =>
        cases side with
        | plus => trivial
        | minus =>
          rw [hs] at h
          exact hside _ h

section
variable (callback : Nat → Bool)

/-- What a pass over a list leaves. -/
theorem handleSide_frame (s : Service) (side : Side) (car : Int) :
    (s.handleSide callback side car).1.counter = s.counter ∧
    (Pending s → Pending (s.handleSide callback side car).1) ∧
    (∀ side', side' ≠ side → (s.handleSide callback side car).1.list side' = s.list side' ∧
      (s.handleSide callback side car).1.armed side' = s.armed side') ∧
    (∀ call, (s.handleSide callback side car).2 = some call →
      (s.handleSide callback side car).1.thread = .callback side car) := by
  have hupd : ∀ side', side' ≠ side → Function.update s.list side
      (scan callback side car (s.list side)).1 side' = s.list side' :=
    fun side' h => Function.update_of_ne h _ _
  simp only [handleSide]
  cases (scan callback side car (s.list side)).2 with
  | some c => exact ⟨rfl, id, fun side' h => ⟨hupd side' h, rfl⟩, fun _ _ => rfl⟩
  | none =>
    cases (scan callback side car (s.list side)).1.head? with
    | some c =>
      exact ⟨rfl, id, fun side' h => ⟨hupd side' h, armed_other _ h _⟩, fun _ h => nomatch h⟩
    | none => exact ⟨rfl, id, fun side' h => ⟨hupd side' h, rfl⟩, fun _ h => nomatch h⟩

/-- A pass that ends arms the interrupt of the list, where the counter is as it was read. -/
theorem handleSide_armed {s : Service} (side : Side) (hl : Listed s)
    (hnone : (s.handleSide callback side s.counter).2 = none) :
    Armed (s.handleSide callback side s.counter).1 side := by
  obtain ⟨-, -, h3⟩ := scan_spec callback side s.counter (s.list side)
  have hsorted := ((handleSide_served callback s side s.counter).listed hl).sorted side
  refine armed_of_head hsorted ?_
  intro c hc
  simp only [handleSide] at hnone hc ⊢
  cases hr : (scan callback side s.counter (s.list side)).2 with
  | some d =>
    rw [hr] at hnone
    cases hnone
  | none =>
    have h3 := h3 hr
    rw [hr] at hc
    cases hh : (scan callback side s.counter (s.list side)).1.head? with
    | some d =>
      rw [hh] at hc
      simp only at hc ⊢
      obtain rfl : d = c := by
        have : (Function.update s.list side (scan callback side s.counter (s.list side)).1
          side).head? = some c := hc
        rw [Function.update_self, hh] at this
        exact Option.some.inj this
      have hnot := h3 d hh
      unfold Due at hnot
      rw [key_armed]
      have := i32_le (x := side.key d.stop - side.key s.counter) (by omega)
      show side.key s.counter + i32 (side.key d.stop - side.key s.counter) ≤ _
      omega
    | none =>
      rw [hh] at hc
      have : (Function.update s.list side (scan callback side s.counter (s.list side)).1
        side).head? = some c := hc
      rw [Function.update_self, hh] at this
      cases this

theorem handleMinus_guard {s : Service} (hl : Listed s) (h : Pending s ∨ Armed s .plus) :
    Guard (s.handleMinus callback s.counter).1 := by
  obtain ⟨hc, hp, hother, hth⟩ := handleSide_frame callback s .minus s.counter
  have harmed := handleSide_armed callback .minus hl
  have hplus : Pending s ∨ Armed s .plus →
      Pending (s.handleSide callback .minus s.counter).1 ∨
        Armed (s.handleSide callback .minus s.counter).1 .plus := by
    rintro (h | h)
    · exact .inl (hp h)
    · obtain ⟨h1, h2⟩ := hother .plus (by decide)
      refine .inr (h.sub ?_ h2)
      rw [h1]
  have h := hplus h
  unfold handleMinus
  generalize s.handleSide callback .minus s.counter = r at *
  obtain ⟨s1, o⟩ := r
  cases o with
  | some call =>
    obtain h | h := h
    · exact .inl h
    · refine .inr ?_
      rw [show s1.thread = .callback .minus s.counter from hth call rfl]
      exact h
  | none =>
    obtain h | h := h
    · exact .inl h
    · exact .inr ⟨h, harmed rfl⟩

theorem handlePlus_guard {s : Service} (hl : Listed s) :
    Guard (s.handlePlus callback s.counter).1 := by
  obtain ⟨hc, hp, -, hth⟩ := handleSide_frame callback s .plus s.counter
  have harmed := handleSide_armed callback .plus hl
  have hlisted := (handleSide_served callback s .plus s.counter).listed hl
  unfold handlePlus
  generalize s.handleSide callback .plus s.counter = r at *
  obtain ⟨s1, o⟩ := r
  cases o with
  | some call =>
    refine .inr ?_
    rw [show s1.thread = .callback .plus s.counter from hth call rfl]
    trivial
  | none =>
    simp only at hc hlisted ⊢
    rw [← hc]
    exact handleMinus_guard callback hlisted (.inr (harmed rfl))

/-- The counter is where it was read when the thread comes back from a callback. -/
def Steady (s : Service) : Event → Prop
  | .thread => ∀ side car, s.thread = .callback side car → s.counter = car
  | _ => True

theorem threadStep_guard {s : Service} (hl : Listed s) (h : Guard s) (hs : Steady s .thread) :
    Guard (s.threadStep callback).1 := by
  unfold threadStep
  cases hth : s.thread with
  | waiting =>
    simp only
    split_ifs with hflag
    · exact .inr trivial
    · exact h
  | woken => exact handlePlus_guard callback hl
  | callback side car =>
    obtain rfl := hs side car hth
    cases side with
    | plus => exact handlePlus_guard callback hl
    | minus =>
      refine handleMinus_guard callback hl ?_
      obtain h | h := h
      · exact .inl h
      · rw [hth] at h
        exact .inr h

end

/-! ## One step -/

/-- How often an event starts a consumer. -/
def startedBy (id : Nat) : Event → Nat
  | .start id' car => if id' = id ∧ car ≠ 0 then 1 else 0
  | _ => 0

/-- How often a step calls a consumer back. -/
def calledBy (id : Nat) : Option Call → Nat
  | some call => if call.consumer.id = id then 1 else 0
  | none => 0

@[simp] theorem calledBy_none (id : Nat) : calledBy id none = 0 := rfl

@[simp] theorem calledBy_some (id : Nat) (call : Call) :
    calledBy id (some call) = if call.consumer.id = id then 1 else 0 := rfl

theorem Served.linked_le {s s' : Service} {o : Option Call} (h : Served s s' o) (id : Nat) :
    s'.linked id + calledBy id o ≤ s.linked id := by
  have h1 := (h.sub .plus).countP_le (p := fun c => decide (c.id = id))
  have h2 := (h.sub .minus).countP_le (p := fun c => decide (c.id = id))
  unfold linked linkedIn
  cases o with
  | none =>
    rw [calledBy_none, Nat.add_zero]
    exact Nat.add_le_add h1 h2
  | some call =>
    have h3 := ((h.called call rfl).2).countP_le (p := fun c => decide (c.id = id))
    rw [List.countP_cons] at h3
    simp only [decide_eq_true_eq] at h3
    rw [calledBy_some]
    cases hs : call.side <;> rw [hs] at h3 <;> omega

/-- What every step does to the lists: consumers that are called back were due and are unlinked, and
only a start links one. -/
structure Stepped (s : Service) (e : Event) (o : Option Call) (s' : Service) : Prop where
  listed : Listed s'
  due : ∀ call, o = some call → Due call.side call.car call.consumer
  count : ∀ id, s'.linked id + calledBy id o ≤ s.linked id + startedBy id e

/-- A step that leaves the lists. -/
theorem Stepped.of_list {s s' : Service} (hl : Listed s) (e : Event) (he : s'.list = s.list) :
    Stepped s e none s' := by
  refine ⟨⟨he ▸ hl.once, he ▸ hl.sign, he ▸ hl.sorted⟩, (fun _ h => nomatch h), ?_⟩
  intro id
  unfold linked
  rw [he]
  exact Nat.add_le_add_left (Nat.zero_le _) _

theorem Served.stepped {s s' : Service} {o : Option Call} (h : Served s s' o) (hl : Listed s)
    (e : Event) : Stepped s e o s' :=
  ⟨h.listed hl, fun call hc => (h.called call hc).1, fun id =>
    Nat.le_trans (h.linked_le id) (Nat.le_add_right _ _)⟩

theorem step_spec (callback : Nat → Bool) {s : Service} (hl : Listed s) (e : Event) :
    ∃ o s', step callback s e = some (o, s') ∧ Stepped s e o s' := by
  cases e with
  | start id car =>
    refine ⟨_, _, rfl, start_listed hl id car, (fun _ h => nomatch h), ?_⟩
    intro id'
    by_cases hcar : car = 0
    · simp only [start, if_pos hcar]
      exact Nat.add_le_add_left (Nat.zero_le _) _
    · rw [start_linked s id id' hcar, calledBy_none]
      by_cases h : id = id'
      · rw [if_pos h.symm, startedBy, if_pos ⟨h, hcar⟩]
        exact Nat.le_add_left _ _
      · rw [if_neg (Ne.symm h)]
        exact Nat.le_add_right _ _
  | stop id =>
    have hs : Served s (s.stop id) none := ⟨fun _ => List.filter_sublist, (fun _ h => nomatch h)⟩
    exact ⟨_, _, rfl, hs.stepped hl _⟩
  | thread => exact ⟨_, _, rfl, (threadStep_served callback s).stepped hl _⟩
  | after =>
    refine ⟨_, _, rfl, ?_⟩
    split_ifs
    · refine ⟨shift_listed hl s.resetCoulomb _ rfl, (fun _ h => nomatch h), ?_⟩
      intro id
      unfold linked
      simp only [linkedIn_shift]
      exact Nat.add_le_add_left (Nat.zero_le _) _
    · exact .of_list hl _ rfl
  | interrupt => exact ⟨_, _, rfl, .of_list hl _ rfl⟩
  | move car => exact ⟨_, _, rfl, .of_list hl _ rfl⟩
  | wakeArm => exact ⟨_, _, rfl, .of_list hl _ (by split_ifs <;> rfl)⟩
  | wakeThread => exact ⟨_, _, rfl, .of_list hl _ (by split_ifs <;> rfl)⟩
  | beforeZero => exact ⟨_, _, rfl, .of_list hl _ (by split_ifs <;> rfl)⟩
  | beforeNote => exact ⟨_, _, rfl, .of_list hl _ (by split_ifs <;> rfl)⟩
  | clear => exact ⟨_, _, rfl, .of_list hl _ (by split_ifs <;> rfl)⟩

theorem guard_step (callback : Nat → Bool) {s : Service} (hl : Listed s) (h : Guard s) (e : Event)
    (hs : Steady s e) {o : Option Call} {s' : Service} (hstep : step callback s e = some (o, s')) :
    Guard s' := by
  have hpend : ∀ s', Pending s' → Guard s' := fun _ h => .inl h
  cases e with
  | start id car =>
    obtain ⟨-, rfl⟩ := Prod.mk.inj (Option.some.inj hstep)
    exact start_guard hl h id car
  | stop id =>
    obtain ⟨-, rfl⟩ := Prod.mk.inj (Option.some.inj hstep)
    exact h.sub (fun _ => List.filter_sublist) rfl (fun h => h) rfl
  | interrupt =>
    obtain ⟨-, rfl⟩ := Prod.mk.inj (Option.some.inj hstep)
    exact hpend _ (.inr (.inl (Nat.succ_pos _)))
  | wakeArm =>
    obtain ⟨-, rfl⟩ := Prod.mk.inj (Option.some.inj hstep)
    split_ifs
    · exact h
    · exact hpend _ (.inr (.inr (.inl (Nat.succ_pos _))))
  | wakeThread =>
    obtain ⟨-, rfl⟩ := Prod.mk.inj (Option.some.inj hstep)
    split_ifs
    · exact h
    · exact hpend _ (.inl rfl)
  | thread =>
    obtain ⟨-, rfl⟩ := Prod.mk.inj (Option.some.inj hstep)
    exact threadStep_guard callback hl h hs
  | move car =>
    obtain ⟨-, rfl⟩ := Prod.mk.inj (Option.some.inj hstep)
    exact h.sub (fun _ => List.Sublist.refl _) rfl (fun h => h) rfl
  | beforeZero =>
    obtain ⟨-, rfl⟩ := Prod.mk.inj (Option.some.inj hstep)
    split_ifs
    · exact hpend _ (.inr (.inr (.inr (by simp))))
    · exact h
  | beforeNote =>
    obtain ⟨-, rfl⟩ := Prod.mk.inj (Option.some.inj hstep)
    split_ifs
    · exact hpend _ (.inr (.inr (.inr (by simp))))
    · exact h
  | clear =>
    obtain ⟨-, rfl⟩ := Prod.mk.inj (Option.some.inj hstep)
    split_ifs
    · exact hpend _ (.inr (.inr (.inr (by simp))))
    · exact h
  | after =>
    obtain ⟨-, rfl⟩ := Prod.mk.inj (Option.some.inj hstep)
    split_ifs
    · exact hpend _ (.inr (.inl (Nat.succ_pos _)))
    · exact h

/-! ## Runs -/

/-- How often a consumer was started. -/
def starts (id : Nat) (es : List (Event × Option Call)) : Nat :=
  (es.map fun e => startedBy id e.1).sum

/-- How often a consumer was called back. -/
def calls (id : Nat) (es : List (Event × Option Call)) : Nat :=
  (es.map fun e => calledBy id e.2).sum

/-- The callbacks so far were due, and every one of them ends what a start began. -/
structure Tally (es : List (Event × Option Call)) (s : Service) : Prop where
  listed : Listed s
  due : ∀ e ∈ es, ∀ call, e.2 = some call → Due call.side call.car call.consumer
  count : ∀ id, calls id es + s.linked id ≤ starts id es

theorem Stepped.tally {es : List (Event × Option Call)} {s s' : Service} {e : Event}
    {o : Option Call} (h : Stepped s e o s') (ht : Tally es s) : Tally (es ++ [(e, o)]) s' := by
  refine ⟨h.listed, ?_, ?_⟩
  · intro e' he call hcall
    obtain he | he := List.mem_append.1 he
    · exact ht.due e' he call hcall
    · obtain rfl := List.mem_singleton.1 he
      exact h.due call hcall
  · intro id
    have h1 := ht.count id
    have h2 := h.count id
    unfold calls starts at h1 ⊢
    simp only [List.map_append, List.map_cons, List.map_nil, List.sum_append, List.sum_cons,
      List.sum_nil]
    omega

theorem init_listed (counter : Int) (armed : Side → Int) : Listed (init counter armed) :=
  ⟨fun _ => Nat.zero_le _, (fun _ _ h => nomatch h), fun _ => List.Pairwise.nil⟩

/-- **The coulomb service.** Over every interleaving a consumer is linked at most once, in the list
of its sign, the lists are in order, and a consumer is called back only when due and at most once
per start. Where the counter is as it was read whenever the thread comes back from a callback, the
interrupts are armed not beyond the ends of their lists, or the thread is going to run. -/
theorem coulomb_kept (callback : Nat → Bool) (counter : Int) (armed : Side → Int)
    (es : List Event) :
    ∃ os s', Sys.run (step callback) (init counter armed) es = some (os, s') ∧
      Listed s' ∧
      (∀ e ∈ os, ∀ call, e.2 = some call → Due call.side call.car call.consumer) ∧
      (∀ id, calls id os ≤ starts id os) ∧
      (Sys.Along (step callback) Steady (init counter armed) es →
        ¬ Pending s' → s'.thread = .waiting → Armed s' .plus ∧ Armed s' .minus) := by
  have hinit : Tally [] (init counter armed) :=
    ⟨init_listed counter armed, (fun _ h => nomatch h), fun _ => Nat.le_refl _⟩
  obtain ⟨os, s', hrun, htally⟩ := Sys.run_hist (I := Tally)
    (fun _ _ e h => by
      obtain ⟨o, s1, hs, hst⟩ := step_spec callback h.listed e
      exact ⟨o, s1, hs, hst.tally h⟩) es [] (init counter armed) hinit
  refine ⟨os, s', hrun, htally.listed, htally.due, ?_, ?_⟩
  · intro id
    have := htally.count id
    rw [List.nil_append] at this
    omega
  · intro hsteady hnot hth
    have hguard : Guard (init counter armed) := .inr ⟨(fun _ h => nomatch h), fun _ h => nomatch h⟩
    have hinv := Sys.run_inv (I := fun s => Listed s ∧ Guard s) (fun s e o s1 hi hp hstep => by
      obtain ⟨o', s2, hs, hst⟩ := step_spec callback hi.1 e
      obtain ⟨rfl, rfl⟩ := Prod.mk.inj (Option.some.inj (hs.symm.trans hstep))
      exact ⟨hst.listed, guard_step callback hi.1 hi.2 e hp hs⟩) es (init counter armed) s' os
      ⟨init_listed counter armed, hguard⟩ hsteady hrun
    obtain h | h := hinv.2
    · exact absurd h hnot
    · rw [hth] at h
      exact h

/-- The counter passes the end of one consumer and not that of another. -/
def eventsTwo : List Event :=
  [.start 1 50, .start 2 80, .move 60, .interrupt, .wakeArm, .wakeThread, .thread, .thread, .thread]

theorem coulomb_kept_two :
    ∃ os s', Sys.run (step fun _ => true) (init 0 fun _ => 0) eventsTwo = some (os, s') ∧
      Armed s' .plus ∧ Armed s' .minus := by
  obtain ⟨os, s', hrun, -, -, -, harmed⟩ := coulomb_kept (fun _ => true) 0 (fun _ => 0) eventsTwo
  have hlast : (Sys.run (step fun _ => true) (init 0 fun _ => 0) eventsTwo).map (fun q =>
      (q.2.thread, q.2.coulombThreadTimeout, q.2.wakes, q.2.wakesArmed, q.2.reset)) =
      some (.waiting, false, 0, 0, .none) := by decide
  rw [hrun, Option.map_some, Option.some.injEq] at hlast
  simp only [Prod.mk.injEq] at hlast
  obtain ⟨h1, h2, h3, h4, h5⟩ := hlast
  refine ⟨os, s', hrun, harmed ?_ ?_ h1⟩
  · refine Sys.along_cons trivial rfl (Sys.along_cons trivial rfl (Sys.along_cons trivial rfl
      (Sys.along_cons trivial rfl (Sys.along_cons trivial rfl (Sys.along_cons trivial rfl
      (Sys.along_cons ?_ rfl (Sys.along_cons ?_ rfl (Sys.along_cons ?_ rfl trivial))))))))
    · rintro side car ⟨⟩
    · rintro side car ⟨⟩
    · rintro side car ⟨⟩
      rfl
  · rintro (h | h | h | h)
    · rw [h2] at h
      cases h
    · omega
    · omega
    · exact h h5

/-- A reset leaves the interrupt for a rise beyond the end of a consumer, until the thread runs. -/
theorem coulomb_kept_reset :
    (Sys.run (step fun _ => true) (init 0 fun _ => 0) [.start 1 50, .beforeZero, .beforeNote,
      .clear, .after, .wakeArm, .wakeThread]).map (fun q =>
        (q.2.list .plus, q.2.armed .plus, q.2.coulombThreadTimeout)) =
      some ([⟨1, 50, 50⟩], 300, true) := by
  decide

end Battery.Service
