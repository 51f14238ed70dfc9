import FireTablet.Mdp.Dispatch
import FireTablet.Lib.Shared
import Mathlib.Data.List.FinRange
import Mathlib.Tactic.SplitIfs

/-!
# What the loops of the dispatch do to engines and threads

Each loop goes through the engines of a handle once, so what it leaves of an engine is given by what
was there before, and a thread keeps everything but its engines (`coreAcquireThread_spec`).

Where the engines are booked and the secure thread is apart from those of the core, a handle gets
the thread that owns its engines, or a new one when they are all free (`findFreeThread_spec`).
-/

namespace Mdp.Dispatch

variable {c c' c'' : Context} {core core' : Core} {x : Handle} {t : Thread} {flag : Finset Engine}

/-- The engines in `es` have gone through `f`, and the threads have those of them that `keeps`
says, from what the engine was and whether the thread had it. -/
structure Touched (f : EngineStruct → EngineStruct)
    (keeps : Thread → EngineStruct → Prop → Prop) (es : Finset Engine) (c c' : Context) : Prop where
  smi : c'.mdpSmiUsage = c.mdpSmiUsage
  engine : ∀ e, c'.engine e = if e ∈ es then f (c.engine e) else c.engine e
  thread : ∀ u, c'.thread u = { c.thread u with engineFlag := (c'.thread u).engineFlag }
  flag : ∀ u e, e ∈ (c'.thread u).engineFlag ↔
    if e ∈ es then keeps u (c.engine e) (e ∈ (c.thread u).engineFlag)
    else e ∈ (c.thread u).engineFlag

section

variable {f : EngineStruct → EngineStruct} {keeps : Thread → EngineStruct → Prop → Prop}
  {es es' : Finset Engine}

theorem touched_refl : Touched f keeps ∅ c c :=
  ⟨rfl, fun e => by simp, fun _ => rfl, fun u e => by simp⟩

theorem Touched.trans (h : Touched f keeps es c c') (h' : Touched f keeps es' c' c'')
    (hd : Disjoint es es') : Touched f keeps (es ∪ es') c c'' where
  smi := h'.smi.trans h.smi
  engine e := by
    rw [h'.engine, h.engine]
    by_cases he : e ∈ es
    · simp [he, Finset.disjoint_left.1 hd he]
    · simp [he]
  thread u := by
    rw [h'.thread u, h.thread u]
  flag u e := by
    rw [h'.flag, h.flag, h.engine]
    by_cases he : e ∈ es
    · simp [he, Finset.disjoint_left.1 hd he]
    · simp [he]

/-- A loop touches the engines of a flag, where each turn touches the one it is at. -/
theorem touched_filter_cons {e : Engine} {l : List Engine} (hn : (e :: l).Nodup) :
    (he : e ∈ flag) → Touched f keeps {e} c c' →
      Touched f keeps (flag.filter (· ∈ l)) c' c'' →
      Touched f keeps (flag.filter (· ∈ e :: l)) c c'' := by
  intro he h h'
  have hd : Disjoint {e} (flag.filter (· ∈ l)) := by
    rw [Finset.disjoint_singleton_left, Finset.mem_filter]
    exact fun hm => (List.nodup_cons.1 hn).1 hm.2
  have := h.trans h' hd
  have hs : flag.filter (· ∈ e :: l) = {e} ∪ flag.filter (· ∈ l) := by
    ext e'
    simp only [Finset.mem_filter, List.mem_cons, Finset.mem_union, Finset.mem_singleton]
    refine ⟨fun ⟨h1, h2⟩ => h2.imp_right fun h2 => ⟨h1, h2⟩, fun hm => ?_⟩
    rcases hm with rfl | ⟨h1, h2⟩
    · exact ⟨he, .inl rfl⟩
    · exact ⟨h1, .inr h2⟩
  rwa [hs]

theorem filter_cons_of_notMem {e : Engine} {l : List Engine} (he : e ∉ flag) :
    flag.filter (· ∈ e :: l) = flag.filter (· ∈ l) := by
  refine Finset.filter_congr fun e' he' => ?_
  rw [List.mem_cons, or_iff_right]
  rintro rfl
  exact he he'

end

/-- An engine that a handle starts to use on a thread. -/
def EngineStruct.up (t : Thread) (x : EngineStruct) : EngineStruct :=
  ⟨x.userCount + 1, if x.userCount ≤ 0 then some t else x.currOwner⟩

/-- An engine that a handle ends to use. -/
def EngineStruct.down (x : EngineStruct) : EngineStruct :=
  ⟨x.userCount - 1, if x.userCount - 1 ≤ 0 then none else x.currOwner⟩

/-- A thread keeps its engines and gets those that were not used. -/
def GetsUnused (t u : Thread) (x : EngineStruct) (had : Prop) : Prop :=
  had ∨ u = t ∧ x.userCount ≤ 0

/-- A thread keeps its engines but those that it owns and nobody uses any more. -/
def KeepsUsed (u : Thread) (x : EngineStruct) (had : Prop) : Prop :=
  had ∧ ¬ (x.userCount - 1 ≤ 0 ∧ x.currOwner = some u)

theorem getEngineFlagForEnableClock_touched (flag : Finset Engine) (t : Thread) :
    ∀ {es : List Engine} (c : Context), es.Nodup → Touched (EngineStruct.up t) (GetsUnused t)
      (flag.filter (· ∈ es)) c (getEngineFlagForEnableClock flag t es c)
  | [], c, _ => by simpa [getEngineFlagForEnableClock] using touched_refl
  | e :: es, c, hn => by
    by_cases he : e ∈ flag
    · rw [getEngineFlagForEnableClock, if_neg (not_not.2 he)]
      refine touched_filter_cons hn he ?_
        (getEngineFlagForEnableClock_touched flag t _ (List.nodup_cons.1 hn).2)
      refine ⟨?_, fun e' => ?_, fun u => ?_, fun u e' => ?_⟩
      · split_ifs <;> rfl
      · by_cases h : e' = e
        · subst h
          split_ifs <;>
            simp_all [Context.addCount, Context.setFlag, Context.setOwner, EngineStruct.up]
        · split_ifs <;> simp_all [Context.addCount, Context.setFlag, Context.setOwner]
      · by_cases h : u = t
        · subst h
          split_ifs <;> simp [Context.addCount, Context.setFlag, Context.setOwner]
        · split_ifs <;> simp [Context.addCount, Context.setFlag, Context.setOwner, h]
      · by_cases h : u = t
        · subst h
          by_cases h' : e' = e
          · subst h'
            split_ifs <;>
              simp_all [Context.addCount, Context.setFlag, Context.setOwner, GetsUnused]
          · split_ifs <;> simp_all [Context.addCount, Context.setFlag, Context.setOwner]
        · split_ifs <;>
            simp_all [Context.addCount, Context.setFlag, Context.setOwner, GetsUnused]
    · rw [getEngineFlagForEnableClock, if_pos he, filter_cons_of_notMem he]
      exact getEngineFlagForEnableClock_touched flag t _ (List.nodup_cons.1 hn).2

/-- The loop that counts down is defined where every engine that becomes unused has an owner. -/
theorem getNotUsedEngine_touched : ∀ {es : List Engine} {c : Context}, es.Nodup →
    (∀ e ∈ flag, e ∈ es → (c.engine e).currOwner ≠ none) →
    ∃ c', getNotUsedEngine flag es c = some c' ∧
      Touched EngineStruct.down KeepsUsed (flag.filter (· ∈ es)) c c'
  | [], c, _, _ => ⟨c, rfl, by simpa using touched_refl⟩
  | e :: es, c, hn, ho => by
    have hn' := (List.nodup_cons.1 hn).2
    by_cases he : e ∈ flag
    · obtain ⟨u, hu⟩ := Option.ne_none_iff_exists'.1 (ho e he (List.mem_cons_self ..))
      have htail : ∀ c1 : Context, Touched EngineStruct.down KeepsUsed {e} c c1 →
          ∃ c', getNotUsedEngine flag es c1 = some c' ∧
            Touched EngineStruct.down KeepsUsed (flag.filter (· ∈ e :: es)) c c' := by
        intro c1 h1
        obtain ⟨c', h2, h3⟩ := getNotUsedEngine_touched (c := c1) hn' (fun e' he' hm => by
          have hne : e' ≠ e := by
            rintro rfl
            exact (List.nodup_cons.1 hn).1 hm
          rw [h1.engine, if_neg (by simpa using hne)]
          exact ho e' he' (List.mem_cons_of_mem _ hm))
        exact ⟨c', h2, touched_filter_cons hn he h1 h3⟩
      rw [getNotUsedEngine, if_neg (not_not.2 he)]
      have hcnt : ((c.addCount e (-1)).engine e) = ⟨(c.engine e).userCount - 1, some u⟩ := by
        simp [Context.addCount, hu, Int.sub_eq_add_neg]
      simp only [hcnt]
      split_ifs with hle
      · refine htail _ ⟨rfl, fun e' => ?_, fun w => ?_, fun w e' => ?_⟩
        · by_cases h : e' = e
          · subst h
            simp [Context.addCount, Context.setFlag, Context.setOwner, EngineStruct.down,
              Int.sub_eq_add_neg]
            omega
          · simp [Context.addCount, Context.setFlag, Context.setOwner, h]
        · by_cases h : w = u
          · subst h
            simp [Context.addCount, Context.setFlag, Context.setOwner]
          · simp [Context.addCount, Context.setFlag, Context.setOwner, h]
        · by_cases h : w = u
          · subst h
            by_cases h' : e' = e
            · subst h'
              simp [Context.addCount, Context.setFlag, Context.setOwner, KeepsUsed, hu, hle]
            · simp [Context.addCount, Context.setFlag, Context.setOwner, h']
          · by_cases h' : e' = e
            · subst h'
              simp [Context.addCount, Context.setFlag, Context.setOwner, KeepsUsed, hu, h,
                Ne.symm h]
            · simp [Context.addCount, Context.setFlag, Context.setOwner, h, h']
      · refine htail _ ⟨rfl, fun e' => ?_, fun w => rfl, fun w e' => ?_⟩
        · by_cases h : e' = e
          · subst h
            simp [Context.addCount, EngineStruct.down, Int.sub_eq_add_neg]
            omega
          · simp [Context.addCount, h]
        · by_cases h' : e' = e
          · subst h'
            simp [Context.addCount, KeepsUsed, hle]
          · simp [Context.addCount, h']
    · rw [getNotUsedEngine, if_pos he, filter_cons_of_notMem he]
      exact getNotUsedEngine_touched hn' fun e' he' hm => ho e' he' (List.mem_cons_of_mem _ hm)

/-! ## Booking -/

/-- The engines and the threads are booked for the handles that hold them: each engine is counted
and owned, a thread has the engines that it owns, and the count of the handles on it. -/
structure Booked (held : Finset HandleId) (x : HandleId → Handle) (c : Context) : Prop where
  owned : Shared.Owned held (fun h => (x h).engineFlag) (fun h => (x h).thread)
    (fun e => (c.engine e).userCount) (fun e => (c.engine e).currOwner)
  placed : ∀ h ∈ held, (x h).thread ≠ none
  flag : ∀ t e, e ∈ (c.thread t).engineFlag ↔ (c.engine e).currOwner = some t
  tasks : ∀ t, (c.thread t).taskCount = (held.filter fun h => (x h).thread = some t).card

variable {held : Finset HandleId} {hs hs' : HandleId → Handle} {h : HandleId}

theorem Booked.congr (hb : Booked held hs c) (hx : ∀ h ∈ held,
    (hs' h).engineFlag = (hs h).engineFlag ∧ (hs' h).thread = (hs h).thread) :
    Booked held hs' c where
  owned := hb.owned.congr (fun h hm => (hx h hm).1) fun h hm => (hx h hm).2
  placed h hm := by
    rw [(hx h hm).2]
    exact hb.placed h hm
  flag := hb.flag
  tasks t := by
    rw [hb.tasks t]
    congr 1
    exact Finset.filter_congr fun h hm => by rw [(hx h hm).2]

/-- `cmdq_mdp_lock_thread` on a thread that owns what it does not find free. -/
theorem lockThread_booked (hb : Booked held hs c) (hh : h ∉ held) (ht : (hs h).thread = some t)
    (hfree : ∀ e ∈ (hs h).engineFlag,
      (c.engine e).currOwner = none ∨ (c.engine e).currOwner = some t) :
    Booked (insert h held) hs (lockThread c (hs h) t) ∧
      (lockThread c (hs h) t).mdpSmiUsage = c.mdpSmiUsage + 1 ∧
      ∀ u, ((lockThread c (hs h) t).thread u).acquired = (c.thread u).acquired ∧
        ((lockThread c (hs h) t).thread u).secure =
          if u = t then (hs h).secData && (hs h).isSecure else (c.thread u).secure := by
  have hT := getEngineFlagForEnableClock_touched (hs h).engineFlag t
    { c with mdpSmiUsage := c.mdpSmiUsage + 1 } (List.nodup_finRange 64)
  have hall : (hs h).engineFlag.filter (· ∈ List.finRange 64) = (hs h).engineFlag :=
    Finset.filter_true_of_mem fun e _ => List.mem_finRange e
  rw [hall] at hT
  have htake := hb.owned.take hb.placed hh ht hfree
  set c1 := getEngineFlagForEnableClock (hs h).engineFlag t (List.finRange 64)
    { c with mdpSmiUsage := c.mdpSmiUsage + 1 } with hc1
  have hcount : (fun e => (c1.engine e).userCount) =
      fun e => if e ∈ (hs h).engineFlag then (c.engine e).userCount + 1
        else (c.engine e).userCount := by
    funext e
    rw [hT.engine]
    split_ifs <;> rfl
  have howner : (fun e => (c1.engine e).currOwner) =
      fun e => if e ∈ (hs h).engineFlag ∧ (c.engine e).userCount ≤ 0 then some t
        else (c.engine e).currOwner := by
    funext e
    rw [hT.engine]
    by_cases he : e ∈ (hs h).engineFlag
    · simp only [he, if_true, true_and]
      rfl
    · simp [he]
  refine ⟨⟨?_, ?_, ?_, ?_⟩, hT.smi, fun u => ?_⟩
  · change Shared.Owned _ _ _ (fun e => (c1.engine e).userCount) fun e => (c1.engine e).currOwner
    rw [hcount, howner]
    exact htake
  · intro k hk
    rcases Finset.mem_insert.1 hk with rfl | hk
    · rw [ht]
      exact Option.some_ne_none t
    · exact hb.placed k hk
  · intro u e
    have hfl : ((lockThread c (hs h) t).thread u).engineFlag = (c1.thread u).engineFlag := by
      simp only [lockThread, ← hc1]
      by_cases hu : u = t
      · subst hu
        simp
      · simp [hu]
    rw [hfl, hT.flag]
    change _ ↔ (c1.engine e).currOwner = some u
    rw [congrFun howner e]
    by_cases he : e ∈ (hs h).engineFlag
    · simp only [he, if_true, GetsUnused, true_and]
      split_ifs with hc
      · have hno : (c.engine e).currOwner = none := by
          by_contra hne
          have := (hb.owned.owner_iff hb.placed e).1 hne
          omega
        rw [hb.flag, hno]
        simp [eq_comm, hc]
      · rw [hb.flag]
        simp [hc]
    · simp only [he, if_false, false_and]
      exact hb.flag u e
  · intro u
    rw [Shared.card_filter_insert hh, ← hb.tasks u, ht]
    simp only [lockThread, ← hc1]
    by_cases hu : u = t
    · subst hu
      rw [Function.update_self, if_pos rfl, hT.thread u]
    · rw [Function.update_of_ne hu, if_neg (by simpa using Ne.symm hu), hT.thread u]
      rfl
  · simp only [lockThread, ← hc1]
    by_cases hu : u = t
    · subst hu
      rw [Function.update_self, if_pos rfl, hT.thread u]
      exact ⟨rfl, rfl⟩
    · rw [Function.update_of_ne hu, if_neg hu, hT.thread u]
      exact ⟨rfl, rfl⟩

/-- Whether the handle is the last one on a thread of the core. -/
def LastOn (held : Finset HandleId) (hs : HandleId → Handle) (h : HandleId) (t : Thread) : Prop :=
  (hs h).thread = some t ∧ (hs h).isSecure = false ∧
    ∀ k ∈ held, (hs k).thread = some t → k = h

/-- `cmdq_mdp_unlock_thread` gives the thread back with its last handle. -/
theorem unlockThread_booked (core : Core) (hb : Booked held hs c) (hh : h ∈ held)
    (ht : (hs h).thread = some t) :
    ∃ back c', unlockThread c core (hs h) t =
        some (back, c', if back = none then core else coreReleaseThread core t) ∧
      Booked (held.erase h) hs c' ∧ c'.mdpSmiUsage = c.mdpSmiUsage ∧
      (∀ u, back = some u ↔ LastOn held hs h u) ∧
      ∀ u, (c'.thread u).secure = (c.thread u).secure ∧
        (c'.thread u).acquired = if back = some u then false else (c.thread u).acquired := by
  have hown : ∀ e ∈ (hs h).engineFlag, (c.engine e).currOwner = some t := fun e he => by
    rw [← hb.owned.place h hh e he, ht]
  obtain ⟨c1, h1, hT⟩ := getNotUsedEngine_touched (c := c) (List.nodup_finRange 64)
    fun e he _ => by
      rw [hown e he]
      exact Option.some_ne_none t
  have hall : (hs h).engineFlag.filter (· ∈ List.finRange 64) = (hs h).engineFlag :=
    Finset.filter_true_of_mem fun e _ => List.mem_finRange e
  rw [hall] at hT
  have hcount : (fun e => (c1.engine e).userCount) =
      fun e => if e ∈ (hs h).engineFlag then (c.engine e).userCount - 1
        else (c.engine e).userCount := by
    funext e
    rw [hT.engine]
    split_ifs <;> rfl
  have howner : (fun e => (c1.engine e).currOwner) =
      fun e => if e ∈ (hs h).engineFlag ∧ (c.engine e).userCount - 1 ≤ 0 then none
        else (c.engine e).currOwner := by
    funext e
    rw [hT.engine]
    by_cases he : e ∈ (hs h).engineFlag
    · simp only [he, if_true, true_and]
      rfl
    · simp [he]
  have hflag : ∀ u e, e ∈ (c1.thread u).engineFlag ↔ (c1.engine e).currOwner = some u := by
    intro u e
    rw [hT.flag, congrFun howner e]
    by_cases he : e ∈ (hs h).engineFlag
    · simp only [he, if_true, KeepsUsed, true_and, hb.flag]
      split_ifs with hc
      · simp [hc]
      · simp [hc]
    · simp only [he, if_false, false_and]
      exact hb.flag u e
  have hcard := fun u => Shared.card_filter_erase (P := fun k => (hs k).thread = some u) hh
  -- the count of the thread is that of the handles that stay
  have htask : ∀ u, (if u = t then decU32 (c1.thread u).taskCount else (c1.thread u).taskCount) =
      ((held.erase h).filter fun k => (hs k).thread = some u).card := by
    intro u
    have h2 := hcard u
    rw [hT.thread u]
    change (if u = t then decU32 (c.thread u).taskCount else (c.thread u).taskCount) = _
    rw [hb.tasks u]
    by_cases hu : u = t
    · subst hu
      rw [if_pos ht] at h2
      rw [if_pos rfl, decU32, if_neg (by omega)]
      omega
    · rw [if_neg (by rw [ht]; simpa using Ne.symm hu)] at h2
      rw [if_neg hu]
      exact h2.symm
  have hgive := hb.owned.give hh
  have hplaced : ∀ k ∈ held.erase h, (hs k).thread ≠ none :=
    fun k hk => hb.placed k (Finset.mem_of_mem_erase hk)
  have hlast : decU32 (c1.thread t).taskCount = 0 ↔
      ∀ k ∈ held, (hs k).thread = some t → k = h := by
    have h2 := htask t
    rw [if_pos rfl] at h2
    rw [h2, Finset.card_eq_zero, Finset.filter_eq_empty_iff]
    refine ⟨fun hall k hk hkt => ?_, fun hall k hk hkt => ?_⟩
    · by_contra hne
      exact hall (Finset.mem_erase.2 ⟨hne, hk⟩) hkt
    · exact (Finset.mem_erase.1 hk).1 (hall k (Finset.mem_of_mem_erase hk) hkt)
  -- what does not depend on whether the thread goes back
  have hbook : ∀ b : Bool, Booked (held.erase h) hs { c1 with
      thread := Function.update c1.thread t { c1.thread t with
        taskCount := decU32 (c1.thread t).taskCount
        acquired := b } } := by
    intro b
    refine ⟨?_, hplaced, fun u e => ?_, fun u => ?_⟩
    · change Shared.Owned _ _ _ (fun e => (c1.engine e).userCount) fun e => (c1.engine e).currOwner
      rw [hcount, howner]
      exact hgive
    · by_cases hu : u = t
      · subst hu
        simpa using hflag u e
      · simpa [hu] using hflag u e
    · rw [← htask u]
      by_cases hu : u = t
      · subst hu
        simp
      · simp [hu]
  have hkeep : ∀ (b : Bool) u, (Function.update c1.thread t { c1.thread t with
        taskCount := decU32 (c1.thread t).taskCount
        acquired := b } u).secure = (c.thread u).secure ∧
      (Function.update c1.thread t { c1.thread t with
        taskCount := decU32 (c1.thread t).taskCount
        acquired := b } u).acquired = if u = t then b else (c.thread u).acquired := by
    intro b u
    have h1 : (c1.thread u).secure = (c.thread u).secure := by rw [hT.thread u]
    have h2 : (c1.thread u).acquired = (c.thread u).acquired := by rw [hT.thread u]
    by_cases hu : u = t
    · subst hu
      simp [h1]
    · simp [hu, h1, h2]
  unfold unlockThread
  simp only [h1, Option.bind_eq_bind, Option.bind_some]
  by_cases hgo : decU32 (c1.thread t).taskCount = 0 ∧ (hs h).isSecure = false
  · rw [if_pos hgo]
    refine ⟨some t, _, rfl, hbook false, hT.smi, fun u => ?_, fun u => ⟨(hkeep false u).1, ?_⟩⟩
    · refine ⟨fun he => ?_, fun hl => by rw [← hl.1, ht]⟩
      obtain rfl := Option.some.inj he
      exact ⟨ht, hgo.2, hlast.1 hgo.1⟩
    · rw [(hkeep false u).2]
      simp [eq_comm]
  · rw [if_neg hgo]
    refine ⟨none, _, rfl, hbook (c1.thread t).acquired, hT.smi, fun u => ?_,
      fun u => ⟨(hkeep (c1.thread t).acquired u).1, ?_⟩⟩
    · refine ⟨nofun, fun hl => absurd ⟨hlast.2 ?_, hl.2.1⟩ hgo⟩
      obtain rfl := Option.some.inj (hl.1.symm.trans ht)
      exact hl.2.2
    · refine (hkeep (c1.thread t).acquired u).2.trans ?_
      by_cases hu : u = t
      · subst hu
        rw [if_pos rfl, hT.thread u]
        rfl
      · rw [if_neg hu]
        rfl

/-! ## The thread of a handle -/

variable {r : Option Thread}

/-- What the search for a thread goes by. Owners have handles, and are the secure thread or acquired
from the core. -/
structure Searchable (c : Context) : Prop where
  flag : ∀ t e, e ∈ (c.thread t).engineFlag ↔ (c.engine e).currOwner = some t
  owner : ∀ e t, (c.engine e).currOwner = some t → 0 < (c.thread t).taskCount ∧
    (t = cmdqThreadSecMdp ∨ (c.thread t).acquired = true)
  secure : ∀ t : Thread, mdpThreadStart ≤ t.val →
    (c.thread t).secure = decide (t = cmdqThreadSecMdp)
  acquired : ∀ t : Thread, (c.thread t).acquired = true →
    cmdqDynamicThreadIdStart ≤ t.val ∧ 0 < (c.thread t).taskCount

/-- What the search finds: no thread, the secure one or one that other handles are on, or one that
the core gives. -/
inductive Found (c : Context) (core : Core) (x : Handle) : Option Thread → Context → Core → Prop
  | none : Found c core x none c core
  | shared (t : Thread)
      (place : if x.isSecure then t = cmdqThreadSecMdp else (c.thread t).acquired = true)
      (free : ∀ e ∈ x.engineFlag,
        (c.engine e).currOwner = .none ∨ (c.engine e).currOwner = some t) :
      Found c core x (some t) c core
  | fresh (t : Thread) (normal : x.isSecure = false) (le : cmdqDynamicThreadIdStart ≤ t.val)
      (unused : (core t).used = false) (free : (core t).acquire = 0)
      (engines : ∀ e ∈ x.engineFlag, (c.engine e).currOwner = .none) :
      Found c core x (some t)
        { c with thread := Function.update c.thread t { c.thread t with
          acquired := true
          allowDispatch := false } }
        (Function.update core t { core t with
          acquire := (core t).acquire + 1
          scenario := cmdqScenarioUserMdp })

theorem Searchable.start_le (h : Searchable c) {e : Engine}
    (ho : (c.engine e).currOwner = some t) : mdpThreadStart ≤ t.val := by
  rcases (h.owner e t ho).2 with rfl | ha
  · decide
  · exact le_trans (by decide) (h.acquired t ha).1

/-- A handle that does not wait has the kind of every owner of its engines. -/
theorem Searchable.kind (h : Searchable c) (hw : checkEngineWaitingUnlock c x = false)
    {e : Engine} (he : e ∈ x.engineFlag) (ho : (c.engine e).currOwner = some t) :
    x.isSecure = decide (t = cmdqThreadSecMdp) := by
  have hle := h.start_le ho
  rw [checkEngineWaitingUnlock, List.any_eq_false] at hw
  have := hw t (List.mem_finRange t)
  simp only [decide_eq_true_eq, not_and, not_not] at this
  rw [← h.secure t hle]
  refine this hle (fun hd => ?_) (Nat.pos_iff_ne_zero.1 (h.owner e t ho).1)
  exact Finset.disjoint_left.1 hd ((h.flag t e).2 ho) he

/-- Without a conflict all owned engines of the handle have the thread that comes out. -/
theorem checkEngineConflict_spec : ∀ {es : List Engine} {acc : Option Thread},
    checkEngineConflict c x es acc = some r →
      (∀ e ∈ es, e ∈ x.engineFlag → (c.engine e).currOwner = none ∨ (c.engine e).currOwner = r) ∧
        (acc ≠ none → r = acc) ∧
        (r = acc ∨ ∃ e ∈ x.engineFlag, (c.engine e).currOwner = r ∧ r ≠ none)
  | [], acc, h => by
    obtain rfl := Option.some.inj h
    exact ⟨fun e he => absurd he List.not_mem_nil, fun _ => rfl, .inl rfl⟩
  | e :: es, acc, h => by
    unfold checkEngineConflict at h
    by_cases he : e ∈ x.engineFlag
    · rw [if_neg (not_not.2 he)] at h
      cases ho : (c.engine e).currOwner with
      | none =>
        simp only [ho] at h
        obtain ⟨h1, h2, h3⟩ := checkEngineConflict_spec h
        refine ⟨fun e' he' hf => ?_, h2, h3⟩
        rcases List.mem_cons.1 he' with rfl | he'
        · exact .inl ho
        · exact h1 e' he' hf
      | some o =>
        cases acc with
        | none =>
          simp only [ho] at h
          obtain ⟨h1, h2, h3⟩ := checkEngineConflict_spec h
          obtain rfl := h2 (Option.some_ne_none o)
          refine ⟨fun e' he' hf => ?_, fun hne => absurd rfl hne, .inr ⟨e, he, ho, by simp⟩⟩
          rcases List.mem_cons.1 he' with rfl | he'
          · exact .inr ho
          · exact h1 e' he' hf
        | some t =>
          simp only [ho] at h
          split_ifs at h with hto
          obtain ⟨h1, h2, h3⟩ := checkEngineConflict_spec h
          obtain rfl := h2 (Option.some_ne_none t)
          refine ⟨fun e' he' hf => ?_, fun _ => rfl, .inl rfl⟩
          rcases List.mem_cons.1 he' with rfl | he'
          · exact .inr (by rw [ho, not_not.1 hto])
          · exact h1 e' he' hf
    · rw [if_pos he] at h
      obtain ⟨h1, h2, h3⟩ := checkEngineConflict_spec h
      refine ⟨fun e' he' hf => ?_, h2, h3⟩
      rcases List.mem_cons.1 he' with rfl | he'
      · exact absurd hf he
      · exact h1 e' he' hf

/-- The thread that the core gives exclusively was neither used nor acquired. -/
theorem coreAcquireThread_spec {scenario : Scenario} {exclusive : Bool}
    (h : coreAcquireThread core scenario exclusive = some (t, core')) :
    cmdqDynamicThreadIdStart ≤ t.val ∧ (core t).fits scenario exclusive = true ∧
      core' = Function.update core t { core t with
        acquire := (core t).acquire + 1
        scenario := scenario } := by
  unfold coreAcquireThread at h
  split at h
  · cases h
  · next u hu =>
    simp only [Option.some.injEq, Prod.mk.injEq] at h
    obtain ⟨rfl, rfl⟩ := h
    have := List.find?_some hu
    simp only [decide_eq_true_eq] at this
    exact ⟨this.1, this.2, rfl⟩

/-- The threads that the dispatch has acquired all have handles, so a handle gets one of them only
when it names no engine. -/
theorem newThread_spec (h : Searchable c) (hx : x.isSecure = false)
    (hfree : ∀ e ∈ x.engineFlag, (c.engine e).currOwner = none) :
    Found c core x (newThread c core x).1 (newThread c core x).2.1 (newThread c core x).2.2 := by
  have hno : ((List.finRange 24).find? fun i =>
      decide (mdpThreadStart ≤ i.val ∧ (c.thread i).acquired ∧ (c.thread i).engineFlag = ∅ ∧
        (c.thread i).taskCount = 0 ∧ (c.thread i).allowDispatch)) = none := by
    rw [List.find?_eq_none]
    intro i _ hi
    simp only [decide_eq_true_eq] at hi
    have := (h.acquired i hi.2.1).2
    omega
  unfold newThread
  rw [hno]
  simp only
  cases hc : coreAcquireThread core cmdqScenarioUserMdp true with
  | some p =>
    obtain ⟨t, core'⟩ := p
    obtain ⟨hle, hfit, rfl⟩ := coreAcquireThread_spec hc
    simp only [CoreThread.fits, Bool.true_and, Bool.and_eq_true, Bool.not_eq_true',
      decide_eq_false_iff_not, not_not] at hfit
    exact .fresh t hx hle hfit.1.1 hfit.2 hfree
  | none =>
    simp only
    by_cases he : x.engineFlag = ∅
    · rw [if_pos he]
      cases hl : (List.finRange 24).reverse.find? fun i =>
          decide (mdpThreadStart ≤ i.val ∧ (c.thread i).acquired) with
      | none => exact .none
      | some t =>
        have := List.find?_some hl
        simp only [decide_eq_true_eq] at this
        refine .shared t ?_ fun e hm => .inl (hfree e hm)
        rw [hx]
        exact this.2
    · rw [if_neg he]
      exact .none

theorem findFreeThread_spec (h : Searchable c) (core : Core) (x : Handle) :
    Found c core x (findFreeThread c core x).1 (findFreeThread c core x).2.1
      (findFreeThread c core x).2.2 := by
  unfold findFreeThread
  cases hw : checkEngineWaitingUnlock c x with
  | true => exact .none
  | false =>
    rw [if_neg (by simp)]
    cases hx : x.isSecure with
    | true =>
      rw [if_pos rfl]
      split_ifs
      · exact .none
      · refine .shared _ (by rw [hx]; rfl) fun e he => ?_
        cases ho : (c.engine e).currOwner with
        | none => exact .inl rfl
        | some t =>
          have := h.kind hw he ho
          rw [hx, eq_comm, decide_eq_true_eq] at this
          exact .inr (by rw [this])
    | false =>
      rw [if_neg (by simp)]
      cases hc : checkEngineConflict c x (List.finRange 64) none with
      | none => exact .none
      | some r =>
        obtain ⟨h1, -, h3⟩ := checkEngineConflict_spec hc
        have hfree := fun e he => h1 e (List.mem_finRange e) he
        cases r with
        | none => exact newThread_spec h hx fun e he => (hfree e he).elim id id
        | some t =>
          rcases h3 with h3 | ⟨e, he, ho, -⟩
          · cases h3
          · refine .shared t ?_ hfree
            have hk := h.kind hw he ho
            rw [hx, eq_comm, decide_eq_false_iff_not] at hk
            rw [hx]
            exact (h.owner e t ho).2.resolve_left hk

end Mdp.Dispatch
