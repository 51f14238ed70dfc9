import FireTablet.Mdp.Proof.DispatchLoops

/-!
# Runs of the dispatch

In every state that submissions, consume runs, flushes that fail, releases, waits that time out and
closes reach in any order, engines, threads and the clock are booked for exactly the handles that
have been dispatched and not released, and the list of waiting handles is in order
(`dispatch_runs`).
-/

namespace Mdp.Dispatch

variable {s s' : State} {h : HandleId} {x : Handle} {t : Thread} {n : Nat}
  {hs : HandleId → Handle} {p : Stage → Bool}

/-- A handle that was dispatched and not released. -/
def Stage.held : Stage → Bool
  | .locked | .active | .ending => true
  | _ => false

/-- A handle that was dispatched and not stopped. -/
def Stage.clocked : Stage → Bool
  | .locked | .active | .ending | .unprepared => true
  | _ => false

/-- The handles below `n` whose stage is of a kind. -/
def atStage (p : Stage → Bool) (hs : HandleId → Handle) (n : Nat) : Finset HandleId :=
  (Finset.range n).filter fun h => p (hs h).stage

def State.held (s : State) : Finset HandleId := atStage Stage.held s.handle s.next

def State.clocked (s : State) : Finset HandleId := atStage Stage.clocked s.handle s.next

theorem mem_atStage : h ∈ atStage p hs n ↔ h < n ∧ p (hs h).stage = true := by
  simp [atStage]

theorem atStage_insert (hn : h < n) (hx : p x.stage = true) :
    atStage p (Function.update hs h x) n = insert h (atStage p hs n) := by
  ext k
  rw [Finset.mem_insert, mem_atStage, mem_atStage]
  by_cases hk : k = h
  · subst hk
    simp [hn, hx]
  · simp [hk]

theorem atStage_erase (hx : p x.stage = false) :
    atStage p (Function.update hs h x) n = (atStage p hs n).erase h := by
  ext k
  rw [Finset.mem_erase, mem_atStage, mem_atStage]
  by_cases hk : k = h
  · subst hk
    simp [hx]
  · simp [hk]

theorem atStage_same (hx : p x.stage = p (hs h).stage) :
    atStage p (Function.update hs h x) n = atStage p hs n := by
  ext k
  rw [mem_atStage, mem_atStage]
  by_cases hk : k = h
  · subst hk
    simp [hx]
  · simp [hk]

theorem atStage_succ (hx : p x.stage = false) :
    atStage p (Function.update hs n x) (n + 1) = atStage p hs n := by
  ext k
  rw [mem_atStage, mem_atStage]
  by_cases hk : k = n
  · subst hk
    simp [hx]
  · rw [Function.update_of_ne hk, Nat.lt_succ_iff_lt_or_eq, or_iff_left hk]

/-! ## The invariant -/

/-- Engines, threads, the clock and the core's threads, for the handles that are dispatched. -/
structure Resources (s : State) : Prop where
  booked : Booked s.held s.handle s.ctx
  smi : s.ctx.mdpSmiUsage = s.clocked.card
  place : ∀ h ∈ s.held, ∀ t, (s.handle h).thread = some t →
    if (s.handle h).isSecure then t = cmdqThreadSecMdp else (s.ctx.thread t).acquired = true
  secure : ∀ t : Thread, mdpThreadStart ≤ t.val →
    (s.ctx.thread t).secure = decide (t = cmdqThreadSecMdp)
  acquired : ∀ t : Thread, (s.ctx.thread t).acquired = true →
    cmdqDynamicThreadIdStart ≤ t.val ∧ 0 < (s.ctx.thread t).taskCount
  lent : ∀ t, (s.ctx.thread t).acquired = true →
    s.core t = ⟨false, 1, cmdqScenarioUserMdp⟩ ∧ s.others t = 0
  other : ∀ t, (s.ctx.thread t).acquired = false → (s.core t).acquire = s.others t
  client : ∀ t, (s.core t).used = false → s.client t = true

/-- What the stage of a handle says of the rest of it. -/
def Handle.Fine (x : Handle) : Prop :=
  match x.stage with
  | .waiting => x.thread = none ∧ x.exec = 0 ∧ x.finalized = true ∧ x.flushItem = false
  | .locked => x.thread ≠ none ∧ x.exec = 0 ∧ x.finalized = true ∧ x.flushItem = false
  | .refused => False
  | .active => x.thread ≠ none ∧ x.exec = 1
  | .ending | .unprepared | .stopped | .released => x.thread ≠ none ∧ x.exec ≤ 0
  | .withdrawn => x.thread = none ∧ x.flushItem = false

/-- Handles have what their stages say, and a secure one was made for a thread with a mailbox. -/
structure Handles (s : State) : Prop where
  fine : ∀ h, (s.handle h).Fine
  fresh : ∀ h, s.next ≤ h → (s.handle h).stage = .withdrawn
  secData : ∀ h, (s.handle h).secData = (s.handle h).isSecure
  client : ∀ h, (s.handle h).isSecure = true → s.client cmdqThreadSecMdp = true

/-- A handle is ahead of another in the list when its priority is higher, or is the same and it was
submitted earlier. -/
def Ahead (hs : HandleId → Handle) (h k : HandleId) : Prop :=
  (hs k).priority < (hs h).priority ∨ (hs k).priority = (hs h).priority ∧ h < k

/-- The list of waiting handles, and what a consume run has of it. -/
structure Queue (s : State) : Prop where
  mem : ∀ h, h ∈ s.tasksWait ↔
    (s.handle h).stage = .waiting ∨ (s.handle h).stage = .locked
  nodup : s.tasksWait.Nodup
  order : s.tasksWait.Pairwise (Ahead s.handle)
  free : s.consume = none → ∀ h, (s.handle h).stage ≠ .locked
  run : ∀ r, s.consume = some r → r.rest.Nodup ∧
    (∀ h ∈ r.rest, (s.handle h).stage = .waiting) ∧
    ∀ h, (s.handle h).stage = .locked ↔ r.cur = some h

structure Inv (s : State) : Prop where
  res : Resources s
  handles : Handles s
  queue : Queue s

theorem Resources.searchable (hr : Resources s) : Searchable s.ctx where
  flag := hr.booked.flag
  owner e t ho := by
    have hne : (s.ctx.engine e).currOwner ≠ none := by
      rw [ho]
      exact Option.some_ne_none t
    obtain ⟨h, hh, he⟩ := hr.booked.owned.owner e hne
    have ht : (s.handle h).thread = some t := (hr.booked.owned.place h hh e he).trans ho
    refine ⟨?_, ?_⟩
    · rw [hr.booked.tasks, Shared.card_filter_pos]
      exact ⟨h, hh, ht⟩
    · have := hr.place h hh t ht
      split_ifs at this
      · exact .inl this
      · exact .inr this
  secure := hr.secure
  acquired := hr.acquired

/-- Only the dispatched handles matter to the resources. -/
theorem Resources.congr (hr : Resources s) (hheld : s'.held = s.held)
    (hclocked : s'.clocked = s.clocked) (hx : ∀ h ∈ s.held,
      (s'.handle h).engineFlag = (s.handle h).engineFlag ∧
      (s'.handle h).thread = (s.handle h).thread ∧
      (s'.handle h).isSecure = (s.handle h).isSecure)
    (hctx : s'.ctx = s.ctx) (hcore : s'.core = s.core) (ho : s'.others = s.others)
    (hc : s'.client = s.client) : Resources s' where
  booked := by
    rw [hheld, hctx]
    exact hr.booked.congr fun h hm => ⟨(hx h hm).1, (hx h hm).2.1⟩
  smi := by
    rw [hctx, hclocked]
    exact hr.smi
  place h hm t ht := by
    rw [hheld] at hm
    rw [(hx h hm).2.2, hctx]
    exact hr.place h hm t ((hx h hm).2.1 ▸ ht)
  secure := hctx ▸ hr.secure
  acquired := hctx ▸ hr.acquired
  lent := by
    rw [hctx, hcore, ho]
    exact hr.lent
  other := by
    rw [hctx, hcore, ho]
    exact hr.other
  client := by
    rw [hcore, hc]
    exact hr.client

/-- A handle that keeps what the resources are booked by. -/
theorem update_booked (he : x.engineFlag = (hs h).engineFlag) (ht : x.thread = (hs h).thread)
    (hsec : x.isSecure = (hs h).isSecure) (k : HandleId) :
    (Function.update hs h x k).engineFlag = (hs k).engineFlag ∧
      (Function.update hs h x k).thread = (hs k).thread ∧
      (Function.update hs h x k).isSecure = (hs k).isSecure := by
  by_cases hk : k = h
  · subst hk
    simp [he, ht, hsec]
  · simp [hk]

theorem Handles.setHandle (hh : Handles s) (hx : x.Fine)
    (hn : h < s.next ∨ x.stage = .withdrawn) (hd : x.secData = x.isSecure)
    (hsec : x.isSecure = (s.handle h).isSecure) : Handles (s.setHandle h x) where
  fine k := by
    by_cases hk : k = h
    · subst hk
      simpa [State.setHandle] using hx
    · simpa [State.setHandle, hk] using hh.fine k
  fresh k hk := by
    by_cases he : k = h
    · subst he
      rcases hn with hn | hn
      · exact absurd hn (Nat.not_lt.2 hk)
      · simpa [State.setHandle] using hn
    · simpa [State.setHandle, he] using hh.fresh k hk
  secData k := by
    by_cases hk : k = h
    · subst hk
      simpa [State.setHandle] using hd
    · simpa [State.setHandle, hk] using hh.secData k
  client k hk := by
    by_cases he : k = h
    · subst he
      simp only [State.setHandle, Function.update_self] at hk
      exact hh.client k (hsec ▸ hk)
    · simp only [State.setHandle, Function.update_of_ne he] at hk
      exact hh.client k hk

/-- A handle that is past `stage` is an old one. -/
theorem Handles.lt (hh : Handles s) (hne : (s.handle h).stage ≠ .withdrawn) : h < s.next := by
  by_contra hn
  exact hne (hh.fresh h (Nat.not_lt.1 hn))

theorem Inv.mem_held (hi : Inv s) : h ∈ s.held ↔ (s.handle h).stage.held = true := by
  rw [State.held, mem_atStage, and_iff_right_of_imp]
  intro hst
  refine hi.handles.lt fun hw => ?_
  rw [hw] at hst
  cases hst

theorem Handles.congr (hh : Handles s) (s' : State) (he : s'.handle = s.handle) (hn : s'.next = s.next)
    (hc : s'.client = s.client) : Handles s' where
  fine := he ▸ hh.fine
  fresh := by
    rw [he, hn]
    exact hh.fresh
  secData := he ▸ hh.secData
  client := by
    rw [he, hc]
    exact hh.client

theorem Queue.congr (hq : Queue s) (s' : State) (he : s'.handle = s.handle) (hw : s'.tasksWait = s.tasksWait)
    (hc : s'.consume = s.consume) : Queue s' where
  mem := by
    rw [he, hw]
    exact hq.mem
  nodup := hw ▸ hq.nodup
  order := by
    rw [he, hw]
    exact hq.order
  free := by
    rw [he, hc]
    exact hq.free
  run := by
    rw [he, hc]
    exact hq.run

/-! ## The order of the list -/

theorem mem_insertByPriority {f : HandleId → Nat} {k : HandleId} : ∀ {l : List HandleId},
    k ∈ insertByPriority f h l ↔ k = h ∨ k ∈ l
  | [] => by simp [insertByPriority]
  | j :: l => by
    unfold insertByPriority
    split_ifs
    · simp
    · rw [List.mem_cons, mem_insertByPriority, List.mem_cons, or_left_comm]

theorem nodup_insertByPriority {f : HandleId → Nat} : ∀ {l : List HandleId}, l.Nodup → h ∉ l →
    (insertByPriority f h l).Nodup
  | [], _, _ => List.nodup_singleton _
  | j :: l, hn, hm => by
    obtain ⟨hj, hn'⟩ := List.nodup_cons.1 hn
    rw [List.mem_cons, not_or] at hm
    unfold insertByPriority
    split_ifs
    · exact List.nodup_cons.2 ⟨by simpa using hm, hn⟩
    · refine List.nodup_cons.2 ⟨fun hc => ?_, nodup_insertByPriority hn' hm.2⟩
      rcases mem_insertByPriority.1 hc with he | he
      · exact hm.1 he.symm
      · exact hj he

/-- A handle that is submitted last goes behind those of its own priority. -/
theorem ahead_insertByPriority : ∀ {l : List HandleId}, l.Pairwise (Ahead hs) → (∀ k ∈ l, k < h) →
    (insertByPriority (fun k => (hs k).priority) h l).Pairwise (Ahead hs)
  | [], _, _ => List.pairwise_singleton ..
  | j :: l, hp, hlt => by
    obtain ⟨hj, hp'⟩ := List.pairwise_cons.1 hp
    unfold insertByPriority
    split_ifs with hlow
    · refine List.pairwise_cons.2 ⟨fun k hk => ?_, hp⟩
      rcases List.mem_cons.1 hk with rfl | hk
      · exact .inl hlow
      · rcases hj k hk with h1 | ⟨h1, -⟩
        · exact .inl (h1.trans hlow)
        · exact .inl (h1 ▸ hlow)
    · have ih := ahead_insertByPriority hp' fun k hk => hlt k (List.mem_cons_of_mem _ hk)
      refine List.pairwise_cons.2 ⟨fun k hk => ?_, ih⟩
      rcases mem_insertByPriority.1 hk with rfl | hk
      · rcases Nat.lt_or_eq_of_le (Nat.not_lt.1 hlow) with h1 | h1
        · exact .inl h1
        · exact .inr ⟨h1, hlt j (List.mem_cons_self ..)⟩
      · exact hj k hk

theorem pairwise_ahead_update {l : List HandleId} (hp : l.Pairwise (Ahead hs))
    (hx : h ∉ l ∨ x.priority = (hs h).priority) :
    l.Pairwise (Ahead (Function.update hs h x)) := by
  have hprio : ∀ k ∈ l, (Function.update hs h x k).priority = (hs k).priority := by
    intro k hk
    by_cases he : k = h
    · subst he
      rw [Function.update_self]
      exact hx.resolve_left (not_not.2 hk)
    · rw [Function.update_of_ne he]
  refine hp.imp_of_mem fun {a b} ha hb hab => ?_
  unfold Ahead
  rw [hprio a ha, hprio b hb]
  exact hab

/-- A handle whose stages before and after have nothing to do with the list. -/
theorem Queue.setHandle (hq : Queue s)
    (hold : (s.handle h).stage ≠ .waiting ∧ (s.handle h).stage ≠ .locked)
    (hnew : x.stage ≠ .waiting ∧ x.stage ≠ .locked) : Queue (s.setHandle h x) where
  mem k := by
    by_cases hk : k = h
    · subst hk
      simp only [State.setHandle, Function.update_self, hnew, or_self, iff_false]
      rw [hq.mem]
      simp [hold]
    · simpa [State.setHandle, hk] using hq.mem k
  nodup := hq.nodup
  order := pairwise_ahead_update hq.order (.inl fun hm =>
    ((hq.mem h).1 hm).elim hold.1 hold.2)
  free hc k := by
    by_cases hk : k = h
    · subst hk
      simpa [State.setHandle] using hnew.2
    · simpa [State.setHandle, hk] using hq.free hc k
  run r hr := by
    obtain ⟨h1, h2, h3⟩ := hq.run r hr
    refine ⟨h1, fun k hk => ?_, fun k => ?_⟩
    · have hkh : k ≠ h := by
        rintro rfl
        exact hold.1 (h2 k hk)
      simpa [State.setHandle, hkh] using h2 k hk
    · by_cases hk : k = h
      · subst hk
        rw [← h3 k]
        simp [State.setHandle, hnew, hold]
      · simpa [State.setHandle, hk] using h3 k

/-! ## Steps -/

theorem flushAsyncImpl_inv (hi : Inv s) (hfree : s.consume = none) (node : FileId)
    (engineFlag : Finset Engine) (priority : Nat) (secure : Bool) :
    Inv (flushAsyncImpl s node engineFlag priority secure) := by
  unfold flushAsyncImpl
  split_ifs with hc
  · exact hi
  · have hnew : ∀ k, (s.handle k).stage ≠ .withdrawn → k ≠ s.next := by
      rintro k hk rfl
      exact hk (hi.handles.fresh _ le_rfl)
    have hwait : ∀ k ∈ s.tasksWait, k ≠ s.next := fun k hk => hnew k fun hw => by
      rw [hi.queue.mem, hw] at hk
      simp at hk
    refine ⟨hi.res.congr (atStage_succ rfl) (atStage_succ rfl) (fun k hk => ?_) rfl rfl rfl rfl,
      ⟨fun k => ?_, fun k hk => ?_, fun k => ?_, fun k hk => ?_⟩,
      ⟨fun k => ?_, ?_, ?_, fun _ k => ?_, fun r hr => ?_⟩⟩
    · have hne : k ≠ s.next := (mem_atStage.1 hk).1.ne
      simp [State.setHandle, hne]
    · by_cases hk : k = s.next
      · subst hk
        simp [State.setHandle, Handle.Fine]
      · simpa [State.setHandle, hk] using hi.handles.fine k
    · have hk : s.next < k := hk
      simpa [State.setHandle, hk.ne'] using hi.handles.fresh k hk.le
    · by_cases hk : k = s.next
      · subst hk
        simp [State.setHandle]
      · simpa [State.setHandle, hk] using hi.handles.secData k
    · by_cases he : k = s.next
      · subst he
        simp only [State.setHandle, Function.update_self] at hk
        rw [hk] at hc
        change s.client cmdqThreadSecMdp = true
        simpa using hc
      · simp only [State.setHandle, Function.update_of_ne he] at hk
        exact hi.handles.client k hk
    · simp only [State.setHandle, Nat.add_sub_cancel, mem_insertByPriority]
      by_cases hk : k = s.next
      · subst hk
        simp
      · simpa [hk] using hi.queue.mem k
    · simp only [State.setHandle, Nat.add_sub_cancel]
      exact nodup_insertByPriority hi.queue.nodup fun hm => hwait _ hm rfl
    · simp only [State.setHandle, Nat.add_sub_cancel]
      refine ahead_insertByPriority
        (pairwise_ahead_update hi.queue.order (.inl fun hm => hwait _ hm rfl)) fun k hk => ?_
      refine hi.handles.lt fun hw => ?_
      rw [hi.queue.mem, hw] at hk
      simp at hk
    · by_cases hk : k = s.next
      · subst hk
        simp [State.setHandle]
      · simpa [State.setHandle, hk] using hi.queue.free hfree k
    · exact nomatch (hfree.symm.trans hr)

/-- What the search leaves when it has found a thread for a handle. -/
structure Offered (s : State) (x : Handle) (t : Thread) (ctx : Context) (core : Core) : Prop where
  booked : Booked s.held s.handle ctx
  smi : ctx.mdpSmiUsage = s.ctx.mdpSmiUsage
  free : ∀ e ∈ x.engineFlag, (ctx.engine e).currOwner = none ∨ (ctx.engine e).currOwner = some t
  place : if x.isSecure then t = cmdqThreadSecMdp else (ctx.thread t).acquired = true
  kept : ∀ u, (s.ctx.thread u).acquired = true → (ctx.thread u).acquired = true
  secure : ∀ u : Thread, mdpThreadStart ≤ u.val →
    (ctx.thread u).secure = decide (u = cmdqThreadSecMdp)
  acquired : ∀ u : Thread, (ctx.thread u).acquired = true →
    cmdqDynamicThreadIdStart ≤ u.val ∧ (0 < (ctx.thread u).taskCount ∨ u = t)
  lent : ∀ u, (ctx.thread u).acquired = true →
    core u = ⟨false, 1, cmdqScenarioUserMdp⟩ ∧ s.others u = 0
  other : ∀ u, (ctx.thread u).acquired = false → (core u).acquire = s.others u
  client : ∀ u, (core u).used = false → s.client u = true

theorem Resources.offered (hr : Resources s) {ctx : Context} {core : Core}
    (hf : Found s.ctx s.core x (some t) ctx core) : Offered s x t ctx core := by
  cases hf with
  | shared _ place free =>
    exact ⟨hr.booked, rfl, free, place, fun _ h => h, hr.secure,
      fun u hu => ⟨(hr.acquired u hu).1, .inl (hr.acquired u hu).2⟩, hr.lent, hr.other, hr.client⟩
  | fresh _ normal le unused free engines =>
    -- a thread of the core that nobody has
    have hnot : (s.ctx.thread t).acquired = false := by
      rw [Bool.eq_false_iff]
      intro ha
      rw [(hr.lent t ha).1] at free
      cases free
    have ho : s.others t = 0 := (hr.other t hnot).symm.trans free
    have hsame : ∀ u, (Function.update s.ctx.thread t { s.ctx.thread t with
        acquired := true, allowDispatch := false } u) = { s.ctx.thread u with
        acquired := (s.ctx.thread u).acquired || decide (u = t)
        allowDispatch := if u = t then false else (s.ctx.thread u).allowDispatch } := by
      intro u
      by_cases hu : u = t
      · subst hu
        simp
      · simp [hu]
    refine ⟨⟨hr.booked.owned, hr.booked.placed, fun u e => ?_, fun u => ?_⟩, rfl,
      fun e he => .inl (engines e he), ?_, fun u hu => ?_, fun u hu => ?_, fun u hu => ?_,
      fun u hu => ?_, fun u hu => ?_, fun u hu => ?_⟩
    · simpa only [hsame] using hr.booked.flag u e
    · simpa only [hsame] using hr.booked.tasks u
    · simp [normal]
    · simp [hsame, hu]
    · simpa only [hsame] using hr.secure u hu
    · by_cases he : u = t
      · exact ⟨he ▸ le, .inr he⟩
      · simp only [hsame, he, decide_false, Bool.or_false] at hu ⊢
        exact ⟨(hr.acquired u hu).1, .inl (hr.acquired u hu).2⟩
    · by_cases he : u = t
      · subst he
        simp [unused, free, ho]
      · simp only [hsame, he, decide_false, Bool.or_false] at hu
        rw [Function.update_of_ne he]
        exact hr.lent u hu
    · by_cases he : u = t
      · subst he
        simp at hu
      · simp only [hsame, he, decide_false, Bool.or_false] at hu
        rw [Function.update_of_ne he]
        exact hr.other u hu
    · by_cases he : u = t
      · subst he
        exact hr.client u unused
      · rw [Function.update_of_ne he] at hu
        exact hr.client u hu

/-- The consume run goes on with a part of the list that it had. -/
theorem Queue.setRest (hq : Queue s) {r : Consume} (hr : s.consume = some r) {rest : List HandleId}
    (hs : rest.Sublist r.rest) : Queue { s with consume := some { r with rest := rest } } where
  mem := hq.mem
  nodup := hq.nodup
  order := hq.order
  free := nofun
  run r' hr' := by
    obtain rfl := Option.some.inj hr'
    obtain ⟨h1, h2, h3⟩ := hq.run r hr
    exact ⟨h1.sublist hs, fun k hk => h2 k (hs.subset hk), h3⟩

/-- A handle that gets a thread. -/
theorem Offered.inv (hi : Inv s) {r : Consume} {rest : List HandleId} {ctx : Context} {core : Core}
    (hr : s.consume = some ⟨h :: rest, r.secureRun, none⟩)
    (ho : Offered s (s.handle h) t ctx core) :
    Inv ({ s with
      ctx := lockThread ctx (s.handle h) t
      core := core
      consume := some ⟨rest, r.secureRun, some h⟩ }.setHandle h
        { s.handle h with thread := some t, stage := .locked }) := by
  obtain ⟨hnod, hwait, hlock⟩ := hi.queue.run _ hr
  have hst : (s.handle h).stage = .waiting := hwait h (List.mem_cons_self ..)
  have hlt : h < s.next := hi.handles.lt (by rw [hst]; exact nofun)
  have hnh : h ∉ s.held := by
    rw [hi.mem_held, hst]
    exact nofun
  have hnc : h ∉ s.clocked := by
    rw [State.clocked, mem_atStage, hst]
    exact fun hc => nomatch hc.2
  obtain ⟨-, hexec, hfin, hitem⟩ := by
    have := hi.handles.fine h
    rw [Handle.Fine, hst] at this
    exact this
  set x : Handle := { s.handle h with thread := some t, stage := .locked } with hx
  have hbook : Booked s.held (Function.update s.handle h x) ctx := ho.booked.congr fun k hk => by
    have hne : k ≠ h := fun he => hnh (he ▸ hk)
    simp [hne]
  obtain ⟨h1, h2, h3⟩ := lockThread_booked (h := h) (t := t) hbook hnh (by simp [hx])
    (by simpa [hx] using ho.free)
  have hlk : lockThread ctx (Function.update s.handle h x h) t = lockThread ctx (s.handle h) t := by
    rw [Function.update_self, hx]
    rfl
  rw [hlk] at h1 h2 h3
  have hheld : atStage Stage.held (Function.update s.handle h x) s.next = insert h s.held :=
    atStage_insert hlt rfl
  have hclocked : atStage Stage.clocked (Function.update s.handle h x) s.next =
    insert h s.clocked := atStage_insert hlt rfl
  refine ⟨⟨?_, ?_, fun k hk u hu => ?_, fun u hu => ?_, fun u hu => ?_, fun u hu => ?_,
    fun u hu => ?_, ho.client⟩, hi.handles.congr ({ s with
      ctx := lockThread ctx (s.handle h) t
      core := core
      consume := some ⟨rest, r.secureRun, some h⟩ }) rfl rfl rfl |>.setHandle ?_ (.inl hlt)
        (hi.handles.secData h) rfl, ?_⟩
  · change Booked (atStage Stage.held (Function.update s.handle h x) s.next)
      (Function.update s.handle h x) (lockThread ctx (s.handle h) t)
    rw [hheld]
    exact h1
  · change (lockThread ctx (s.handle h) t).mdpSmiUsage =
      (atStage Stage.clocked (Function.update s.handle h x) s.next).card
    rw [hclocked, h2, ho.smi, hi.res.smi, Finset.card_insert_of_notMem hnc]
    rfl
  · change k ∈ atStage Stage.held (Function.update s.handle h x) s.next at hk
    rw [hheld] at hk
    change if (Function.update s.handle h x k).isSecure then _ else _
    change (Function.update s.handle h x k).thread = some u at hu
    change ite _ _ (((lockThread ctx (s.handle h) t).thread u).acquired = true)
    rw [(h3 u).1]
    by_cases he : k = h
    · subst he
      rw [Function.update_self] at hu ⊢
      obtain rfl := Option.some.inj hu
      exact ho.place
    · rw [Function.update_of_ne he] at hu ⊢
      have := hi.res.place k ((Finset.mem_insert.1 hk).resolve_left he) u hu
      split_ifs at this ⊢
      · exact this
      · exact ho.kept u this
  · change ((lockThread ctx (s.handle h) t).thread u).secure = _
    rw [(h3 u).2, Function.update_self]
    split_ifs with he
    · subst he
      change ((s.handle h).secData && (s.handle h).isSecure) = _
      rw [hi.handles.secData, Bool.and_self]
      have hp := ho.place
      split_ifs at hp with hsec
      · simp [hsec, hp]
      · have := (ho.acquired u hp).1
        have hne : u ≠ cmdqThreadSecMdp := by
          rintro rfl
          exact absurd this (by decide)
        simp [hsec, hne]
    · exact ho.secure u hu
  · change ((lockThread ctx (s.handle h) t).thread u).acquired = true at hu
    change _ ∧ 0 < ((lockThread ctx (s.handle h) t).thread u).taskCount
    rw [(h3 u).1] at hu
    refine ⟨(ho.acquired u hu).1, ?_⟩
    rw [h1.tasks, Shared.card_filter_pos]
    rcases (ho.acquired u hu).2 with hpos | rfl
    · rw [hbook.tasks, Shared.card_filter_pos] at hpos
      obtain ⟨k, hk, hku⟩ := hpos
      exact ⟨k, Finset.mem_insert_of_mem hk, hku⟩
    · exact ⟨h, Finset.mem_insert_self .., by simp [hx]⟩
  · change ((lockThread ctx (s.handle h) t).thread u).acquired = true at hu
    rw [(h3 u).1] at hu
    exact ho.lent u hu
  · change ((lockThread ctx (s.handle h) t).thread u).acquired = false at hu
    rw [(h3 u).1] at hu
    exact ho.other u hu
  · simp [Handle.Fine, hx, hexec, hfin, hitem]
  · have hup : ∀ k, k ≠ h → Function.update s.handle h x k = s.handle k :=
      fun k hk => Function.update_of_ne hk _ _
    refine ⟨fun k => ?_, hi.queue.nodup, pairwise_ahead_update hi.queue.order (.inr rfl), nofun,
      fun r' hr' => ?_⟩
    · change k ∈ s.tasksWait ↔ (Function.update s.handle h x k).stage = _ ∨
        (Function.update s.handle h x k).stage = _
      by_cases hk : k = h
      · subst hk
        simp [hx, hi.queue.mem, hst]
      · rw [hup k hk]
        exact hi.queue.mem k
    · obtain rfl := Option.some.inj hr'
      refine ⟨(List.nodup_cons.1 hnod).2, fun k hk => ?_, fun k => ?_⟩
      · change (Function.update s.handle h x k).stage = _
        rw [hup k fun he => (List.nodup_cons.1 hnod).1 (he ▸ hk)]
        exact hwait k (List.mem_cons_of_mem _ hk)
      · change (Function.update s.handle h x k).stage = _ ↔ _
        by_cases hk : k = h
        · subst hk
          simp [hx]
        · rw [hup k hk, hlock k]
          simp [Ne.symm hk]

theorem dispatch_inv (hi : Inv s) {secureRun : Bool} {rest : List HandleId}
    (hr : s.consume = some ⟨h :: rest, secureRun, none⟩) :
    Inv (dispatch s ⟨h :: rest, secureRun, none⟩ h rest) := by
  have hst : (s.handle h).stage = .waiting :=
    (hi.queue.run _ hr).2.1 h (List.mem_cons_self ..)
  unfold dispatch
  dsimp only
  split_ifs
  · exact ⟨hi.res.congr rfl rfl (fun _ _ => ⟨rfl, rfl, rfl⟩) rfl rfl rfl rfl,
      hi.handles.congr _ rfl rfl rfl, hi.queue.setRest hr (List.nil_sublist _)⟩
  · have hf := findFreeThread_spec hi.res.searchable s.core (s.handle h)
    generalize findFreeThread s.ctx s.core (s.handle h) = found at hf ⊢
    obtain ⟨r | t, ctx, core⟩ := found
    · -- the handle has no thread before and after
      cases hf
      have ht : (s.handle h).thread = none := by
        have := hi.handles.fine h
        rw [Handle.Fine, hst] at this
        exact this.1
      have hsame : ({ s.handle h with thread := none } : Handle) = s.handle h := by
        rw [← ht]
      simp only [hsame, State.setHandle, Function.update_eq_self]
      exact ⟨hi.res.congr rfl rfl (fun _ _ => ⟨rfl, rfl, rfl⟩) rfl rfl rfl rfl,
        hi.handles.congr _ rfl rfl rfl, hi.queue.setRest hr (List.sublist_cons_self _ _)⟩
    · exact (hi.res.offered hf).inv (r := ⟨h :: rest, secureRun, none⟩) hi hr

theorem consume_inv (hi : Inv s) (hfree : s.consume = none) (secureRun : Bool) :
    Inv { s with consume := some ⟨s.tasksWait, secureRun, none⟩ } := by
  have hnot := hi.queue.free hfree
  refine ⟨hi.res.congr rfl rfl (fun _ _ => ⟨rfl, rfl, rfl⟩) rfl rfl rfl rfl,
    hi.handles.congr _ rfl rfl rfl, hi.queue.mem, hi.queue.nodup, hi.queue.order, nofun,
    fun r hr => ?_⟩
  obtain rfl := Option.some.inj hr
  refine ⟨hi.queue.nodup, fun k hk => ?_, fun k => ?_⟩
  · exact ((hi.queue.mem k).1 hk).resolve_right (hnot k)
  · exact iff_of_false (hnot k) nofun

theorem consumeEnd_inv (hi : Inv s) {rest : List HandleId} {secureRun : Bool}
    (hr : s.consume = some ⟨rest, secureRun, none⟩) : Inv { s with consume := none } := by
  refine ⟨hi.res.congr rfl rfl (fun _ _ => ⟨rfl, rfl, rfl⟩) rfl rfl rfl rfl,
    hi.handles.congr _ rfl rfl rfl, hi.queue.mem, hi.queue.nodup, hi.queue.order, fun _ k hk => ?_,
    nofun⟩
  exact nomatch ((hi.queue.run _ hr).2.2 k).1 hk

/-- A handle that has its thread can be locked: it is flushed once, and its thread has a mailbox. -/
theorem lockHandle_locked (hi : Inv s) (hst : (s.handle h).stage = .locked) (w : List HandleId)
    (r : Option Consume) :
    lockHandle { s with tasksWait := w, consume := r } (s.handle h) =
      (true, { s.handle h with exec := 1, stage := .active }) := by
  have hfine := hi.handles.fine h
  rw [Handle.Fine, hst] at hfine
  obtain ⟨ht, hexec, -, -⟩ := hfine
  obtain ⟨t, ht⟩ := Option.ne_none_iff_exists'.1 ht
  have hclient : s.client t = true := by
    have hp := hi.res.place h (hi.mem_held.2 (by rw [hst]; rfl)) t ht
    split_ifs at hp with hsec
    · rw [hp]
      exact hi.handles.client h hsec
    · refine hi.res.client t ?_
      rw [(hi.res.lent t hp).1]
  simp [lockHandle, ht, hclient, hexec]

theorem flush_inv (hi : Inv s) {r : Consume} (hr : s.consume = some r) (hcur : r.cur = some h)
    (result : Flush) : Inv (flush s r h result) := by
  obtain ⟨hnod, hwait, hlock⟩ := hi.queue.run r hr
  have hst : (s.handle h).stage = .locked := (hlock h).2 hcur
  have hlt : h < s.next := hi.handles.lt (by rw [hst]; exact nofun)
  have hfine := hi.handles.fine h
  rw [Handle.Fine, hst] at hfine
  obtain ⟨ht, -, hfin, -⟩ := hfine
  unfold flush
  simp only [hfin, Bool.not_true, Bool.false_eq_true, if_false, lockHandle_locked hi hst]
  refine ⟨hi.res.congr (atStage_same (by rw [hst]; rfl)) (atStage_same (by rw [hst]; rfl))
    (fun k _ => update_booked (by rfl) (by rfl) (by rfl) k) rfl rfl rfl rfl,
    hi.handles.congr ({ s with
      tasksWait := s.tasksWait.erase h
      consume := some { r with cur := none }
      handleActive := s.handleActive ++ [h] }) rfl rfl rfl |>.setHandle ⟨ht, rfl⟩ (.inl hlt)
        (hi.handles.secData h) rfl,
    fun k => ?_, hi.queue.nodup.erase h, ?_, nofun, fun r' hr' => ?_⟩
  · simp only [State.setHandle]
    rw [hi.queue.nodup.mem_erase_iff, hi.queue.mem]
    by_cases hk : k = h
    · subst hk
      simp
    · simp [hk]
  · exact pairwise_ahead_update (hi.queue.order.sublist (List.erase_sublist ..)) (.inr rfl)
  · obtain rfl := Option.some.inj hr'
    refine ⟨hnod, fun k hk => ?_, fun k => ?_⟩
    · have hne : k ≠ h := by
        rintro rfl
        have := hwait k hk
        rw [hst] at this
        cases this
      simpa [State.setHandle, hne] using hwait k hk
    · by_cases hk : k = h
      · subst hk
        simp [State.setHandle]
      · simp only [State.setHandle, Function.update_of_ne hk]
        rw [hlock k, hcur]
        simpa using Ne.symm hk

theorem releaseHandle_inv (hi : Inv s) (hitem : (s.handle h).flushItem = true) :
    Inv (releaseHandle s h) := by
  have hfine := hi.handles.fine h
  rw [Handle.Fine] at hfine
  unfold releaseHandle
  dsimp only
  split_ifs with hexec
  · -- it was released before
    have hstage : (s.handle h).stage ≠ .waiting ∧ (s.handle h).stage ≠ .locked ∧
        Handle.Fine { s.handle h with exec := (s.handle h).exec - 1 } := by
      cases hst : (s.handle h).stage <;> simp only [hst] at hfine
      case waiting => simp [hfine.2.2.2] at hitem
      case locked => simp [hfine.2.2.2] at hitem
      case withdrawn => simp [hfine.2] at hitem
      case active => simp [hfine.2] at hexec
      all_goals
        refine ⟨nofun, nofun, ?_⟩
        simp only [Handle.Fine, hst]
        exact ⟨hfine.1, by omega⟩
    obtain ⟨h1, h2, h3⟩ := hstage
    refine ⟨hi.res.congr (atStage_same rfl) (atStage_same rfl)
      (fun k _ => update_booked (by rfl) (by rfl) (by rfl) k) rfl rfl rfl rfl,
      (hi.handles.congr ({ s with handleActive := s.handleActive.erase h })
        rfl rfl rfl).setHandle h3 ?_ (hi.handles.secData h) rfl,
      (hi.queue.congr ({ s with handleActive := s.handleActive.erase h })
        rfl rfl rfl).setHandle ⟨h1, h2⟩ ⟨h1, h2⟩⟩
    by_cases hw : (s.handle h).stage = .withdrawn
    · exact .inr hw
    · exact .inl (hi.handles.lt hw)
  · have hst : (s.handle h).stage = .active := by
      cases hst : (s.handle h).stage <;> simp only [hst] at hfine
      case waiting => simp [hfine.2.2.2] at hitem
      case locked => simp [hfine.2.2.2] at hitem
      case withdrawn => simp [hfine.2] at hitem
      case active => rfl
      all_goals
        have := hfine.2
        omega
    rw [not_not] at hexec
    simp only [hst] at hfine
    exact ⟨hi.res.congr (atStage_same (by rw [hst]; rfl)) (atStage_same (by rw [hst]; rfl))
      (fun k _ => update_booked (by rfl) (by rfl) (by rfl) k) rfl rfl rfl rfl,
      hi.handles.setHandle ⟨hfine.1, hexec.le⟩ (.inl (hi.handles.lt (by rw [hst]; exact nofun)))
        (hi.handles.secData h) rfl,
      hi.queue.setHandle (by rw [hst]; exact ⟨nofun, nofun⟩) ⟨nofun, nofun⟩⟩

theorem handleStop_inv (hi : Inv s) (hst : (s.handle h).stage = .unprepared) :
    Inv (handleStop s h) := by
  have hfine := hi.handles.fine h
  simp only [Handle.Fine, hst] at hfine
  have hlt : h < s.next := hi.handles.lt (by rw [hst]; exact nofun)
  have hmem : h ∈ s.clocked := mem_atStage.2 ⟨hlt, by rw [hst]; rfl⟩
  have hheld : (handleStop s h).held = s.held := atStage_same (by rw [hst]; rfl)
  have hx := fun k => update_booked (x := { s.handle h with stage := .stopped }) (h := h)
    (by rfl) (by rfl) (by rfl) k
  refine ⟨⟨?_, ?_, fun k hk t ht => ?_, hi.res.secure, hi.res.acquired, hi.res.lent, hi.res.other,
    hi.res.client⟩, (hi.handles.congr ({ s with
      ctx := { s.ctx with mdpSmiUsage := s.ctx.mdpSmiUsage - 1 } }) rfl rfl rfl).setHandle hfine
        (.inl hlt) (hi.handles.secData h) rfl,
    (hi.queue.congr ({ s with
      ctx := { s.ctx with mdpSmiUsage := s.ctx.mdpSmiUsage - 1 } }) rfl rfl rfl).setHandle
        (by rw [hst]; exact ⟨nofun, nofun⟩) ⟨nofun, nofun⟩⟩
  · rw [hheld]
    have := hi.res.booked.congr fun k (_ : k ∈ s.held) => ⟨(hx k).1, (hx k).2.1⟩
    exact ⟨this.owned, this.placed, this.flag, this.tasks⟩
  · have hc : (handleStop s h).clocked = s.clocked.erase h := atStage_erase rfl
    rw [hc, Finset.card_erase_of_mem hmem]
    change s.ctx.mdpSmiUsage - 1 = _
    have := Finset.card_pos.2 ⟨h, hmem⟩
    rw [hi.res.smi]
    omega
  · rw [hheld] at hk
    have h1 := (hx k).2.1
    have h2 := (hx k).2.2
    change if (Function.update s.handle h _ k).isSecure then _ else _
    rw [h2]
    exact hi.res.place k hk t (h1.symm.trans ht)

theorem unlink_inv (hi : Inv s) (hst : (s.handle h).stage = .stopped) :
    Inv ({ s with handleActive := s.handleActive.erase h }.setHandle h
      { s.handle h with stage := .released }) := by
  have hfine := hi.handles.fine h
  simp only [Handle.Fine, hst] at hfine
  exact ⟨hi.res.congr (atStage_same (by rw [hst]; rfl)) (atStage_same (by rw [hst]; rfl))
    (fun k _ => update_booked (by rfl) (by rfl) (by rfl) k) rfl rfl rfl rfl,
    (hi.handles.congr ({ s with handleActive := s.handleActive.erase h })
      rfl rfl rfl).setHandle hfine (.inl (hi.handles.lt (by rw [hst]; exact nofun)))
        (hi.handles.secData h) rfl,
    (hi.queue.congr ({ s with handleActive := s.handleActive.erase h })
      rfl rfl rfl).setHandle (by rw [hst]; exact ⟨nofun, nofun⟩) ⟨nofun, nofun⟩⟩

/-- A handle without a thread holds nothing. -/
theorem Handles.idle (hh : Handles s) (ht : (s.handle h).thread = none) :
    (s.handle h).stage = .waiting ∨ (s.handle h).stage = .withdrawn := by
  have hfine := hh.fine h
  cases hst : (s.handle h).stage <;> simp only [Handle.Fine, hst, ht] at hfine <;> simp at hfine ⊢

theorem waitTimeout_inv (hi : Inv s) (hfree : s.consume = none) : Inv (waitTimeout s h) := by
  unfold waitTimeout
  split_ifs with ht
  · have hidle := hi.handles.idle ht
    have hitem : (s.handle h).flushItem = false := by
      have hfine := hi.handles.fine h
      rcases hidle with hst | hst <;> simp only [Handle.Fine, hst] at hfine
      · exact hfine.2.2.2
      · exact hfine.2
    refine ⟨hi.res.congr (atStage_same ?_) (atStage_same ?_)
      (fun k _ => update_booked (by rfl) (by rfl) (by rfl) k) rfl rfl rfl rfl,
      (hi.handles.congr ({ s with tasksWait := s.tasksWait.erase h })
        rfl rfl rfl).setHandle ⟨ht, hitem⟩ (.inr rfl) (hi.handles.secData h) rfl,
      fun k => ?_, hi.queue.nodup.erase h, ?_, fun _ k => ?_, fun r hr => ?_⟩
    · rcases hidle with hst | hst <;> simp [hst, Stage.held]
    · rcases hidle with hst | hst <;> simp [hst, Stage.clocked]
    · simp only [State.setHandle]
      rw [hi.queue.nodup.mem_erase_iff, hi.queue.mem]
      by_cases hk : k = h
      · subst hk
        simp
      · simp [hk]
    · exact pairwise_ahead_update (hi.queue.order.sublist (List.erase_sublist ..)) (.inr rfl)
    · by_cases hk : k = h
      · subst hk
        simp [State.setHandle]
      · simpa [State.setHandle, hk] using hi.queue.free hfree k
    · exact nomatch (hfree.symm.trans hr)
  · exact hi

theorem releaseTaskByFileNode_inv (hi : Inv s) (hfree : s.consume = none) (node : FileId) :
    Inv (releaseTaskByFileNode s node) := by
  set s1 := releaseTaskByFileNode s node with hs1
  have hout : ∀ k, ¬ (k ∈ s.tasksWait ∧ (s.handle k).node = node) → s1.handle k = s.handle k :=
    fun k hk => if_neg hk
  have hin : ∀ k, k ∈ s.tasksWait → (s.handle k).node = node →
      s1.handle k = { s.handle k with stage := .withdrawn } := fun k hk hn => if_pos ⟨hk, hn⟩
  have hwait : ∀ k ∈ s.tasksWait, (s.handle k).stage = .waiting := fun k hk =>
    ((hi.queue.mem k).1 hk).resolve_right (hi.queue.free hfree k)
  -- only the stages of waiting handles change
  have hfields : ∀ k, (s1.handle k).engineFlag = (s.handle k).engineFlag ∧
      (s1.handle k).thread = (s.handle k).thread ∧
      (s1.handle k).isSecure = (s.handle k).isSecure ∧
      (s1.handle k).secData = (s.handle k).secData ∧
      (s1.handle k).priority = (s.handle k).priority := by
    intro k
    by_cases hk : k ∈ s.tasksWait ∧ (s.handle k).node = node
    · rw [hin k hk.1 hk.2]
      exact ⟨rfl, rfl, rfl, rfl, rfl⟩
    · rw [hout k hk]
      exact ⟨rfl, rfl, rfl, rfl, rfl⟩
  have hsame : ∀ p : Stage → Bool, p .waiting = false → p .withdrawn = false →
      atStage p s1.handle s1.next = atStage p s.handle s.next := by
    intro p hp hp'
    refine Finset.filter_congr fun k _ => ?_
    by_cases hk : k ∈ s.tasksWait ∧ (s.handle k).node = node
    · rw [hin k hk.1 hk.2, hwait k hk.1, hp, hp']
    · rw [hout k hk]
  refine ⟨hi.res.congr (hsame _ rfl rfl) (hsame _ rfl rfl)
    (fun k _ => ⟨(hfields k).1, (hfields k).2.1, (hfields k).2.2.1⟩) rfl rfl rfl rfl,
    ⟨fun k => ?_, fun k hk => ?_, fun k => ?_, fun k hk => ?_⟩,
    ⟨fun k => ?_, hi.queue.nodup.filter _, ?_, fun _ k hk => ?_, fun r hr => ?_⟩⟩
  · by_cases hk : k ∈ s.tasksWait ∧ (s.handle k).node = node
    · have hfine := hi.handles.fine k
      simp only [Handle.Fine, hwait k hk.1] at hfine
      rw [hin k hk.1 hk.2]
      exact ⟨hfine.1, hfine.2.2.2⟩
    · rw [hout k hk]
      exact hi.handles.fine k
  · rw [hout k fun hw => ?_]
    · exact hi.handles.fresh k hk
    · have := hi.handles.fresh k hk
      rw [hwait k hw.1] at this
      cases this
  · rw [(hfields k).2.2.2.1, (hfields k).2.2.1]
    exact hi.handles.secData k
  · rw [(hfields k).2.2.1] at hk
    exact hi.handles.client k hk
  · change k ∈ s.tasksWait.filter _ ↔ _
    rw [List.mem_filter, decide_eq_true_eq]
    by_cases hk : k ∈ s.tasksWait ∧ (s.handle k).node = node
    · rw [hin k hk.1 hk.2]
      simp [hk.2]
    · rw [hout k hk, ← hi.queue.mem]
      exact ⟨fun hm => hm.1, fun hm => ⟨hm, fun hn => hk ⟨hm, hn⟩⟩⟩
  · refine (hi.queue.order.sublist List.filter_sublist).imp fun {a b} hab => ?_
    unfold Ahead
    rw [(hfields a).2.2.2.2, (hfields b).2.2.2.2]
    exact hab
  · by_cases hw : k ∈ s.tasksWait ∧ (s.handle k).node = node
    · rw [hin k hw.1 hw.2] at hk
      cases hk
    · rw [hout k hw] at hk
      exact hi.queue.free hfree k hk
  · exact nomatch (hfree.symm.trans hr)

/-- A release gives the thread back to the core with its last handle. -/
theorem unprepare_spec (hi : Inv s) (hst : (s.handle h).stage = .ending) :
    ∃ back s', unprepare s h = some (back, s') ∧ Inv s' ∧
      ∀ u, back = some u ↔ LastOn s.held s.handle h u := by
  have hfine := hi.handles.fine h
  simp only [Handle.Fine, hst] at hfine
  have hlt : h < s.next := hi.handles.lt (by rw [hst]; exact nofun)
  have hmem : h ∈ s.held := hi.mem_held.2 (by rw [hst]; rfl)
  obtain ⟨t, ht⟩ := Option.ne_none_iff_exists'.1 hfine.1
  obtain ⟨back, c', h1, h2, h3, h4, h5⟩ :=
    unlockThread_booked s.core hi.res.booked hmem ht
  set core' := if back = none then s.core else coreReleaseThread s.core t with hcore'
  set x : Handle := { s.handle h with stage := .unprepared } with hx0
  have hun : unprepare s h = some (back, { s with ctx := c', core := core' }.setHandle h x) := by
    unfold unprepare
    dsimp only
    split
    · next hn => exact absurd (hn.symm.trans ht) nofun
    · next u hu =>
      obtain rfl := Option.some.inj (hu.symm.trans ht)
      rw [h1]
  refine ⟨back, _, hun, ?_, h4⟩
  have hheld : atStage Stage.held (Function.update s.handle h x) s.next = s.held.erase h :=
    atStage_erase rfl
  have hclocked : atStage Stage.clocked (Function.update s.handle h x) s.next = s.clocked :=
    atStage_same (by rw [hst]; rfl)
  have hx := fun k => update_booked (x := x) (h := h) (by rfl) (by rfl) (by rfl) k
  -- the thread that goes back is the handle's, and it was acquired
  have hback : ∀ u, back = some u → u = t ∧ (s.ctx.thread t).acquired = true := by
    intro u hu
    have hl := (h4 u).1 hu
    obtain rfl := Option.some.inj (hl.1.symm.trans ht)
    refine ⟨rfl, ?_⟩
    have hp := hi.res.place h hmem u ht
    rwa [hl.2.1, if_neg (by simp)] at hp
  have hcore : ∀ u, core' u = if back = some u then
      { s.core u with acquire := decU32 (s.core u).acquire } else s.core u := by
    intro u
    cases hb : back with
    | none => simp [hcore', hb]
    | some w =>
      obtain ⟨rfl, -⟩ := hback w hb
      rw [hcore', hb, if_neg (by simp), coreReleaseThread]
      by_cases hu : u = w
      · subst hu
        simp
      · simp [hu, Ne.symm hu]
  have hkept : ∀ u, (c'.thread u).acquired = true →
      back ≠ some u ∧ (s.ctx.thread u).acquired = true := by
    intro u hu
    rw [(h5 u).2] at hu
    split_ifs at hu with hb
    exact ⟨hb, hu⟩
  refine ⟨⟨?_, ?_, fun k hk u hu => ?_, fun u hu => ?_, fun u hu => ?_, fun u hu => ?_,
    fun u hu => ?_, fun u hu => ?_⟩, (hi.handles.congr ({ s with ctx := c', core := core' })
      rfl rfl rfl).setHandle hfine (.inl hlt) (hi.handles.secData h) rfl,
    (hi.queue.congr ({ s with ctx := c', core := core' }) rfl rfl rfl).setHandle
      (by rw [hst]; exact ⟨nofun, nofun⟩) ⟨nofun, nofun⟩⟩
  · change Booked (atStage Stage.held (Function.update s.handle h x) s.next)
      (Function.update s.handle h x) c'
    rw [hheld]
    exact h2.congr fun k _ => ⟨(hx k).1, (hx k).2.1⟩
  · change c'.mdpSmiUsage = (atStage Stage.clocked (Function.update s.handle h x) s.next).card
    rw [hclocked, h3]
    exact hi.res.smi
  · change k ∈ atStage Stage.held (Function.update s.handle h x) s.next at hk
    rw [hheld] at hk
    obtain ⟨hne, hk⟩ := Finset.mem_erase.1 hk
    have hku : (s.handle k).thread = some u := (hx k).2.1.symm.trans hu
    change if (Function.update s.handle h x k).isSecure then _ else (c'.thread u).acquired = true
    rw [(hx k).2.2]
    have hp := hi.res.place k hk u hku
    split_ifs at hp ⊢
    · exact hp
    · rw [(h5 u).2, if_neg]
      · exact hp
      · exact fun hb => hne (((h4 u).1 hb).2.2 k hk hku)
  · exact (h5 u).1.trans (hi.res.secure u hu)
  · obtain ⟨hnb, ha⟩ := hkept u hu
    refine ⟨(hi.res.acquired u ha).1, ?_⟩
    change 0 < (c'.thread u).taskCount
    -- another handle is on the thread, or it would go back
    by_contra hzero
    rw [h2.tasks, Shared.card_filter_pos] at hzero
    have hpos := (hi.res.acquired u ha).2
    rw [hi.res.booked.tasks, Shared.card_filter_pos] at hpos
    obtain ⟨k, hk, hku⟩ := hpos
    have hkh : k = h := by
      by_contra hne
      exact hzero ⟨k, Finset.mem_erase.2 ⟨hne, hk⟩, hku⟩
    subst hkh
    have hp := hi.res.place k hk u hku
    have hnot : u ≠ cmdqThreadSecMdp := by
      rintro rfl
      exact absurd (hi.res.acquired _ ha).1 (by decide)
    cases hsec : (s.handle k).isSecure with
    | true =>
      rw [hsec, if_pos rfl] at hp
      exact hnot hp
    | false =>
      refine hnb ((h4 u).2 ⟨hku, hsec, fun j hj hju => ?_⟩)
      by_contra hne
      exact hzero ⟨j, Finset.mem_erase.2 ⟨hne, hj⟩, hju⟩
  · obtain ⟨hnb, ha⟩ := hkept u hu
    change core' u = _ ∧ _
    rw [hcore, if_neg hnb]
    exact hi.res.lent u ha
  · change (core' u).acquire = s.others u
    change (c'.thread u).acquired = false at hu
    rw [(h5 u).2] at hu
    rw [hcore]
    split_ifs at hu ⊢ with hb
    · obtain ⟨rfl, ha⟩ := hback u hb
      rw [(hi.res.lent u ha).1, (hi.res.lent u ha).2]
      rfl
    · exact hi.res.other u hu
  · change (core' u).used = false at hu
    refine hi.res.client u ?_
    rw [hcore] at hu
    split_ifs at hu <;> exact hu

/-- Other clients acquire threads that the dispatch does not have. -/
theorem coreAcquire_inv (hi : Inv s) {scenario : Scenario} {exclusive : Bool} {core : Core}
    (hsc : scenario ≠ cmdqScenarioUserMdp)
    (hc : coreAcquireThread s.core scenario exclusive = some (t, core)) :
    Inv { s with core := core, others := Function.update s.others t (s.others t + 1) } := by
  obtain ⟨-, hfit, rfl⟩ := coreAcquireThread_spec hc
  have hnot : (s.ctx.thread t).acquired = false := by
    rw [Bool.eq_false_iff]
    intro ha
    rw [CoreThread.fits, (hi.res.lent t ha).1] at hfit
    simp [Ne.symm hsc] at hfit
  have hbook := hi.res.booked
  refine ⟨⟨⟨hbook.owned, hbook.placed, hbook.flag, hbook.tasks⟩, hi.res.smi, hi.res.place,
    hi.res.secure, hi.res.acquired, fun u hu => ?_, fun u hu => ?_, fun u hu => ?_⟩,
    hi.handles.congr _ rfl rfl rfl, hi.queue.congr _ rfl rfl rfl⟩
  · have hne : u ≠ t := by
      rintro rfl
      rw [hnot] at hu
      cases hu
    simpa [hne] using hi.res.lent u hu
  · by_cases he : u = t
    · subst he
      simpa using hi.res.other u hu
    · simpa [he] using hi.res.other u hu
  · by_cases he : u = t
    · subst he
      exact hi.res.client u (by simpa using hu)
    · exact hi.res.client u (by simpa [he] using hu)

theorem coreRelease_inv (hi : Inv s) (hpos : s.others t ≠ 0) :
    Inv { s with
      core := coreReleaseThread s.core t
      others := Function.update s.others t (s.others t - 1) } := by
  have hnot : (s.ctx.thread t).acquired = false := by
    rw [Bool.eq_false_iff]
    exact fun ha => hpos (hi.res.lent t ha).2
  have hbook := hi.res.booked
  refine ⟨⟨⟨hbook.owned, hbook.placed, hbook.flag, hbook.tasks⟩, hi.res.smi, hi.res.place,
    hi.res.secure, hi.res.acquired, fun u hu => ?_, fun u hu => ?_, fun u hu => ?_⟩,
    hi.handles.congr _ rfl rfl rfl, hi.queue.congr _ rfl rfl rfl⟩
  · have hne : u ≠ t := by
      rintro rfl
      rw [hnot] at hu
      cases hu
    simpa [hne, coreReleaseThread] using hi.res.lent u hu
  · by_cases he : u = t
    · subst he
      have := hi.res.other u hu
      simp [coreReleaseThread, decU32, this, hpos]
    · simpa [he, coreReleaseThread] using hi.res.other u hu
  · by_cases he : u = t
    · subst he
      exact hi.res.client u (by simpa [coreReleaseThread] using hu)
    · exact hi.res.client u (by simpa [he, coreReleaseThread] using hu)

/-- The step gives the thread back to the core: it releases the last handle on it. -/
def GivesBack (s : State) (i : Op) (t : Thread) : Prop :=
  ∃ h, i = .unprepare h ∧ (s.handle h).stage = .ending ∧ LastOn s.held s.handle h t

theorem step_spec (hi : Inv s) (i : Op) :
    ∃ back s', step s i = some (back, s') ∧ Inv s' ∧ ∀ t, back = some t ↔ GivesBack s i t := by
  have quiet : ∀ {s' : State} {i : Op}, (∀ h, i ≠ .unprepare h) → Inv s' →
      step s i = some (none, s') →
      ∃ back s', step s i = some (back, s') ∧ Inv s' ∧ ∀ t, back = some t ↔ GivesBack s i t :=
    fun hne hs' he => ⟨none, _, he, hs', fun t => iff_of_false nofun fun ⟨h, hh, _⟩ => hne h hh⟩
  cases i with
  | submit node engineFlag priority secure =>
    cases hc : s.consume with
    | some r => exact quiet nofun hi (by simp only [step, hc])
    | none =>
      exact quiet nofun (flushAsyncImpl_inv hi hc node engineFlag priority secure)
        (by simp only [step, hc])
  | consume =>
    cases hc : s.consume with
    | some r => exact quiet nofun hi (by simp only [step, hc])
    | none => exact quiet nofun (consume_inv hi hc _) (by simp only [step, hc]; rfl)
  | next =>
    rcases hc : s.consume with _ | ⟨_ | ⟨h, rest⟩, secureRun, _ | cur⟩
    · exact quiet nofun hi (by simp only [step, hc])
    · exact quiet nofun (consumeEnd_inv hi hc) (by simp only [step, hc])
    · exact quiet nofun hi (by simp only [step, hc])
    · exact quiet nofun (dispatch_inv hi hc) (by simp only [step, hc])
    · exact quiet nofun hi (by simp only [step, hc])
  | flush result =>
    rcases hc : s.consume with _ | ⟨rest, secureRun, _ | cur⟩
    · exact quiet nofun hi (by simp only [step, hc])
    · exact quiet nofun hi (by simp only [step, hc])
    · exact quiet nofun (flush_inv hi hc rfl result) (by simp only [step, hc])
  | release h =>
    by_cases hf : (s.handle h).flushItem = true
    · exact quiet nofun (releaseHandle_inv hi hf) (by simp only [step, if_pos hf])
    · exact quiet nofun hi (by simp only [step, if_neg hf])
  | unprepare h =>
    by_cases hst : (s.handle h).stage = .ending
    · obtain ⟨back, s', h1, h2, h3⟩ := unprepare_spec hi hst
      refine ⟨back, s', by simp only [step, if_pos hst, h1], h2, fun t => (h3 t).trans ?_⟩
      refine ⟨fun hl => ⟨h, rfl, hst, hl⟩, fun ⟨k, hk, _, hl⟩ => ?_⟩
      obtain rfl := Op.unprepare.inj hk
      exact hl
    · refine ⟨none, s, by simp only [step, if_neg hst], hi, fun t => iff_of_false nofun ?_⟩
      rintro ⟨k, hk, hst', -⟩
      obtain rfl := Op.unprepare.inj hk
      exact hst hst'
  | stop h =>
    by_cases hst : (s.handle h).stage = .unprepared
    · exact quiet nofun (handleStop_inv hi hst) (by simp only [step, if_pos hst])
    · exact quiet nofun hi (by simp only [step, if_neg hst])
  | unlink h =>
    by_cases hst : (s.handle h).stage = .stopped
    · exact quiet nofun (unlink_inv hi hst) (by simp only [step, if_pos hst])
    · exact quiet nofun hi (by simp only [step, if_neg hst])
  | timeout h =>
    cases hc : s.consume with
    | some r => exact quiet nofun hi (by simp only [step, hc])
    | none => exact quiet nofun (waitTimeout_inv (h := h) hi hc) (by simp only [step, hc])
  | close node =>
    cases hc : s.consume with
    | some r => exact quiet nofun hi (by simp only [step, hc])
    | none => exact quiet nofun (releaseTaskByFileNode_inv hi hc node) (by simp only [step, hc])
  | coreAcquire scenario exclusive =>
    by_cases hsc : scenario = cmdqScenarioUserMdp
    · exact quiet nofun hi (by simp only [step, if_pos hsc])
    · rcases ha : coreAcquireThread s.core scenario exclusive with _ | ⟨t, core⟩
      · exact quiet nofun hi (by simp only [step, if_neg hsc, ha])
      · exact quiet nofun (coreAcquire_inv hi hsc ha) (by simp only [step, if_neg hsc, ha])
  | coreRelease t =>
    by_cases hz : s.others t = 0
    · exact quiet nofun hi (by simp only [step, if_pos hz])
    · exact quiet nofun (coreRelease_inv hi hz) (by simp only [step, if_neg hz])

theorem inv_init (used client : Thread → Bool) : Inv (init used client) := by
  refine ⟨⟨⟨?_, nofun, fun t e => ?_, fun t => rfl⟩, rfl, nofun, fun t ht => ?_, nofun, nofun,
    fun t _ => rfl, fun t ht => ?_⟩,
    ⟨fun h => ⟨rfl, rfl⟩, fun h _ => rfl, fun h => rfl, nofun⟩,
    ⟨fun h => ?_, .nil, .nil, fun _ h => nofun, nofun⟩⟩
  · exact Shared.owned_empty
  · exact iff_of_false (Finset.notMem_empty e) nofun
  · have hsec : ∀ t : Thread, mdpThreadStart ≤ t.val →
        (initContext.thread t).secure = decide (t = cmdqThreadSecMdp) := by decide
    exact hsec t ht
  · have : (used t || !client t) = false := ht
    simp only [Bool.or_eq_false_iff, Bool.not_eq_false'] at this
    exact this.2
  · exact iff_of_false List.not_mem_nil (by rintro (hh | hh) <;> cases hh)

/-! ## Runs -/

/-- What the counts, owners, flags and lists say of the handles that are dispatched and of those
that wait. A thread has gone to the dispatch, once, while it has a handle. -/
structure Consistent (s : State) : Prop where
  userCount : ∀ e, (s.ctx.engine e).userCount =
    (s.held.filter fun h => e ∈ (s.handle h).engineFlag).card
  currOwner : ∀ e, (s.ctx.engine e).currOwner ≠ none ↔ 0 < (s.ctx.engine e).userCount
  thread : ∀ h ∈ s.held, ∀ e ∈ (s.handle h).engineFlag,
    (s.handle h).thread = (s.ctx.engine e).currOwner
  engineFlag : ∀ t e, e ∈ (s.ctx.thread t).engineFlag ↔ (s.ctx.engine e).currOwner = some t
  taskCount : ∀ t, (s.ctx.thread t).taskCount =
    (s.held.filter fun h => (s.handle h).thread = some t).card
  smi : s.ctx.mdpSmiUsage = s.clocked.card
  apart : ∀ h ∈ s.held, ∀ k ∈ s.held, (s.handle h).isSecure ≠ (s.handle k).isSecure →
    Disjoint (s.handle h).engineFlag (s.handle k).engineFlag
  linked : s.tasksWait.Nodup ∧ ∀ h, h ∈ s.tasksWait ↔ (s.handle h).stage = .waiting ∨
    ∃ r, s.consume = some r ∧ r.cur = some h
  order : s.tasksWait.Pairwise (Ahead s.handle)
  acquired : ∀ t, t ≠ cmdqThreadSecMdp →
    ((s.ctx.thread t).acquired = true ↔ ∃ h ∈ s.held, (s.handle h).thread = some t)
  acquire : ∀ t, (s.core t).acquire =
    (if (s.ctx.thread t).acquired then 1 else 0) + s.others t

theorem Inv.consistent (hi : Inv s) : Consistent s where
  userCount := hi.res.booked.owned.count
  currOwner := hi.res.booked.owned.owner_iff hi.res.booked.placed
  thread := hi.res.booked.owned.place
  engineFlag := hi.res.booked.flag
  taskCount := hi.res.booked.tasks
  smi := hi.res.smi
  apart h hh k hk hne := by
    refine Finset.disjoint_left.2 fun e he he' => hne ?_
    -- both are on the owner of the engine, which is the secure thread or not
    have h1 := hi.res.booked.owned.place h hh e he
    have h2 := hi.res.booked.owned.place k hk e he'
    obtain ⟨t, ht⟩ := Option.ne_none_iff_exists'.1 (hi.res.booked.placed h hh)
    have hp := hi.res.place h hh t ht
    have hp' := hi.res.place k hk t (h2.trans (h1.symm.trans ht))
    have hnot : ¬ (t = cmdqThreadSecMdp ∧ (s.ctx.thread t).acquired = true) := by
      rintro ⟨rfl, ha⟩
      exact absurd (hi.res.acquired _ ha).1 (by decide)
    cases hs : (s.handle h).isSecure <;> cases hs' : (s.handle k).isSecure <;>
      simp only [hs, hs', if_true, if_false, Bool.false_eq_true] at hp hp'
    · rfl
    · exact absurd ⟨hp', hp⟩ hnot
    · exact absurd ⟨hp, hp'⟩ hnot
    · rfl
  linked := by
    refine ⟨hi.queue.nodup, fun h => ?_⟩
    rw [hi.queue.mem]
    refine or_congr_right ?_
    cases hc : s.consume with
    | none => exact iff_of_false (hi.queue.free hc h) nofun
    | some r =>
      rw [(hi.queue.run r hc).2.2 h]
      simp
  order := hi.queue.order
  acquired t ht := by
    refine ⟨fun ha => ?_, fun ⟨h, hh, hht⟩ => ?_⟩
    · have := (hi.res.acquired t ha).2
      rwa [hi.res.booked.tasks, Shared.card_filter_pos] at this
    · have hp := hi.res.place h hh t hht
      split_ifs at hp
      · exact absurd hp ht
      · exact hp
  acquire t := by
    cases ha : (s.ctx.thread t).acquired with
    | false => simp [hi.res.other t ha]
    | true => simp [hi.res.lent t ha]

/-- **The dispatch is consistent in every order of its steps**, none of which is undefined, and a
thread goes back to the core exactly when its last handle is released. -/
theorem dispatch_runs (used client : Thread → Bool) (is : List Op) :
    ∃ es s, Sys.run step (init used client) is = some (es, s) ∧ Consistent s ∧
      ∀ i, ∃ back s', step s i = some (back, s') ∧ ∀ t, back = some t ↔ GivesBack s i t := by
  obtain ⟨es, s, hrun, hi⟩ := Sys.run_hist (I := fun _ s => Inv s)
    (fun _ s i hi => by
      obtain ⟨back, s', h1, h2, -⟩ := step_spec hi i
      exact ⟨back, s', h1, h2⟩) is [] (init used client) (inv_init used client)
  refine ⟨es, s, hrun, hi.consistent, fun i => ?_⟩
  obtain ⟨back, s', h1, -, h3⟩ := step_spec hi i
  exact ⟨back, s', h1, h3⟩

end Mdp.Dispatch
