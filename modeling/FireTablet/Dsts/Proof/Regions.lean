import FireTablet.Dsts.Blt
import FireTablet.Lib.Run

/-!
# Regions from set-up to exit

There is room for one region, so its id is 0, which is also its minor and its place in the loops.
A region is set up completely or not at all. From the set-up to the exit the file operations leave
alone what is registered, and a locked region stays locked and zero (`blt_regions`).
-/

namespace Dsts

/-! ## The device tree -/

/-- After some nodes: at most the region 0 is used, and it is counted. -/
structure Scanned (s : State) : Prop where
  unused : ∀ r, r ≠ 0 → (s.regions r).used = false
  id : (s.regions 0).used = true → (s.regions 0).id = 0
  count : s.numRegions = if (s.regions 0).used then 1 else 0
  fresh : ∀ r, (s.regions r).valid = false ∧ (s.regions r).locked = false
  kernel : s.kernel = ⟨none, false, [], [], [], []⟩

theorem scanned_init (mem : Nat → UInt8) : Scanned (State.init mem) :=
  ⟨fun _ _ => rfl, nofun, rfl, fun _ => ⟨rfl, rfl⟩, rfl⟩

theorem Scanned.scanNode {s : State} (h : Scanned s) (n : Node) : Scanned (scanNode s n) := by
  unfold Dsts.scanNode
  split
  · exact h
  split
  · exact h
  split
  next reg ident _ _ =>
    dsimp only
    split
    · exact h
    next hid =>
      obtain ⟨hlt, hused⟩ := not_or.1 hid
      have h0 : fdtToCpu ident = 0 := Nat.lt_one_iff.1 (Nat.lt_of_not_le hlt)
      rw [h0] at hused ⊢
      refine ⟨fun r hr => ?_, fun _ => rfl, ?_, fun r => ?_, h.kernel⟩
      · simp only [State.setRegion, if_neg hr]
        exact h.unused r hr
      · simp only [State.setRegion, if_pos, h.count, hused]
        rfl
      · by_cases hr : r = 0
        · simp only [State.setRegion, hr, if_pos]
          exact h.fresh 0
        · simp only [State.setRegion, if_neg hr]
          exact h.fresh r
  · exact h

theorem Scanned.foldl {s : State} (h : Scanned s) (nodes : List Node) :
    Scanned (nodes.foldl Dsts.scanNode s) := by
  induction nodes generalizing s with
  | nil => exact h
  | cons n nodes ih => exact ih (h.scanNode n)

/-! ## Setting up -/

/-- A number was added while the registered range held it. -/
def InRange : Dev × Option Range → Prop
  | (d, some r) => d.major = r.first.major ∧ r.first.minor ≤ d.minor ∧
    d.minor < r.first.minor + r.count
  | (_, none) => False

/-- A region is set up, with all that belongs to it registered and nothing else. -/
structure Live (s : State) : Prop where
  num : s.numRegions = 1
  used : (s.regions 0).used = true
  unused : ∀ r, r ≠ 0 → (s.regions r).used = false
  valid : (s.regions 0).valid = true
  cl : s.cl = .ok
  chrdev : s.kernel.chrdev = some s.range
  cls : s.kernel.cls = true
  maps : s.kernel.maps = [(s.regions 0).mappedVa]
  cdevs : s.kernel.cdevs = [(s.regions 0).dev]
  devices : s.kernel.devices = [(s.regions 0).dev]

/-- Before the region is registered: the range and the class are there. -/
structure Prepared (s : State) : Prop where
  scanned : ∀ r, r ≠ 0 → (s.regions r).used = false
  used : (s.regions 0).used = true
  id : (s.regions 0).id = 0
  num : s.numRegions = 1
  cl : s.cl ≠ .null
  major : s.major = s.chrdev.major
  minor : s.chrdev.minor = 0
  kernel : s.kernel = ⟨some s.range, s.cl = .ok, [], [], [], []⟩

/-- A failed registration: of what was registered only the range and the class are left. -/
structure Undone (s : State) : Prop where
  num : s.numRegions = 1
  cl : s.cl ≠ .null
  chrdev : s.kernel.chrdev = some s.range
  cls : s.kernel.cls = decide (s.cl = .ok)
  maps : s.kernel.maps = []
  cdevs : s.kernel.cdevs = []
  devices : s.kernel.devices = []

/-- A region that could not be mapped or set up leaves nothing behind. -/
theorem Prepared.undone {s s' : State} (h : Prepared s) (hn : s'.numRegions = s.numRegions)
    (hc : s'.cl = s.cl) (hr : s'.range = s.range) (added : List (Dev × Option Range))
    (hk : s'.kernel = { s.kernel with added := added }) : Undone s' := by
  rw [h.kernel] at hk
  exact ⟨hn.trans h.num, hc ▸ h.cl, by rw [hk, hr], by rw [hk, hc], by rw [hk], by rw [hk],
    by rw [hk]⟩

theorem Prepared.inRange {s : State} (h : Prepared s) :
    InRange (⟨s.major, 0⟩, some s.range) :=
  ⟨h.major, Nat.le_of_eq h.minor, by simp [State.range, h.num, h.minor]⟩

/-- The device of a mapped region: it is registered, or nothing new is. -/
theorem setupDevice_spec (o : Outcomes) {s s1 : State} (h : Prepared s) {va : Nat}
    (h1 : s1 = s.mapRegion 0 va) :
    ∃ err s2, setupDevice o s1 0 (s.regions 0).id = some (err, s2) ∧
      (∀ a ∈ s2.kernel.added, InRange a) ∧
      s2.numRegions = s.numRegions ∧ s2.cl = s.cl ∧ s2.range = s.range ∧
      (∀ r, r ≠ 0 → s2.regions r = s.regions r) ∧
      s2.regions 0 = { s.regions 0 with mappedVa := va, dev := ⟨s.major, 0⟩ } ∧
      (err = 0 → s.cl = .ok ∧ s2.kernel = { s.kernel with
        maps := [va], cdevs := [⟨s.major, 0⟩], devices := [⟨s.major, 0⟩],
        added := s2.kernel.added }) ∧
      (err ≠ 0 → s2.kernel = { s.kernel with maps := [va], added := s2.kernel.added }) := by
  have hin := h.inRange
  have hregion : ∀ r, r ≠ 0 → (s1.setRegion 0 { s1.regions 0 with dev := ⟨s1.major, 0⟩ }).regions r =
      s.regions r := fun r hr => by
    rw [h1]
    simp only [State.mapRegion, State.setRegion, if_neg hr]
  have hregion0 : (s1.setRegion 0 { s1.regions 0 with dev := ⟨s1.major, 0⟩ }).regions 0 =
      { s.regions 0 with mappedVa := va, dev := ⟨s.major, 0⟩ } := by
    rw [h1]
    simp only [State.mapRegion, State.setRegion, if_pos]
  have hk : s1.kernel = ⟨some s.range, s.cl = .ok, [va], [], [], []⟩ := by
    rw [h1]
    simp only [State.mapRegion, Kernel.ioremap, h.kernel]
  have hmajor : s1.major = s.major := by rw [h1]; rfl
  have hcl : s1.cl = s.cl := by rw [h1]; rfl
  have hrange : s1.range = s.range := by rw [h1]; rfl
  have hnum : s1.numRegions = s.numRegions := by rw [h1]; rfl
  rw [h.id]
  unfold setupDevice
  dsimp only
  split
  next herr =>
    refine ⟨_, _, rfl, ?_, hnum, hcl, hrange, hregion, hregion0, fun h0 => absurd h0 herr,
      fun _ => ?_⟩
    · simp [State.setRegion, hk]
    · simp [State.setRegion, hk, h.kernel]
  · split
    next hok =>
      refine ⟨_, _, rfl, ?_, hnum, hcl, hrange, hregion, hregion0, fun _ => ⟨hcl ▸ hok.1, ?_⟩,
        fun h0 => absurd rfl h0⟩
      · simp [State.setRegion, Kernel.cdevAdd, Kernel.deviceCreate, hk, hmajor, hin]
      · simp [State.setRegion, Kernel.cdevAdd, Kernel.deviceCreate, hk, hmajor, h.kernel]
    next hno =>
      have hdel : ∀ k : Kernel, (k.cdevAdd ⟨s1.major, 0⟩).cdevDel ⟨s1.major, 0⟩ =
          some { k with added := (⟨s1.major, 0⟩, k.chrdev) :: k.added } := fun k => by
        simp [Kernel.cdevAdd, Kernel.cdevDel]
      rw [hdel]
      refine ⟨_, _, rfl, ?_, hnum, hcl, hrange, hregion, hregion0, fun h0 => absurd h0 (by decide),
        fun _ => ?_⟩
      · simp [State.setRegion, hk, hmajor, hin]
      · simp [State.setRegion, hk, h.kernel]

theorem registerRegion_spec (o : Outcomes) {s : State} (h : Prepared s) :
    ∃ err s', registerRegion o s 0 = some (err, s') ∧ (∀ a ∈ s'.kernel.added, InRange a) ∧
      (err = 0 → Live s') ∧ (err ≠ 0 → Undone s') := by
  have hfail : ∃ err s', some ((-1 : Int), s) = some (err, s') ∧
      (∀ a ∈ s'.kernel.added, InRange a) ∧ (err = 0 → Live s') ∧ (err ≠ 0 → Undone s') :=
    ⟨-1, s, rfl, by rw [h.kernel]; nofun, fun h0 => absurd h0 (by decide), fun _ =>
      h.undone rfl rfl rfl s.kernel.added rfl⟩
  unfold registerRegion
  rw [if_neg (by decide)]
  split
  · exact hfail
  split
  · exact hfail
  split
  · exact hfail
  next va _ =>
    obtain ⟨err, s2, he, hadd, hnum, hcl, hrange, hreg, hreg0, hgood, hbad⟩ :=
      setupDevice_spec o h rfl
    rw [he]
    dsimp only
    by_cases herr : err = 0
    · rw [if_neg (not_not.2 herr)]
      obtain ⟨hok, hk⟩ := hgood herr
      refine ⟨0, _, rfl, hadd, fun _ => ?_, fun h0 => absurd rfl h0⟩
      rw [h.kernel] at hk
      refine ⟨hnum.trans h.num, ?_, fun r hr => ?_, ?_, hcl.trans hok, ?_, ?_, ?_, ?_, ?_⟩
      · simp [State.setRegion, hreg0, h.used]
      · simp [State.setRegion, hr, hreg r hr, h.scanned r hr]
      · simp [State.setRegion]
      · rw [State.setRegion, hk]; exact congrArg some hrange.symm
      · rw [State.setRegion, hk]; simp [hok]
      · rw [State.setRegion, hk]; simp [hreg0]
      · rw [State.setRegion, hk]; simp [hreg0]
      · rw [State.setRegion, hk]; simp [hreg0]
    · rw [if_pos herr]
      have hk := hbad herr
      have hun : s2.kernel.iounmap va = some { s2.kernel with maps := [] } := by
        rw [Kernel.iounmap, if_pos (by rw [hk]; simp), hk]
        simp
      rw [hun]
      refine ⟨-1, _, rfl, hadd, fun h0 => absurd h0 (by decide), fun _ => ?_⟩
      refine h.undone hnum hcl hrange s2.kernel.added ?_
      rw [hk, h.kernel]

/-- The end of a failed initialisation. -/
theorem Undone.clean {s : State} (h : Undone s) : ∃ k1 k2, s.kernel.classDestroy s.cl = some k1 ∧
    k1.unregisterChrdevRegion s.range = some k2 ∧ k2.Clean ∧ k2.added = s.kernel.added := by
  have hcls : ∃ k1, s.kernel.classDestroy s.cl = some k1 ∧ k1 = { s.kernel with cls := false } := by
    have hc := h.cls
    cases hcl : s.cl with
    | null => exact absurd hcl h.cl
    | err =>
      rw [hcl] at hc
      exact ⟨_, rfl, by rw [← show s.kernel.cls = false from hc]⟩
    | ok =>
      rw [hcl] at hc
      exact ⟨_, if_pos hc, rfl⟩
  obtain ⟨k1, hk1, rfl⟩ := hcls
  exact ⟨_, _, hk1, if_pos h.chrdev, ⟨rfl, rfl, h.maps, h.cdevs, h.devices⟩, rfl⟩

/-- **The initialisation** fails with nothing registered or leaves the region live. -/
theorem init_spec (o : Outcomes) (nodes : List Node) (mem : Nat → UInt8) :
    ∃ ret s, dstsbltInit o nodes mem = some (ret, s) ∧ (∀ a ∈ s.kernel.added, InRange a) ∧
      (ret ≠ 0 → s.kernel.Clean) ∧ (ret = 0 → Live s) := by
  have hs := (scanned_init mem).foldl nodes
  unfold dstsbltInit
  generalize nodes.foldl scanNode (State.init mem) = s at hs
  dsimp only
  have hclean : s.kernel.Clean ∧ ∀ a ∈ s.kernel.added, InRange a := by
    rw [hs.kernel]
    exact ⟨by decide, nofun⟩
  split
  · exact ⟨_, _, rfl, hclean.2, fun _ => hclean.1, fun h0 => absurd h0 (by decide)⟩
  next hnum =>
    have hused : (s.regions 0).used = true := by
      cases hu : (s.regions 0).used with
      | true => rfl
      | false => exact absurd (by rw [hs.count, hu]; rfl) hnum
    have hone : s.numRegions = 1 := by rw [hs.count, if_pos hused]
    split
    next herr =>
      refine ⟨_, _, rfl, hclean.2, fun _ => hclean.1, fun h0 => ?_⟩
      omega
    · split
      next hnull =>
        refine ⟨-eio, _, congrArg _ (if_pos rfl), ?_, fun _ => ?_, fun h0 => absurd h0 (by decide)⟩
        · exact hclean.2
        · have hc : o.cls = .null := hnull
          simp [Kernel.Clean, State.prepare, hs.kernel, hc]
      next hnull =>
        obtain ⟨err, s', he, hadd, hgood, hbad⟩ := registerRegion_spec o (s := s.prepare o)
          ⟨hs.unused, hused, hs.id hused, hone, hnull, rfl, rfl, by
            rw [State.prepare, hs.kernel]; rfl⟩
        have hall : ∀ s1 : State, (s1.regions 0).used = true →
            registerRegion o s1 0 = some (err, s') →
              registerRegions o s1 (List.range numBltRegions) =
                some (if err ≠ 0 then 1 else 0, s') := fun s1 hu h1 => by
          simp only [numBltRegions, List.range_one, registerRegions, hu, if_true, h1,
            Option.map_some]
        rw [hall (s.prepare o) hused he]
        by_cases herr : err = 0
        · have hlive := hgood herr
          rw [if_neg (not_not.2 herr)]
          dsimp only
          rw [if_neg (by rw [hlive.num]; decide)]
          exact ⟨0, _, rfl, hadd, fun h0 => absurd rfl h0, fun _ => hlive⟩
        · have hundone := hbad herr
          rw [if_pos herr]
          dsimp only
          rw [if_pos hundone.num.symm]
          obtain ⟨k1, k2, hk1, hk2, hk, hadd'⟩ := hundone.clean
          rw [hk1]
          simp only [Option.bind_eq_bind, Option.bind_some, hk2]
          exact ⟨-eio, _, rfl, hadd' ▸ hadd, fun _ => hk, fun h0 => absurd h0 (by decide)⟩

/-! ## The exit -/

section
variable (s : State) (r : Nat)

/-- Clearing a region changes the memory. -/
theorem clearRegion_eq : ∃ mem, clearRegion s r = { s with mem := mem } ∧ ((s.regions r).valid = true →
    ∀ a, (s.regions r).base ≤ a → a < (s.regions r).base + (s.regions r).size → mem a = 0) ∧
      ∀ a, mem a = 0 ∨ mem a = s.mem a := by
  unfold clearRegion
  dsimp only
  split
  · refine ⟨_, rfl, fun _ a h1 h2 => if_pos ⟨h1, h2⟩, fun a => ?_⟩
    split
    · exact .inl rfl
    · exact .inr rfl
  next hv => exact ⟨s.mem, rfl, fun h => absurd h hv, fun a => .inr rfl⟩

end

/-- **The exit** takes down what is live. -/
theorem Live.exit {s : State} (h : Live s) : ∃ s', dstsbltExit s = some s' ∧ s'.kernel.Clean := by
  have hregion : ∃ s1, exitRegion s 0 = some s1 ∧ s1.cl = .ok ∧ s1.range = s.range ∧
      s1.kernel = ⟨some s.range, true, [], [], [], s.kernel.added⟩ := by
    obtain ⟨mem, hclear, -⟩ := clearRegion_eq s 0
    have hdev : s.kernel.deviceDestroy (s.regions 0).dev = some { s.kernel with devices := [] } := by
      rw [Kernel.deviceDestroy, h.devices, if_pos (List.mem_singleton_self _)]
      simp
    have hcdev : ∀ k : Kernel, k.cdevs = s.kernel.cdevs →
        k.cdevDel (s.regions 0).dev = some { k with cdevs := [] } := fun k hk => by
      rw [Kernel.cdevDel, hk, h.cdevs, if_pos (List.mem_singleton_self _)]
      simp
    have hmap : ∀ k : Kernel, k.maps = s.kernel.maps →
        k.iounmap (s.regions 0).mappedVa = some { k with maps := [] } := fun k hk => by
      rw [Kernel.iounmap, hk, h.maps, if_pos (List.mem_singleton_self _)]
      simp
    refine ⟨{ { s with mem := mem }.setRegion 0 { s.regions 0 with valid := false } with
      kernel := ⟨some s.range, true, [], [], [], s.kernel.added⟩ }, ?_, h.cl, rfl, rfl⟩
    simp only [exitRegion, h.valid, if_true, hclear, State.setRegion, Option.bind_eq_bind, hdev,
      Option.bind_some, hcdev, hmap, h.chrdev, h.cls]
    rfl
  obtain ⟨s1, h1, hcl, hrange, hk⟩ := hregion
  refine ⟨{ s1 with kernel := ⟨none, false, [], [], [], s.kernel.added⟩ }, ?_, by simp [Kernel.Clean]⟩
  unfold dstsbltExit
  rw [h.num]
  simp only [List.range_one, List.foldlM_cons, List.foldlM_nil, h1, Option.bind_eq_bind,
    Option.bind_some, Option.pure_def, hcl, hk, Kernel.classDestroy, if_true,
    Kernel.unregisterChrdevRegion, hrange]

/-! ## File operations -/

/-- Statistics, locks and memory aside, a state is another one. -/
structure SameSetup (s s' : State) : Prop where
  regions : ∀ r, ∃ l n, s'.regions r = { s.regions r with locked := l, statistics := n }
  num : s'.numRegions = s.numRegions
  chrdev : s'.chrdev = s.chrdev
  cl : s'.cl = s.cl
  kernel : s'.kernel = s.kernel

theorem SameSetup.live {s s' : State} (hs : SameSetup s s') (h : Live s) : Live s' := by
  obtain ⟨l, n, h0⟩ := hs.regions 0
  refine ⟨hs.num.trans h.num, by rw [h0]; exact h.used, fun r hr => ?_, by rw [h0]; exact h.valid,
    hs.cl.trans h.cl, ?_, by rw [hs.kernel]; exact h.cls, ?_, ?_, ?_⟩
  · obtain ⟨l, n, hr'⟩ := hs.regions r
    rw [hr']
    exact h.unused r hr
  · rw [hs.kernel, h.chrdev, State.range, State.range, hs.chrdev, hs.num]
  all_goals rw [hs.kernel, h0]
  · exact h.maps
  · exact h.cdevs
  · exact h.devices

/-- The region is locked, and it has been cleared. -/
structure Locked (s : State) : Prop where
  locked : (s.regions 0).locked = true
  cleared : ∀ a, (s.regions 0).base ≤ a → a < (s.regions 0).base + (s.regions 0).size →
    s.mem a = 0

theorem sameSetup_counted (s : State) (r : Nat) (count : Statistics → Statistics) :
    SameSetup s (s.counted r count) := by
  refine ⟨fun i => ?_, rfl, rfl, rfl, rfl⟩
  by_cases hi : i = r
  · rw [hi]
    exact ⟨_, _, if_pos rfl⟩
  · exact ⟨_, _, if_neg hi⟩

theorem Locked.counted {s : State} (h : Locked s) (r : Nat) (count : Statistics → Statistics) :
    Locked (s.counted r count) := by
  by_cases hr : r = 0
  · subst hr
    exact ⟨h.locked, h.cleared⟩
  · have h0 : (s.counted r count).regions 0 = s.regions 0 := if_neg (Ne.symm hr)
    exact ⟨by rw [h0]; exact h.locked, by rw [h0]; exact h.cleared⟩

/-- What an operation does in a live state. -/
structure Kept (s : State) (i : Nat × Op) (res : Result) (s' : State) : Prop where
  same : SameSetup s s'
  locked : Locked s → Locked s' ∧ res.content = []
  other : i.1 ≠ 0 → res.content = []
  lock : i = (0, .ioctl ioctlLock) → Locked s'

theorem devIoctl_kept {s : State} (h : Live s) (cmd : Nat) :
    Kept s (0, .ioctl cmd) (devIoctl s 0 cmd).1 (devIoctl s 0 cmd).2 := by
  have hsame : SameSetup s s := ⟨fun r => ⟨_, _, rfl⟩, rfl, rfl, rfl, rfl⟩
  unfold devIoctl
  dsimp only
  split
  next hcmd =>
    obtain ⟨mem, he, hclear, -⟩ := clearRegion_eq
      (s.setRegion 0 { s.regions 0 with locked := true }) 0
    have hlocked : Locked (clearRegion (s.setRegion 0 { s.regions 0 with locked := true }) 0) := by
      rw [he]
      exact ⟨rfl, hclear h.valid⟩
    have hset : SameSetup s (s.setRegion 0 { s.regions 0 with locked := true }) := by
      refine ⟨fun r => ?_, rfl, rfl, rfl, rfl⟩
      by_cases hr : r = 0
      · rw [hr]
        exact ⟨true, (s.regions 0).statistics, by simp [State.setRegion]⟩
      · exact ⟨_, _, if_neg hr⟩
    refine ⟨?_, fun _ => ⟨hlocked, rfl⟩, fun _ => rfl, fun _ => hlocked⟩
    rw [he]
    exact ⟨hset.regions, hset.num, hset.chrdev, hset.cl, hset.kernel⟩
  next hcmd =>
    have hno : ((0, Op.ioctl cmd) : Nat × Op) ≠ (0, .ioctl ioctlLock) := fun he =>
      hcmd (Op.ioctl.inj (Prod.mk.inj he).2)
    split
    · exact ⟨hsame, fun hl => ⟨hl, rfl⟩, fun _ => rfl, fun he => absurd he hno⟩
    split
    · exact ⟨hsame, fun hl => ⟨hl, rfl⟩, fun _ => rfl, fun he => absurd he hno⟩
    · exact ⟨hsame, fun hl => ⟨hl, rfl⟩, fun _ => rfl, fun he => absurd he hno⟩

theorem SameSetup.trans {s s' s'' : State} (h : SameSetup s s') (h' : SameSetup s' s'') :
    SameSetup s s'' := by
  refine ⟨fun r => ?_, h'.num.trans h.num, h'.chrdev.trans h.chrdev, h'.cl.trans h.cl,
    h'.kernel.trans h.kernel⟩
  obtain ⟨l, n, h1⟩ := h.regions r
  obtain ⟨l', n', h2⟩ := h'.regions r
  exact ⟨l', n', by rw [h2, h1]⟩

theorem Live.kept {s : State} (h : Live s) (i : Nat × Op) :
    ∃ res s', step s i = some (res, s') ∧ Kept s i res s' := by
  have hsame : SameSetup s s := ⟨fun r => ⟨_, _, rfl⟩, rfl, rfl, rfl, rfl⟩
  obtain ⟨r, op⟩ := i
  unfold step
  dsimp only
  by_cases hr : r = 0
  · subst hr
    rw [if_neg (by simp [h.used, h.cdevs])]
    have hno : ∀ op, (∀ cmd, op ≠ Op.ioctl cmd) → ((0, op) : Nat × Op) ≠ (0, .ioctl ioctlLock) :=
      fun op hop he => hop _ (Prod.mk.inj he).2
    cases op with
    | «open» =>
      exact ⟨_, _, rfl, sameSetup_counted .., fun hl => ⟨hl.counted .., rfl⟩, fun _ => rfl,
        fun he => absurd he (hno _ nofun)⟩
    | read len off =>
      refine ⟨_, _, rfl, sameSetup_counted .., fun hl => ⟨hl.counted .., ?_⟩,
        fun h0 => absurd rfl h0, fun he => absurd he (hno _ nofun)⟩
      unfold devRead
      rw [if_pos (hl.counted ..).locked]
      rfl
    | write =>
      exact ⟨_, _, rfl, sameSetup_counted .., fun hl => ⟨hl.counted .., rfl⟩, fun _ => rfl,
        fun he => absurd he (hno _ nofun)⟩
    | seek off =>
      exact ⟨_, _, rfl, hsame, fun hl => ⟨hl, rfl⟩, fun _ => rfl,
        fun he => absurd he (hno _ nofun)⟩
    | ioctl cmd =>
      have hcount := sameSetup_counted s 0 fun n => { n with numIoctl := bump n.numIoctl }
      have hk := devIoctl_kept (hcount.live h) cmd
      exact ⟨_, _, rfl, hcount.trans hk.same, fun hl => hk.locked (hl.counted ..), hk.other, hk.lock⟩
    | mmap =>
      exact ⟨_, _, rfl, hsame, fun hl => ⟨hl, rfl⟩, fun _ => rfl,
        fun he => absurd he (hno _ nofun)⟩
    | release =>
      exact ⟨_, _, rfl, hsame, fun hl => ⟨hl, rfl⟩, fun _ => rfl,
        fun he => absurd he (hno _ nofun)⟩
  · rw [if_pos (.inl (h.unused r hr))]
    exact ⟨_, _, rfl, hsame, fun hl => ⟨hl, rfl⟩, fun _ => rfl, fun he => absurd (Prod.mk.inj he).1 hr⟩

/-- Behind a lock of a region no operation on it gives its content to the user. -/
def StaysLocked (es : List ((Nat × Op) × Result)) : Prop :=
  es.Pairwise fun e e' => e.1.2 = .ioctl ioctlLock → e'.1.1 = e.1.1 → e'.2.content = []

/-- A live region stays as it is set up, and locked if it is. -/
theorem Live.run {s : State} (h : Live s) (is : List (Nat × Op)) :
    ∃ es s', Sys.run step s is = some (es, s') ∧ Live s' ∧ s'.kernel = s.kernel ∧ StaysLocked es ∧
      ((∃ e ∈ es, e.1 = (0, .ioctl ioctlLock)) → Locked s') := by
  obtain ⟨es, s', hrun, hi⟩ := Sys.run_hist
    (I := fun es s' => (Live s' ∧ s'.kernel = s.kernel) ∧ StaysLocked es ∧
      ((∃ e ∈ es, e.1 = (0, Op.ioctl ioctlLock)) → Locked s'))
    (fun es s1 i hi => by
      obtain ⟨⟨hlive, hker⟩, hstay, hlock⟩ := hi
      obtain ⟨res, s2, hs, hk⟩ := hlive.kept i
      refine ⟨res, s2, hs, ⟨hk.same.live hlive, hk.same.kernel.trans hker⟩, ?_, ?_⟩
      · refine List.pairwise_append.2 ⟨hstay, List.pairwise_singleton _ _, fun e he e' he' => ?_⟩
        rw [List.mem_singleton.1 he']
        intro hcmd hreg
        by_cases h0 : e.1.1 = 0
        · exact (hk.locked (hlock ⟨e, he, Prod.ext h0 hcmd⟩)).2
        · exact hk.other (fun hi0 => h0 (hreg ▸ hi0))
      · rintro ⟨e, he, heq⟩
        rcases List.mem_append.1 he with he | he
        · exact (hk.locked (hlock ⟨e, he, heq⟩)).1
        · rw [List.mem_singleton.1 he] at heq
          exact hk.lock heq)
    is [] s ⟨⟨h, rfl⟩, List.Pairwise.nil, fun ⟨e, he, _⟩ => absurd he List.not_mem_nil⟩
  exact ⟨es, s', hrun, hi.1.1, hi.1.2, hi.2⟩

/-- **The driver's life.** Every number added is in the range registered. A failed initialisation
leaves nothing registered; after a good one no file operation gets at the content of a region that
has been locked, which is zero then, and the exit takes down what was set up, which leaves nothing
registered. -/
theorem blt_regions (o : Outcomes) (nodes : List Node) (mem : Nat → UInt8) :
    ∃ ret s, dstsbltInit o nodes mem = some (ret, s) ∧ (∀ a ∈ s.kernel.added, InRange a) ∧
      (ret ≠ 0 → s.kernel.Clean) ∧
      (ret = 0 → ∀ is, ∃ es s', Sys.run step s is = some (es, s') ∧ StaysLocked es ∧
        ((∃ e ∈ es, e.1 = (0, .ioctl ioctlLock)) → Locked s') ∧ s'.kernel = s.kernel ∧
        ∃ s'', dstsbltExit s' = some s'' ∧ s''.kernel.Clean) := by
  obtain ⟨ret, s, hinit, hadd, hfail, hgood⟩ := init_spec o nodes mem
  refine ⟨ret, s, hinit, hadd, hfail, fun h0 is => ?_⟩
  obtain ⟨es, s', hrun, hlive, hker, hstay, hlock⟩ := (hgood h0).run is
  exact ⟨es, s', hrun, hstay, hlock, hker, hlive.exit⟩

/-- Of two nodes, the one with the id 0 becomes a device. -/
example : (dstsbltInit ⟨0, 240, .ok, fun _ => some 1, fun _ => 0, fun _ => true⟩
    [⟨true, some "reserved-memory", some [0, 0, 0, 0, 0, 0, 32, 0, 0, 0, 0, 0, 0, 0, 16, 0],
      some [0, 0, 0, 1], none, none, none⟩,
    ⟨true, some "reserved-memory", some [0, 0, 0, 0, 0, 0, 16, 0, 0, 0, 0, 0, 0, 0, 16, 0],
      some [0, 0, 0, 0], none, none, none⟩] fun _ => 7).map
      (fun q => (q.1, q.2.kernel.devices, (q.2.regions 0).base)) =
    some (0, [⟨240, 0⟩], 4096) := by
  decide +kernel

end Dsts
