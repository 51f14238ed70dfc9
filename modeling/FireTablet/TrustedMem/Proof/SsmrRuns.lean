import FireTablet.Lib.Run
import FireTablet.TrustedMem.Ssmr

/-!
# The features over runs

A word is cut by the length of the whole text and compared over its own length, so that only the
whole commands with something behind them, and words that no command starts with, are understood as
they are meant (`store_right_iff`). The memory is right in every state, as long as no allocation has
the address zero, which the driver takes for a failure (`ssmr_iff`).
-/

namespace TrustedMem.Ssmr

open LocalText

/-! ## The word -/

/-- The first word of a text. -/
def firstWord (cmd : List UInt8) : List UInt8 :=
  ((chars cmd).dropWhile isSpace).takeWhile fun c => !isSpace c

/-- The word that is compared: the last character of the text is cut off. -/
def cutWord (cmd : List UInt8) : List UInt8 := (firstWord cmd).take (cmd.length - 1)

theorem firstWord_sublist (cmd : List UInt8) : (firstWord cmd).Sublist (chars cmd) :=
  (List.takeWhile_sublist _).trans (List.dropWhile_sublist _)

theorem firstWord_length_le (cmd : List UInt8) : (firstWord cmd).length ≤ cmd.length :=
  ((firstWord_sublist cmd).trans (List.takeWhile_sublist _)).length_le

theorem firstWord_ne_zero {cmd : List UInt8} {c : UInt8} (h : c ∈ firstWord cmd) : c ≠ 0 := by
  have hc : c ∈ cmd.takeWhile (· ≠ 0) := (firstWord_sublist cmd).subset h
  simpa using List.mem_takeWhile_imp hc

/-- The buffer holds a word of up to 63 characters. -/
theorem ssmrStore_eq {cmd : List UInt8} (h : chars cmd ≠ []) :
    ssmrStore cmd =
      if (firstWord cmd).length ≤ 63 then some (findCall (cutWord cmd)) else none := by
  have hword : sscanfWord (chars cmd) = (firstWord cmd).take 32767 := rfl
  have hlen := firstWord_length_le cmd
  simp only [ssmrStore, if_neg h, hword, Option.bind_eq_bind]
  generalize hw : firstWord cmd = w at *
  by_cases hfit : w.length ≤ 63
  · have hchars : ∀ k, chars (w.take k) = w.take k := fun k =>
      chars_eq_self fun c hc => firstWord_ne_zero (hw ▸ List.mem_of_mem_take hc)
    have hsize : (w ++ [0]).length ≤ (blank 64).length := by
      rw [List.length_append, List.length_singleton]
      exact Nat.succ_le_succ hfit
    rw [List.take_of_length_le (by omega), if_pos hfit]
    -- the cut is inside of the word or behind it
    by_cases hcut : min (cmd.length - 1) 63 ≤ w.length
    · have htext := text_cut (b := blank 64) (w := w ++ [0]) hsize
        (by rw [List.length_append]; exact Nat.le_succ_of_le hcut)
        (Nat.lt_of_le_of_lt (Nat.min_le_right (cmd.length - 1) 63) (by decide))
      have htake : w.take (min (cmd.length - 1) 63) = cutWord cmd := by
        rw [cutWord, hw, ← List.take_take, List.take_of_length_le hfit]
      rw [List.take_append_of_le_length hcut, hchars, htake] at htext
      simp only [Option.bind_eq_bind, ← Option.bind_assoc] at htext ⊢
      rw [htext]
      rfl
    · have hb : puts (blank 64) 0 (w ++ [0]) = some (w.map some ++ some 0 ::
          (blank 64).drop (w ++ [0]).length) := by
        rw [puts_eq (by simpa using hsize)]
        simp
      have htext : text (w.map some ++ some 0 :: (blank 64).drop (w ++ [0]).length) = some w := by
        rw [text_map_some, ← List.take_length (l := w), hchars]
      have htake : cutWord cmd = w := by
        rw [cutWord, hw, List.take_of_length_le (by omega)]
      rw [hb, Option.bind_some, put_eq]
      · rw [Option.bind_some, text_set htext (by omega), htake]
        rfl
      · simp only [List.length_append, List.length_map, List.length_cons, List.length_drop,
          List.length_nil, blank, List.length_replicate]
        omega
  · rw [if_neg hfit, puts_none (Nat.zero_le _)]
    · rfl
    · simp only [blank, List.length_replicate, List.length_append, List.length_take,
        List.length_singleton]
      omega

/-! ## The commands -/

/-- What is found for each command and for each cut command: the cut of an offline command has the
same meaning, the cut of an online command starts the offline command. -/
theorem findCall_commands : ∀ i,
    (findCall (ssmrFeats i).offline = some (.offline i) ∧
      findCall (ssmrFeats i).offline.dropLast = some (.offline i)) ∧
    (findCall (ssmrFeats i).online = some (.online i) ∧
      findCall (ssmrFeats i).online.dropLast = some (.offline i)) := by
  decide +kernel

theorem findCall_offline (i) : findCall (ssmrFeats i).offline = some (.offline i) :=
  (findCall_commands i).1.1

theorem findCall_offline_cut (i) :
    findCall (ssmrFeats i).offline.dropLast = some (.offline i) :=
  (findCall_commands i).1.2

theorem findCall_online (i) : findCall (ssmrFeats i).online = some (.online i) :=
  (findCall_commands i).2.1

theorem findCall_online_cut (i) :
    findCall (ssmrFeats i).online.dropLast = some (.offline i) :=
  (findCall_commands i).2.2

theorem offline_injective (i j) (h : (ssmrFeats i).offline = (ssmrFeats j).offline) : i = j := by
  have hcall := findCall_offline i
  rw [h, findCall_offline] at hcall
  exact (Call.offline.inj (Option.some.inj hcall)).symm

theorem online_injective (i j) (h : (ssmrFeats i).online = (ssmrFeats j).online) : i = j := by
  have hcall := findCall_online i
  rw [h, findCall_online] at hcall
  exact (Call.online.inj (Option.some.inj hcall)).symm

theorem online_ne_offline (i j) : (ssmrFeats i).online ≠ (ssmrFeats j).offline := fun h => by
  have hcall := findCall_online i
  rw [h, findCall_offline] at hcall
  exact Call.noConfusion (Option.some.inj hcall)

/-- No command starts with the word. -/
def StartsNone (word : List UInt8) : Prop :=
  ∀ i, ¬ word <+: (ssmrFeats i).offline ∧ ¬ word <+: (ssmrFeats i).online

instance (word : List UInt8) : Decidable (StartsNone word) :=
  inferInstanceAs (Decidable (∀ _, _ ∧ _))

theorem findCall_eq_none_iff {word : List UInt8} : findCall word = none ↔ StartsNone word := by
  rw [findCall, List.findSome?_eq_none_iff]
  refine ⟨fun h i => ?_, fun h i _ => ?_⟩
  · have hi := h i (List.mem_finRange i)
    split_ifs at hi with h1 h2
    exact ⟨h1, h2⟩
  · rw [if_neg (h i).1, if_neg (h i).2]

/-- The call is the one that the first word asks for. -/
def CallRight (cmd : List UInt8) (call : Option Call) : Prop :=
  ∀ i, (call = some (.offline i) ↔ firstWord cmd = (ssmrFeats i).offline) ∧
    (call = some (.online i) ↔ firstWord cmd = (ssmrFeats i).online)

/-- The condition on the word of a text that is not empty. -/
structure WordFits (cmd : List UInt8) : Prop where
  length : (firstWord cmd).length ≤ 63
  meaning : (∃ i, firstWord cmd = (ssmrFeats i).offline) ∨
    (∃ i, firstWord cmd = (ssmrFeats i).online) ∧ (firstWord cmd).length < cmd.length ∨
    (∀ i, firstWord cmd ≠ (ssmrFeats i).offline ∧ firstWord cmd ≠ (ssmrFeats i).online) ∧
      StartsNone (cutWord cmd)

/-- The word is cut by one character, or not at all. -/
theorem cutWord_cases (cmd : List UInt8) :
    cutWord cmd = firstWord cmd ∧ (firstWord cmd).length < cmd.length ∨
      cutWord cmd = (firstWord cmd).dropLast ∧ ¬ (firstWord cmd).length < cmd.length := by
  have hlen := firstWord_length_le cmd
  by_cases h : (firstWord cmd).length < cmd.length
  · exact .inl ⟨List.take_of_length_le (by omega), h⟩
  · refine .inr ⟨?_, h⟩
    rw [cutWord, List.dropLast_eq_take, show cmd.length = (firstWord cmd).length by omega]

theorem findCall_right_iff (cmd : List UInt8) :
    CallRight cmd (findCall (cutWord cmd)) ↔
      (∃ i, firstWord cmd = (ssmrFeats i).offline) ∨
      (∃ i, firstWord cmd = (ssmrFeats i).online) ∧ (firstWord cmd).length < cmd.length ∨
      (∀ i, firstWord cmd ≠ (ssmrFeats i).offline ∧ firstWord cmd ≠ (ssmrFeats i).online) ∧
        StartsNone (cutWord cmd) := by
  have hcut := cutWord_cases cmd
  unfold CallRight
  by_cases hoff : ∃ i, firstWord cmd = (ssmrFeats i).offline
  · refine iff_of_true (fun j => ?_) (.inl hoff)
    obtain ⟨i, hi⟩ := hoff
    have hcall : findCall (cutWord cmd) = some (.offline i) := by
      rcases hcut with h | h
      · rw [h.1, hi, findCall_offline]
      · rw [h.1, hi, findCall_offline_cut]
    rw [hcall, hi]
    constructor
    · rw [Option.some.injEq, Call.offline.injEq]
      exact ⟨fun h => by rw [h], offline_injective i j⟩
    · exact iff_of_false nofun fun h => online_ne_offline j i h.symm
  · by_cases hon : ∃ i, firstWord cmd = (ssmrFeats i).online
    · obtain ⟨i, hi⟩ := hon
      rcases hcut with h | h
      · refine iff_of_true (fun j => ?_) (.inr (.inl ⟨⟨i, hi⟩, h.2⟩))
        rw [h.1, hi, findCall_online]
        constructor
        · exact iff_of_false nofun (online_ne_offline i j)
        · rw [Option.some.injEq, Call.online.injEq]
          exact ⟨fun h => by rw [h], online_injective i j⟩
      · refine iff_of_false (fun hr => ?_) ?_
        · rw [h.1, hi, findCall_online_cut] at hr
          exact online_ne_offline i i ((hr i).1.mp rfl)
        · rintro (h' | h' | h')
          · exact hoff h'
          · exact h.2 h'.2
          · exact (h'.1 i).2 hi
    · have hnone : ∀ i, firstWord cmd ≠ (ssmrFeats i).offline ∧
          firstWord cmd ≠ (ssmrFeats i).online :=
        fun i => ⟨fun h => hoff ⟨i, h⟩, fun h => hon ⟨i, h⟩⟩
      constructor
      · intro hr
        refine .inr (.inr ⟨hnone, findCall_eq_none_iff.mp ?_⟩)
        cases hc : findCall (cutWord cmd) with
        | none => rfl
        | some c =>
          rw [hc] at hr
          cases c with
          | offline i => exact absurd ((hr i).1.mp rfl) (hnone i).1
          | online i => exact absurd ((hr i).2.mp rfl) (hnone i).2
      · rintro (h | ⟨h, -⟩ | ⟨-, h⟩)
        · exact absurd h hoff
        · exact absurd h hon
        · rw [findCall_eq_none_iff.mpr h]
          exact fun i => ⟨iff_of_false nofun (hnone i).1, iff_of_false nofun (hnone i).2⟩

/-- **A write** keeps to its buffer and makes the call that the first word asks for if and only if
the word meets the condition. -/
theorem store_right_iff (cmd : List UInt8) :
    (∃ call, ssmrStore cmd = some call ∧ CallRight cmd call) ↔
      (chars cmd ≠ [] → WordFits cmd) := by
  by_cases h : chars cmd = []
  · refine iff_of_true ⟨none, by rw [ssmrStore]; exact if_pos h, fun i => ?_⟩
      fun hne => absurd h hne
    have hword : firstWord cmd = [] := by rw [firstWord, h]; rfl
    rw [hword]
    exact ⟨iff_of_false nofun (by revert i; decide), iff_of_false nofun (by revert i; decide)⟩
  · simp only [ssmrStore_eq h, h, ne_eq, not_false_eq_true, true_implies]
    by_cases hlen : (firstWord cmd).length ≤ 63
    · simp only [if_pos hlen, Option.some.injEq, exists_eq_left', findCall_right_iff]
      exact ⟨fun hm => ⟨hlen, hm⟩, WordFits.meaning⟩
    · simp only [if_neg hlen, reduceCtorEq, false_and, exists_false, false_iff]
      exact fun hf => hlen hf.length

/-! ## The memory -/

/-- A feature is off exactly when memory is handed out for it, once, and it records what is. -/
structure MemRight (s : State) : Prop where
  off : ∀ i, (s.feats i).state = .off ↔ ∃ b, (i, b) ∈ s.live
  recorded : ∀ i b, (i, b) ∈ s.live → b = (s.feats i).block
  once : (s.live.map Prod.fst).Nodup

/-- What holds of a feature between the calls. -/
structure FeatInv (s : State) (i : Fin 9) : Prop where
  cache : (s.feats i).useCacheMemory = (s.feats i).cachePage.isSome
  live : ∀ b, (i, b) ∈ s.live ↔ (s.feats i).state = .off ∧ b = (s.feats i).block
  phyAddr : (s.feats i).cachePage = none → ((s.feats i).phyAddr ≠ 0 ↔ (s.feats i).state = .off)

structure Inv (s : State) : Prop where
  feats : ∀ i, FeatInv s i
  nodup : s.live.Nodup

theorem Inv.memRight {s : State} (h : Inv s) : MemRight s where
  off i := by
    constructor
    · exact fun hoff => ⟨_, ((h.feats i).live _).mpr ⟨hoff, rfl⟩⟩
    · exact fun ⟨b, hb⟩ => (((h.feats i).live b).mp hb).1
  recorded i b hb := (((h.feats i).live b).mp hb).2
  once := h.nodup.map_on fun ⟨i, b⟩ hb ⟨j, c⟩ hc he => by
    obtain rfl : i = j := he
    rw [(((h.feats i).live b).mp hb).2, (((h.feats i).live c).mp hc).2]

theorem inv_ssmrProbe (reqSize : Fin 9 → Nat) (svpMemory : Option (Nat × Nat)) :
    Inv (ssmrProbe reqSize svpMemory) where
  feats i := by
    have hstate : ((ssmrProbe reqSize svpMemory).feats i).state ≠ .off := by
      dsimp only [ssmrProbe]
      split_ifs <;> simp
    constructor
    · by_cases hi : i = 0 <;> simp [ssmrProbe, hi]
    · exact fun b => iff_of_false List.not_mem_nil fun h => hstate h.1
    · exact fun _ => iff_of_false (fun h => h rfl) hstate
  nodup := List.nodup_nil

section
variable {s : State} {i : Fin 9} {f : Feature}

/-- The other features see nothing of a step. -/
theorem FeatInv.frame {s' : State} {j : Fin 9} (h : FeatInv s j) (hf : s'.feats j = s.feats j)
    (hl : ∀ b, (j, b) ∈ s'.live ↔ (j, b) ∈ s.live) : FeatInv s' j :=
  ⟨by rw [hf]; exact h.cache, fun b => by rw [hl, hf]; exact h.live b,
    fun hc => by rw [hf] at hc ⊢; exact h.phyAddr hc⟩

theorem setFeat_self : (s.setFeat i f).feats i = f := Function.update_self ..

theorem setFeat_other {j : Fin 9} (h : j ≠ i) : (s.setFeat i f).feats j = s.feats j :=
  Function.update_of_ne h ..

/-- A feature that stays on, or as it is, without memory. -/
theorem Inv.refused (h : Inv s) (hoff : (s.feats i).state ≠ .off) (hf : f.state ≠ .off)
    (hu : f.useCacheMemory = (s.feats i).useCacheMemory)
    (hc : f.cachePage = (s.feats i).cachePage) (hp : f.phyAddr = (s.feats i).phyAddr) :
    Inv (s.setFeat i f) where
  feats j := by
    by_cases hj : j = i
    · subst hj
      have hfeat := h.feats j
      refine ⟨by rw [setFeat_self, hu, hc]; exact hfeat.cache, fun b => ?_, fun hnone => ?_⟩
      · rw [setFeat_self]
        exact iff_of_false (fun hb => hoff ((hfeat.live b).mp hb).1) fun hb => hf hb.1
      · rw [setFeat_self] at hnone ⊢
        rw [hp]
        exact (hfeat.phyAddr (hc ▸ hnone)).trans (iff_of_false hoff hf)
    · exact (h.feats j).frame (setFeat_other hj) fun b => Iff.rfl
  nodup := h.nodup

/-- A feature that gets its memory. -/
theorem Inv.taken (h : Inv s) (hon : (s.feats i).state ≠ .off) (hf : f.state = .off)
    (hu : f.useCacheMemory = (s.feats i).useCacheMemory)
    (hc : f.cachePage = (s.feats i).cachePage) (hp : f.cachePage = none → f.phyAddr ≠ 0) :
    Inv { s.setFeat i f with live := (i, f.block) :: s.live } where
  feats j := by
    by_cases hj : j = i
    · subst hj
      have hfeat := h.feats j
      refine ⟨by rw [setFeat_self, hu, hc]; exact hfeat.cache, fun b => ?_, fun hnone => ?_⟩
      · rw [setFeat_self, List.mem_cons, Prod.mk.injEq]
        constructor
        · rintro (⟨-, hb⟩ | hb)
          · exact ⟨hf, hb⟩
          · exact absurd ((hfeat.live b).mp hb).1 hon
        · exact fun hb => .inl ⟨rfl, hb.2⟩
      · rw [setFeat_self] at hnone ⊢
        exact iff_of_true (hp hnone) hf
    · refine (h.feats j).frame (setFeat_other hj) fun b => ?_
      rw [List.mem_cons, Prod.mk.injEq]
      exact ⟨fun hb => hb.resolve_left fun he => hj he.1, .inr⟩
  nodup := List.nodup_cons.mpr ⟨fun hb => hon (((h.feats i).live _).mp hb).1, h.nodup⟩

/-- A feature that gives its memory back. -/
theorem Inv.returned (h : Inv s) (hf : f.state ≠ .off)
    (hu : f.useCacheMemory = (s.feats i).useCacheMemory)
    (hc : f.cachePage = (s.feats i).cachePage) (hp : f.cachePage = none → f.phyAddr = 0) :
    Inv { s.setFeat i f with live := s.live.erase (i, (s.feats i).block) } where
  feats j := by
    by_cases hj : j = i
    · subst hj
      have hfeat := h.feats j
      refine ⟨by rw [setFeat_self, hu, hc]; exact hfeat.cache, fun b => ?_, fun hnone => ?_⟩
      · rw [setFeat_self, h.nodup.mem_erase_iff]
        refine iff_of_false (fun hb => hb.1 ?_) fun hb => hf hb.1
        rw [((hfeat.live b).mp hb.2).2]
      · rw [setFeat_self] at hnone ⊢
        exact iff_of_false (fun hne => hne (hp hnone)) hf
    · refine (h.feats j).frame (setFeat_other hj) fun b => ?_
      rw [h.nodup.mem_erase_iff]
      exact ⟨And.right, fun hb => ⟨fun he => hj (congrArg Prod.fst he), hb⟩⟩
  nodup := h.nodup.erase _

theorem setFeat_setFeat {g : Feature} : (s.setFeat i f).setFeat i g = s.setFeat i g := by
  simp only [State.setFeat, Function.update_idem]

/-- The allocation of a feature that is taken offline has an address other than zero. -/
def AllocFits (env : Env) (i : Fin 9) (s : State) : Prop :=
  (s.feats i).state = .on → (s.feats i).cachePage = none → env.region = true →
    ∀ virtAddr, env.alloc ≠ some (0, virtAddr)

/-- A record of the memory of a feature, the rest of which is as it was. -/
structure SameFeat (f g : Feature) : Prop where
  state : g.state = f.state
  useCacheMemory : g.useCacheMemory = f.useCacheMemory
  cachePage : g.cachePage = f.cachePage

/-- The memory is taken and recorded, or none is, or an allocation at the address zero is taken for
a failure. -/
inductive RegionTaken (env : Env) (i : Fin 9) (s : State) : Int × State → Prop
  | taken (g : Feature) : SameFeat (s.feats i) g → (g.cachePage = none → g.phyAddr ≠ 0) →
      (∀ v, (s.feats i).cachePage = none → env.region = true → env.alloc ≠ some (0, v)) →
      RegionTaken env i s (0, { s.setFeat i g with live := (i, g.block) :: s.live })
  | refused (g : Feature) (r : Int) : SameFeat (s.feats i) g → r < 0 →
      g.phyAddr = (s.feats i).phyAddr →
      (∀ v, (s.feats i).cachePage = none → env.region = true → env.alloc ≠ some (0, v)) →
      RegionTaken env i s (r, s.setFeat i g)
  | leaked (g : Feature) (v : Nat) : SameFeat (s.feats i) g → (s.feats i).cachePage = none →
      env.region = true → env.alloc = some (0, v) →
      RegionTaken env i s (-1, { s.setFeat i g with live := (i, g.block) :: s.live })

theorem memoryRegionOffline_taken (env : Env) (hphy : (s.feats i).cachePage = none →
    (s.feats i).phyAddr = 0) : RegionTaken env i s (memoryRegionOffline env i s) := by
  have hself : s.setFeat i (s.feats i) = s := by
    rw [State.setFeat, Function.update_eq_self]
  unfold memoryRegionOffline
  dsimp only
  split
  next page hcache =>
    refine .taken _ ⟨rfl, rfl, rfl⟩ (fun h => ?_) (fun v h => ?_)
    · exact absurd (hcache.symm.trans h) nofun
    · exact absurd (hcache.symm.trans h) nofun
  next hcache =>
    split
    next hregion =>
      have h := RegionTaken.refused (i := i) (s.feats i) (-22) ⟨rfl, rfl, rfl⟩ (by decide) rfl
        (fun v _ (h : env.region = true) => absurd hregion (by rw [h]; decide))
      rwa [hself] at h
    next hregion =>
      split
      next halloc =>
        rw [hphy hcache, if_neg (by decide)]
        exact .refused _ (-1) ⟨rfl, rfl, rfl⟩ (by decide) (hphy hcache).symm
          (fun v _ _ => by rw [halloc]; nofun)
      next phyAddr virtAddr halloc =>
        by_cases hzero : phyAddr = 0
        · subst hzero
          exact .leaked _ virtAddr ⟨rfl, rfl, rfl⟩ hcache (by simpa using hregion) halloc
        · rw [if_pos hzero]
          refine .taken _ ⟨rfl, rfl, rfl⟩ (fun _ => hzero) (fun v _ _ => ?_)
          rw [halloc, ne_eq, Option.some.injEq, Prod.mk.injEq]
          exact fun he => hzero he.1

theorem setState_setFeat (state : FeatState) :
    (s.setFeat i f).setState i state = s.setFeat i { f with state := state } := by
  rw [State.setState, setFeat_self, setFeat_setFeat]

theorem setState_live (state : FeatState) (live : List (Fin 9 × Block)) :
    State.setState { s.setFeat i f with live := live } i state =
      { s.setFeat i { f with state := state } with live := live } := by
  have h := setState_setFeat (s := s) (i := i) (f := f) state
  exact congrArg (fun u : State => { u with live := live }) h

/-- What taking a feature offline leaves. -/
theorem offline_cases (env : Env) (i : Fin 9) (s : State) (h : Inv s) :
    (AllocFits env i s ∧ Inv (ssmrOfflineInternal env i s).2) ∨
      (¬ AllocFits env i s ∧ ¬ MemRight (ssmrOfflineInternal env i s).2) := by
  have hfeat := h.feats i
  unfold ssmrOfflineInternal
  by_cases hon : (s.feats i).state = .on
  · have hne : (s.feats i).state ≠ .off := by rw [hon]; decide
    have hphy : (s.feats i).cachePage = none → (s.feats i).phyAddr = 0 := fun hc =>
      not_not.mp fun hp => hne ((hfeat.phyAddr hc).mp hp)
    have hself : (s.setState i .offing).feats i = { s.feats i with state := .offing } :=
      setFeat_self
    have hset : ∀ g, (s.setState i .offing).setFeat i g = s.setFeat i g := fun g => setFeat_setFeat
    have htaken := memoryRegionOffline_taken (i := i) (s := s.setState i .offing) env
      (by rw [hself]; exact hphy)
    rw [if_neg (not_not.mpr hon)]
    generalize memoryRegionOffline env i (s.setState i .offing) = r at htaken
    cases htaken with
    | taken g hg hp hfit =>
      rw [hself] at hg hfit
      refine .inl ⟨fun _ => fun hc hr v => hfit v hc hr, ?_⟩
      simp only [hset, setState_live, Int.lt_irrefl, if_false]
      exact Inv.taken (f := { g with state := .off }) h hne rfl hg.useCacheMemory hg.cachePage hp
    | refused g r hg hr hp hfit =>
      rw [hself] at hg hp hfit
      refine .inl ⟨fun _ => fun hc hr v => hfit v hc hr, ?_⟩
      simp only [hset, setState_setFeat, if_pos hr]
      exact Inv.refused (f := { g with state := .on }) h hne nofun hg.useCacheMemory
        hg.cachePage hp
    | leaked g v hg hc hregion halloc =>
      rw [hself] at hc
      refine .inr ⟨fun hfit => hfit hon hc hregion v halloc, fun hr => ?_⟩
      dsimp only at hr
      rw [if_pos (show (-1 : Int) < 0 by decide), hset, setState_live] at hr
      have hoff := (hr.off i).mpr ⟨g.block, .head _⟩
      have hstate : (s.setFeat i { g with state := .on }).feats i = { g with state := .on } :=
        setFeat_self
      rw [show ({ s.setFeat i { g with state := .on } with
        live := (i, g.block) :: (s.setState i .offing).live } : State).feats i =
          { g with state := .on } from hstate] at hoff
      exact absurd hoff nofun
  · rw [if_pos hon]
    exact .inl ⟨fun h' => absurd h' hon, h⟩

/-- The memory that is recorded is given back. -/
theorem giveBack_setState (state : FeatState) (hlive : (i, (s.feats i).block) ∈ s.live) :
    (s.setState i state).giveBack i ((s.setState i state).feats i).block =
      some { s.setState i state with live := s.live.erase (i, (s.feats i).block) } := by
  have hblock : ((s.setState i state).feats i).block = (s.feats i).block := by
    rw [State.setState, setFeat_self]
    rfl
  rw [hblock, State.giveBack, if_pos (show (i, (s.feats i).block) ∈ (s.setState i state).live from
    hlive)]
  rfl

/-- A feature that is taken online gives back what it has. -/
theorem online_inv (h : Inv s) : ∃ r, ssmrOnlineInternal i s = some r ∧ Inv r.2 := by
  have hfeat := h.feats i
  unfold ssmrOnlineInternal
  by_cases hoff : (s.feats i).state = .off
  · have hlive : (i, (s.feats i).block) ∈ s.live := (hfeat.live _).mpr ⟨hoff, rfl⟩
    have hself : (s.setState i .oningWait).feats i = { s.feats i with state := .oningWait } :=
      setFeat_self
    -- the record is cleared, whichever kind of memory it is
    have hdone : ∀ g, g.useCacheMemory = (s.feats i).useCacheMemory →
        g.cachePage = (s.feats i).cachePage → g.phyAddr = 0 →
        Inv (State.setState (State.setFeat { s.setState i .oningWait with
          live := s.live.erase (i, (s.feats i).block) } i g) i .on) := fun g hu hc hp => by
      rw [setState_setFeat]
      have hinv := Inv.returned (f := { g with state := .on }) h nofun hu hc fun _ => hp
      have hsame : State.setFeat { s.setState i .oningWait with
          live := s.live.erase (i, (s.feats i).block) } i { g with state := .on } =
            { s.setFeat i { g with state := .on } with
              live := s.live.erase (i, (s.feats i).block) } :=
        congrArg (fun u : State => { u with live := s.live.erase (i, (s.feats i).block) })
          (setFeat_setFeat (s := s) (i := i) (f := { s.feats i with state := .oningWait })
            (g := { g with state := .on }))
      rwa [hsame]
    rw [if_neg (not_not.mpr hoff)]
    unfold memoryRegionOnline
    dsimp only
    rw [giveBack_setState _ hlive]
    by_cases hcache : ((s.setState i .oningWait).feats i).useCacheMemory = true
    · rw [if_pos hcache]
      exact ⟨_, rfl, hdone _ (by rw [hself]) (by rw [hself]) rfl⟩
    · have hpage : (s.feats i).cachePage = none := by
        rw [hself] at hcache
        rw [← Option.not_isSome_iff_eq_none, ← hfeat.cache]
        exact hcache
      have hphy : ((s.setState i .oningWait).feats i).phyAddr ≠ 0 := by
        rw [hself]
        exact (hfeat.phyAddr hpage).mpr hoff
      rw [if_neg hcache, if_pos hphy]
      exact ⟨_, rfl, hdone _ (by rw [hself]) (by rw [hself]) rfl⟩
  · exact ⟨_, if_pos hoff, h⟩

end

/-! ## Runs -/

/-- The call for a written text is the right one, and the memory is right after it. -/
def StepRight (s : State) (input : Input) : Prop :=
  ∃ o s', step s input = some (o, s') ∧ MemRight s' ∧
    ∀ cmd env, input = .store cmd env → CallRight cmd o

/-- The condition on a step. -/
def InputFits (s : State) : Input → Prop
  | .store cmd env => (chars cmd ≠ [] → WordFits cmd) ∧
      ∀ i, firstWord cmd = (ssmrFeats i).offline → AllocFits env i s
  | .offline feat env => ∀ i : Fin 9, feat = i → AllocFits env i s
  | .online _ => True

section
variable {s : State}

theorem ssmrOffline_val (env : Env) (i : Fin 9) :
    ssmrOffline env i s = ssmrOfflineInternal env i s := by
  rw [ssmrOffline, dif_pos i.isLt]

theorem ssmrOnline_val (i : Fin 9) : ssmrOnline i s = ssmrOnlineInternal i s := by
  rw [ssmrOnline, dif_pos i.isLt]

/-- What a write does once its call is known. -/
def called (s : State) (env : Env) : Option Call → Option (Option Call × State)
  | none => some (none, s)
  | some (.offline i) => some (some (.offline i), (ssmrOfflineInternal env i s).2)
  | some (.online i) => (ssmrOnlineInternal i s).map fun r => (some (.online i), r.2)

theorem step_store {cmd : List UInt8} {env : Env} {call : Option Call}
    (h : ssmrStore cmd = some call) : step s (.store cmd env) = called s env call := by
  rw [step, h]
  cases call with
  | none => rfl
  | some c =>
    cases c with
    | offline i => simp only [ssmrOffline_val]; rfl
    | online i => simp only [ssmrOnline_val]; rfl

/-- **One step** that meets the condition is right and keeps the invariant. -/
theorem step_fits (h : Inv s) {input : Input} (hfit : InputFits s input) :
    ∃ o s', step s input = some (o, s') ∧ Inv s' ∧
      ∀ cmd env, input = .store cmd env → CallRight cmd o := by
  cases input with
  | store cmd env =>
    obtain ⟨call, hcall, hright⟩ := (store_right_iff cmd).mpr hfit.1
    rw [step_store hcall]
    cases call with
    | none => exact ⟨_, _, rfl, h, fun _ _ he => by cases he; exact hright⟩
    | some c =>
      cases c with
      | offline i =>
        have halloc := hfit.2 i ((hright i).1.mp rfl)
        rcases offline_cases env i s h with hinv | hinv
        · exact ⟨_, _, rfl, hinv.2, fun _ _ he => by cases he; exact hright⟩
        · exact absurd halloc hinv.1
      | online i =>
        obtain ⟨r, hr, hinv⟩ := online_inv (i := i) h
        exact ⟨_, r.2, by rw [called, hr]; rfl, hinv, fun _ _ he => by cases he; exact hright⟩
  | offline feat env =>
    refine ⟨_, _, rfl, ?_, nofun⟩
    by_cases hfeat : feat < 9
    · rw [show feat = ((⟨feat, hfeat⟩ : Fin 9) : Nat) from rfl, ssmrOffline_val]
      rcases offline_cases env ⟨feat, hfeat⟩ s h with hinv | hinv
      · exact hinv.2
      · exact absurd (hfit ⟨feat, hfeat⟩ rfl) hinv.1
    · rw [ssmrOffline, dif_neg hfeat]
      exact h
  | online feat =>
    by_cases hfeat : feat < 9
    · obtain ⟨r, hr, hinv⟩ := online_inv (i := ⟨feat, hfeat⟩) h
      refine ⟨none, r.2, ?_, hinv, nofun⟩
      rw [step, ssmrOnline, dif_pos hfeat, hr]
      rfl
    · refine ⟨none, s, ?_, h, nofun⟩
      rw [step, ssmrOnline, dif_neg hfeat]
      rfl

/-- A step that is right meets the condition. -/
theorem StepRight.fits (h : Inv s) {input : Input} (hr : StepRight s input) :
    InputFits s input := by
  obtain ⟨o, s', hstep, hmem, hcall⟩ := hr
  cases input with
  | store cmd env =>
    have hright := hcall cmd env rfl
    obtain ⟨call, hstore⟩ : ∃ call, ssmrStore cmd = some call := by
      cases hs : ssmrStore cmd with
      | none => rw [step, hs] at hstep; cases hstep
      | some call => exact ⟨call, rfl⟩
    rw [step_store hstore] at hstep
    have ho : o = call := by
      cases call with
      | none => cases hstep; rfl
      | some c =>
        cases c with
        | offline i => cases hstep; rfl
        | online i =>
          obtain ⟨r, -, he⟩ := Option.map_eq_some_iff.mp hstep
          exact (Prod.mk.inj he).1.symm
    subst ho
    refine ⟨(store_right_iff cmd).mp ⟨o, hstore, hright⟩, fun i hi => ?_⟩
    rw [(hright i).1.mpr hi] at hstep
    cases hstep
    rcases offline_cases env i s h with hinv | hinv
    · exact hinv.1
    · exact absurd hmem hinv.2
  | offline feat env =>
    intro i hi
    subst hi
    rw [step, ssmrOffline_val] at hstep
    cases hstep
    rcases offline_cases env i s h with hinv | hinv
    · exact hinv.1
    · exact absurd hmem hinv.2
  | online feat => trivial

end

/-- **The control file and the calls**: from the state after the probe on, every write keeps to its
buffer and makes the call that its first word asks for, and the memory is right in every state, if
and only if every step meets the condition. -/
theorem ssmr_iff (reqSize : Fin 9 → Nat) (svpMemory : Option (Nat × Nat)) (inputs : List Input) :
    Sys.Along step StepRight (ssmrProbe reqSize svpMemory) inputs ↔
      Sys.Along step InputFits (ssmrProbe reqSize svpMemory) inputs := by
  refine (Sys.along_iff (I := Inv) (fun s i h => ?_) (fun s i o s' h hfit hs => ?_) inputs _
    (inv_ssmrProbe reqSize svpMemory)).symm
  · constructor
    · intro hfit
      obtain ⟨o, s', hs, hinv, hcall⟩ := step_fits h hfit
      exact ⟨o, s', hs, hinv.memRight, hcall⟩
    · exact StepRight.fits h
  · obtain ⟨o', s'', hs', hinv, -⟩ := step_fits h hfit
    rw [hs', Option.some.injEq, Prod.mk.injEq] at hs
    exact hs.2 ▸ hinv

/-- The feature's name alone takes it offline. -/
theorem name_taken_offline : ¬ ∀ reqSize svpMemory inputs,
    Sys.Along step StepRight (ssmrProbe reqSize svpMemory) inputs := by
  intro h
  obtain ⟨o, s', hstep, -, hcall⟩ :=
    (h (fun _ => 4096) none [.store (Strings.ascii "svp\n") ⟨true, none⟩]).1
  have hright := hcall _ _ rfl
  have ho : o = some (.offline 0) := by
    have hstore : ssmrStore (Strings.ascii "svp\n") = some (some (.offline 0)) := by
      decide +kernel
    rw [step_store hstore] at hstep
    cases hstep
    rfl
  exact absurd ((hright 0).1.mp ho) (by decide +kernel)

end TrustedMem.Ssmr
