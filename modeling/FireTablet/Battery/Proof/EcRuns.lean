import FireTablet.Battery.EcCommand
import FireTablet.Lib.Run

/-!
# The test commands over runs

The text and the local buffers are never left (`batEcStore_eq`). A rejected text still stores the
one of its numbers that is good, and the commands for all tables go as far as command 717 says: runs
are right exactly as long as neither does harm (`ec_runs_iff`).
-/

namespace Battery.Ec

open CInt LocalText Kstrtox

/-- The number of the first three characters. -/
def cmdOf (t : List UInt8) : Except Int Nat := kstrtouint (chars (t.take 3)) 10

/-- The number behind the separator, without the last character. -/
def paramOf (t : List UInt8) : Except Int Nat :=
  kstrtouint (chars ((t.drop 4).take (t.length - 5))) 10

/-- The text is not rejected. -/
def Valid (t : List UInt8) : Prop :=
  (cmdOf t).isOk ∧ (4 < t.length → (paramOf t).isOk)

instance (t : List UInt8) : Decidable (Valid t) := inferInstanceAs (Decidable (_ ∧ (_ → _)))

/-- What is stored of a text. -/
def stored (s : State) (t : List UInt8) : State :=
  (if 4 < t.length then s.takeParam (paramOf t) else s).takeCmd (cmdOf t)

/-! ## The text and the buffers -/

/-- The bytes of the parameter stay in their buffer. -/
theorem storeParam_eq {t : List UInt8} (s : State) (h : 4 ≤ t.length) (h' : t.length ≤ 20) :
    storeParam (t ++ [0]) t.length ((blank 16).set 15 (some 0)) s =
      if 4 < t.length then some ((paramOf t).isOk, s.takeParam (paramOf t))
      else some (true, s) := by
  unfold storeParam
  by_cases hparam : 4 < t.length
  · have hsrc : (t ++ [0]).drop 4 = t.drop 4 ++ [0] := List.drop_append_of_le_length h
    have hn : t.length - 4 ≤ (t.drop 4 ++ [0]).length := by
      rw [List.length_append, List.length_drop]
      omega
    obtain ⟨w, hw, hlen, hchars⟩ := strncpyBytes_eq hn
    have hcut : chars (w.take (t.length - 5)) = chars ((t.drop 4).take (t.length - 5)) := by
      rw [hchars _ (by omega), List.take_append_of_le_length (by rw [List.length_drop]; omega)]
    have hcells : ((blank 16).set 15 (some 0)).length = 16 := rfl
    have htext := text_cut (b := (blank 16).set 15 (some 0)) (w := w) (k := t.length - 5)
      (by omega) (by omega) (by omega)
    rw [if_pos (by omega), hsrc, hw, if_pos hparam]
    simp only [Option.bind_eq_bind, Option.bind_some, ← Option.bind_assoc, Nat.sub_sub] at htext ⊢
    rw [htext, Option.bind_some, hcut]
    rfl
  · rw [if_neg (by omega), if_neg hparam]

/-- **A text** of 4 to 20 characters is read inside of its block, and the local buffers hold what is
cut out of it. -/
theorem batEcStore_eq {t : List UInt8} (s : State) (h : 4 ≤ t.length) (h' : t.length ≤ 20) :
    batEcStore s t =
      if Valid t then
        (execBatEc (stored s t).batEcCmd (stored s t).batEcParam (stored s t)).map fun r =>
          (((t.length : Int), r.1), r.2)
      else some ((-1, []), stored s t) := by
  obtain ⟨c0, c1, c2, cs, rfl⟩ : ∃ c0 c1 c2 cs, t = c0 :: c1 :: c2 :: cs := by
    match t, h with
    | c0 :: c1 :: c2 :: cs, _ => exact ⟨c0, c1, c2, cs, rfl⟩
  have htext := text_cut (b := (blank 4).set 3 (some 0)) (w := [c0, c1, c2]) (k := 3)
    (Nat.le_succ 3) (Nat.le_refl 3) (Nat.lt_succ_self 3)
  obtain ⟨b, hputs, htext⟩ := Option.bind_eq_some_iff.mp htext
  obtain ⟨b', hput, htext⟩ := Option.bind_eq_some_iff.mp htext
  have hcmd : kstrtouint (chars ([c0, c1, c2].take 3)) 10 = cmdOf (c0 :: c1 :: c2 :: cs) := rfl
  have hstore := storeParam_eq s h h'
  have hget : ∀ (i : Nat) (c : UInt8), (c0 :: c1 :: c2 :: cs)[i]? = some c →
      (c0 :: c1 :: c2 :: cs ++ [0])[i]? = some c := fun i c hc => by
    rw [List.getElem?_append_left (List.getElem?_eq_some_iff.mp hc).1, hc]
  unfold batEcStore
  rw [put_eq (Nat.lt_succ_self 3), put_eq (Nat.lt_succ_self 15)]
  simp only [Option.bind_eq_bind, Option.bind_some]
  rw [if_neg (by omega), hget 0 c0 rfl, hget 1 c1 rfl, hget 2 c2 rfl, hstore]
  generalize ht : c0 :: c1 :: c2 :: cs = t at *
  simp only [Option.bind_some, hputs, hput]
  unfold stored Valid
  have hmap : ∀ s' : State, (execBatEc s'.batEcCmd s'.batEcParam s').bind
        (fun r => some (((t.length : Int), r.1), r.2)) =
      (execBatEc s'.batEcCmd s'.batEcParam s').map fun r => (((t.length : Int), r.1), r.2) :=
    fun _ => Option.map_eq_bind.symm
  by_cases hparam : 4 < t.length
  · simp only [Option.bind_some, htext, hcmd, hparam, true_implies]
    cases hc : (cmdOf t).isOk <;> cases hp : (paramOf t).isOk <;>
      simp [hmap]
  · simp only [Option.bind_some, htext, hcmd, hparam, false_implies, and_true]
    cases hc : (cmdOf t).isOk <;> simp [hmap]

/-! ## The commands -/

theorem setProfiles_isSome (f : ProfileField) (v : Int) (s : State) :
    ∀ n : Nat, (setProfiles f v n s).isSome ↔ n ≤ 10
  | 0 => by simp [setProfiles]
  | n + 1 => by
    have ih := setProfiles_isSome f v s n
    rw [setProfiles]
    cases hs : setProfiles f v n s with
    | none =>
      rw [hs] at ih
      simp only [Option.isSome_none, Bool.false_eq_true, false_iff] at ih
      simp only [Option.bind_none, Option.isSome_none, Bool.false_eq_true, false_iff]
      omega
    | some s' =>
      rw [Option.bind_some]
      split
      · simp only [Option.isSome_some, true_iff]
        omega
      · simp only [Option.isSome_none, Bool.false_eq_true, false_iff]
        omega

/-- A command stays in the array of profiles, but for the two that set all tables. -/
theorem execBatEc_isSome (cmd param : Int) (s : State) :
    (execBatEc cmd param s).isSome ↔ (cmd = 705 ∨ cmd = 706 → s.activeTableNumber ≤ 10) := by
  have h705 : setCommands.lookup 705 = none := by decide
  have h706 : setCommands.lookup 706 = none := by decide
  have htables : ∀ f v, ((setProfiles f v s.activeTableNumber.toNat s).map
      (([] : List Effect), ·)).isSome ↔ s.activeTableNumber ≤ 10 := fun f v => by
    rw [Option.isSome_map, setProfiles_isSome]
    omega
  unfold execBatEc
  by_cases hcmd : cmd = 705 ∨ cmd = 706
  · obtain rfl | rfl := hcmd
    · rw [h705]
      simp only [htables, true_or, true_implies]
    · rw [h706]
      simp only [htables, or_true, true_implies]
  · refine iff_of_true ?_ fun h => absurd h hcmd
    split
    · rfl
    · split <;> first | rfl | simp at hcmd

/-! ## Runs -/

/-- The condition on a text: where it is rejected, its good number is the one that is stored
already, and the tables that are set are ten at most. -/
structure StoreFits (s : State) (t : List UInt8) : Prop where
  cmd : ¬ Valid t → ∀ v, cmdOf t = .ok v → i32 v = s.batEcCmd
  param : ¬ Valid t → 4 < t.length → ∀ v, paramOf t = .ok v → i32 v = s.batEcParam
  tables : Valid t → ∀ v, cmdOf t = .ok v → i32 v = 705 ∨ i32 v = 706 → s.activeTableNumber ≤ 10

/-- A rejected text leaves everything. -/
def Kept (s : State) (t : List UInt8) : Prop :=
  ∀ o s', batEcStore s t = some (o, s') → o.1 = -1 → s' = s

/-- A text of another length is not looked at. -/
theorem batEcStore_size {t : List UInt8} (s : State) (h : ¬ (4 ≤ t.length ∧ t.length ≤ 20)) :
    batEcStore s t = some ((-1, []), s) := by
  unfold batEcStore
  rw [put_eq (Nat.lt_succ_self 3), put_eq (Nat.lt_succ_self 15)]
  simp only [Option.bind_eq_bind, Option.bind_some]
  rw [if_pos (by omega)]
  rfl

section
variable {s : State} {t : List UInt8}

theorem takeCmd_activeTableNumber (r : Except Int Nat) :
    (s.takeCmd r).activeTableNumber = s.activeTableNumber := by
  cases r with
  | error e => rfl
  | ok v => rw [State.takeCmd_ok]

theorem takeParam_activeTableNumber (r : Except Int Nat) :
    (s.takeParam r).activeTableNumber = s.activeTableNumber := by
  cases r with
  | error e => rfl
  | ok v => rw [State.takeParam_ok]

theorem stored_activeTableNumber : (stored s t).activeTableNumber = s.activeTableNumber := by
  rw [stored, takeCmd_activeTableNumber]
  split_ifs
  · exact takeParam_activeTableNumber _
  · rfl

theorem stored_batEcCmd {v : Nat} (h : cmdOf t = .ok v) : (stored s t).batEcCmd = i32 v := by
  rw [stored, h, State.takeCmd_ok]

/-- The numbers that are stored change nothing if they are stored already. -/
theorem stored_eq_iff :
    stored s t = s ↔ (∀ v, cmdOf t = .ok v → i32 v = s.batEcCmd) ∧
      (4 < t.length → ∀ v, paramOf t = .ok v → i32 v = s.batEcParam) := by
  obtain ⟨cmd, param, number, settings⟩ := s
  unfold stored
  by_cases hparam : 4 < t.length
  · cases cmdOf t <;> cases paramOf t <;>
      simp [hparam, State.takeCmd, State.takeParam]
  · cases cmdOf t <;> simp [hparam, State.takeCmd]

/-- **One write** keeps to its blocks, and changes nothing when it is rejected, if and only if it
meets the condition. -/
theorem store_kept_iff :
    (batEcStore s t).isSome ∧ Kept s t ↔
      (4 ≤ t.length ∧ t.length ≤ 20 → StoreFits s t) := by
  by_cases hsize : 4 ≤ t.length ∧ t.length ≤ 20
  · simp only [hsize, and_self, true_implies]
    by_cases hvalid : Valid t
    · obtain ⟨v, hv⟩ : ∃ v, cmdOf t = .ok v := by
        have hok := hvalid.1
        cases hc : cmdOf t with
        | error e => rw [hc] at hok; cases hok
        | ok v => exact ⟨v, rfl⟩
      have hkept : Kept s t := fun o s' h hrej => by
        rw [batEcStore_eq s hsize.1 hsize.2, if_pos hvalid] at h
        obtain ⟨r, -, he⟩ := Option.map_eq_some_iff.mp h
        have hret : o.1 = t.length := by rw [← (Prod.mk.inj he).1]
        omega
      rw [batEcStore_eq s hsize.1 hsize.2, if_pos hvalid, Option.isSome_map, execBatEc_isSome,
        stored_activeTableNumber, stored_batEcCmd hv]
      constructor
      · intro ⟨htables, _⟩
        refine ⟨fun h => absurd hvalid h, fun h => absurd hvalid h, fun _ w hw => ?_⟩
        rw [hv, Except.ok.injEq] at hw
        exact hw ▸ htables
      · exact fun h => ⟨h.tables hvalid v hv, hkept⟩
    · have hstep := batEcStore_eq s hsize.1 hsize.2
      rw [if_neg hvalid] at hstep
      have hkept : Kept s t ↔ stored s t = s := by
        unfold Kept
        rw [hstep]
        constructor
        · exact fun h => h _ _ rfl rfl
        · intro h o s' he _
          rw [Option.some.injEq, Prod.mk.injEq] at he
          exact he.2.symm.trans h
      rw [hstep, hkept, stored_eq_iff]
      constructor
      · exact fun h => ⟨fun _ => h.2.1, fun _ => h.2.2, fun hv => absurd hv hvalid⟩
      · exact fun h => ⟨rfl, h.cmd hvalid, h.param hvalid⟩
  · refine iff_of_true ⟨by rw [batEcStore_size s hsize]; rfl, fun o s' h _ => ?_⟩
      fun h => absurd h hsize
    rw [batEcStore_size s hsize, Option.some.injEq, Prod.mk.injEq] at h
    exact h.2.symm

end

/-- **The test commands**: a run touches no byte outside of the text, the local buffers and the ten
profiles, uses no byte without a value, and changes nothing for a rejected text, if and only if each
of its writes meets the condition. -/
theorem ec_runs_iff (ts : List (List UInt8)) (s : State) :
    (Sys.run batEcStore s ts).isSome ∧ Sys.Along batEcStore Kept s ts ↔
      Sys.Along batEcStore (fun s t => 4 ≤ t.length ∧ t.length ≤ 20 → StoreFits s t) s ts := by
  rw [Sys.run_isSome (fun _ _ => Iff.rfl), Sys.along_and]
  exact Sys.along_iff (I := fun _ => True) (fun _ _ _ => store_kept_iff)
    (fun _ _ _ _ _ _ _ => trivial) ts s trivial

/-- `101 ab` is rejected for its parameter. -/
def halfValid : List UInt8 := [49, 48, 49, 32, 97, 98, 10]

/-- Its command is stored all the same. -/
theorem rejected_stores :
    ¬ ∀ ts s, (Sys.run batEcStore s ts).isSome ∧ Sys.Along batEcStore Kept s ts := by
  intro h
  have hkept := (h [halfValid] ⟨0, 0, 4, fun _ => 0⟩).2.1
  have hstep : (batEcStore ⟨0, 0, 4, fun _ => 0⟩ halfValid).map
      (fun r => (r.1.1, r.2.batEcCmd)) = some (-1, 101) := by decide
  obtain ⟨r, hr, hval⟩ := Option.map_eq_some_iff.mp hstep
  rw [Prod.mk.injEq] at hval
  have hsame := hkept r.1 r.2 hr hval.1
  rw [hsame] at hval
  exact absurd hval.2 (by decide)

end Battery.Ec
