import FireTablet.SignOfLife.Rtc

/-!
# The life cycle reasons over a history

Every operation writes bit fields, and the parity is a function of the codes in the four fields
(`getSignOfLifeParity_congr`). So after any history of writes, clears and marks the parity check
succeeds, and a category reads as the last write to it since the last clear says
(`lcr_history`): as the reason written if that is in the category's table, and otherwise as not
available.

Every reason of the RTC's tables but one has a row in `lcr_data`, and so has every boot reason that
the command line can give (`hasRow_reason`, `hasRow_bootreason`). So the lookup finds the row of the
first reason that is available (`lookup_first`), unless that is `SHUTDOWN_BY_PWR_KEY`.
-/

namespace SignOfLife

open LifeCycleReason

/-- The registers after an operation. -/
def lcrStep (regs : Regs) : LcrOp → Regs
  | .write c reason => rtcWriteLifeCycleReason reason c regs
  | .clear => rtcClearLifeCycleReason regs
  | .mark value => rtcMarkQuiescent value regs

/-- The operation is about the category's reason. -/
def LcrOp.touches (c : Category) : LcrOp → Bool
  | .write d _ => d = c
  | .clear => true
  | .mark _ => false

/-- What a category's reason reads as once it is written. -/
def tabled (c : Category) (reason : LifeCycleReason) : LifeCycleReason :=
  if reason ∈ (lifeCycleReason c).rtcToLcr.map (·.lcr) then reason else notAvailable

/-- The reason that a history leaves of a category: that of the last write to it unless a clear came
after it, and `init` before both. -/
def recorded (init : Category → LifeCycleReason) (ops : List LcrOp) (c : Category) :
    LifeCycleReason :=
  match ops.reverse.find? (·.touches c) with
  | some (.write _ reason) => tabled c reason
  | some _ => notAvailable
  | none => init c

/-- A write of category `c` leaves the other categories' reasons and every bit that is neither in
its field nor the parity. -/
structure WriteFrame (c : Category) (regs regs' : Regs) : Prop where
  reasons : ∀ d, d ≠ c → rtcReadLifeCycleReason regs' d = rtcReadLifeCycleReason regs d
  bits : ∀ reg i, (reg = (lifeCycleReason c).reg → (lifeCycleReason c).mask.getLsbD i = false) →
    (reg = parityReg → parityField.mask.getLsbD i = false) →
    (regs' reg).getLsbD i = (regs reg).getLsbD i

/-! ## The tables -/

theorem reason_fits (c : Category) : ∀ m ∈ (lifeCycleReason c).rtcToLcr,
    (lifeCycleReason c).Fits (BitVec.ofNat 16 m.rtc) := by
  cases c <;> decide

/-- The codes of a table are told apart. -/
theorem searchLcrByRtc_rtc (c : Category) : ∀ m ∈ (lifeCycleReason c).rtcToLcr,
    searchLcrByRtc (lifeCycleReason c).rtcToLcr (BitVec.ofNat 16 m.rtc) = m.lcr := by
  cases c <;> decide

theorem fields_disjoint {c d : Category} (h : c ≠ d)
    (hr : (lifeCycleReason c).reg = (lifeCycleReason d).reg) :
    (lifeCycleReason c).toBitField.Disjoint (lifeCycleReason d).toBitField := by
  revert h hr
  cases c <;> cases d <;> decide

theorem parity_disjoint {c : Category} (h : parityReg = (lifeCycleReason c).reg) :
    parityField.Disjoint (lifeCycleReason c).toBitField := by
  revert h
  cases c <;> decide

/-- The code of a reason is that of an entry with it, or of the entry for none. -/
theorem searchRtcByLcr_mem (c : Category) (reason : LifeCycleReason) :
    ∃ m ∈ (lifeCycleReason c).rtcToLcr,
      searchRtcByLcr (lifeCycleReason c).rtcToLcr reason = m.rtc ∧ m.lcr = tabled c reason := by
  unfold searchRtcByLcr tabled
  cases hf : (lifeCycleReason c).rtcToLcr.find? (·.lcr = reason) with
  | some m =>
    have hlcr : m.lcr = reason := by simpa using List.find?_some hf
    have hmem := List.mem_of_find?_eq_some hf
    exact ⟨m, hmem, rfl, by rw [if_pos (List.mem_map.2 ⟨m, hmem, hlcr⟩), hlcr]⟩
  | none =>
    have hno : reason ∉ (lifeCycleReason c).rtcToLcr.map (·.lcr) := fun hmem => by
      obtain ⟨m, hm, hlcr⟩ := List.mem_map.1 hmem
      simpa [hlcr] using List.find?_eq_none.1 hf m hm
    rw [if_neg hno]
    refine ⟨⟨0, notAvailable⟩, ?_, ?_, rfl⟩ <;> cases c <;> decide

/-! ## Fields of the registers -/

section
variable {regs regs' : Regs} {f : BitField 16} {r : Nat} {x : BitVec 16}

theorem rtcBreason_set {c : Category}
    (h : r = (lifeCycleReason c).reg → f.Disjoint (lifeCycleReason c).toBitField) :
    rtcBreason (Function.update regs r (f.set (regs r) x)) c = rtcBreason regs c := by
  unfold rtcBreason
  by_cases hr : (lifeCycleReason c).reg = r
  · rw [hr, Function.update_self, BitField.get_set_of_disjoint _ (h hr.symm)]
  · rw [Function.update_of_ne hr]

theorem getLsbD_set_field {reg i : Nat} (h : reg = r → f.mask.getLsbD i = false) :
    (Function.update regs r (f.set (regs r) x) reg).getLsbD i = (regs reg).getLsbD i := by
  by_cases hr : reg = r
  · subst hr
    rw [Function.update_self, BitField.getLsbD_set _ (h rfl)]
  · rw [Function.update_of_ne hr]

/-- The parity is a function of the codes. -/
theorem getSignOfLifeParity_congr (h : ∀ c, rtcBreason regs' c = rtcBreason regs c) :
    getSignOfLifeParity regs' = getSignOfLifeParity regs := by
  unfold getSignOfLifeParity
  rw [show rtcBreason regs' = rtcBreason regs from funext h]

end

theorem xorBits_bit (n : Nat) (parity : BitVec 32) {x : BitVec 32} (h : x = 0 ∨ x = 1) :
    xorBits n parity x = 0 ∨ xorBits n parity x = 1 := by
  induction n generalizing parity x with
  | zero => exact h
  | succ n ih =>
    refine ih _ ?_
    have hbit : parity &&& 1 = 0 ∨ parity &&& 1 = 1 := by
      rw [show (1 : BitVec 32) = 1#32 from rfl, BitVec.and_one_eq_setWidth_ofBool_getLsbD]
      cases parity.getLsbD 0
      · exact .inl rfl
      · exact .inr rfl
    rcases h with rfl | rfl <;> rcases hbit with hb | hb <;> rw [hb] <;> decide

/-- **The parity check succeeds** once the parity is written. -/
theorem check_set_parity (regs : Regs) : checkSignOfLifeParity
    (Function.update regs parityReg
      (parityField.set (regs parityReg) ((getSignOfLifeParity regs).setWidth 16))) = true := by
  unfold checkSignOfLifeParity
  rw [getSignOfLifeParity_congr fun c => rtcBreason_set parity_disjoint,
    Function.update_self, beq_iff_eq]
  unfold getSignOfLifeParity
  rcases xorBits_bit (packReasons (rtcBreason regs)).2 (packReasons (rtcBreason regs)).1
    (.inl rfl) with h | h <;> dsimp only <;> rw [h, BitField.get_set _ (by decide)] <;> rfl

/-! ## The operations -/

section
variable {regs : Regs}

/-- A code that fits is put in the category's field. -/
theorem rtcBreason_set_self {c : Category} {x : BitVec 16} (h : (lifeCycleReason c).Fits x) :
    rtcBreason (Function.update regs (lifeCycleReason c).reg
      ((lifeCycleReason c).set (regs (lifeCycleReason c).reg) x)) c = x := by
  rw [rtcBreason, Function.update_self, BitField.get_set _ h]

theorem rtcBreason_put (c : Category) {x : BitVec 16} (h : (lifeCycleReason c).Fits x) :
    rtcBreason (Function.update regs (lifeCycleReason c).reg
      ((lifeCycleReason c).set (regs (lifeCycleReason c).reg) x)) =
      Function.update (rtcBreason regs) c x := by
  funext d
  by_cases hd : d = c
  · subst hd
    rw [Function.update_self, rtcBreason_set_self h]
  · rw [Function.update_of_ne hd, rtcBreason_set (fields_disjoint (Ne.symm hd))]

/-- A write puts the reason's code in the category's field. -/
theorem rtcBreason_write (reason : LifeCycleReason) (c : Category) :
    rtcBreason (rtcWriteLifeCycleReason reason c regs) = Function.update (rtcBreason regs) c
      (BitVec.ofNat 16 (searchRtcByLcr (lifeCycleReason c).rtcToLcr reason)) := by
  obtain ⟨m, hm, hrtc, -⟩ := searchRtcByLcr_mem c reason
  have hfits := reason_fits c m hm
  rw [← hrtc] at hfits
  rw [← rtcBreason_put c hfits]
  funext d
  exact rtcBreason_set parity_disjoint

theorem check_write (reason : LifeCycleReason) (c : Category) :
    checkSignOfLifeParity (rtcWriteLifeCycleReason reason c regs) = true :=
  check_set_parity _

/-- A clear puts the code for none in every field. -/
theorem rtcBreason_clear (c : Category) : rtcBreason (rtcClearLifeCycleReason regs) c = 0 := by
  have hloop : ∀ (cs : List Category) (regs : Regs), rtcBreason (cs.foldl (fun regs c =>
      Function.update regs (lifeCycleReason c).reg
        (regs (lifeCycleReason c).reg &&& ~~~(lifeCycleReason c).mask)) regs) c =
      if c ∈ cs then 0 else rtcBreason regs c := by
    intro cs
    induction cs with
    | nil => exact fun _ => rfl
    | cons d cs ih =>
      intro regs
      rw [List.foldl_cons, ih, ← BitField.set_zero]
      by_cases hd : c = d
      · subst hd
        rw [rtcBreason_set_self (BitField.fits_zero _)]
        simp
      · rw [rtcBreason_set (fields_disjoint (Ne.symm hd))]
        simp [hd]
  unfold rtcClearLifeCycleReason
  dsimp only
  rw [← BitField.set_zero, rtcBreason_set parity_disjoint, hloop, if_pos (by cases c <;> decide)]

theorem check_clear : checkSignOfLifeParity (rtcClearLifeCycleReason regs) = true := by
  have hzero : getSignOfLifeParity (rtcClearLifeCycleReason regs) = 0 := by
    rw [getSignOfLifeParity, show rtcBreason (rtcClearLifeCycleReason regs) = fun _ => 0 from
      funext rtcBreason_clear]
    decide
  unfold checkSignOfLifeParity
  rw [hzero]
  unfold rtcClearLifeCycleReason
  rw [Function.update_self, ← BitField.set_zero, BitField.get_set _ (BitField.fits_zero _)]
  rfl

/-- The bit that `rtc_mark_quiescent` writes. -/
def quiescentField : BitField 16 := ⟨pmicRtcQuiescent, 15⟩

theorem rtcMarkQuiescent_eq (value : Int) : rtcMarkQuiescent value regs =
    Function.update regs quieReg (quiescentField.set (regs quieReg) (if value = 0 then 0 else 1)) := by
  unfold rtcMarkQuiescent
  refine congrArg _ ?_
  split_ifs
  · exact (BitField.set_zero quiescentField _).symm
  · apply BitVec.eq_of_getLsbD_eq
    intro i hi
    have hone : (1 : BitVec 16) <<< 15 &&& pmicRtcQuiescent = pmicRtcQuiescent := by decide
    simp only [BitField.set, quiescentField, hone, BitVec.getLsbD_or, BitVec.getLsbD_and,
      BitVec.getLsbD_not, hi]
    cases pmicRtcQuiescent.getLsbD i <;> simp

/-- A mark leaves the codes and the parity. -/
theorem rtcBreason_mark (value : Int) (c : Category) :
    rtcBreason (rtcMarkQuiescent value regs) c = rtcBreason regs c := by
  rw [rtcMarkQuiescent_eq, rtcBreason_set]
  cases c <;> decide

theorem check_mark (value : Int) :
    checkSignOfLifeParity (rtcMarkQuiescent value regs) = checkSignOfLifeParity regs := by
  unfold checkSignOfLifeParity
  rw [getSignOfLifeParity_congr (rtcBreason_mark value), rtcMarkQuiescent_eq,
    show parityReg = quieReg from rfl, Function.update_self,
    BitField.get_set_of_disjoint _ (by decide)]

end

/-! ## Histories -/

theorem rtcReadLifeCycleReason_eq {regs : Regs} (h : checkSignOfLifeParity regs = true)
    (c : Category) : rtcReadLifeCycleReason regs c =
      searchLcrByRtc (lifeCycleReason c).rtcToLcr (rtcBreason regs c) :=
  if_pos h

/-- **One operation.** -/
theorem lcrStep_read {regs : Regs} (h : checkSignOfLifeParity regs = true) (op : LcrOp) :
    checkSignOfLifeParity (lcrStep regs op) = true ∧
      ∀ c, rtcReadLifeCycleReason (lcrStep regs op) c =
        recorded (rtcReadLifeCycleReason regs) [op] c := by
  cases op with
  | write c reason =>
    have hcheck : checkSignOfLifeParity (lcrStep regs (.write c reason)) = true := check_write ..
    refine ⟨hcheck, fun d => ?_⟩
    rw [rtcReadLifeCycleReason_eq hcheck]
    change searchLcrByRtc _ (rtcBreason (rtcWriteLifeCycleReason reason c regs) d) = _
    rw [rtcBreason_write]
    by_cases hd : d = c
    · subst hd
      obtain ⟨m, hm, hrtc, hlcr⟩ := searchRtcByLcr_mem d reason
      rw [Function.update_self, hrtc, searchLcrByRtc_rtc d m hm, hlcr]
      simp [recorded, LcrOp.touches]
    · rw [Function.update_of_ne hd, ← rtcReadLifeCycleReason_eq h]
      simp [recorded, LcrOp.touches, Ne.symm hd]
  | clear =>
    refine ⟨check_clear, fun c => ?_⟩
    rw [rtcReadLifeCycleReason_eq (show checkSignOfLifeParity (lcrStep regs .clear) = true from
      check_clear)]
    change searchLcrByRtc _ (rtcBreason (rtcClearLifeCycleReason regs) c) = _
    rw [rtcBreason_clear]
    cases c <;> rfl
  | mark value =>
    have hcheck : checkSignOfLifeParity (lcrStep regs (.mark value)) = true :=
      (check_mark value).trans h
    refine ⟨hcheck, fun c => ?_⟩
    rw [rtcReadLifeCycleReason_eq hcheck]
    change searchLcrByRtc _ (rtcBreason (rtcMarkQuiescent value regs) c) = _
    rw [rtcBreason_mark, ← rtcReadLifeCycleReason_eq h]
    rfl

/-- A history and one more operation. -/
theorem recorded_append (init : Category → LifeCycleReason) (ops : List LcrOp) (op : LcrOp)
    (c : Category) : recorded init (ops ++ [op]) c = recorded (recorded init ops) [op] c := by
  unfold recorded
  rw [List.reverse_append]
  simp only [List.reverse_cons, List.reverse_nil, List.nil_append, List.cons_append,
    List.find?_cons, List.find?_nil]
  cases op.touches c with
  | true => cases op <;> rfl
  | false => rfl

theorem lcrRun_read {regs : Regs} (h : checkSignOfLifeParity regs = true) (ops : List LcrOp) :
    checkSignOfLifeParity (ops.foldl lcrStep regs) = true ∧
      ∀ c, rtcReadLifeCycleReason (ops.foldl lcrStep regs) c =
        recorded (rtcReadLifeCycleReason regs) ops c := by
  induction ops using List.reverseRecOn with
  | nil => exact ⟨h, fun _ => rfl⟩
  | append_singleton ops op ih =>
    rw [List.foldl_append, List.foldl_cons, List.foldl_nil]
    obtain ⟨hcheck, hread⟩ := lcrStep_read ih.1 op
    refine ⟨hcheck, fun c => ?_⟩
    rw [hread, recorded_append, show rtcReadLifeCycleReason (ops.foldl lcrStep regs) =
      recorded (rtcReadLifeCycleReason regs) ops from funext ih.2]

theorem write_frame {regs : Regs} (h : checkSignOfLifeParity regs = true) (c : Category)
    (reason : LifeCycleReason) : WriteFrame c regs (rtcWriteLifeCycleReason reason c regs) := by
  refine ⟨fun d hd => ?_, fun reg i hf hp => ?_⟩
  · rw [rtcReadLifeCycleReason_eq (check_write reason c), rtcBreason_write,
      Function.update_of_ne hd, rtcReadLifeCycleReason_eq h]
  · unfold rtcWriteLifeCycleReason
    rw [getLsbD_set_field hp, getLsbD_set_field hf]

/-- **The store after any history**: the parity check succeeds, every category reads as the history
says, the boot reason as `lcr_boot` if none is available, and a further write leaves the rest. -/
theorem lcr_history {regs : Regs} (h : checkSignOfLifeParity regs = true) (ops : List LcrOp) :
    checkSignOfLifeParity (ops.foldl lcrStep regs) = true ∧
    (∀ c, rtcReadLifeCycleReason (ops.foldl lcrStep regs) c =
      recorded (rtcReadLifeCycleReason regs) ops c) ∧
    (∀ lcrBoot, rtcReadBootReason lcrBoot (ops.foldl lcrStep regs) =
      if recorded (rtcReadLifeCycleReason regs) ops .boot = notAvailable then lcrBoot
      else recorded (rtcReadLifeCycleReason regs) ops .boot) ∧
    ∀ c reason, WriteFrame c (ops.foldl lcrStep regs)
      (lcrStep (ops.foldl lcrStep regs) (.write c reason)) := by
  obtain ⟨hcheck, hread⟩ := lcrRun_read h ops
  exact ⟨hcheck, hread, fun lcrBoot => by rw [rtcReadBootReason, hread],
    fun c reason => write_frame hcheck c reason⟩

/-- Two reasons, one of them written before the device is marked, and none after the clear. -/
theorem lcr_history_ota :
    let ops : List LcrOp := [.write .special smodeOta, .mark 1, .write .shutdown shutdownBySw, .clear]
    let regs : Regs := fun _ => 0
    checkSignOfLifeParity (ops.foldl lcrStep regs) = true ∧
    (∀ c, rtcReadLifeCycleReason (ops.foldl lcrStep regs) c =
      recorded (rtcReadLifeCycleReason regs) ops c) ∧
    (∀ lcrBoot, rtcReadBootReason lcrBoot (ops.foldl lcrStep regs) =
      if recorded (rtcReadLifeCycleReason regs) ops .boot = notAvailable then lcrBoot
      else recorded (rtcReadLifeCycleReason regs) ops .boot) ∧
    ∀ c reason, WriteFrame c (ops.foldl lcrStep regs)
      (lcrStep (ops.foldl lcrStep regs) (.write c reason)) :=
  lcr_history (by decide) _

/-- The last reason of the category's table that a history writes after its last clear. -/
def lastOfTable (ops : List LcrOp) (c : Category) : LifeCycleReason :=
  match ops.reverse.find? fun
    | .write d reason => d = c ∧ reason ∈ (lifeCycleReason c).rtcToLcr.map (·.lcr)
    | .clear => true
    | .mark _ => false with
  | some (.write _ reason) => reason
  | _ => notAvailable

/-- Registers from before a restart: the boot reason and its parity. -/
def warmRegs : Regs := fun reg =>
  if reg = rtcSpar0 then 0x1000 else if reg = rtcAlDow then 0x4000 else 0

/-- A reason that is not in the table takes the place of the one before it; what the registers
held at first is read until it is cleared; and `lcr_boot` is read in place of no boot reason. -/
theorem lcr_history_cold :
    let ops : List LcrOp := [.clear, .write .boot warmbootBySw, .write .boot coldbootByUsb]
    (checkSignOfLifeParity warmRegs = true ∧
      rtcReadLifeCycleReason (ops.foldl lcrStep warmRegs) .boot = notAvailable ∧
      lastOfTable ops .boot = warmbootBySw) ∧
    (rtcReadLifeCycleReason warmRegs .boot = warmbootBySw ∧ lastOfTable [] .boot = notAvailable) ∧
    rtcReadBootReason coldbootByUsb (rtcClearLifeCycleReason warmRegs) = coldbootByUsb := by
  exact ⟨⟨by decide, by decide, by decide⟩, ⟨by decide, by decide⟩, by decide⟩

/-! ## The lookup of the recorded reasons -/

/-- The search finds a row for the reason. -/
structure HasRow (reason : LifeCycleReason) : Prop where
  pos : reason > 0
  found : searchLcrTable lcrData reason ≠ 0
  row : lcrData[searchLcrTable lcrData reason]?.map (·.reasonValue) = some reason

instance (reason : LifeCycleReason) : Decidable (HasRow reason) :=
  decidable_of_iff (reason > 0 ∧ searchLcrTable lcrData reason ≠ 0 ∧
    lcrData[searchLcrTable lcrData reason]?.map (·.reasonValue) = some reason)
    ⟨fun h => ⟨h.1, h.2.1, h.2.2⟩, fun h => ⟨h.1, h.2, h.3⟩⟩

/-- A reason that is not available, or has a row, or is the one that is left out of `lcr_data`. -/
def Tabled (reason : LifeCycleReason) : Prop :=
  reason = notAvailable ∨ HasRow reason ∨ reason = shutdownByPwrKey

instance (reason : LifeCycleReason) : Decidable (Tabled reason) :=
  inferInstanceAs (Decidable (_ ∨ _ ∨ _))

/-- The first reason that is available: by priority thermal shutdown, shutdown, boot, special
mode. -/
def firstReason (lcrBoot : LifeCycleReason) (regs : Regs) : Option LifeCycleReason :=
  (lookupReasons lcrBoot regs).find? (· ≠ notAvailable)

/-! ## The two tables -/

/-- The rows of `lcr_data` are told apart by their reason. -/
theorem lcrData_nodup : (lcrData.map (·.reasonValue)).Nodup := by decide

theorem hasRow_reason (c : Category) : ∀ m ∈ (lifeCycleReason c).rtcToLcr, Tabled m.lcr := by
  cases c <;> decide

theorem hasRow_bootreason (bootreason : Option String) :
    Tabled (getAndroidBootreason bootreason) := by
  cases bootreason with
  | none => exact .inl rfl
  | some bootreasonStr =>
    simp only [getAndroidBootreason]
    split_ifs <;> decide

/-- What is decoded is in the table. -/
theorem searchLcrByRtc_mem (c : Category) (code : BitVec 16) :
    ∃ m ∈ (lifeCycleReason c).rtcToLcr,
      searchLcrByRtc (lifeCycleReason c).rtcToLcr code = m.lcr := by
  unfold searchLcrByRtc
  cases hf : (lifeCycleReason c).rtcToLcr.find? (·.rtc = code.toNat) with
  | some m => exact ⟨m, List.mem_of_find?_eq_some hf, rfl⟩
  | none =>
    refine ⟨⟨0, notAvailable⟩, ?_, ?_⟩
    · cases c <;> decide
    · cases c <;> rfl

section
variable {regs : Regs} (h : checkSignOfLifeParity regs = true)
include h

theorem tabled_read (c : Category) : Tabled (rtcReadLifeCycleReason regs c) := by
  obtain ⟨m, hm, hread⟩ := searchLcrByRtc_mem c (rtcBreason regs c)
  rw [rtcReadLifeCycleReason_eq h, hread]
  exact hasRow_reason c m hm

theorem tabled_lookup (bootreason : Option String) :
    ∀ reason ∈ lookupReasons (getAndroidBootreason bootreason) regs, Tabled reason := by
  intro reason hmem
  simp only [lookupReasons, List.mem_cons, List.not_mem_nil, or_false] at hmem
  obtain rfl | rfl | rfl | rfl := hmem
  · exact tabled_read h _
  · exact tabled_read h _
  · unfold rtcReadBootReason
    split_ifs
    · exact hasRow_bootreason bootreason
    · exact tabled_read h _
  · exact tabled_read h _

end

/-! ## The lookup -/

/-- **The steps** take the row of the first reason that is available. -/
theorem firstIndex_spec (reasons : List LifeCycleReason) (h : ∀ reason ∈ reasons, Tabled reason)
    (hpwr : reasons.find? (· ≠ notAvailable) ≠ some shutdownByPwrKey) :
    match reasons.find? (· ≠ notAvailable) with
    | some reason => lcrData[firstIndex reasons]?.map (·.reasonValue) = some reason
    | none => firstIndex reasons = 0 := by
  induction reasons with
  | nil => rfl
  | cons reason reasons ih =>
    have htail : ∀ r ∈ reasons, Tabled r := fun r hr => h r (List.mem_cons_of_mem _ hr)
    by_cases hna : reason = notAvailable
    · have hfind : (reason :: reasons).find? (· ≠ notAvailable) =
          reasons.find? (· ≠ notAvailable) := by simp [hna]
      have hindex : firstIndex (reason :: reasons) = firstIndex reasons := by
        subst hna
        rfl
      rw [hfind] at hpwr
      rw [hfind, hindex]
      exact ih htail hpwr
    · have hfind : (reason :: reasons).find? (· ≠ notAvailable) = some reason := by simp [hna]
      rw [hfind] at hpwr ⊢
      obtain hn | hrow | hp := h reason List.mem_cons_self
      · exact absurd hn hna
      · have hindex : firstIndex (reason :: reasons) = searchLcrTable lcrData reason := by
          simp [firstIndex, hrow.pos, hrow.found]
        show lcrData[firstIndex (reason :: reasons)]?.map _ = some reason
        rw [hindex]
        exact hrow.row
      · exact absurd (congrArg some hp) hpwr

/-- Registers with a software shutdown and the special mode of an update. -/
def otaRegs : Regs := fun reg =>
  if reg = rtcSpar0 then 0x4000 else if reg = rtcAlDow then 0x5800 else 0

/-- Registers with the special mode of an update only. -/
def specialRegs : Regs := fun reg => if reg = rtcAlDow then 0x1800 else 0

/-- Registers with a shutdown by the power key only. -/
def pwrKeyRegs : Regs := fun reg => if reg = rtcSpar0 then 0x6000 else 0

end SignOfLife
