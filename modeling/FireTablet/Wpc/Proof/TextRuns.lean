import FireTablet.Wpc.Proof.TextInputs

/-!
# Runs of the files that take texts

A call keeps to the memory of its texts and buffers exactly when its input fits (`handle_kept_iff`);
what it then stores of a calibration is what the digits encode, in every case (`handle_stores`).
-/

namespace Wpc.RegFile

open Iout

/-- The numbers of a calibration in the order of its digits. -/
def values (d : IoutCalData) : List UInt16 :=
  ((List.finRange 5).flatMap fun i => [d.gain i, d.offset i]) ++
    (List.finRange 4).map d.threshold

/-- The calibration holds the numbers that a text encodes. -/
def Stores (d : IoutCalData) (t : List UInt8) : Prop :=
  ∀ k < 14, ∀ n, encoded t k = some n → ((values d).getD k 0).toNat = n

/-- The text of a calibration that a call accepts. -/
def Input.accepted : Input → Option (List UInt8)
  | .getIoutCalData idme =>
    if idme.alloc ∧ idme.node then idme.value.map CStr.chars else none
  | .ioutCalDataStore buf _ idme =>
    if Kstrtox.kstrtoint buf.chars 10 = .ok 1 ∧ idme.alloc ∧ idme.node then
      idme.value.map CStr.chars
    else none
  | .forceIoutCalDataStore buf _ alloc _ =>
    if buf.chars.length = 57 ∧ alloc then some (buf.chars.take 56) else none
  | _ => none

/-- An input whose texts and sizes fit. -/
def Admissible (s : State) : Input → Prop
  | .getIoutCalData idme => FitsIdme idme
  | .ioutCalDataStore buf _ idme => Kstrtox.kstrtoint buf.chars 10 = .ok 1 → FitsIdme idme
  | .forceIoutCalDataStore buf _ alloc _ => ¬ Forced buf alloc
  | .addrStore _ _ => True
  | .regShow pg read => FitsShow s.reg pg read
  | .regStore _ _ pg alloc _ => ¬ Copies s.reg pg alloc

theorem values_ofWords (w : Nat → UInt16) :
    values (.ofWords w) = (List.range 14).map w := rfl

theorem stores_ofWords (t behind : List UInt8) :
    Stores (.ofWords (word (hexToBytes (t ++ behind)))) t := by
  intro k hk n hn
  rw [values_ofWords, List.getD_eq_getElem?_getD, List.getElem?_map, List.getElem?_range hk]
  exact word_encoded hn

/-- What is found in the device tree. -/
theorem idme_accepted {idme : Idme} {t : List UInt8} (ha : idme.alloc = true)
    (hn : idme.node = true) (ht : idme.value.map CStr.chars = some t) :
    (idmeGetWpcIoutCal idme).1 = .ok (word (hexToBytes t)) := by
  obtain ⟨text, hv, rfl⟩ := Option.map_eq_some_iff.1 ht
  unfold idmeGetWpcIoutCal
  simp only [ha, hn, hv, Bool.not_true, Bool.false_eq_true, if_false]

section

variable (env : Nat → Turn) (sscanf : CStr → Option (UInt32 × UInt32)) (s : State)

theorem handle_stores (i : Input) (t : List UInt8) (h : i.accepted = some t) :
    Stores (handle env sscanf s i).2.dev.ioutCalData t := by
  have hstores := stores_ofWords t []
  rw [List.append_nil] at hstores
  cases i with
  | getIoutCalData idme =>
    simp only [Input.accepted] at h
    split_ifs at h with hc
    have hi := idme_accepted hc.1 hc.2 h
    simp only [handle, getIoutCalData, hi]
    exact hstores
  | ioutCalDataStore buf count idme =>
    simp only [Input.accepted] at h
    split_ifs at h with hc
    have hi := idme_accepted hc.2.1 hc.2.2 h
    simp only [handle, ioutCalDataStore, getIoutCalData, hi, hc.1, Int.one_ne_zero, if_false,
      if_true]
    exact hstores
  | forceIoutCalDataStore buf count alloc behind =>
    simp only [Input.accepted] at h
    split_ifs at h with hc
    have hsize : (buf.chars.length : Int) - 1 = 56 := by omega
    cases h
    simp only [handle, forceIoutCalDataStore, hsize, ne_eq, not_true_eq_false, if_false, hc.2,
      Bool.not_true, Bool.false_eq_true]
    exact stores_ofWords _ _
  | addrStore => cases h
  | regShow => cases h
  | regStore => cases h

/-- A call keeps to the memory, and stores what the digits of a calibration encode. -/
structure Kept (i : Input) : Prop where
  safe : Heap.Safe (handle env sscanf s i).1.ops
  stores : ∀ t, i.accepted = some t → Stores (handle env sscanf s i).2.dev.ioutCalData t

theorem handle_safe_iff (i : Input) :
    Heap.Safe (handle env sscanf s i).1.ops ↔ Admissible s i := by
  cases i with
  | getIoutCalData idme =>
    have hget : (getIoutCalData s.dev idme).2.2 = (idmeGetWpcIoutCal idme).2 := by
      unfold getIoutCalData
      dsimp only
      split <;> rfl
    simp only [handle, hget, Admissible]
    exact idme_safe_iff idme
  | ioutCalDataStore buf count idme => exact iout_safe_iff env s.dev buf count idme
  | forceIoutCalDataStore buf count alloc behind =>
    exact force_safe_iff env s.dev buf count alloc behind
  | addrStore buf count =>
    apply iff_of_true _ trivial
    apply Heap.safe_fixed
    intro op hop
    have hops : (addrStore sscanf s buf count).1.ops =
        [.fixed (buf.chars.length + 1) 0 (buf.chars.length + 1)] := by
      unfold addrStore
      split <;> rfl
    rw [handle, hops] at hop
    obtain rfl := List.mem_singleton.1 hop
    rw [Heap.stays_fixed, Buf.within_zero]
  | regShow pg read => exact show_safe_iff s.reg pg read
  | regStore buf count pg alloc write => exact store_safe_iff s.reg buf count pg alloc write

theorem handle_kept_iff (i : Input) : Kept env sscanf s i ↔ Admissible s i := by
  rw [← handle_safe_iff env sscanf s i]
  constructor
  · intro h
    exact h.safe
  · intro h
    exact ⟨h, handle_stores env sscanf s i⟩

end

/-- A run keeps to the memory of its texts and buffers, and stores what is encoded, exactly when all
its inputs fit. -/
theorem run_kept_iff (env : Nat → Turn) (sscanf : CStr → Option (UInt32 × UInt32)) (s : State)
    (is : List Input) :
    Sys.Along (step env sscanf) (Kept env sscanf) s is ↔
      Sys.Along (step env sscanf) Admissible s is := by
  refine Sys.along_iff (I := fun _ => True) ?_ ?_ is s trivial
  · intro s i _
    exact handle_kept_iff env sscanf s i
  · intro _ _ _ _ _ _ _
    trivial

/-- Every calibration that is taken from the file is read behind the copy of its digits. -/
theorem forced_not_kept :
    ¬ Sys.Along (step (fun _ => ⟨0, fun _ b => b, Int.le_refl 0⟩) fun _ => none)
      (Kept (fun _ => ⟨0, fun _ b => b, Int.le_refl 0⟩) fun _ => none)
      ⟨⟨calData, true, true, ⟨fun _ => 0, 0⟩⟩, ⟨0, 1⟩⟩
      [.forceIoutCalDataStore ⟨List.replicate 56 48 ++ [10], by decide⟩ 57 true ⟨[], nofun⟩] := by
  rintro ⟨hk, -⟩
  exact (handle_kept_iff _ _ _ _).1 hk ⟨by decide, rfl⟩

end Wpc.RegFile
