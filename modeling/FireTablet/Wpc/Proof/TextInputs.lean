import FireTablet.Wpc.Iout
import FireTablet.Wpc.RegFile
import Mathlib.Tactic.SplitIfs

/-!
# The numbers that a text encodes

`hexToBytes` stores a byte for every two characters, and a number is made of two of these, the low
one first. For four digits that is the number that they encode (`word_encoded`), whatever stands
behind them.

The value of the device tree stays in its buffer when it has at most 57 characters, the registers
that are shown stay in theirs when they fit in the array. A calibration that `force_iout_cal_data`
takes never does, as its copy has no terminator, and a store to `reg` that comes to its copy never
frees it, as `strsep` moves the pointer (`handle_kept_iff`).
-/

namespace Wpc.Iout

/-- The value of a hexadecimal digit. -/
def hexDigit (c : UInt8) : Option Nat :=
  if 48 ≤ c ∧ c ≤ 57 then some (c.toNat - 48)
  else if 97 ≤ c ∧ c ≤ 102 then some (c.toNat - 87)
  else if 65 ≤ c ∧ c ≤ 70 then some (c.toNat - 55)
  else none

/-- The little-endian 16-bit number that the four digits of a place encode. -/
def encoded (t : List UInt8) (k : Nat) : Option Nat := do
  let a ← t[4 * k]? >>= hexDigit
  let b ← t[4 * k + 1]? >>= hexDigit
  let c ← t[4 * k + 2]? >>= hexDigit
  let d ← t[4 * k + 3]? >>= hexDigit
  some (16 * a + b + 256 * (16 * c + d))

theorem castChar_digit {c : UInt8} {v : Nat} (h : hexDigit c = some v) :
    (castChar c).toNat = v ∧ v < 16 := by
  unfold hexDigit at h
  unfold castChar
  split_ifs at h ⊢ with h1 h2 h3
  · cases h
    have hle := UInt8.le_iff_toNat_le.1 h1.1
    have hge := UInt8.le_iff_toNat_le.1 h1.2
    rw [UInt8.toNat_sub_of_le _ _ h1.1]
    exact ⟨rfl, Nat.lt_of_le_of_lt (Nat.sub_le_sub_right hge 48) (by decide)⟩
  · cases h
    have hle := UInt8.le_iff_toNat_le.1 h2.1
    have hge := UInt8.le_iff_toNat_le.1 h2.2
    rw [UInt8.toNat_add, UInt8.toNat_sub_of_le _ _ h2.1]
    have e1 : (97 : UInt8).toNat = 97 := rfl
    have e2 : (10 : UInt8).toNat = 10 := rfl
    have e3 : (102 : UInt8).toNat = 102 := rfl
    omega
  · cases h
    have hle := UInt8.le_iff_toNat_le.1 h3.1
    have hge := UInt8.le_iff_toNat_le.1 h3.2
    rw [UInt8.toNat_add, UInt8.toNat_sub_of_le _ _ h3.1]
    have e1 : (65 : UInt8).toNat = 65 := rfl
    have e2 : (10 : UInt8).toNat = 10 := rfl
    have e3 : (70 : UInt8).toNat = 70 := rfl
    omega

/-- Two digits are one byte. -/
theorem byte_digits {x y : UInt8} {a b : Nat} (hx : hexDigit x = some a)
    (hy : hexDigit y = some b) :
    (castChar x <<< 4 ||| castChar y).toNat = 16 * a + b := by
  obtain ⟨ex, ha⟩ := castChar_digit hx
  obtain ⟨ey, hb⟩ := castChar_digit hy
  have hshift : (castChar x <<< 4).toNat = a <<< 4 := by
    rw [UInt8.toNat_shiftLeft, ex]
    have e4 : (4 : UInt8).toNat % 8 = 4 := rfl
    rw [e4, Nat.shiftLeft_eq]
    omega
  rw [UInt8.toNat_or, hshift, ey, ← Nat.shiftLeft_add_eq_or_of_lt (show b < 2 ^ 4 from hb),
    Nat.shiftLeft_eq, Nat.mul_comm]

/-- Two bytes are one number. -/
theorem word_toNat (bytes : List UInt8) (k : Nat) :
    (word bytes k).toNat =
      (bytes.getD (2 * k) 0).toNat + 256 * (bytes.getD (2 * k + 1) 0).toNat := by
  have hlo := (bytes.getD (2 * k) 0).toNat_lt
  have hhi := (bytes.getD (2 * k + 1) 0).toNat_lt
  have hshift : ((bytes.getD (2 * k + 1) 0).toUInt16 <<< 8).toNat =
      (bytes.getD (2 * k + 1) 0).toNat <<< 8 := by
    rw [UInt16.toNat_shiftLeft, UInt8.toNat_toUInt16]
    have e8 : (8 : UInt16).toNat % 16 = 8 := rfl
    rw [e8, Nat.shiftLeft_eq]
    omega
  rw [word, UInt16.toNat_or, hshift, UInt8.toNat_toUInt16, Nat.or_comm,
    ← Nat.shiftLeft_add_eq_or_of_lt (show _ < 2 ^ 8 from hlo), Nat.shiftLeft_eq]
  omega

/-- The bytes that are stored. -/
theorem hexToBytes_getD {t : List UInt8} {i : Nat} {x y : UInt8} (hx : t[2 * i]? = some x)
    (hy : t[2 * i + 1]? = some y) :
    (hexToBytes t).getD i 0 = castChar x <<< 4 ||| castChar y := by
  induction t using hexToBytes.induct generalizing i with
  | case1 h l rest ih =>
    cases i with
    | zero =>
      cases hx
      cases hy
      rfl
    | succ i =>
      rw [hexToBytes, List.getD_cons_succ]
      apply ih
      · rw [← hx]
        rfl
      · rw [← hy]
        rfl
  | case2 t hne =>
    match t, hne with
    | [], _ => cases hx
    | [_], _ => cases hy
    | h :: l :: rest, hne => exact absurd rfl (hne h l rest)

@[simp] theorem hexToBytes_length (t : List UInt8) : (hexToBytes t).length = t.length / 2 := by
  induction t using hexToBytes.induct with
  | case1 h l rest ih =>
    rw [hexToBytes, List.length_cons, ih, List.length_cons, List.length_cons]
    omega
  | case2 t hne =>
    match t, hne with
    | [], _ => rfl
    | [_], _ => simp [hexToBytes]
    | h :: l :: rest, hne => exact absurd rfl (hne h l rest)

theorem digit_at {t : List UInt8} {i n : Nat} (h : t[i]? >>= hexDigit = some n) :
    ∃ x, t[i]? = some x ∧ hexDigit x = some n :=
  Option.bind_eq_some_iff.1 h

/-- The number that is stored is the one that the digits encode. -/
theorem word_encoded {t behind : List UInt8} {k n : Nat} (h : encoded t k = some n) :
    (word (hexToBytes (t ++ behind)) k).toNat = n := by
  obtain ⟨a, ha, h⟩ := Option.bind_eq_some_iff.1 h
  obtain ⟨b, hb, h⟩ := Option.bind_eq_some_iff.1 h
  obtain ⟨c, hc, h⟩ := Option.bind_eq_some_iff.1 h
  obtain ⟨d, hd, h⟩ := Option.bind_eq_some_iff.1 h
  obtain ⟨x, hx, hxa⟩ := digit_at ha
  obtain ⟨y, hy, hyb⟩ := digit_at hb
  obtain ⟨z, hz, hzc⟩ := digit_at hc
  obtain ⟨u, hu, hud⟩ := digit_at hd
  have hfront : ∀ {i : Nat} {v : UInt8}, t[i]? = some v → (t ++ behind)[i]? = some v := by
    intro i v hv
    rw [List.getElem?_append_left (List.getElem?_eq_some_iff.1 hv).1, hv]
  have hlo : (hexToBytes (t ++ behind)).getD (2 * k) 0 = castChar x <<< 4 ||| castChar y := by
    apply hexToBytes_getD
    · rw [show 2 * (2 * k) = 4 * k by omega]
      exact hfront hx
    · rw [show 2 * (2 * k) + 1 = 4 * k + 1 by omega]
      exact hfront hy
  have hhi : (hexToBytes (t ++ behind)).getD (2 * k + 1) 0 = castChar z <<< 4 ||| castChar u := by
    apply hexToBytes_getD
    · rw [show 2 * (2 * k + 1) = 4 * k + 2 by omega]
      exact hfront hz
    · rw [show 2 * (2 * k + 1) + 1 = 4 * k + 3 by omega]
      exact hfront hu
  rw [word_toNat, hlo, hhi, byte_digits hxa hyb, byte_digits hzc hud]
  exact Option.some.inj h

example : word (hexToBytes [67, 56, 48, 49]) 0 = 0x01c8 := by decide

end Wpc.Iout

/-! ## Which texts stay in their buffers -/

namespace Wpc.RegFile

open Iout

/-! ## The device tree -/

/-- A text that fits is decoded inside of the block. -/
theorem stays_hexToBytes {size len : Nat} (hs : len < size) (h28 : len / 2 ≤ 28) :
    ∀ op ∈ hexToBytesOps size len, Heap.Stays (Heap.only Block.retdata 28) op := by
  intro op hop
  cases hop with
  | head =>
    rw [Heap.stays_fixed, Buf.within_zero]
    exact hs
  | tail _ hop =>
    obtain ⟨i, hi, hop⟩ := List.mem_flatMap.1 hop
    have hlt := List.mem_range.1 hi
    cases hop with
    | head =>
      rw [Heap.stays_fixed]
      exact .inr (by omega)
    | tail _ hop =>
      obtain rfl := List.mem_singleton.1 hop
      rw [Heap.stays_access Heap.only_self]
      exact .inr (by omega)

/-- The byte behind the block is stored if the text is too long. -/
theorem access_hexToBytes {size len i : Nat} (h : i < len / 2) :
    .access .retdata i 1 ∈ hexToBytesOps size len :=
  .tail _ (List.mem_flatMap.2 ⟨i, List.mem_range.2 h, .tail _ (.head _)⟩)

theorem alloc_hexToBytes {size len n : Nat} {b : Block} : .alloc b n ∉ hexToBytesOps size len := by
  intro h
  cases h with
  | tail _ h =>
    obtain ⟨i, -, h⟩ := List.mem_flatMap.1 h
    simp at h

/-- The value of the device tree fits. -/
def FitsIdme (idme : Idme) : Prop :=
  ∀ t, idme.alloc = true → idme.node = true → idme.value = some t → t.chars.length ≤ 57

theorem idme_safe_iff (idme : Idme) : Heap.Safe (idmeGetWpcIoutCal idme).2 ↔ FitsIdme idme := by
  have hempty : Heap.Safe [.alloc Block.retdata 28, .free Block.retdata 0] :=
    Heap.safe_block [] [] nofun nofun
  unfold idmeGetWpcIoutCal FitsIdme
  cases ha : idme.alloc with
  | false => exact iff_of_true rfl nofun
  | true =>
    cases hn : idme.node with
    | false => exact iff_of_true hempty nofun
    | true =>
      cases hv : idme.value with
      | none => exact iff_of_true hempty nofun
      | some text =>
        simp only [Bool.not_true, Bool.false_eq_true, if_false, Option.some.injEq, true_implies,
          forall_eq']
        constructor
        · intro h
          by_contra hlen
          have hstore : .access .retdata 28 1 ∈
              hexToBytesOps (text.chars.length + 1) text.chars.length :=
            access_hexToBytes (by omega)
          obtain ⟨size, hm, hw⟩ :=
            h.access (.tail _ (List.mem_append_left _ (List.mem_append_left _ hstore)))
          have hsize : size = 28 := by
            obtain hm | hm := List.mem_cons.1 hm
            · cases hm
              rfl
            · simp [alloc_hexToBytes] at hm
          rw [Buf.within_pos (by decide)] at hw
          omega
        · intro hlen
          refine Heap.safe_block [] _ nofun fun op hop => ?_
          obtain hop | hop := List.mem_append.1 hop
          · exact stays_hexToBytes (by omega) (by omega) op hop
          · obtain ⟨i, hi, hop⟩ := List.mem_flatMap.1 hop
            have hlt := List.mem_range.1 hi
            cases hop with
            | head =>
              rw [Heap.stays_access Heap.only_self]
              exact .inr (by omega)
            | tail _ hop =>
              obtain rfl := List.mem_singleton.1 hop
              rw [Heap.stays_fixed]
              exact .inr (by omega)

/-! ## The file of the calibration -/

/-- A calibration is accepted from the file. -/
def Forced (buf : CStr) (alloc : Bool) : Prop := buf.chars.length = 57 ∧ alloc = true

section

variable (env : Nat → Turn) (s : Dev)

/-- The text of the copy only ends behind it. -/
theorem force_safe_iff (buf : CStr) (count : Nat) (alloc : Bool) (behind : CStr) :
    Heap.Safe (forceIoutCalDataStore env s buf count alloc behind).ops ↔ ¬ Forced buf alloc := by
  have hstrlen : Heap.Safe
      [(.fixed (buf.chars.length + 1) 0 (buf.chars.length + 1) : Heap.Op Block)] := by
    apply Heap.safe_fixed
    intro op hop
    obtain rfl := List.mem_singleton.1 hop
    rw [Heap.stays_fixed, Buf.within_zero]
  unfold forceIoutCalDataStore Forced
  by_cases hl : buf.chars.length = 57
  · have hsize : (buf.chars.length : Int) - 1 = 56 := by omega
    cases alloc with
    | false =>
      simp only [hsize, ne_eq, not_true_eq_false, if_false, Bool.not_false, if_true]
      exact iff_of_true hstrlen nofun
    | true =>
      simp only [hsize, ne_eq, not_true_eq_false, if_false, Bool.not_true, Bool.false_eq_true]
      refine iff_of_false (fun h => ?_) (not_not.2 ⟨hl, trivial⟩)
      have hstrlen : .fixed 56 0 ((buf.chars.take 56 ++ behind.chars).length + 1) ∈
          hexToBytesOps 56 (buf.chars.take 56 ++ behind.chars).length := .head _
      have hw := h.fixed (.tail _ (.tail _ (List.mem_append_left _ (List.mem_append_left _
        (List.mem_append_right _ hstrlen)))))
      rw [Buf.within_zero, List.length_append, List.length_take, hl] at hw
      omega
  · have hsize : (buf.chars.length : Int) - 1 ≠ 56 := by omega
    simp only [hsize, ne_eq, not_false_eq_true, if_true]
    exact iff_of_true hstrlen fun h => hl h.1

theorem ops_iout {buf : CStr} {count : Nat} {idme : Idme}
    (hk : Kstrtox.kstrtoint buf.chars 10 = .ok 1) :
    (ioutCalDataStore env s buf count idme).ops = (idmeGetWpcIoutCal idme).2 := by
  have hget : (getIoutCalData s idme).2.2 = (idmeGetWpcIoutCal idme).2 := by
    unfold getIoutCalData
    dsimp only
    split <;> rfl
  rw [← hget]
  unfold ioutCalDataStore
  simp only [hk, Int.one_ne_zero, if_false, if_true]
  split_ifs <;> rfl

/-- A store of the calibration takes the text of the device tree if it asks for it. -/
theorem iout_safe_iff (buf : CStr) (count : Nat) (idme : Idme) :
    Heap.Safe (ioutCalDataStore env s buf count idme).ops ↔
      (Kstrtox.kstrtoint buf.chars 10 = .ok 1 → FitsIdme idme) := by
  by_cases h1 : Kstrtox.kstrtoint buf.chars 10 = .ok 1
  · rw [ops_iout env s h1, idme_safe_iff]
    exact ⟨fun h _ => h, fun h => h h1⟩
  · have hops : (ioutCalDataStore env s buf count idme).ops = [] := by
      unfold ioutCalDataStore
      cases hk : Kstrtox.kstrtoint buf.chars 10 with
      | error e => rfl
      | ok val =>
        have hne : val ≠ 1 := by
          rintro rfl
          exact h1 hk
        simp only [hne, if_false]
        split_ifs <;> rfl
    rw [hops]
    exact iff_of_true Heap.safe_nil fun h => absurd h h1

end

/-! ## The registers -/

/-- The lines of the registers stay in the array and in the page. -/
theorem stays_showLoop (addr : Nat) : ∀ (n i len : Nat), i + n ≤ 123 → len < 4096 →
    ∀ op ∈ (showLoop addr n i len).2, Heap.Stays (fun _ : Block => none) op := by
  intro n
  induction n with
  | zero =>
    intro i len _ _ op hop
    cases hop
  | succ n ih =>
    intro i len hi hlen op hop
    obtain rfl | hop := List.mem_cons.1 hop
    · rw [Heap.stays_fixed]
      exact .inr (by omega)
    obtain rfl | hop := List.mem_cons.1 hop
    · rw [Heap.stays_fixed]
      exact .inr (by omega)
    · exact ih (i + 1) _ (by omega) (by omega) op hop

/-- What is read from the chip fits in the array. -/
def FitsShow (reg : Reg) (pg : Bool) (read : BulkRead) : Prop :=
  pg = true → read.stored reg.size.toNat ≤ 123

theorem show_safe_iff (reg : Reg) (pg : Bool) (read : BulkRead) :
    Heap.Safe (regShow reg pg read).2 ↔ FitsShow reg pg read := by
  unfold regShow FitsShow
  cases pg with
  | false => exact iff_of_true Heap.safe_nil nofun
  | true =>
    simp only [Bool.not_true, Bool.false_eq_true, if_false, true_implies]
    constructor
    · intro h
      have hw : Buf.Within 123 0 (read.stored reg.size.toNat) := by
        apply h.fixed
        split_ifs
        · exact .head _
        · exact .head _
      exact Buf.within_zero.1 hw
    · intro h
      have hstored : Heap.Stays (fun _ : Block => none)
          (.fixed 123 0 (read.stored reg.size.toNat)) :=
        Heap.stays_fixed.2 (Buf.within_zero.2 h)
      apply Heap.safe_fixed
      split_ifs with h0
      · intro op hop
        obtain rfl := List.mem_singleton.1 hop
        exact hstored
      · intro op hop
        obtain rfl | hop := List.mem_cons.1 hop
        · exact hstored
        · have hsize : read.stored reg.size.toNat = reg.size.toNat := by
            rw [BulkRead.stored, if_pos (not_not.1 h0)]
          rw [hsize] at h
          exact stays_showLoop _ _ 0 0 (by omega) (by decide) op hop

section

variable {size off p : Nat} {tok : List UInt8} {toks : List (List UInt8)} {vals : List UInt8}

theorem tokenLoop_full (h : ¬ vals.length < size) :
    tokenLoop size off (tok :: toks) vals = ⟨vals, false, some off, []⟩ := by
  rw [tokenLoop, if_neg h]

theorem tokenLoop_empty (h : vals.length < size) :
    tokenLoop size off ([] :: toks) vals =
      { tokenLoop size (off + 0 + 1) toks vals with
        ops := .access .tmpData off 1 :: (tokenLoop size (off + 0 + 1) toks vals).ops } := by
  rw [tokenLoop, if_pos h]
  rfl

theorem tokenLoop_error (h : vals.length < size) (ht : tok ≠ []) {e : Int}
    (hk : Kstrtox.kstrtou8 tok 0 = .error e) :
    tokenLoop size off (tok :: toks) vals =
      ⟨vals, true, if toks = [] then none else some (off + tok.length + 1),
        [.access .tmpData off (tok.length + 1)]⟩ := by
  rw [tokenLoop, if_pos h, if_neg ht, hk]

theorem tokenLoop_ok (h : vals.length < size) (ht : tok ≠ []) {val : UInt8}
    (hk : Kstrtox.kstrtou8 tok 0 = .ok val) :
    tokenLoop size off (tok :: toks) vals =
      { tokenLoop size (off + tok.length + 1) toks (vals ++ [val]) with
        ops := .access .tmpData off (tok.length + 1) :: .fixed 123 vals.length 1 ::
          (tokenLoop size (off + tok.length + 1) toks (vals ++ [val])).ops } := by
  rw [tokenLoop, if_pos h, if_neg ht, hk]

/-- The loop over the tokens frees nothing. -/
theorem free_tokenLoop : .free .tmpData p ∉ (tokenLoop size off toks vals).ops := by
  induction toks generalizing off vals with
  | nil => nofun
  | cons tok toks ih =>
    by_cases h1 : vals.length < size
    · by_cases h2 : tok = []
      · subst h2
        rw [tokenLoop_empty h1]
        simp [ih]
      · cases hk : Kstrtox.kstrtou8 tok 0 with
        | error e =>
          rw [tokenLoop_error h1 h2 hk]
          simp
        | ok val =>
          rw [tokenLoop_ok h1 h2 hk]
          simp [ih]
    · rw [tokenLoop_full h1]
      nofun

/-- Once a token was taken the pointer is behind the start of the copy. -/
theorem tmpData_tokenLoop (hpos : 0 < off ∨ vals.length < size)
    (h : (tokenLoop size off toks vals).tmpData = some p) : 0 < p := by
  induction toks generalizing off vals with
  | nil => cases h
  | cons tok toks ih =>
    by_cases h1 : vals.length < size
    · by_cases h2 : tok = []
      · subst h2
        rw [tokenLoop_empty h1] at h
        exact ih (.inl (Nat.succ_pos _)) h
      · cases hk : Kstrtox.kstrtou8 tok 0 with
        | error e =>
          rw [tokenLoop_error h1 h2 hk] at h
          dsimp only at h
          split at h
          · cases h
          · cases h
            exact Nat.succ_pos _
        | ok val =>
          rw [tokenLoop_ok h1 h2 hk] at h
          exact ih (.inl (Nat.succ_pos _)) h
    · rw [tokenLoop_full h1] at h
      cases h
      exact hpos.resolve_right h1

end

/-- A store that comes to its copy. -/
def Copies (reg : Reg) (pg alloc : Bool) : Prop :=
  reg.size.toNat + reg.addr.toNat ≤ 123 ∧ reg.size.toNat ≠ 0 ∧ pg = true ∧ alloc = true

theorem store_safe_iff (reg : Reg) (buf : CStr) (count : Nat) (pg alloc : Bool) (write : Int) :
    Heap.Safe (regStore reg buf count pg alloc write).2 ↔ ¬ Copies reg pg alloc := by
  unfold regStore Copies
  dsimp only
  split_ifs with hr hp ha hv
  · exact iff_of_true Heap.safe_nil fun h => by omega
  · refine iff_of_true Heap.safe_nil fun h => ?_
    rw [h.2.2.1] at hp
    cases hp
  · refine iff_of_true (Heap.safe_fixed fun op hop => ?_) fun h => ?_
    · obtain rfl := List.mem_singleton.1 hop
      rw [Heap.stays_fixed, Buf.within_zero]
    · rw [h.2.2.2] at ha
      cases ha
  all_goals
    have hcopies : reg.size.toNat + reg.addr.toNat ≤ 123 ∧ reg.size.toNat ≠ 0 ∧
        pg = true ∧ alloc = true := by
      refine ⟨by omega, by omega, ?_, ?_⟩
      · simpa using hp
      · simpa using ha
    have hfree : Heap.Op.free Block.tmpData 0 ∉
        kfree (tokenLoop reg.size.toNat 0 (buf.chars.splitOn 32) []).tmpData := by
      intro hm
      unfold kfree at hm
      split at hm
      · cases hm
      · next p hp =>
        obtain hm := List.mem_singleton.1 hm
        cases hm
        exact absurd (tmpData_tokenLoop (.inr (by simp only [List.length_nil]; omega)) hp)
          (Nat.lt_irrefl 0)
    refine iff_of_false (fun h => ?_) (not_not.2 hcopies)
    have hfreed := h.freed .tmpData (buf.chars.length + 1) (by simp)
    simp [free_tokenLoop, hfree] at hfreed

end Wpc.RegFile
