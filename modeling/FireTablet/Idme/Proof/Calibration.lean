import FireTablet.Idme.Idme
import FireTablet.Lib.Buf
import FireTablet.Lib.Run

/-!
# What the calibration calls give

`hexToBytes` stores one byte for each two characters and a zero behind them, so it stays in the
buffer exactly for texts of fewer than 192 characters; 96 bytes in hexadecimal are decoded, but
their terminator is stored behind the buffer (`hex_ok_iff`). What follows the terminator is left
from earlier calls. A call reads a fixed number of bytes, so it depends on its property's text alone
exactly if these end with the terminator at the latest (`independent_iff`).
-/

namespace Idme

/-! ## Decoding -/

/-- The bytes a text stands for. -/
def hexPairs : List (BitVec 8) → List (BitVec 8)
  | c0 :: c1 :: p => hexByte c0 c1 :: hexPairs p
  | _ => []

theorem length_hexPairs (s : List (BitVec 8)) : (hexPairs s).length = s.length / 2 := by
  induction s using hexPairs.induct with
  | case1 c0 c1 p ih =>
    rw [hexPairs, List.length_cons, ih, List.length_cons, List.length_cons]
    omega
  | case2 s h =>
    rw [hexPairs.eq_2 s h]
    cases s with
    | nil => rfl
    | cons c0 s =>
      cases s with
      | nil => simp
      | cons c1 p => exact absurd rfl (h c0 c1 p)

theorem hexStores_eq (i : Nat) (s : List (BitVec 8)) :
    hexStores i s = (hexPairs s).mapIdx fun j b => (i + j, b) := by
  induction s using hexPairs.induct generalizing i with
  | case1 c0 c1 p ih =>
    rw [hexStores, hexPairs, List.mapIdx_cons, ih, Nat.add_zero]
    refine congrArg _ (List.mapIdx_eq_mapIdx_iff.2 fun j hj => ?_)
    rw [Nat.add_right_comm, Nat.add_assoc]
  | case2 s h =>
    have hs : hexPairs s = [] := hexPairs.eq_2 s h
    rw [hs, List.mapIdx_nil]
    exact hexStores.eq_2 i s h

/-- The stores of `hexToBytes` are those of the bytes and the terminator, from offset 0 on. -/
theorem hexToBytes_eq (s : List (BitVec 8)) :
    hexToBytes s = (hexPairs s ++ [0]).mapIdx fun j b => (j, b) := by
  rw [hexToBytes, hexStores_eq, List.mapIdx_append, length_hexPairs, List.mapIdx_singleton,
    Nat.zero_add]
  simp only [Nat.zero_add]

theorem store_mapIdx (g : Nat → BitVec 8) (i : Nat) (bs : List (BitVec 8)) (j : Nat) :
    store g (bs.mapIdx fun k b => (i + k, b)) j =
      if i ≤ j then (bs[j - i]?).getD (g j) else g j := by
  induction bs generalizing g i with
  | nil => simp [store]
  | cons b bs ih =>
    have hstep : (fun k b => (i + (k + 1), b)) =
        fun (k : Nat) (b : BitVec 8) => (i + 1 + k, b) := by
      funext k b
      rw [Nat.add_right_comm, Nat.add_assoc]
    rw [List.mapIdx_cons, hstep, store, List.foldl_cons, ← store, ih]
    rcases Nat.lt_trichotomy j i with hlt | rfl | hgt
    · rw [if_neg (by omega), if_neg (by omega), Function.update_of_ne (by dsimp only; omega)]
    · rw [if_neg (by omega), if_pos (Nat.le_refl j)]
      simp
    · rw [if_pos (by omega), if_pos (by omega), Function.update_of_ne (by dsimp only; omega),
        show j - i = j - (i + 1) + 1 by omega, List.getElem?_cons_succ]

/-- **`hexToBytes`**: memory holds the bytes and a zero, and is what it was behind them. -/
theorem store_hexToBytes (g : Nat → BitVec 8) (s : List (BitVec 8)) (j : Nat) :
    store g (hexToBytes s) j = ((hexPairs s ++ [0])[j]?).getD (g j) := by
  have h := store_mapIdx g 0 (hexPairs s ++ [0]) j
  rw [if_pos (Nat.zero_le j), Nat.sub_zero] at h
  rw [hexToBytes_eq, ← h]
  simp only [Nat.zero_add]

/-! ## The encoding -/

/-- A digit in lower or upper case. -/
def hexDigit (upper : Bool) (d : Nat) : BitVec 8 :=
  BitVec.ofNat 8 (if d < 10 then 48 + d else if upper then 55 + d else 87 + d)

/-- The text of a list of bytes, in lower or upper case. -/
def hexEncode (upper : Bool) (bs : List UInt8) : List (BitVec 8) :=
  bs.flatMap fun b => [hexDigit upper (b.toNat / 16), hexDigit upper (b.toNat % 16)]

theorem castChar_hexDigit : ∀ (upper : Bool) (d : Fin 16),
    castChar (hexDigit upper d) = BitVec.ofNat 8 d := by
  decide

theorem nibbles : ∀ b : BitVec 8,
    (((BitVec.ofNat 8 (b.toNat / 16)).signExtend 32 <<< 4) |||
      (BitVec.ofNat 8 (b.toNat % 16)).signExtend 32).setWidth 8 = b := by
  decide

theorem hexByte_hexDigit (upper : Bool) (b : UInt8) :
    hexByte (hexDigit upper (b.toNat / 16)) (hexDigit upper (b.toNat % 16)) = b.toBitVec := by
  have hlt := b.toNat_lt
  have h0 := castChar_hexDigit upper ⟨b.toNat / 16, by omega⟩
  have h1 := castChar_hexDigit upper ⟨b.toNat % 16, by omega⟩
  dsimp only at h0 h1
  rw [hexByte, h0, h1]
  exact nibbles b.toBitVec

theorem length_hexEncode (upper : Bool) (bs : List UInt8) :
    (hexEncode upper bs).length = 2 * bs.length := by
  induction bs with
  | nil => rfl
  | cons b bs ih =>
    rw [hexEncode, List.flatMap_cons, ← hexEncode, List.length_append, ih]
    simp only [List.length_cons, List.length_nil]
    omega

theorem hexPairs_hexEncode (upper : Bool) (bs : List UInt8) :
    hexPairs (hexEncode upper bs) = bs.map (·.toBitVec) := by
  induction bs with
  | nil => rfl
  | cons b bs ih =>
    rw [hexEncode, List.flatMap_cons, ← hexEncode, List.map_cons, ← hexByte_hexDigit upper b, ← ih]
    rfl

theorem store_hexEncode (g : Nat → BitVec 8) (upper : Bool) {bs : List UInt8} {j : Nat}
    (hj : j < bs.length) : store g (hexToBytes (hexEncode upper bs)) j = bs[j].toBitVec := by
  rw [store_hexToBytes, hexPairs_hexEncode, List.getElem?_append_left (by simpa using hj),
    List.getElem?_map, List.getElem?_eq_getElem hj, Option.map_some, Option.getD_some]

/-! ## The values -/

theorem signExtend_and : ∀ b : BitVec 8, b.signExtend 32 &&& 0xFF#32 = b.setWidth 32 := by
  decide

theorem sensorWord_eq (b0 b1 : BitVec 8) : sensorWord b0 b1 = b1 ++ b0 := by
  unfold sensorWord
  rw [signExtend_and]
  ext i hi
  by_cases h8 : i < 8
  · simp [h8]
    grind
  · simp [BitVec.getLsbD_signExtend, h8]
    grind

theorem alscalWord_eq (b0 b1 b2 b3 : BitVec 8) :
    (b0.setWidth 32 ||| b1.setWidth 32 <<< 8 ||| b2.setWidth 32 <<< 16 |||
      b3.setWidth 32 <<< 24 : BitVec 32) = b3 ++ b2 ++ b1 ++ b0 := by
  ext i hi
  simp
  grind

theorem toNat_append {w : Nat} (x : BitVec w) (y : BitVec 8) :
    (x ++ y).toNat = y.toNat + 256 * x.toNat := by
  have h := y.isLt
  rw [BitVec.toNat_append, ← Nat.shiftLeft_add_eq_or_of_lt h, Nat.shiftLeft_eq]
  omega

/-- What decoding the text `s` of the bytes `bs` gives: the bytes, and the numbers of which they are
the little-endian bytes, as far as there are as many. -/
structure Decoded (bs : List UInt8) (s : List (BitVec 8)) (g : Nat → BitVec 8) : Prop where
  bytes : (List.range bs.length).map (store g (hexToBytes s)) = bs.map (·.toBitVec)
  sensorcal : ∀ size, 2 * min size 6 ≤ bs.length →
    ∃ data g', idmeGetSensorcal (some s) size g = (0, data, g') ∧
      data.map (·.toInt) = (List.range (min size 6)).map fun i =>
        ((Bytes.le ((bs.drop (2 * i)).take 2) : Nat) : Int).bmod (2 ^ 16)
  alscal : 4 ≤ bs.length →
    ∃ value g', idmeGetAlscalValue (some s) g = some (value, g') ∧
      value.toNat = Bytes.le (bs.take 4)

/-- `hexToBytes` stores inside the buffer, and decodes the text of up to 96 bytes. -/
structure HexOk (s : List (BitVec 8)) : Prop where
  inside : ∀ w ∈ hexToBytes s, w.1 < sensorCalSize
  decoded : ∀ (upper : Bool) (bs : List UInt8), bs.length ≤ 96 → s = hexEncode upper bs →
    ∀ g : Nat → BitVec 8, Decoded bs s g

theorem hexEncode_decoded (upper : Bool) (bs : List UInt8) (g : Nat → BitVec 8) :
    Decoded bs (hexEncode upper bs) g where
  bytes := by
    refine List.ext_getElem (by simp) fun j hj _ => ?_
    rw [List.length_map, List.length_range] at hj
    rw [List.getElem_map, List.getElem_range, List.getElem_map, store_hexEncode g upper hj]
  sensorcal := fun size hlen => by
    refine ⟨_, _, rfl, ?_⟩
    have hsize : (if size > 6 then 6 else size) = min size 6 := by split_ifs <;> omega
    rw [hsize, List.map_map]
    refine List.map_congr_left fun i hi => ?_
    have hi := List.mem_range.1 hi
    have h0 : i * 2 < bs.length := by omega
    have h1 : i * 2 + 1 < bs.length := by omega
    have htake : (bs.drop (2 * i)).take 2 = [bs[i * 2], bs[i * 2 + 1]] := by
      rw [Nat.mul_comm, List.drop_eq_getElem_cons h0, List.drop_eq_getElem_cons h1]
      rfl
    show (sensorWord _ _).toInt = _
    rw [store_hexEncode g upper h0, store_hexEncode g upper h1, sensorWord_eq, htake,
      BitVec.toInt_eq_toNat_bmod, toNat_append]
    rfl
  alscal := fun hlen => by
    refine ⟨_, _, rfl, ?_⟩
    have htake : bs.take 4 = [bs[0], bs[1], bs[2], bs[3]] := by
      refine List.ext_getElem (by simp; omega) fun j h1 h2 => ?_
      rw [List.getElem_take]
      match j, h2 with
      | 0, _ | 1, _ | 2, _ | 3, _ => rfl
    rw [store_hexEncode g upper (by omega : 0 < bs.length),
      store_hexEncode g upper (by omega : 1 < bs.length),
      store_hexEncode g upper (by omega : 2 < bs.length),
      store_hexEncode g upper (by omega : 3 < bs.length), signExtend_and, signExtend_and,
      signExtend_and, signExtend_and, alscalWord_eq, toNat_append, toNat_append, toNat_append,
      htake]
    rfl

/-- **Decoding** is right if and only if the text has fewer than 192 characters. -/
theorem hex_ok_iff (s : List (BitVec 8)) : HexOk s ↔ s.length < 192 := by
  have hlast : ((s.length / 2, 0) : Nat × BitVec 8) ∈ hexToBytes s :=
    List.mem_append_right _ (List.mem_singleton.2 rfl)
  constructor
  · intro h
    have := h.inside _ hlast
    unfold sensorCalSize at this
    omega
  · refine fun hlen => ⟨fun w hw => ?_, fun upper bs _ hs g => by
      rw [hs]
      exact hexEncode_decoded upper bs g⟩
    rw [hexToBytes_eq, List.mem_mapIdx] at hw
    obtain ⟨j, hj, rfl⟩ := hw
    rw [List.length_append, length_hexPairs, List.length_singleton] at hj
    show j < sensorCalSize
    unfold sensorCalSize
    omega

/-- **96 bytes**: the terminator of their text is stored behind the buffer. -/
theorem hex_96_bytes :
    (96, 0) ∈ hexToBytes (hexEncode false (List.replicate 96 255)) ∧
      ¬ HexOk (hexEncode false (List.replicate 96 255)) := by
  have hlen : (hexEncode false (List.replicate 96 255)).length = 192 := by
    rw [length_hexEncode, List.length_replicate]
  have hlast : (96, 0) ∈ hexToBytes (hexEncode false (List.replicate 96 255)) := by
    rw [hexToBytes, hlen]
    exact List.mem_append_right _ (List.mem_singleton.2 rfl)
  exact ⟨hlast, fun h => absurd (h.inside _ hlast) (by decide)⟩

/-! ## Independence of earlier calls -/

/-- The text of the property that a call reads. -/
def Call.own : Call → Tree → Option (List (BitVec 8))
  | .sensorcal _, t => t.sensorcal
  | .alscal, t => t.alscal

/-- The number of bytes that a call reads of what was decoded. -/
def Call.reads : Call → Nat
  | .sensorcal size => 2 * min size 6
  | .alscal => 4

/-- What a call gives is determined by its property's text, whatever the other property is and
whichever calls came before. -/
def Independent (c : Call) (text : Option (List (BitVec 8))) : Prop :=
  ∀ (t t' : Tree) (hist hist' : List Call) (es es' : List (Call × Result))
    (g g' : Nat → BitVec 8), c.own t = text → c.own t' = text →
    Sys.run (call t) gbuffer0 hist = some (es, g) →
    Sys.run (call t') gbuffer0 hist' = some (es', g') →
    (call t g c).map (·.1) = (call t' g' c).map (·.1)

/-- The bytes up to the terminator are those of the text. -/
theorem store_same (g g' : Nat → BitVec 8) {s : List (BitVec 8)} {j : Nat}
    (h : j < s.length / 2 + 1) : store g (hexToBytes s) j = store g' (hexToBytes s) j := by
  have hlt : j < (hexPairs s ++ [0]).length := by
    rw [List.length_append, length_hexPairs]
    exact h
  rw [store_hexToBytes, store_hexToBytes, List.getElem?_eq_getElem hlt, Option.getD_some,
    Option.getD_some]

/-- The bytes behind the terminator are what they were. -/
theorem store_behind (g : Nat → BitVec 8) {s : List (BitVec 8)} {j : Nat}
    (h : s.length / 2 + 1 ≤ j) : store g (hexToBytes s) j = g j := by
  have hge : (hexPairs s ++ [0]).length ≤ j := by
    rw [List.length_append, length_hexPairs]
    exact h
  rw [store_hexToBytes, List.getElem?_eq_none hge, Option.getD_none]

theorem sensorcal_data (s : List (BitVec 8)) (size : Nat) (g : Nat → BitVec 8) :
    (idmeGetSensorcal (some s) size g).2.1 = (List.range (min size 6)).map fun i =>
      store g (hexToBytes s) (i * 2 + 1) ++ store g (hexToBytes s) (i * 2) := by
  have hsize : (if size > 6 then 6 else size) = min size 6 := by split_ifs <;> omega
  unfold idmeGetSensorcal
  dsimp only
  rw [hsize]
  exact List.map_congr_left fun i _ => sensorWord_eq _ _

theorem alscal_value (s : List (BitVec 8)) (g : Nat → BitVec 8) :
    (idmeGetAlscalValue (some s) g).map (·.1) =
      some (store g (hexToBytes s) 3 ++ store g (hexToBytes s) 2 ++ store g (hexToBytes s) 1 ++
        store g (hexToBytes s) 0) := by
  rw [← alscalWord_eq, ← signExtend_and, ← signExtend_and, ← signExtend_and, ← signExtend_and]
  rfl

theorem independent_of_long {c : Call} {text : Option (List (BitVec 8))}
    (h : ∀ s, text = some s → c.reads ≤ s.length / 2 + 1) : Independent c text := by
  rintro t t' hist hist' es es' g g' ht ht' - -
  cases c with
  | sensorcal size =>
    change t.sensorcal = text at ht
    change t'.sensorcal = text at ht'
    unfold call
    dsimp only
    rw [ht, ht']
    cases text with
    | none => rfl
    | some s =>
      have hlen : 2 * min size 6 ≤ s.length / 2 + 1 := h s rfl
      have hdata : (idmeGetSensorcal (some s) size g).2.1 =
          (idmeGetSensorcal (some s) size g').2.1 := by
        rw [sensorcal_data, sensorcal_data]
        refine List.map_congr_left fun i hi => ?_
        have hi := List.mem_range.1 hi
        rw [store_same g g' (by omega), store_same g g' (by omega)]
      rw [Option.map_some, Option.map_some, hdata]
      rfl
  | alscal =>
    change t.alscal = text at ht
    change t'.alscal = text at ht'
    unfold call
    dsimp only
    rw [ht, ht']
    cases text with
    | none => rfl
    | some s =>
      have hlen : 4 ≤ s.length / 2 + 1 := h s rfl
      have hvalue : (idmeGetAlscalValue (some s) g).map (·.1) =
          (idmeGetAlscalValue (some s) g').map (·.1) := by
        rw [alscal_value, alscal_value, store_same g g' (by omega : 0 < s.length / 2 + 1),
          store_same g g' (by omega : 1 < s.length / 2 + 1),
          store_same g g' (by omega : 2 < s.length / 2 + 1),
          store_same g g' (by omega : 3 < s.length / 2 + 1)]
      have hall := congrArg (Option.map Result.alscal) hvalue
      rw [Option.map_map, Option.map_map] at hall ⊢
      exact hall

/-- A text of 24 bytes of ones. -/
def ones : List (BitVec 8) := hexEncode false (List.replicate 24 255)

theorem store_ones (g : Nat → BitVec 8) {j : Nat} (hj : j < 24) :
    store g (hexToBytes ones) j = 255 := by
  rw [ones, store_hexEncode g false (by simpa using hj), List.getElem_replicate]
  rfl

/-- **A call is independent** of earlier ones if and only if what it reads ends with the terminator
at the latest. -/
theorem independent_iff (c : Call) (text : Option (List (BitVec 8))) :
    Independent c text ↔ ∀ s, text = some s → c.reads ≤ s.length / 2 + 1 := by
  refine ⟨fun h s hs => ?_, independent_of_long⟩
  subst hs
  by_contra hshort
  -- after no call the last byte that is read is zero, after the other call it is one of its bytes
  cases c with
  | sensorcal size =>
    have heq := h ⟨some s, none⟩ ⟨some s, some ones⟩ [] [.alscal] _ _ _ _ rfl rfl rfl rfl
    have hdata : (idmeGetSensorcal (some s) size gbuffer0).2.1 =
        (idmeGetSensorcal (some s) size (store gbuffer0 (hexToBytes ones))).2.1 :=
      (Result.sensorcal.inj (Option.some.inj heq)).2
    change ¬ 2 * min size 6 ≤ s.length / 2 + 1 at hshort
    rw [sensorcal_data, sensorcal_data, List.map_inj_left] at hdata
    have hword := hdata (min size 6 - 1) (List.mem_range.2 (by omega))
    rw [store_behind gbuffer0 (j := (min size 6 - 1) * 2 + 1) (by omega),
      store_behind (store gbuffer0 (hexToBytes ones)) (j := (min size 6 - 1) * 2 + 1) (by omega),
      store_ones gbuffer0 (by omega)] at hword
    have hnat := congrArg BitVec.toNat hword
    rw [toNat_append, toNat_append] at hnat
    have h0 := (store gbuffer0 (hexToBytes s) ((min size 6 - 1) * 2)).isLt
    have h1 :=
      (store (store gbuffer0 (hexToBytes ones)) (hexToBytes s) ((min size 6 - 1) * 2)).isLt
    change _ + 256 * 0 = _ + 256 * 255 at hnat
    omega
  | alscal =>
    have heq := h ⟨none, some s⟩ ⟨some ones, some s⟩ [] [.sensorcal 0] _ _ _ _ rfl rfl rfl rfl
    have hvalue : (idmeGetAlscalValue (some s) gbuffer0).map (·.1) =
        (idmeGetAlscalValue (some s) (store gbuffer0 (hexToBytes ones))).map (·.1) :=
      congrArg some (Result.alscal.inj (Option.some.inj heq))
    change ¬ 4 ≤ s.length / 2 + 1 at hshort
    rw [alscal_value, alscal_value, Option.some.injEq, store_behind gbuffer0 (j := 3) (by omega),
      store_behind (store gbuffer0 (hexToBytes ones)) (j := 3) (by omega),
      store_ones gbuffer0 (by omega)] at hvalue
    have hnat := congrArg BitVec.toNat hvalue
    simp only [toNat_append] at hnat
    have hlt : ∀ (g : Nat → BitVec 8) (j : Nat), (store g (hexToBytes s) j).toNat < 256 :=
      fun g j => (store g (hexToBytes s) j).isLt
    have := hlt gbuffer0 0
    have := hlt gbuffer0 1
    have := hlt gbuffer0 2
    have := hlt (store gbuffer0 (hexToBytes ones)) 0
    have := hlt (store gbuffer0 (hexToBytes ones)) 1
    have := hlt (store gbuffer0 (hexToBytes ones)) 2
    change _ + 256 * (_ + 256 * (_ + 256 * 0)) = _ + 256 * (_ + 256 * (_ + 256 * 255)) at hnat
    omega

/-- **A text of two bytes**: the second word of the sensor calibration is 0 at first, and all ones
once the other property was read. -/
theorem sensorcal_stale :
    (idmeGetSensorcal (some (hexEncode false [1, 2])) 2 gbuffer0).2.1 = [0x0201, 0] ∧
      (idmeGetSensorcal (some (hexEncode false [1, 2])) 2 (store gbuffer0 (hexToBytes ones))).2.1 =
        [0x0201, 0xFF00] ∧
      ¬ ∀ c text, Independent c text := by
  have hfirst : (idmeGetSensorcal (some (hexEncode false [1, 2])) 2 gbuffer0).2.1 =
      [0x0201, 0] := by decide
  have hlater : (idmeGetSensorcal (some (hexEncode false [1, 2])) 2
      (store gbuffer0 (hexToBytes ones))).2.1 = [0x0201, 0xFF00] := by decide
  refine ⟨hfirst, hlater, fun h => ?_⟩
  have heq := h (.sensorcal 2) _ ⟨some (hexEncode false [1, 2]), none⟩
    ⟨some (hexEncode false [1, 2]), some ones⟩ [] [.alscal] _ _ _ _ rfl rfl rfl rfl
  have hdata := (Result.sensorcal.inj (Option.some.inj heq)).2
  exact absurd (hfirst.symm.trans (hdata.trans hlater)) (by decide)

end Idme
