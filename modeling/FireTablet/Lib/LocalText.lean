import Mathlib.Data.List.TakeWhile

/-!
# Texts in local arrays

A local array starts without values. A store behind its end and a read of a byte without a value
are not defined. `strncpyBytes` is what `strncpy` stores, from a source that is read no further
than its terminator.
-/

namespace LocalText

/-- The bytes of an array; `none` is one without a value. -/
abbrev Cells := List (Option UInt8)

/-- A new array. -/
def blank (n : Nat) : Cells := List.replicate n none

/-- Store a byte. -/
def put (b : Cells) (i : Nat) (v : UInt8) : Option Cells :=
  if i < b.length then some (b.set i (some v)) else none

/-- Store bytes one after the other. -/
def puts (b : Cells) (i : Nat) : List UInt8 → Option Cells
  | [] => some b
  | v :: vs => (put b i v).bind fun b => puts b (i + 1) vs

/-- Read a text with its terminator. -/
def text : Cells → Option (List UInt8)
  | some v :: b => if v = 0 then some [] else (text b).map (v :: ·)
  | _ => none

/-- The bytes that `strncpy` stores: behind the terminator it stores zeros. -/
def strncpyBytes : List UInt8 → Nat → Option (List UInt8)
  | _, 0 => some []
  | [], _ + 1 => none
  | v :: vs, n + 1 =>
    if v = 0 then some (List.replicate (n + 1) 0) else (strncpyBytes vs n).map (v :: ·)

/-- The characters before the terminator. -/
def chars (bytes : List UInt8) : List UInt8 := bytes.takeWhile (· ≠ 0)

theorem put_eq {b : Cells} {i : Nat} {v : UInt8} (h : i < b.length) :
    put b i v = some (b.set i (some v)) := if_pos h

theorem puts_eq : ∀ {vs : List UInt8} {b : Cells} {i : Nat}, i + vs.length ≤ b.length →
    puts b i vs = some (b.take i ++ vs.map some ++ b.drop (i + vs.length))
  | [], b, i, _ => by simp [puts]
  | v :: vs, b, i, h => by
    simp only [List.length_cons] at h
    rw [puts, put_eq (by omega), Option.bind_some, puts_eq (by rw [List.length_set]; omega)]
    congr 1
    rw [List.take_set, List.drop_set_of_lt (by omega), List.take_add_one,
      List.getElem?_eq_getElem (by omega), List.length_cons,
      show i + 1 + vs.length = i + (vs.length + 1) by omega]
    have hlen : i = (b.take i).length := by rw [List.length_take]; omega
    have hset : (b.take i ++ [b[i]]).set i (some v) = b.take i ++ [some v] := by
      rw [List.set_append_right _ _ (by omega), ← hlen]
      simp
    simp only [Option.toList_some, List.map_cons]
    rw [hset]
    simp

theorem puts_none : ∀ {vs : List UInt8} {b : Cells} {i : Nat}, i ≤ b.length →
    b.length < i + vs.length → puts b i vs = none
  | [], b, i, hi, h => absurd h (by simpa using hi)
  | v :: vs, b, i, _, h => by
    rw [puts]
    by_cases hlt : i < b.length
    · rw [put_eq hlt, Option.bind_some]
      refine puts_none (by rw [List.length_set]; omega) ?_
      rw [List.length_set]
      simp only [List.length_cons] at h
      omega
    · rw [put, if_neg hlt]
      rfl

/-- The text of stored bytes, the terminator among them or right behind them. -/
theorem text_map_some {vs : List UInt8} {b : Cells} :
    text (vs.map some ++ some 0 :: b) = some (chars vs) := by
  induction vs with
  | nil => rfl
  | cons v vs ih =>
    unfold chars at ih ⊢
    by_cases hv : v = 0
    · simp [text, hv]
    · simp [text, hv, ih]

/-- What is stored behind the terminator does not change the text. -/
theorem text_set : ∀ {b : Cells} {s : List UInt8} {k : Nat} {v : Option UInt8},
    text b = some s → s.length < k → text (b.set k v) = some s
  | some c :: b, s, k + 1, v, h, hk => by
    rw [text] at h
    rw [List.set_cons_succ, text]
    by_cases hc : c = 0
    · rwa [if_pos hc] at h ⊢
    · rw [if_neg hc] at h ⊢
      obtain ⟨s', hs', rfl⟩ := Option.map_eq_some_iff.mp h
      rw [text_set hs' (by simpa using hk)]
      rfl

/-- The text of an array that is filled and then cut. -/
theorem text_cut {b : Cells} {w : List UInt8} {k : Nat} (hw : w.length ≤ b.length)
    (hk : k ≤ w.length) (hb : k < b.length) :
    (do text (← put (← puts b 0 w) k 0)) = some (chars (w.take k)) := by
  have hlen : k < (w.map some ++ b.drop w.length).length := by
    rw [List.length_append, List.length_map, List.length_drop]
    omega
  simp only [Option.bind_eq_bind]
  rw [puts_eq (by omega), Option.bind_some, List.take_zero, List.nil_append, Nat.zero_add,
    put_eq hlen, Option.bind_some, List.set_eq_take_append_cons_drop, if_pos hlen,
    List.take_append_of_le_length (by rw [List.length_map]; exact hk), ← List.map_take,
    text_map_some]

theorem chars_eq_self {w : List UInt8} (h : ∀ c ∈ w, c ≠ 0) : chars w = w :=
  List.takeWhile_eq_self_iff.2 fun c hc => decide_eq_true (h c hc)

theorem strncpyBytes_eq : ∀ {src : List UInt8} {n : Nat}, n ≤ src.length →
    ∃ w, strncpyBytes src n = some w ∧ w.length = n ∧
      ∀ k ≤ n, chars (w.take k) = chars (src.take k)
  | _, 0, _ => ⟨[], by simp [strncpyBytes], rfl, fun k hk => by
      rw [Nat.le_zero.mp hk, List.take_zero, List.take_zero]⟩
  | v :: vs, n + 1, h => by
    by_cases hv : v = 0
    · subst hv
      refine ⟨_, rfl, by simp, fun k hk => ?_⟩
      cases k with
      | zero => simp
      | succ k => simp [chars, List.replicate_succ]
    · obtain ⟨w, hw, hlen, hchars⟩ := strncpyBytes_eq (Nat.le_of_succ_le_succ h)
      refine ⟨v :: w, by simp [strncpyBytes, hv, hw], by simp [hlen], fun k hk => ?_⟩
      cases k with
      | zero => simp
      | succ k =>
        have ih := hchars k (by omega)
        unfold chars at ih ⊢
        simpa [hv] using ih

end LocalText
