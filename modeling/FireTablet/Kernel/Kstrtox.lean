import Mathlib.Data.List.Basic
import Mathlib.Algebra.Group.Int.Defs
import Mathlib.Algebra.Group.Nat.Defs

/-!
# Integers from texts (`lib/kstrtox.c`)

A text is the list of its characters up to the terminator, which reads as 0. The parsed number is
64 bits wide; a number that does not fit is refused with `-ERANGE`, anything else that is no number
with `-EINVAL`.
-/

namespace Kstrtox

/-- The value of a character as a digit of a base up to 16. -/
def digit (c : UInt8) : Option Nat :=
  let lc := c ||| 0x20
  if 48 ≤ c ∧ c ≤ 57 then some (c - 48).toNat
  else if 97 ≤ lc ∧ lc ≤ 102 then some ((lc - 97).toNat + 10)
  else none

/-- `_parse_integer_fixup_radix`, with the base and the text behind its prefix. -/
def parseIntegerFixupRadix (s : List UInt8) (base : Nat) : Nat × List UInt8 :=
  let at' := fun i => s.getD i 0
  let hex := at' 0 = 48 ∧ at' 1 ||| 0x20 = 120
  let base :=
    if base = 0 then
      if at' 0 = 48 then if hex ∧ (digit (at' 2)).isSome then 16 else 8 else 10
    else base
  if base = 16 ∧ hex then (base, s.drop 2) else (base, s)

/-- What `_parse_integer` returns: the number, whether it overflowed, how many characters it took
and the text behind them. -/
structure Parsed where
  res : Nat
  overflow : Bool
  rv : Nat
  rest : List UInt8

/-- The loop of `_parse_integer`; the overflow is only looked for once the top four bits are
used. -/
def parseInteger (base : Nat) (p : Parsed) : List UInt8 → Parsed
  | [] => { p with rest := [] }
  | c :: cs =>
    match digit c with
    | none => { p with rest := c :: cs }
    | some val =>
      if val ≥ base then { p with rest := c :: cs }
      else
        let overflows := p.res ≥ 2 ^ 60 ∧ p.res > (2 ^ 64 - 1 - val) / base
        parseInteger base
          { p with res := (p.res * base + val) % 2 ^ 64, overflow := p.overflow || overflows
                   rv := p.rv + 1 } cs

/-- `_kstrtoull`: one newline may stand behind the number. -/
def kstrtoull' (s : List UInt8) (base : Nat) : Except Int Nat :=
  let r := parseIntegerFixupRadix s base
  let p := parseInteger r.1 ⟨0, false, 0, []⟩ r.2
  if p.overflow then .error (-34)
  else if p.rv = 0 then .error (-22)
  else if p.rest = [] ∨ p.rest = [10] then .ok p.res
  else .error (-22)

def kstrtoull (s : List UInt8) (base : Nat) : Except Int Nat :=
  kstrtoull' (if s.head? = some 43 then s.tail else s) base

/-- `kstrtoll`; `-tmp` is positive as a `long long` for every number beyond 2^63. -/
def kstrtoll (s : List UInt8) (base : Nat) : Except Int Int :=
  if s.head? = some 45 then do
    let tmp ← kstrtoull' s.tail base
    if tmp > 2 ^ 63 then .error (-34) else .ok (-(tmp : Int))
  else do
    let tmp ← kstrtoull s base
    if tmp ≥ 2 ^ 63 then .error (-34) else .ok tmp

def kstrtoint (s : List UInt8) (base : Nat) : Except Int Int := do
  let tmp ← kstrtoll s base
  if -2 ^ 31 ≤ tmp ∧ tmp < 2 ^ 31 then .ok tmp else .error (-34)

def kstrtouint (s : List UInt8) (base : Nat) : Except Int Nat := do
  let tmp ← kstrtoull s base
  if tmp < 2 ^ 32 then .ok tmp else .error (-34)

def kstrtou8 (s : List UInt8) (base : Nat) : Except Int UInt8 := do
  let tmp ← kstrtoull s base
  if tmp < 256 then .ok (UInt8.ofNat tmp) else .error (-34)

/-- What a step refuses, the whole refuses. -/
theorem bind_error {α β : Type} {x : Except Int α} {f : α → Except Int β} {e : Int}
    (h : (x >>= f) = .error e) : x = .error e ∨ ∃ a, x = .ok a ∧ f a = .error e := by
  cases x with
  | error e' =>
    cases h
    exact .inl rfl
  | ok a => exact .inr ⟨a, rfl, h⟩

theorem kstrtoull'_error {s : List UInt8} {base : Nat} {e : Int}
    (h : kstrtoull' s base = .error e) : e < 0 := by
  unfold kstrtoull' at h
  dsimp only at h
  split at h
  · cases h
    decide
  · split at h
    · cases h
      decide
    · split at h
      · cases h
      · cases h
        decide

theorem kstrtoll_error {s : List UInt8} {base : Nat} {e : Int}
    (h : kstrtoll s base = .error e) : e < 0 := by
  unfold kstrtoll at h
  split at h
  · obtain h | ⟨a, -, h⟩ := bind_error h
    · exact kstrtoull'_error h
    · split at h
      · cases h
        decide
      · cases h
  · obtain h | ⟨a, -, h⟩ := bind_error h
    · exact kstrtoull'_error h
    · split at h
      · cases h
        decide
      · cases h

/-- A text is refused with a negative error. -/
theorem kstrtoint_error {s : List UInt8} {base : Nat} {e : Int}
    (h : kstrtoint s base = .error e) : e < 0 := by
  unfold kstrtoint at h
  obtain h | ⟨a, -, h⟩ := bind_error h
  · exact kstrtoll_error h
  · split at h
    · cases h
    · cases h
      decide

example : kstrtoint [45, 49, 50, 10] 10 = .ok (-12) := by decide

example : kstrtou8 [48, 120, 49, 70] 0 = .ok 31 := by decide

end Kstrtox
