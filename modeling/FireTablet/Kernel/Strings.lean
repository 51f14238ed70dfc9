import FireTablet.Lib.Buf
import FireTablet.Lib.CInt
import Mathlib.Data.Nat.Digits.Lemmas

/-!
# The string functions of the kernel (`lib/string.c`, `lib/vsprintf.c`)

A function that fills a block gives the accesses it makes: bytes that it stores in the block, parts
of other blocks that it reads, and sizes that it gives to `snprintf`. `printAll` prints texts one
behind the other and adds up what `snprintf` returns; all its accesses are good and the length that
is added up leaves room for the terminator exactly when the texts fit (`printAll_fits_iff`).
-/

namespace Strings

open CInt

/-! ## Accesses -/

inductive Access where
  | write (off : Int) (bytes : List UInt8)
  | read (size off len : Nat)
  | sized (size : Int)

/-- The access touches no byte outside of its block, the one that is filled having `top` bytes, and
no size is negative. -/
def Access.Ok (top : Nat) : Access → Prop
  | .write off bytes => bytes = [] ∨ 0 ≤ off ∧ off + bytes.length ≤ top
  | .read size off len => Buf.Within size off len
  | .sized size => 0 ≤ size

/-- Every access of a list is good. -/
def Ok (top : Nat) (ops : List Access) : Prop := ∀ a ∈ ops, a.Ok top

@[simp] theorem ok_nil {top : Nat} : Ok top [] := fun _ h => absurd h List.not_mem_nil

@[simp] theorem ok_cons {top : Nat} {a : Access} {ops : List Access} :
    Ok top (a :: ops) ↔ a.Ok top ∧ Ok top ops := by
  unfold Ok
  exact List.forall_mem_cons

@[simp] theorem ok_append {top : Nat} {as bs : List Access} :
    Ok top (as ++ bs) ↔ Ok top as ∧ Ok top bs := by
  unfold Ok
  exact List.forall_mem_append

/-! ## Texts -/

/-- A text that is terminated inside its block of `n` bytes. -/
structure Text (n : Nat) where
  chars : List UInt8
  nonzero : 0 ∉ chars
  length_lt : chars.length < n

/-- The text is read with its terminator. -/
def Text.read {n : Nat} (t : Text n) : Access := .read n 0 (t.chars.length + 1)

@[simp] theorem Text.read_ok {n top : Nat} (t : Text n) : t.read.Ok top :=
  Buf.within_zero.2 t.length_lt

/-- The bytes of a literal. -/
def ascii (s : String) : List UInt8 := s.toList.map fun c => UInt8.ofNat c.toNat

/-- The length of the text that a block starts with, of the whole block if nothing ends it. -/
def strlen (bytes : List UInt8) : Nat := (bytes.takeWhile (· ≠ 0)).length

/-- `%d` -/
def decimal (x : Int) : List UInt8 :=
  let digits := if x = 0 then [48]
    else ((Nat.digits 10 x.natAbs).map fun d => UInt8.ofNat (48 + d)).reverse
  if x < 0 then 45 :: digits else digits

/-- `%08X` of a 32-bit number. -/
def hex8 (w : UInt32) : List UInt8 :=
  [7, 6, 5, 4, 3, 2, 1, 0].map fun k =>
    let d := w.toNat / 16 ^ k % 16
    UInt8.ofNat (if d < 10 then 48 + d else 55 + d)

@[simp] theorem length_hex8 (w : UInt32) : (hex8 w).length = 8 := rfl

theorem strlen_terminated {chars rest : List UInt8} (h : 0 ∉ chars) :
    strlen (chars ++ 0 :: rest) = chars.length := by
  have hall : ∀ b ∈ chars, decide (b ≠ 0) = true := by
    intro b hb
    exact decide_eq_true fun h0 => h (h0 ▸ hb)
  rw [strlen, List.takeWhile_append_of_pos hall, List.takeWhile_cons_of_neg (by decide),
    List.append_nil]

/-- A text ends inside its block when there is a zero byte. -/
theorem strlen_lt_iff {bytes : List UInt8} : strlen bytes < bytes.length ↔ 0 ∈ bytes := by
  induction bytes with
  | nil => simp [strlen]
  | cons b bs ih =>
    by_cases hb : b = 0
    · subst hb
      simp [strlen]
    · have hne : (0 : UInt8) ≠ b := fun h => hb h.symm
      simpa [strlen, hb, hne] using ih

/-- The length of a number with at most `k` digits. -/
theorem length_decimal_le {x : Int} {k : Nat} (h : x.natAbs < 10 ^ (k + 1)) :
    (decimal x).length ≤ if x < 0 then k + 2 else k + 1 := by
  have hd : ((Nat.digits 10 x.natAbs).map fun d => UInt8.ofNat (48 + d)).reverse.length ≤
      k + 1 := by
    rw [List.length_reverse, List.length_map]
    exact (Nat.digits_length_le_iff (by decide) _).2 h
  unfold decimal
  by_cases hx : x = 0
  · subst hx
    simp
  · by_cases hn : x < 0
    · simpa [hx, hn] using hd
    · simpa [hx, hn] using hd

theorem length_decimal_i32 (x : Int) : (decimal (i32 x)).length ≤ 11 := by
  have hx := isI32_i32 x
  unfold IsI32 at hx
  have h := length_decimal_le (k := 9) (show (i32 x).natAbs < 10 ^ (9 + 1) by omega)
  split at h <;> omega

theorem length_decimal_nat {n : Nat} (h : n < 2147483648) : (decimal n).length ≤ 10 := by
  have hd := length_decimal_le (k := 9) (show (n : Int).natAbs < 10 ^ (9 + 1) by omega)
  rwa [if_neg (by omega)] at hd

/-! ## Copies -/

/-- `strncpy` of a text without its terminator: what is left of the `n` bytes is zero. -/
def strncpy (off : Int) (src : List UInt8) (n : Nat) : List Access :=
  [.write off (src.take n ++ List.replicate (n - src.length) 0)]

/-- `strlcpy` -/
def strlcpy {n : Nat} (off : Int) (src : Text n) (size : Nat) : List Access :=
  src.read :: if size = 0 then [] else [.write off (src.chars.take (size - 1) ++ [0])]

/-- `snprintf` with the text that its format gives: a size above `INT_MAX` is refused. -/
def snprintf (off size : Int) (text : List UInt8) : Int × List Access :=
  if size < 0 then (0, [.sized size])
  else (text.length,
    [.sized size, .write off (if size = 0 then [] else text.take (size - 1).toNat ++ [0])])

theorem strncpy_ok {off : Int} {src : List UInt8} {n top : Nat} (h0 : 0 ≤ off)
    (h : off + n ≤ top) : Ok top (strncpy off src n) := by
  rw [strncpy, ok_cons]
  refine ⟨Or.inr ⟨h0, ?_⟩, ok_nil⟩
  rw [List.length_append, List.length_take, List.length_replicate]
  omega

theorem strlcpy_ok {n size top : Nat} {off : Int} {src : Text n} (h0 : 0 ≤ off)
    (h : off + min size (src.chars.length + 1) ≤ top) : Ok top (strlcpy off src size) := by
  rw [strlcpy, ok_cons]
  refine ⟨src.read_ok, ?_⟩
  split
  · exact ok_nil
  · rw [ok_cons]
    refine ⟨Or.inr ⟨h0, ?_⟩, ok_nil⟩
    rw [List.length_append, List.length_take, List.length_singleton]
    omega

theorem snprintf_fst (off : Int) {size : Int} (text : List UInt8) (h : 0 ≤ size) :
    (snprintf off size text).1 = text.length := by
  rw [snprintf, if_neg (by omega)]

/-- A size that is not negative and not more than there is room for. -/
theorem snprintf_ok {off size : Int} {text : List UInt8} {top : Nat} (h0 : 0 ≤ off)
    (hs : 0 ≤ size) (h : off + size ≤ top) : Ok top (snprintf off size text).2 := by
  rw [snprintf, if_neg (by omega), ok_cons, ok_cons]
  refine ⟨hs, ?_, ok_nil⟩
  by_cases hz : size = 0
  · exact Or.inl (if_pos hz)
  · refine Or.inr ⟨h0, ?_⟩
    rw [if_neg hz, List.length_append, List.length_take, List.length_singleton]
    omega

theorem snprintf_negative (off : Int) {size : Int} (text : List UInt8) (top : Nat) (h : size < 0) :
    ¬ Ok top (snprintf off size text).2 := by
  rw [snprintf, if_pos h, ok_cons]
  intro hok
  exact absurd hok.1 (Int.not_le.2 h)

/-! ## Texts one behind the other -/

/-- A call of `snprintf` with what it reads for its arguments. Where `clamped` is set, no more than
the size is added to the length. -/
structure Print where
  text : List UInt8
  reads : List Access
  clamped : Bool

/-- The prints from a length on, into a block that has `size` bytes behind the first `base`. -/
def printAll (base size : Int) : List Print → Int → Int × List Access
  | [], n => (n, [])
  | p :: ps, n =>
    let room := i32 (size - n)
    let l := snprintf (base + n) room p.text
    let r := printAll base size ps (i32 (n + if p.clamped then min l.1 room else l.1))
    (r.1, p.reads ++ l.2 ++ r.2)

/-- The length of all the texts. -/
def total (ps : List Print) : Nat := (ps.map fun p => p.text.length).sum

@[simp] theorem total_nil : total [] = 0 := rfl

@[simp] theorem total_cons {p : Print} {ps : List Print} :
    total (p :: ps) = p.text.length + total ps := by
  simp [total]

@[simp] theorem total_append {ps qs : List Print} : total (ps ++ qs) = total ps + total qs := by
  simp [total]

/-- The reads of all the prints. -/
def reads (ps : List Print) : List Access := ps.flatMap Print.reads

@[simp] theorem reads_nil : reads [] = [] := rfl

@[simp] theorem reads_cons {p : Print} {ps : List Print} :
    reads (p :: ps) = p.reads ++ reads ps := by
  simp [reads]

@[simp] theorem reads_append {ps qs : List Print} : reads (ps ++ qs) = reads ps ++ reads qs := by
  simp [reads]

/-- The length behind one print, as long as the length before it was not above the size. -/
theorem printAll_cons_fst {base size : Int} {p : Print} {ps : List Print} {n : Nat}
    (hs : size < 2147483648) (hle : (n : Int) ≤ size) :
    (printAll base size (p :: ps) (i32 n)).1 = (printAll base size ps (i32 ((n : Int) +
      if p.clamped then min (p.text.length : Int) (size - n) else p.text.length))).1 := by
  have hi : i32 n = n := i32_eq (by unfold IsI32; omega)
  have hroom : i32 (size - n) = size - n := i32_eq (by unfold IsI32; omega)
  rw [printAll, hi, hroom, snprintf_fst _ _ (Int.sub_nonneg.2 hle)]

section

variable {base size : Int} {top : Nat} (hb : 0 ≤ base) (ht : base + size ≤ top)
  (hs : size < 2147483648)
include hb ht hs

/-- One print and those behind it, by the length before it. A length above the size makes the next
size negative; otherwise what is stored stays in the block. -/
theorem printAll_cons_ok {p : Print} {ps : List Print} {n : Nat} (hn : n ≤ size + 600) :
    Ok top (printAll base size (p :: ps) (i32 n)).2 ↔
      n ≤ size ∧ Ok top p.reads ∧ Ok top (printAll base size ps (i32 ((n : Int) +
        if p.clamped then min (p.text.length : Int) (size - n) else p.text.length))).2 := by
  have hroom : i32 (size - i32 n) = size - n := by
    unfold i32
    omega
  by_cases hle : (n : Int) ≤ size
  · have hi : i32 n = n := i32_eq (by unfold IsI32; omega)
    have hl := snprintf_fst (base + n) p.text (Int.sub_nonneg.2 hle)
    have hok : Ok top (snprintf (base + n) (size - n) p.text).2 :=
      snprintf_ok (by omega) (by omega) (by omega)
    rw [printAll, hroom, hi, hl, ok_append, ok_append]
    simp [hok, hle]
  · have hneg := snprintf_negative (base + i32 n) p.text top
      (show size - n < 0 by omega)
    rw [printAll, hroom, ok_append, ok_append]
    simp [hneg, hle]

/-- The accesses are good and the length leaves room for the terminator exactly when the reads are
good and the texts fit. Only texts that are clamped may be long; one of these that does not fit
brings the length to the size, and then there is no room. -/
theorem printAll_fits_iff {ps : List Print} (n : Nat) (hn : n ≤ size + 600)
    (hlen : ∀ p ∈ ps, p.clamped = false → p.text.length ≤ 600) :
    (Ok top (printAll base size ps (i32 n)).2 ∧
        u32 ((printAll base size ps (i32 n)).1 + 1) ≤ size) ↔
      Ok top (reads ps) ∧ n + total ps + 1 ≤ size := by
  induction ps generalizing n with
  | nil =>
    have hlast : u32 (i32 n + 1) = n + 1 := by
      unfold u32 i32
      omega
    simp only [printAll, hlast, reads_nil, total_nil, ok_nil, true_and]
    omega
  | cons p ps ih =>
    have htail := fun q hq => hlen q (List.mem_cons_of_mem p hq)
    rw [printAll_cons_ok hb ht hs hn, reads_cons, ok_append, total_cons]
    by_cases hle : (n : Int) ≤ size
    · rw [printAll_cons_fst hs hle]
      cases hc : p.clamped with
      | false =>
        have hp := hlen p List.mem_cons_self hc
        have h := ih (n + p.text.length) (by omega) htail
        simp only [Nat.cast_add] at h
        simp only [hle, true_and, Bool.false_eq_true, if_false, and_assoc, h]
        refine and_congr_right fun _ => and_congr_right fun _ => ?_
        omega
      | true =>
        obtain ⟨m, hm⟩ : ∃ m : Nat, (m : Int) = n + min (p.text.length : Int) (size - n) :=
          ⟨n + min p.text.length (size - n).toNat, by omega⟩
        have h := ih m (by omega) htail
        simp only [hle, true_and, if_true, and_assoc, ← hm, h]
        refine and_congr_right fun _ => and_congr_right fun _ => ?_
        omega
    · simp only [hle, false_and, false_iff, not_and]
      intro _
      omega

end

end Strings
