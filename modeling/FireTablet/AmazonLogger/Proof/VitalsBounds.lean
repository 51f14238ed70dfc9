import FireTablet.AmazonLogger.Vitals

/-!
# Accesses while vitals are formatted

What `snprintf` returns is the length that the text would have. So a part of the metadata that does
not fit brings the length above the block's size, and the size of the next print wraps round. The
sizes are good, and with them all accesses, exactly when before every print the returned lengths add
up to a length inside the block (`formatting_bounded_iff`): a last part that is cut does no harm.
-/

namespace AmazonLogger

open CInt Strings

/-- Before each print what was returned adds up to a length in the block. -/
def Room (len : Int) : List (List UInt8) → Prop
  | [] => True
  | text :: texts => 0 ≤ len ∧ len ≤ vitalEntryMaxPayload ∧ Room (len + i32 text.length) texts

/-! ## One print -/

section
variable {blank : Mem} {len : Nat} (text : List UInt8) (h : len ≤ vitalEntryMaxPayload)
include h

/-- What a print with a good size stores. -/
theorem metadataPrint_eq :
    ∃ bytes, bytes = (if len = vitalEntryMaxPayload then [] else
        text.take (vitalEntryMaxPayload - len - 1) ++ [0]) ∧
      metadataPrint (blank, len) text =
        ((blank.store len bytes, (u64 (len + i32 text.length)).toNat),
          [.sized (vitalEntryMaxPayload - len), .write len bytes]) := by
  refine ⟨_, rfl, ?_⟩
  unfold vitalEntryMaxPayload at *
  have hsize : sizeSub 512 len = 512 - len := by
    unfold sizeSub
    omega
  have hoff : addrOffset len = len := if_pos (by omega)
  unfold metadataPrint vitalEntryMaxPayload
  dsimp only
  rw [hsize, hoff, if_neg (by unfold intMax; omega)]
  simp only [show 512 - len = 0 ↔ len = 512 by omega]

theorem metadataPrint_ok : Ok vitalEntryMaxPayload (metadataPrint (blank, len) text).2 := by
  obtain ⟨bytes, hbytes, heq⟩ := @metadataPrint_eq blank _ text h
  rw [heq, ok_cons, ok_cons]
  refine ⟨Int.sub_nonneg.2 (by omega), ?_, ok_nil⟩
  by_cases hfull : len = vitalEntryMaxPayload
  · rw [if_pos hfull] at hbytes
    exact .inl hbytes
  · rw [if_neg hfull] at hbytes
    refine .inr ⟨Int.natCast_nonneg _, ?_⟩
    rw [hbytes, List.length_append, List.length_take, List.length_singleton]
    omega

/-- Behind a print the block holds a terminator. -/
theorem metadataPrint_terminated
    (hz : len = vitalEntryMaxPayload → 0 ∈ blank.load 0 vitalEntryMaxPayload) :
    0 ∈ (metadataPrint (blank, len) text).1.1.load 0 vitalEntryMaxPayload := by
  obtain ⟨bytes, hbytes, heq⟩ := @metadataPrint_eq blank _ text h
  rw [heq]
  dsimp only
  by_cases hfull : len = vitalEntryMaxPayload
  · rw [if_pos hfull] at hbytes
    have hsame : blank.store len [] = blank := by
      funext x
      unfold Mem.store
      split <;> rfl
    rw [hbytes, hsame]
    exact hz hfull
  · rw [if_neg hfull] at hbytes
    have hlen : (text.take (vitalEntryMaxPayload - len - 1)).length <
        vitalEntryMaxPayload - len := by
      rw [List.length_take]
      omega
    generalize text.take (vitalEntryMaxPayload - len - 1) = stored at hbytes hlen
    unfold Mem.load
    refine List.mem_map.2 ⟨len + stored.length, List.mem_range.2 (by omega), ?_⟩
    rw [Mem.store, if_pos (by omega), hbytes,
      show (0 + ((len + stored.length : Nat) : Int) - len).toNat = stored.length by omega,
      List.getElem?_append_right (Nat.le_refl _), Nat.sub_self]
    rfl

end

/-- A print behind a length above the block's size. -/
theorem metadataPrint_wraps {blank : Mem} {len : Nat} (text : List UInt8)
    (h : vitalEntryMaxPayload < len) :
    ¬ Ok vitalEntryMaxPayload (metadataPrint (blank, len) text).2 := by
  have hsized : ¬ (Access.sized ((vitalEntryMaxPayload : Int) - len)).Ok vitalEntryMaxPayload :=
    Int.not_le.2 (by omega)
  unfold metadataPrint
  dsimp only
  split
  · exact fun hok => hsized (ok_cons.1 hok).1
  · exact fun hok => hsized (ok_cons.1 hok).1

/-! ## All prints -/

/-- The accesses are good exactly when there is room before every print. -/
theorem metadataPrints_ok_iff : ∀ (texts : List (List UInt8)) (blank : Mem) (len : Int),
    -2147483648 ≤ len → len < 2147484160 →
    (Ok vitalEntryMaxPayload (metadataPrints texts (blank, (u64 len).toNat)).2 ↔ Room len texts)
  | [], _, _, _, _ => ⟨fun _ => trivial, fun _ => ok_nil⟩
  | text :: texts, blank, len, hlo, hhi => by
    have hi := isI32_i32 text.length
    unfold IsI32 at hi
    rw [metadataPrints, ok_append, Room]
    by_cases hin : 0 ≤ len ∧ len ≤ vitalEntryMaxPayload
    · obtain ⟨h0, hle⟩ := hin
      have hlen : ((u64 len).toNat : Int) = len := by
        rw [u64_eq h0 (by omega)]
        exact Int.toNat_of_nonneg h0
      have hle' : (u64 len).toNat ≤ vitalEntryMaxPayload := by omega
      obtain ⟨bytes, -, heq⟩ := @metadataPrint_eq blank _ text hle'
      have hok := @metadataPrint_ok blank _ text hle'
      have ih := metadataPrints_ok_iff texts (blank.store len bytes)
        (len + i32 text.length) (by omega) (by unfold vitalEntryMaxPayload at hle; omega)
      rw [hlen] at heq
      rw [heq] at hok ⊢
      dsimp only at hok ⊢
      rw [ih]
      simp only [hok, h0, hle, true_and]
    · have hwrap : vitalEntryMaxPayload < (u64 len).toNat := by
        unfold u64 vitalEntryMaxPayload at *
        omega
      have hno := @metadataPrint_wraps blank _ text hwrap
      simp only [hno, false_and, false_iff]
      exact fun hroom => hin ⟨hroom.1, hroom.2.1⟩

/-- Where there is room the block stays terminated. -/
theorem metadataPrints_terminated (texts : List (List UInt8)) {blank : Mem} {len : Int}
    (hroom : Room len texts) (hhi : len < 2147484160)
    (hz : 0 ∈ blank.load 0 vitalEntryMaxPayload) :
    0 ∈ (metadataPrints texts (blank, (u64 len).toNat)).1.1.load 0 vitalEntryMaxPayload := by
  induction texts generalizing blank len with
  | nil => exact hz
  | cons text texts ih =>
    obtain ⟨h0, hle, hrest⟩ := hroom
    have hi := isI32_i32 text.length
    unfold IsI32 at hi
    have hlen : ((u64 len).toNat : Int) = len := by
      rw [u64_eq h0 (by omega)]
      exact Int.toNat_of_nonneg h0
    have hle' : (u64 len).toNat ≤ vitalEntryMaxPayload := by omega
    obtain ⟨bytes, -, heq⟩ := @metadataPrint_eq blank _ text hle'
    have hterm := @metadataPrint_terminated blank _ text hle' fun _ => hz
    rw [hlen] at heq
    rw [metadataPrints]
    dsimp only
    rw [heq] at hterm ⊢
    exact ih hrest (by unfold vitalEntryMaxPayload at hle; omega) hterm

/-- **An entry** is formatted inside its blocks exactly when there is room for its metadata. -/
theorem vitalsEntry_ok_iff (a : VitalsArgs) (metricsInit : Bool) (blank : Mem) (part : List UInt8)
    (parts : List (List UInt8)) (label tag : String) :
    (Ok vitalEntryMaxPayload
        (vitalsEntry a metricsInit blank (part :: parts) label tag).metadataMsg ∧
      Ok vitalEntryMaxPayload (vitalsEntry a metricsInit blank (part :: parts) label tag).str) ↔
      Room (i32 part.length) parts := by
  have hi := isI32_i32 part.length
  unfold IsI32 at hi
  have hok := metadataPrints_ok_iff (part :: parts) blank 0 (by omega) (by omega)
  have hfirst : Room 0 (part :: parts) ↔ Room (i32 part.length) parts := by
    rw [Room, Int.zero_add]
    exact ⟨fun h => h.2.2, fun h => ⟨Int.le_refl 0, Int.natCast_nonneg _, h⟩⟩
  rw [hfirst] at hok
  unfold vitalsEntry
  dsimp only
  refine ⟨fun h => hok.1 h.1, fun hroom => ⟨hok.2 hroom, ok_cons.2 ⟨?_, ?_⟩⟩⟩
  · -- the block of the metadata is terminated
    obtain ⟨bytes, -, heq⟩ := @metadataPrint_eq blank _ part (Nat.zero_le _)
    have hterm := @metadataPrint_terminated blank _ part (Nat.zero_le _)
      fun h => absurd h (by decide)
    rw [heq] at hterm
    have hall := metadataPrints_terminated parts hroom (by omega) hterm
    rw [metadataPrints]
    dsimp only
    rw [heq, Nat.cast_zero, Int.zero_add]
    have hlen := strlen_lt_iff.2 hall
    rw [Mem.load_length] at hlen
    exact Buf.within_zero.2 hlen
  · exact snprintf_ok (Int.le_refl 0) (Int.natCast_nonneg _) (Int.le_refl _)

/-- **A Minerva log** is formatted inside the caller's buffer of `max_size` bytes exactly when that
size is not negative where it is used. -/
theorem minerva_ok_iff (metricsInit buf : Bool) {maxSize : Int} {top : Nat} (h : maxSize ≤ top)
    (text : List UInt8) :
    Ok top (minervaMetricsLog metricsInit buf maxSize text).1 ↔
      ¬(metricsInit = true ∧ buf = true ∧ maxSize < 0) := by
  unfold minervaMetricsLog
  by_cases hmax : maxSize > minervaLogMaxSize
  · rw [if_pos hmax]
    unfold minervaLogMaxSize at hmax
    exact ⟨fun _ hneg => by omega, fun _ => ok_nil⟩
  rw [if_neg hmax]
  by_cases hinit : metricsInit = false ∨ buf = false
  · rw [if_pos hinit]
    refine ⟨fun _ hneg => ?_, fun _ => ok_nil⟩
    cases hinit with
    | inl h => exact absurd hneg.1 (by simp [h])
    | inr h => exact absurd hneg.2.1 (by simp [h])
  rw [if_neg hinit]
  have hboth : metricsInit = true ∧ buf = true := by
    cases metricsInit <;> cases buf <;> simp at hinit ⊢
  dsimp only
  by_cases hneg : maxSize < 0
  · -- the size is refused, and recorded as negative
    have hno := snprintf_negative 0 text top hneg
    refine ⟨fun hok => absurd ?_ hno, fun hno => absurd ⟨hboth.1, hboth.2, hneg⟩ hno⟩
    split at hok
    · exact (ok_cons.1 hok).2
    · exact (ok_append.1 (ok_cons.1 hok).2).1
  · have h0 : 0 ≤ maxSize := Int.not_lt.1 hneg
    refine ⟨fun _ hbad => hneg hbad.2.2, fun _ => ?_⟩
    unfold minervaLogMaxSize at hmax
    have hmemset : (Access.write 0 (List.replicate (u64 maxSize).toNat 0)).Ok top := by
      refine .inr ⟨Int.le_refl 0, ?_⟩
      rw [List.length_replicate, u64_eq h0 (by omega)]
      omega
    have hprint : Ok top (snprintf 0 maxSize text).2 := snprintf_ok (Int.le_refl 0) h0 (by omega)
    split
    · exact ok_cons.2 ⟨hmemset, hprint⟩
    · refine ok_cons.2 ⟨hmemset, ok_append.2 ⟨hprint, ok_cons.2 ⟨.inr ⟨Int.le_refl 0, ?_⟩, ok_nil⟩⟩⟩
      rw [List.length_map, List.length_take]
      omega

/-! ## The three functions -/

/-- **Formatting stays inside the blocks** with sizes that do not wrap exactly when the lengths
returned before the last part of the metadata add up inside the block, and a caller's `max_size` is
not negative. -/
theorem formatting_bounded_iff (a : VitalsArgs) (metricsInit : Bool) (blank : Mem) (buf : Bool)
    (maxSize : Int) (top : Nat) (text : List UInt8) :
    ((Ok 512 (logCounterToVitalsV2 a metricsInit blank).metadataMsg ∧
        Ok 512 (logCounterToVitalsV2 a metricsInit blank).str) ↔
      (0 ≤ i32 a.head.length ∧ i32 a.head.length ≤ 512) ∧
        0 ≤ i32 a.head.length + i32 a.ids.length ∧
        i32 a.head.length + i32 a.ids.length ≤ 512) ∧
    ((Ok 512 (logTimerToVitalsV2 a metricsInit blank).metadataMsg ∧
        Ok 512 (logTimerToVitalsV2 a metricsInit blank).str) ↔
      0 ≤ i32 (12 + a.ids.length : Nat) ∧ i32 (12 + a.ids.length : Nat) ≤ 512) ∧
    (maxSize ≤ top →
      (Ok top (minervaMetricsLog metricsInit buf maxSize text).1 ↔
        ¬(metricsInit = true ∧ buf = true ∧ maxSize < 0))) := by
  refine ⟨?_, ?_, fun h => minerva_ok_iff metricsInit buf h text⟩
  · have hok := vitalsEntry_ok_iff a metricsInit blank a.head [a.ids, a.tail] "counter="
      ";CT;1,unit="
    refine Iff.trans hok ⟨fun ⟨h0, h1, h2, h3, _⟩ => ⟨⟨h0, h1⟩, h2, h3⟩,
      fun ⟨⟨h0, h1⟩, h2, h3⟩ => ⟨h0, h1, h2, h3, trivial⟩⟩
  · have hok := vitalsEntry_ok_iff a metricsInit blank (ascii ",metadata=!\x7b" ++ a.ids) [a.tail]
      "timer=" ";TI;1,unit="
    have hlen : (ascii ",metadata=!\x7b" ++ a.ids).length = 12 + a.ids.length := by
      rw [List.length_append]
      rfl
    rw [hlen] at hok
    exact Iff.trans hok ⟨fun ⟨h0, h1, _⟩ => ⟨h0, h1⟩, fun ⟨h0, h1⟩ => ⟨h0, h1, trivial⟩⟩

/-- The arguments of a counter with 600 letters of metadata. -/
def longMetadata : VitalsArgs where
  priority := 4
  groupId := some [103]
  schemaId := some [115]
  domain := none
  program := some [112]
  source := some [115]
  key := none
  value := 1
  unit := none
  metadata := some (List.replicate 600 97)
  type := 0
  dimensions := none
  annotations := none

theorem formatting_bounded_iff_size :
    Ok 64 (minervaMetricsLog true true 64 [72, 105]).1 ↔
      ¬(true = true ∧ true = true ∧ (64 : Int) < 0) :=
  (formatting_bounded_iff longMetadata true (fun _ => 0) true 64 64 [72, 105]).2.2 (Int.le_refl 64)

theorem between_some {cs : List UInt8} (h : cs ≠ []) (before after none : List UInt8) :
    between (some cs) before after none = before ++ cs ++ after := if_pos h

theorem longMetadata_head : longMetadata.head.length = 612 := by
  have hne : List.replicate 600 (97 : UInt8) ≠ [] := List.cons_ne_nil _ _
  rw [VitalsArgs.head, longMetadata, between_some hne, List.length_append, List.length_append,
    List.length_replicate]
  rfl

/-- **Long metadata and a negative size**: the 612 bytes of the first part make the size of the
second print wrap round. -/
theorem longMetadata_wraps :
    longMetadata.head.length = 612 ∧
      ¬(Ok 512 (logCounterToVitalsV2 longMetadata true fun _ => 0).metadataMsg ∧
        Ok 512 (logCounterToVitalsV2 longMetadata true fun _ => 0).str) ∧
      ¬ Ok 64 (minervaMetricsLog true true (-1) [72, 105]).1 := by
  refine ⟨longMetadata_head, fun hok => ?_, fun hok => ?_⟩
  · have hroom := (vitalsEntry_ok_iff longMetadata true (fun _ => 0) longMetadata.head
      [longMetadata.ids, longMetadata.tail] "counter=" ";CT;1,unit=").1 hok
    rw [longMetadata_head] at hroom
    exact absurd hroom.2.1 (by decide)
  · exact (minerva_ok_iff true true (by decide) [72, 105]).1 hok ⟨rfl, rfl, by decide⟩

end AmazonLogger
