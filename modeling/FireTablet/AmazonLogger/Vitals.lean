import FireTablet.AmazonLogger.Logger
import FireTablet.Kernel.Strings
import FireTablet.Lib.Mem

/-!
# Formatting vitals and Minerva metrics (`amazon_logger.c`)

`log_counter_to_vitals_v2` and `log_timer_to_vitals_v2` print the metadata of an entry in parts,
one `snprintf` behind the other in a local block of `VITAL_ENTRY_MAX_PAYLOAD` bytes, and then the
entry itself in another. The length is a `size_t` to which what `snprintf` returns is added, the
length of the whole text. A string is the list of its characters, a `NULL` string is `none`.
A function gives the accesses to its blocks and the segments for `logger_kernel_write`, or `none`
while the logs are not there.
-/

namespace AmazonLogger

open CInt Strings

/-- `VITAL_ENTRY_MAX_PAYLOAD`. -/
def vitalEntryMaxPayload : Nat := 512

/-- `MINERVA_LOG_MAX_SIZE`. -/
def minervaLogMaxSize : Int := 4096

def intMax : Nat := 2147483647

/-- A `size_t` as the offset of an address. -/
def addrOffset (n : Nat) : Int := if n < 2 ^ 63 then n else n - 2 ^ 64

/-- The next part of the metadata, `snprintf(&metadata_msg[metadata_length],
VITAL_ENTRY_MAX_PAYLOAD - metadata_length, ..)`: the block and the length. The difference that is
recorded is the exact one; `vsnprintf` refuses a size above `INT_MAX`. -/
def metadataPrint (msg : Mem × Nat) (text : List UInt8) : (Mem × Nat) × List Access :=
  let size := sizeSub vitalEntryMaxPayload msg.2
  let sized := Access.sized (vitalEntryMaxPayload - msg.2)
  if size > intMax then (msg, [sized])
  else
    let bytes := if size = 0 then [] else text.take (size - 1) ++ [0]
    ((msg.1.store (addrOffset msg.2) bytes, (u64 (msg.2 + i32 text.length)).toNat),
      [sized, .write (addrOffset msg.2) bytes])

/-- All parts of the metadata. -/
def metadataPrints : List (List UInt8) → Mem × Nat → (Mem × Nat) × List Access
  | [], msg => (msg, [])
  | text :: texts, msg =>
    let p := metadataPrint msg text
    let ps := metadataPrints texts p.1
    (ps.1, p.2 ++ ps.2)

/-- The arguments of the two functions. -/
structure VitalsArgs where
  priority : UInt8
  groupId : Option (List UInt8)
  schemaId : Option (List UInt8)
  domain : Option (List UInt8)
  program : Option (List UInt8)
  source : Option (List UInt8)
  key : Option (List UInt8)
  value : Int
  unit : Option (List UInt8)
  metadata : Option (List UInt8)
  type : Int
  dimensions : Option (List UInt8)
  annotations : Option (List UInt8)

/-- `%s` -/
def percentS (s : Option (List UInt8)) : List UInt8 := s.getD (ascii "(null)")

/-- A string that is there and not empty, between two texts; otherwise another text. -/
def between (s : Option (List UInt8)) (before after none : List UInt8) : List UInt8 :=
  if s.getD [] ≠ [] then before ++ s.getD [] ++ after else none

/-- The part with the metadata argument. -/
def VitalsArgs.head (a : VitalsArgs) : List UInt8 :=
  between a.metadata (ascii ",metadata=") (ascii "!\x7b") (ascii ",metadata=!\x7b")

/-- The part with the identifiers and dimensions. -/
def VitalsArgs.ids (a : VitalsArgs) : List UInt8 :=
  let ids := ascii "\"d\"#\x7b\"groupId\"#\"" ++ percentS a.groupId ++
    ascii "\"$\"schemaId\"#\"" ++ percentS a.schemaId ++ ascii "\""
  between a.dimensions (ids ++ ascii "$") (ascii "\x7d") (ids ++ ascii "\x7d")

/-- The part with the annotations. -/
def VitalsArgs.tail (a : VitalsArgs) : List UInt8 :=
  between a.annotations (ascii "$\"m\"#\x7b") (ascii "\x7d\x7d;DV;1") (ascii "\x7d;DV;1")

/-- The text of an entry, with the `label` and the `tag` of its value. -/
def VitalsArgs.text (a : VitalsArgs) (label tag : String) (metadataMsg : List UInt8) : List UInt8 :=
  percentS a.program ++ ascii ":" ++ percentS a.source ++ ascii ":type=" ++ decimal a.type ++
    ascii ";DV;1," ++ (match a.key with
      | some key => ascii "key=" ++ key ++ ascii ";DV;1,"
      | none => []) ++
    ascii label ++ decimal a.value ++ ascii tag ++ percentS a.unit ++ ascii ";DV;1" ++
    metadataMsg ++ ascii ":HI"

/-- What a function does to its two blocks, and the segments of the entry. -/
structure VitalsOut where
  metadataMsg : List Access
  str : List Access
  segs : Option (List (List UInt8))

/-- `log_to_vitals`: the segments. -/
def logToVitals (metricsInit : Bool) (priority : UInt8) (domain : Option (List UInt8))
    (logMsg : List UInt8) : Option (List (List UInt8)) :=
  if metricsInit then some [[priority], domain.getD (ascii "kernel") ++ [0], logMsg ++ [0]]
  else none

/-- The common part of the two functions. `blank` is what the block holds before. -/
def vitalsEntry (a : VitalsArgs) (metricsInit : Bool) (blank : Mem) (parts : List (List UInt8))
    (label tag : String) : VitalsOut :=
  let msg := metadataPrints parts (blank, 0)
  let block := msg.1.1.load 0 vitalEntryMaxPayload
  let text := a.text label tag (block.take (strlen block))
  { metadataMsg := msg.2
    str := .read vitalEntryMaxPayload 0 (strlen block + 1) ::
      (snprintf 0 vitalEntryMaxPayload text).2
    segs := logToVitals metricsInit a.priority a.domain (text.take (vitalEntryMaxPayload - 1)) }

/-- `log_counter_to_vitals_v2`. -/
def logCounterToVitalsV2 (a : VitalsArgs) (metricsInit : Bool) (blank : Mem) : VitalsOut :=
  vitalsEntry a metricsInit blank [a.head, a.ids, a.tail] "counter=" ";CT;1,unit="

/-- `log_timer_to_vitals_v2`, which has no metadata argument. -/
def logTimerToVitalsV2 (a : VitalsArgs) (metricsInit : Bool) (blank : Mem) : VitalsOut :=
  vitalsEntry a metricsInit blank [ascii ",metadata=!\x7b" ++ a.ids, a.tail] "timer="
    ";TI;1,unit="

/-- `minerva_metrics_log` for the caller's buffer (`NULL` without `buf`) and the text that the
format gives: the accesses to the buffer, and the segments. -/
def minervaMetricsLog (metricsInit buf : Bool) (maxSize : Int) (text : List UInt8) :
    List Access × Option (List (List UInt8)) :=
  if maxSize > minervaLogMaxSize then ([], none)
  else if metricsInit = false ∨ buf = false then ([], none)
  else
    let memset := Access.write 0 (List.replicate (u64 maxSize).toNat 0)
    -- a negative size is a `size_t` above `INT_MAX`
    let p := snprintf 0 maxSize text
    let ret := i32 p.1
    if ret < 0 ∨ ret ≥ maxSize then (memset :: p.2, none)
    else
      let stored := (text.take (maxSize - 1).toNat).map fun c => if c = 32 then 95 else c
      (memset :: p.2 ++ [.write 0 stored],
        some [[4], ascii "Minerva_Metrics_Log" ++ [0], stored ++ [0]])

end AmazonLogger
