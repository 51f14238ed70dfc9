import FireTablet.Kernel.Strings
import Mathlib.Logic.Function.Basic

/-!
# Key combos from the device tree (`amzn_keycombo.c`)

A probe parses the node of one combo: `dt_to_keycombo_data` allocates the platform data with the
array of the keys that are held down, appends their names to the message of the combo's function,
and allocates a second array for the keys that are up. The messages are static, so they keep what
earlier probes appended. A probe is modelled up to the end of the parse, and for a parse that fails
to the end, with the release of the device's resources by the driver core. The registration of the
combo's own device after a good parse is left out.

Accesses are recorded (`Ev`); an access outside its object is recorded and the run goes on. A
message is kept as the text before its terminator.
-/

namespace KeyCombo

open CInt Strings

/-- A text without its terminator. -/
abbrev Text := List UInt8

/-- `COMBO_MSG_SIZE`. -/
def comboMsgSize : Nat := 100

/-- `enum COMBO_FUNC`, the entries of `funcs`. -/
inductive ComboFunc
  | panic
  | powerOff
  deriving DecidableEq

/-- `funcs[].msg` at the start. -/
def funcsMsg : ComboFunc → Text
  | .panic => ascii "Trigger panic by press "
  | .powerOff => ascii "Trigger power off by long press "

/-- `get_func`. -/
def getFunc (fn : Nat) : Option ComboFunc :=
  if fn = 0 then some .panic else if fn = 1 then some .powerOff else none

/-- `key_labels`. -/
def keyLabels : List (Text × Int) :=
  [(ascii "KEY_VOLUMEDOWN", 114), (ascii "KEY_VOLUMEUP", 115), (ascii "KEY_POWER", 116)]

/-- `get_key_from_label`; -22 is `-EINVAL`. -/
def getKeyFromLabel (name : Text) : Int :=
  match keyLabels.find? fun l => l.1 = name with
  | some l => l.2
  | none => -22

/-! ## The device tree -/

/-- `MAX_FDT_SIZE`. -/
def maxFdtSize : Nat := 2097152

/-- The strings of a property, with their terminators part of a device tree. -/
structure StringList where
  names : List Text
  fits : (names.map fun name => name.length + 1).sum ≤ maxFdtSize

/-- `-EINVAL` for no property, `-ENODATA` for one without a value, `-EILSEQ` where the last string
is not terminated. -/
inductive OfError
  | einval
  | enodata
  | eilseq
  deriving DecidableEq

def OfError.code : OfError → Int
  | .einval => -22
  | .enodata => -61
  | .eilseq => -84

/-- A property that is a list of strings. -/
abbrev StringsProp := Except OfError StringList

/-- `of_property_count_strings`. -/
def ofPropertyCountStrings : StringsProp → Int
  | .error e => e.code
  | .ok l => if l.names = [] then OfError.enodata.code else l.names.length

/-- `of_property_read_string_index`; `none` is an error. -/
def ofPropertyReadStringIndex (prop : StringsProp) (idx : Nat) : Option Text :=
  match prop with
  | .error _ => none
  | .ok l => l.names[idx]?

/-- The node of a combo. -/
structure Node where
  keysDown : StringsProp
  func : Option Nat
  delay : Option Nat
  keysUp : StringsProp

/-- A probe: the node and whether there is memory for each allocation. -/
structure ProbeIn where
  node : Node
  kzallocCfg : Bool
  kzallocCombo : Bool
  kzallocUp : Bool

/-! ## Accesses -/

/-- What is allocated: `keys_cfg`, `pcombo_data`, `pcombo_data->keys_up`. -/
inductive Obj
  | cfg
  | combo
  | up
  deriving DecidableEq

/-- An access: an allocation, an `int` or a pointer stored in an object, bytes stored in a message,
a release. -/
inductive Ev
  | alloc (o : Obj) (size : Nat)
  | int (o : Obj) (off : Nat) (v : Int)
  | ptr (o : Obj) (off : Nat)
  | msg (fn : ComboFunc) (off : Nat) (bytes : Text)
  | free (o : Obj)
  deriving DecidableEq

/-- `sizeof(struct keys_config)`. -/
def sizeofKeysConfig : Nat := 32

/-- `sizeof(struct keycombo_platform_data)`, the offset of `keys_down` too. -/
def sizeofPlatformData : Nat := 40

/-- The offsets of `key_down_fn`, `key_down_delay` and `keys_up`. -/
def keyDownFnOff : Nat := 0
def keyDownDelayOff : Nat := 24
def keysUpOff : Nat := 32

/-- The offset of `keys_down[idx]`. -/
def keysDownOff (idx : Nat) : Nat := sizeofPlatformData + 4 * idx

/-! ## The parse -/

/-- `strncat` of `src` to the end of a message, with `COMBO_MSG_SIZE` less its length: the stores
and the message after it. -/
def strncat (fn : ComboFunc) (msg src : Text) : List Ev × Text :=
  let count := comboMsgSize - msg.length
  if count = 0 then ([], msg)
  else ([.msg fn msg.length (src.take count ++ [0])], msg ++ src.take count)

/-- `free_keycombo_platdata`: `pcombo` is `keys_cfg->pcombo_data`, if set, with whether it has a
`keys_up`. -/
def freeKeycomboPlatdata (pcombo : Option Bool) : List Ev :=
  match pcombo with
  | none => []
  | some keysUp => (if keysUp then [.free .up] else []) ++ [.free .combo]

/-- The loop over `keys_down` with `n` strings left: whether it ends well, its stores, and the
message after it. -/
def downLoop (prop : StringsProp) (fn : ComboFunc) : Nat → Nat → Text → Bool × List Ev × Text
  | 0, _, msg => (true, [], msg)
  | n + 1, idx, msg =>
    match ofPropertyReadStringIndex prop idx with
    | none => (false, [], msg)
    | some name =>
      let key := getKeyFromLabel name
      if key < 0 then (false, [], msg)
      else
        let r1 := strncat fn msg name
        let r2 := strncat fn r1.2 [32]
        let r := downLoop prop fn n (idx + 1) r2.2
        (r.1, .int .combo (keysDownOff idx) key :: r1.1 ++ r2.1 ++ r.2.1, r.2.2)

/-- The loop over `keys_up` with `n` strings left: `idx` after it, and its stores. -/
def upLoop (prop : StringsProp) : Nat → Nat → Nat × List Ev
  | 0, idx => (idx, [])
  | n + 1, idx =>
    match ofPropertyReadStringIndex prop idx with
    | none => (idx, [])
    | some name =>
      let key := getKeyFromLabel name
      if key < 0 then (idx, [])
      else
        let r := upLoop prop n (idx + 1)
        (r.1, .int .up (4 * idx) key :: r.2)

/-- `dt_to_keycombo_data` from the count of `keys_up` on. -/
def readKeysUp (i : ProbeIn) (size : Int) : Int × List Ev :=
  let upSize := ofPropertyCountStrings i.node.keysUp
  if upSize > 0 then
    if i.kzallocUp then
      let r := upLoop i.node.keysUp upSize.toNat 0
      (size, .alloc .up (upSize.toNat + 1) :: .ptr .combo keysUpOff :: r.2 ++
        [.int .up (4 * r.1) 0])
    else (0, .ptr .combo keysUpOff :: freeKeycomboPlatdata none)
  else (size, [])

/-- From the read of `keys_down_delay` on. -/
def readDelay (i : ProbeIn) (size : Int) : Int × List Ev :=
  match i.node.delay with
  | none => (0, freeKeycomboPlatdata none)
  | some delay =>
    let r := readKeysUp i size
    (r.1, .int .combo keyDownDelayOff delay :: r.2)

/-- What a parse gives: the size of the platform data, 0 where it fails, its accesses, and the
messages after it. -/
structure Parse where
  size : Int
  evs : List Ev
  msgs : ComboFunc → Text

/-- From the loop over `keys_down` on. -/
def readKeysDown (i : ProbeIn) (size : Int) (downSize : Nat) (fn : ComboFunc)
    (msgs : ComboFunc → Text) : Parse :=
  let r := downLoop i.node.keysDown fn downSize 0 (msgs fn)
  let msgs := Function.update msgs fn r.2.2
  if r.1 then
    let q := readDelay i size
    ⟨q.1, r.2.1 ++ .int .combo (keysDownOff downSize) 0 :: q.2, msgs⟩
  else ⟨0, r.2.1 ++ freeKeycomboPlatdata none, msgs⟩

/-- `dt_to_keycombo_data`. `keys_cfg->pcombo_data` is set at its end only, so that there is nothing
in it to free under `err`. -/
def dtToKeycomboData (i : ProbeIn) (msgs : ComboFunc → Text) : Parse :=
  let downSize := ofPropertyCountStrings i.node.keysDown
  if downSize < 0 then ⟨0, [], msgs⟩
  else
    let size := i32 (sizeofPlatformData + 4 * (downSize + 1))
    -- a negative size is too large a `size_t`
    if 0 ≤ size ∧ i.kzallocCombo then
      match i.node.func.bind getFunc with
      | none => ⟨0, .alloc .combo size.toNat :: freeKeycomboPlatdata none, msgs⟩
      | some fn =>
        let r := readKeysDown i size downSize.toNat fn msgs
        ⟨r.size, .alloc .combo size.toNat :: .ptr .combo keyDownFnOff :: r.evs, r.msgs⟩
    else ⟨0, [], msgs⟩

/-! ## The probe -/

/-- The resources of the device, the latest first. -/
def devresHead (evs : List Ev) : List Obj :=
  evs.foldl (fun os ev => match ev with
    | .alloc o _ => o :: os
    | .free o => os.erase o
    | _ => os) []

/-- `devres_release_all`. -/
def devresReleaseAll (evs : List Ev) : List Ev := (devresHead evs).map .free

/-- `amzn_keycombo_probe` up to the end of the parse; where that fails, to its end and with the
release by the driver core. -/
def amznKeycomboProbe (i : ProbeIn) (msgs : ComboFunc → Text) : Parse :=
  if i.kzallocCfg then
    let r := dtToKeycomboData i msgs
    let evs := .alloc .cfg sizeofKeysConfig :: r.evs
    if r.size = 0 then
      let evs := evs ++ freeKeycomboPlatdata none ++ [.free .cfg]
      ⟨0, evs ++ devresReleaseAll evs, r.msgs⟩
    else ⟨r.size, evs, r.msgs⟩
  else ⟨0, [], msgs⟩

/-- Probes one after another: the messages are what one leaves to the next. -/
def probeStep (msgs : ComboFunc → Text) (i : ProbeIn) : Option (Parse × (ComboFunc → Text)) :=
  some (amznKeycomboProbe i msgs, (amznKeycomboProbe i msgs).msgs)

end KeyCombo
