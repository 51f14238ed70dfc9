import FireTablet.KeyCombo.KeyCombo
import FireTablet.Lib.Run

/-!
# What a probe stores

The names of a combo's keys are appended to a static message up to its full size, so the message
holds over a run of probes as long as each leaves a byte for the terminator. The array of the keys
that are up has one byte for each key and one more, so it never holds the `int`s that are stored; a
probe that gets it breaks it. With both conditions every probe is right, and only then
(`probes_iff`).
-/

namespace KeyCombo

open CInt Strings

/-! ## What is to hold of a probe -/

/-- A key's name is one of the labels. -/
def Known (name : Text) : Prop := 0 ≤ getKeyFromLabel name

instance (name : Text) : Decidable (Known name) := inferInstanceAs (Decidable (_ ≤ _))

/-- An access stays in its object, of which `evs` has the size. -/
def Ev.Inside (evs : List Ev) : Ev → Prop
  | .int o off _ => ∃ size, .alloc o size ∈ evs ∧ off + 4 ≤ size
  | .ptr o off => ∃ size, .alloc o size ∈ evs ∧ off + 8 ≤ size
  | .msg _ off bytes => off + bytes.length ≤ comboMsgSize
  | _ => True

/-- The `int` at an offset of an object, which held `w`, after accesses. -/
def wordFrom (w : Int) (evs : List Ev) (o : Obj) (off : Nat) : Int :=
  evs.foldl (fun w ev => match ev with
    | .int o' off' v => if o' = o ∧ off' = off then v else w
    | _ => w) w

/-- An array at an offset of an object, zero when allocated, has the keys of a list of names in
order, ended by a zero. -/
def Holds (evs : List Ev) (o : Obj) (off : Nat) (names : List Text) : Prop :=
  (∀ j name, names[j]? = some name →
    Known name ∧ wordFrom 0 evs o (off + 4 * j) = getKeyFromLabel name) ∧
  wordFrom 0 evs o (off + 4 * names.length) = 0

/-- The number of times an object is allocated. -/
def allocs (o : Obj) (evs : List Ev) : Nat :=
  evs.countP fun ev => match ev with
    | .alloc o' _ => decide (o' = o)
    | _ => false

/-- A probe stores inside its objects and the messages, leaves these terminated and the arrays with
the keys that are listed, and where it fails, what it allocated is released once. -/
structure ProbeOk (i : ProbeIn) (out : Parse) : Prop where
  inside : ∀ ev ∈ out.evs, ev.Inside out.evs
  terminated : ∀ fn, (out.msgs fn).length < comboMsgSize
  down : out.size ≠ 0 → ∃ l, i.node.keysDown = .ok l ∧
    Holds out.evs .combo sizeofPlatformData l.names
  up : out.size ≠ 0 → ∀ l, i.node.keysUp = .ok l → l.names ≠ [] → Holds out.evs .up 0 l.names
  released : out.size = 0 → ∀ o, allocs o out.evs ≤ 1 ∧
    out.evs.count (.free o) = allocs o out.evs

/-! ## The condition -/

/-- The bytes that are appended to the message: the names up to the first that is no label. -/
def appended (names : List Text) : Nat :=
  ((names.takeWhile fun name => decide (Known name)).map fun name => name.length + 1).sum

/-- The parse comes to the loop over the keys `l` that are down, for the function `fn`. -/
structure ReadsDown (i : ProbeIn) (fn : ComboFunc) (l : StringList) : Prop where
  cfg : i.kzallocCfg = true
  combo : i.kzallocCombo = true
  keys : i.node.keysDown = .ok l
  nonempty : l.names ≠ []
  func : i.node.func.bind getFunc = some fn

/-- The parse comes to the keys that are up. -/
def ReadsUp (i : ProbeIn) : Prop :=
  ∃ fn l, ReadsDown i fn l ∧ (∀ name ∈ l.names, Known name) ∧ i.node.delay ≠ none

/-- The condition on a probe: the message has room for the names and its terminator, and no array
is allocated for keys that are up. -/
structure Fits (msgs : ComboFunc → Text) (i : ProbeIn) : Prop where
  msg : ∀ fn l, ReadsDown i fn l → (msgs fn).length + appended l.names < comboMsgSize
  up : ReadsUp i → ∀ l, i.node.keysUp = .ok l → l.names ≠ [] → i.kzallocUp = false

/-! ## Words -/

theorem wordFrom_append (w : Int) (as bs : List Ev) (o : Obj) (off : Nat) :
    wordFrom w (as ++ bs) o off = wordFrom (wordFrom w as o off) bs o off := by
  unfold wordFrom
  rw [List.foldl_append]

/-- A word that is not stored to stays. -/
theorem wordFrom_of_not {w : Int} {evs : List Ev} {o : Obj} {off : Nat}
    (h : ∀ v, .int o off v ∉ evs) : wordFrom w evs o off = w := by
  induction evs generalizing w with
  | nil => rfl
  | cons ev evs ih =>
    have hne : ∀ v, ev ≠ .int o off v := fun v he => h v (by rw [he]; exact List.mem_cons_self)
    have hrest := fun w => @ih w fun v hm => h v (List.mem_cons_of_mem _ hm)
    cases ev with
    | int o' off' v =>
      show wordFrom (if o' = o ∧ off' = off then v else w) evs o off = w
      rw [if_neg, hrest]
      rintro ⟨rfl, rfl⟩
      exact hne v rfl
    | alloc | ptr | msg | free => exact hrest w

/-! ## Appending -/

theorem strncat_length (fn : ComboFunc) {msg : Text} (src : Text)
    (h : msg.length ≤ comboMsgSize) :
    (strncat fn msg src).2.length = min comboMsgSize (msg.length + src.length) := by
  unfold strncat
  dsimp only
  split_ifs
  · dsimp only
    omega
  · dsimp only
    rw [List.length_append, List.length_take]
    omega

theorem strncat_mem {fn : ComboFunc} {msg src : Text} {ev : Ev} (h : ev ∈ (strncat fn msg src).1) :
    ev = .msg fn msg.length (src.take (comboMsgSize - msg.length) ++ [0]) := by
  unfold strncat at h
  dsimp only at h
  split_ifs at h
  · cases h
  · exact List.mem_singleton.1 h

/-- An append that leaves room for the terminator stores inside the message. -/
theorem strncat_inside {fn : ComboFunc} {msg src : Text} {evs : List Ev}
    (h : (strncat fn msg src).2.length < comboMsgSize) (hmsg : msg.length ≤ comboMsgSize) :
    ∀ ev ∈ (strncat fn msg src).1, ev.Inside evs := by
  intro ev hev
  rw [strncat_length fn src hmsg] at h
  rw [strncat_mem hev]
  show msg.length + _ ≤ comboMsgSize
  rw [List.length_append, List.length_take, List.length_singleton]
  omega

theorem appended_cons (name : Text) (rest : List Text) :
    appended (name :: rest) = if Known name then name.length + 1 + appended rest else 0 := by
  unfold appended
  split_ifs with hk
  · rw [List.takeWhile_cons, if_pos (decide_eq_true hk), List.map_cons, List.sum_cons]
  · rw [List.takeWhile_cons, if_neg (by simpa using hk), List.map_nil, List.sum_nil]

/-! ## The loop over the keys that are down -/

/-- The loop on the names that are left. -/
def downOn (fn : ComboFunc) : Nat → Text → List Text → Bool × List Ev × Text
  | _, msg, [] => (true, [], msg)
  | idx, msg, name :: rest =>
    if Known name then
      let r1 := strncat fn msg name
      let r2 := strncat fn r1.2 [32]
      let r := downOn fn (idx + 1) r2.2 rest
      (r.1, .int .combo (keysDownOff idx) (getKeyFromLabel name) :: r1.1 ++ r2.1 ++ r.2.1, r.2.2)
    else (false, [], msg)

theorem downLoop_eq {l : StringList} {fn : ComboFunc} {n idx : Nat} {msg : Text}
    (h : n = l.names.length - idx) :
    downLoop (.ok l) fn n idx msg = downOn fn idx msg (l.names.drop idx) := by
  induction n generalizing idx msg with
  | zero =>
    rw [List.drop_of_length_le (by omega)]
    rfl
  | succ n ih =>
    have hlt : idx < l.names.length := by omega
    rw [List.drop_eq_getElem_cons hlt]
    unfold downLoop downOn ofPropertyReadStringIndex
    dsimp only
    rw [List.getElem?_eq_getElem hlt]
    dsimp only
    by_cases hk : Known l.names[idx]
    · rw [if_neg (Int.not_lt.2 hk), if_pos hk, ih (by omega)]
    · rw [if_pos (Int.not_le.1 hk), if_neg hk]

section
variable (fn : ComboFunc)

theorem downOn_ok (idx : Nat) (msg : Text) (names : List Text) :
    (downOn fn idx msg names).1 = true ↔ ∀ name ∈ names, Known name := by
  induction names generalizing idx msg with
  | nil => simp [downOn]
  | cons name rest ih =>
    unfold downOn
    rw [List.forall_mem_cons]
    split_ifs with hk
    · exact (ih _ _).trans (and_iff_right hk).symm
    · exact iff_of_false id fun h => hk h.1

/-- The message grows by what is appended, up to its full size. -/
theorem downOn_length {idx : Nat} {msg : Text} (names : List Text)
    (h : msg.length ≤ comboMsgSize) :
    (downOn fn idx msg names).2.2.length = min comboMsgSize (msg.length + appended names) := by
  induction names generalizing idx msg with
  | nil =>
    show msg.length = min comboMsgSize (msg.length + 0)
    omega
  | cons name rest ih =>
    rw [appended_cons]
    unfold downOn
    split_ifs with hk
    · dsimp only
      have h1 := strncat_length fn name h
      have h2 := strncat_length fn [32] (h1.trans_le (Nat.min_le_left _ _))
      rw [ih (h2.trans_le (Nat.min_le_left _ _)), h2, h1, List.length_singleton]
      omega
    · show msg.length = min comboMsgSize (msg.length + 0)
      omega

/-- The stores of the loop: keys, into the array's places, and what is appended. -/
theorem downOn_mem {idx : Nat} {msg : Text} {names : List Text} {ev : Ev}
    (h : ev ∈ (downOn fn idx msg names).2.1) :
    (∃ j v, j < names.length ∧ ev = .int .combo (keysDownOff (idx + j)) v) ∨
      ∃ off bytes, ev = .msg fn off bytes := by
  induction names generalizing idx msg with
  | nil => cases h
  | cons name rest ih =>
    unfold downOn at h
    split_ifs at h with hk
    · simp only [List.cons_append, List.append_assoc, List.mem_cons, List.mem_append] at h
      rcases h with rfl | h | h | h
      · exact .inl ⟨0, _, Nat.zero_lt_succ _, rfl⟩
      · exact .inr ⟨_, _, strncat_mem h⟩
      · exact .inr ⟨_, _, strncat_mem h⟩
      · rcases ih h with ⟨j, v, hj, rfl⟩ | hmsg
        · exact .inl ⟨j + 1, v, Nat.succ_lt_succ hj, by rw [Nat.add_right_comm, Nat.add_assoc]⟩
        · exact .inr hmsg
    · cases h

/-- Where the message is terminated at the end, every append stored inside it. -/
theorem downOn_msg {idx : Nat} {msg : Text} {names : List Text} {evs : List Ev}
    (hmsg : msg.length ≤ comboMsgSize)
    (h : (downOn fn idx msg names).2.2.length < comboMsgSize) {off : Nat} {bytes : Text}
    (hev : .msg fn off bytes ∈ (downOn fn idx msg names).2.1) :
    (Ev.msg fn off bytes).Inside evs := by
  induction names generalizing idx msg with
  | nil => cases hev
  | cons name rest ih =>
    unfold downOn at h hev
    split_ifs at h hev with hk
    · dsimp only at h
      have h1 := strncat_length fn name hmsg
      have hle1 := h1.trans_le (Nat.min_le_left _ _)
      have h2 := strncat_length fn [32] hle1
      have hle2 := h2.trans_le (Nat.min_le_left _ _)
      have hfin := h
      rw [downOn_length fn rest hle2] at hfin
      rw [List.length_singleton] at h2
      simp only [List.cons_append, List.append_assoc, List.mem_cons, List.mem_append,
        reduceCtorEq, false_or] at hev
      rcases hev with hev | hev | hev
      · exact strncat_inside (by omega) hmsg _ hev
      · exact strncat_inside (by rw [h2]; omega) hle1 _ hev
      · exact ih hle2 h hev
    · cases hev

/-- The keys that the loop stores. -/
theorem downOn_word {idx : Nat} {msg : Text} {names : List Text} (w : Int)
    (h : ∀ name ∈ names, Known name) {j : Nat} {name : Text} (hj : names[j]? = some name) :
    wordFrom w (downOn fn idx msg names).2.1 .combo (keysDownOff (idx + j)) =
      getKeyFromLabel name := by
  induction names generalizing idx msg j w with
  | nil => cases hj
  | cons first rest ih =>
    rw [List.forall_mem_cons] at h
    unfold downOn
    rw [if_pos h.1]
    dsimp only
    rw [List.cons_append, List.cons_append, List.append_assoc]
    cases j with
    | zero =>
      cases hj
      show wordFrom (if _ then _ else _) _ _ _ = _
      rw [if_pos ⟨rfl, rfl⟩, wordFrom_of_not]
      intro v hv
      rcases List.mem_append.1 hv with hv | hv
      · cases strncat_mem hv
      · rcases List.mem_append.1 hv with hv | hv
        · cases strncat_mem hv
        · rcases downOn_mem fn hv with ⟨k, v', -, he⟩ | ⟨off, bytes, he⟩
          · injection he with _ hoff _
            unfold keysDownOff at hoff
            omega
          · cases he
    | succ j =>
      rw [List.getElem?_cons_succ] at hj
      rw [← List.cons_append, wordFrom_append, wordFrom_append,
        show idx + (j + 1) = idx + 1 + j by omega]
      exact ih _ h.2 hj

end

/-! ## The loop over the keys that are up -/

theorem upLoop_mem {prop : StringsProp} {n idx : Nat} {ev : Ev}
    (h : ev ∈ (upLoop prop n idx).2) : ∃ off v, ev = .int .up off v := by
  induction n generalizing idx with
  | zero => cases h
  | succ n ih =>
    unfold upLoop at h
    cases hr : ofPropertyReadStringIndex prop idx with
    | none =>
      rw [hr] at h
      cases h
    | some name =>
      rw [hr] at h
      dsimp only at h
      split_ifs at h
      · cases h
      · rcases List.mem_cons.1 h with rfl | h
        · exact ⟨_, _, rfl⟩
        · exact ih h

/-- The loop stops at the first name that is no label. -/
theorem upLoop_stop {l : StringList} {n idx : Nat} (h : n = l.names.length - idx) {name : Text}
    (hname : l.names[(upLoop (.ok l) n idx).1]? = some name) : ¬ Known name := by
  induction n generalizing idx with
  | zero =>
    have hlt := (List.getElem?_eq_some_iff.1 hname).1
    change idx < l.names.length at hlt
    omega
  | succ n ih =>
    have hlt : idx < l.names.length := by omega
    unfold upLoop ofPropertyReadStringIndex at hname
    dsimp only at hname
    rw [List.getElem?_eq_getElem hlt] at hname
    dsimp only at hname
    split_ifs at hname with hk
    · rw [List.getElem?_eq_getElem hlt, Option.some.injEq] at hname
      rw [← hname]
      exact Int.not_le.2 hk
    · exact ih (by omega) hname

/-! ## The parse -/

theorem names_le (l : StringList) : l.names.length ≤ maxFdtSize := by
  refine Nat.le_trans ?_ l.fits
  induction l.names with
  | nil => exact Nat.le_refl 0
  | cons name rest ih =>
    rw [List.length_cons, List.map_cons, List.sum_cons]
    omega

/-- The size of the platform data for the keys `l`. -/
def comboSize (l : StringList) : Nat := sizeofPlatformData + 4 * (l.names.length + 1)

theorem count_ok {l : StringList} (h : l.names ≠ []) :
    ofPropertyCountStrings (.ok l) = l.names.length := if_neg h

/-- There are strings, or there is an error. -/
theorem count_cases (prop : StringsProp) :
    ofPropertyCountStrings prop < 0 ∨ ∃ l, prop = .ok l ∧ l.names ≠ [] := by
  cases prop with
  | error e => exact .inl (by cases e <;> decide)
  | ok l =>
    by_cases hn : l.names = []
    · refine .inl ?_
      show (if l.names = [] then OfError.enodata.code else (l.names.length : Int)) < 0
      rw [if_pos hn]
      decide
    · exact .inr ⟨l, rfl, hn⟩

/-- The loop over the keys `l` that are down, from the messages `msgs` on. -/
def downRun (l : StringList) (fn : ComboFunc) (msgs : ComboFunc → Text) : Bool × List Ev × Text :=
  downOn fn 0 (msgs fn) l.names

section
variable {i : ProbeIn} {fn : ComboFunc} {l : StringList} (h : ReadsDown i fn l)
include h

/-- A parse that comes to the keys that are down. -/
theorem ReadsDown.parse (msgs : ComboFunc → Text) : dtToKeycomboData i msgs =
    ⟨if (downRun l fn msgs).1 then (readDelay i (comboSize l)).1 else 0,
      .alloc .combo (comboSize l) :: .ptr .combo keyDownFnOff :: ((downRun l fn msgs).2.1 ++
        (if (downRun l fn msgs).1 then
          .int .combo (keysDownOff l.names.length) 0 :: (readDelay i (comboSize l)).2
        else [])),
      Function.update msgs fn (downRun l fn msgs).2.2⟩ := by
  have hle := names_le l
  have hcnt := count_ok h.nonempty
  have hsize : i32 ((sizeofPlatformData : Int) + 4 * ((l.names.length : Int) + 1)) =
      (comboSize l : Nat) := by
    unfold maxFdtSize at hle
    unfold comboSize sizeofPlatformData
    rw [i32_eq (by unfold IsI32; omega)]
    omega
  have hloop : downLoop (.ok l) fn l.names.length 0 (msgs fn) = downRun l fn msgs :=
    downLoop_eq rfl
  unfold dtToKeycomboData
  dsimp only
  rw [h.keys, hcnt, if_neg (by omega), hsize, if_pos ⟨by omega, h.combo⟩, h.func]
  dsimp only
  unfold readKeysDown
  rw [h.keys, Int.toNat_natCast, Int.toNat_natCast, hloop]
  dsimp only
  split_ifs <;> rfl

theorem ReadsDown.probe_msgs (fn' : ComboFunc) (msgs : ComboFunc → Text) :
    (amznKeycomboProbe i msgs).msgs fn' = Function.update msgs fn (downRun l fn msgs).2.2 fn' := by
  unfold amznKeycomboProbe
  rw [if_pos h.cfg]
  dsimp only
  rw [h.parse]
  split_ifs <;> rfl

end

/-- A parse that does not come to them leaves the messages alone. -/
theorem parse_early {i : ProbeIn} {msgs : ComboFunc → Text}
    (h : ∀ fn l, ¬ ReadsDown i fn l) (hcfg : i.kzallocCfg = true) :
    dtToKeycomboData i msgs = ⟨0, [], msgs⟩ ∨
      ∃ size, dtToKeycomboData i msgs = ⟨0, [.alloc .combo size], msgs⟩ := by
  unfold dtToKeycomboData
  dsimp only
  rcases count_cases i.node.keysDown with hneg | ⟨l, hl, hn⟩
  · exact .inl (if_pos hneg)
  · rw [hl, count_ok hn, if_neg (by omega)]
    split_ifs with hmem
    · refine .inr ⟨(i32 (sizeofPlatformData + 4 * ((l.names.length : Int) + 1))).toNat, ?_⟩
      cases hf : i.node.func.bind getFunc with
      | none => rfl
      | some fn => exact absurd ⟨hcfg, hmem.2, hl, hn, hf⟩ (h fn l)
    · exact .inl rfl

/-! ## A parse that fails -/

/-- A store that stays in the platform data of `size` bytes or in a message. -/
def Ev.Plain (size : Nat) : Ev → Prop
  | .int o off _ => o = .combo ∧ off + 4 ≤ size
  | .ptr o off => o = .combo ∧ off + 8 ≤ size
  | .msg _ off bytes => off + bytes.length ≤ comboMsgSize
  | _ => False

theorem Ev.Plain.inside {size : Nat} {evs : List Ev} {ev : Ev} (h : ev.Plain size)
    (hmem : .alloc .combo size ∈ evs) : ev.Inside evs := by
  cases ev with
  | int o off v => exact ⟨size, h.1 ▸ hmem, h.2⟩
  | ptr o off => exact ⟨size, h.1 ▸ hmem, h.2⟩
  | msg fn off bytes => exact h
  | alloc | free => exact h.elim

theorem allocs_cons (o : Obj) (ev : Ev) (evs : List Ev) :
    allocs o (ev :: evs) = allocs o evs + match ev with
      | .alloc o' _ => if o' = o then 1 else 0
      | _ => 0 := by
  unfold allocs
  rw [List.countP_cons]
  cases ev with
  | alloc o' size => simp
  | int | ptr | msg | free => simp

theorem allocs_append (o : Obj) (as bs : List Ev) :
    allocs o (as ++ bs) = allocs o as + allocs o bs := List.countP_append

section
variable {size : Nat} {evs : List Ev} (h : ∀ ev ∈ evs, ev.Plain size)
include h

theorem allocs_plain (o : Obj) : allocs o evs = 0 := by
  unfold allocs
  rw [List.countP_eq_zero]
  intro ev hev
  have := h ev hev
  cases ev with
  | alloc => exact this.elim
  | int | ptr | msg | free => simp

theorem count_free_plain (o : Obj) : evs.count (.free o) = 0 :=
  List.count_eq_zero.2 fun hmem => (h _ hmem).elim

/-- Plain stores change no resources. -/
theorem devresHead_plain (as bs : List Ev) :
    devresHead (as ++ (evs ++ bs)) = devresHead (as ++ bs) := by
  unfold devresHead
  rw [List.foldl_append, List.foldl_append, List.foldl_append]
  congr 1
  generalize as.foldl _ _ = os
  induction evs with
  | nil => rfl
  | cons ev evs ih =>
    rw [List.forall_mem_cons] at h
    rw [List.foldl_cons]
    cases ev with
    | alloc | free => exact h.1.elim
    | int | ptr | msg => exact ih h.2

end

/-- **A parse that fails** after plain stores, or before it allocates anything, is right. -/
theorem fail_ok {i : ProbeIn} {msgs msgs' : ComboFunc → Text} {size : Nat} {rest : List Ev}
    (hcfg : i.kzallocCfg = true)
    (h : dtToKeycomboData i msgs = ⟨0, .alloc .combo size :: rest, msgs'⟩)
    (hplain : ∀ ev ∈ rest, ev.Plain size) (hmsgs : ∀ fn, (msgs' fn).length < comboMsgSize) :
    ProbeOk i (amznKeycomboProbe i msgs) := by
  have hhead : devresHead (.alloc .cfg sizeofKeysConfig :: .alloc .combo size :: rest ++
      freeKeycomboPlatdata none ++ [.free .cfg]) = [.combo] := by
    rw [show .alloc .cfg sizeofKeysConfig :: .alloc .combo size :: rest ++
        freeKeycomboPlatdata none ++ [.free .cfg] =
        [.alloc .cfg sizeofKeysConfig, .alloc .combo size] ++ (rest ++ [.free .cfg]) by
      simp [freeKeycomboPlatdata], devresHead_plain hplain]
    rfl
  have hprobe : amznKeycomboProbe i msgs = ⟨0, .alloc .cfg sizeofKeysConfig ::
      .alloc .combo size :: (rest ++ [.free .cfg, .free .combo]), msgs'⟩ := by
    unfold amznKeycomboProbe devresReleaseAll
    rw [if_pos hcfg, h]
    dsimp only
    rw [if_pos rfl, hhead]
    simp [freeKeycomboPlatdata]
  rw [hprobe]
  refine ⟨?_, hmsgs, fun hs => absurd rfl hs, fun hs => absurd rfl hs, fun _ o => ?_⟩
  · intro ev hev
    dsimp only at hev ⊢
    simp only [List.mem_cons, List.mem_append, List.not_mem_nil, or_false] at hev
    rcases hev with rfl | rfl | hev | rfl | rfl
    · trivial
    · trivial
    · exact (hplain ev hev).inside (List.mem_cons_of_mem _ List.mem_cons_self)
    · trivial
    · trivial
  · dsimp only
    rw [allocs_cons, allocs_cons, allocs_append, allocs_plain hplain, List.count_cons,
      List.count_cons, List.count_append, count_free_plain hplain]
    cases o with
    | cfg | combo | up => simp [allocs]

/-- A probe without memory for its own data, or that fails before it allocates the platform
data. -/
theorem fail_none {i : ProbeIn} {msgs : ComboFunc → Text}
    (h : i.kzallocCfg = true → dtToKeycomboData i msgs = ⟨0, [], msgs⟩)
    (hmsgs : ∀ fn, (msgs fn).length < comboMsgSize) : ProbeOk i (amznKeycomboProbe i msgs) := by
  by_cases hcfg : i.kzallocCfg = true
  · have hprobe : amznKeycomboProbe i msgs =
        ⟨0, [.alloc .cfg sizeofKeysConfig, .free .cfg], msgs⟩ := by
      unfold amznKeycomboProbe
      rw [if_pos hcfg, h hcfg]
      rfl
    rw [hprobe]
    refine ⟨?_, hmsgs, fun hs => absurd rfl hs, fun hs => absurd rfl hs, fun _ o => ?_⟩
    · intro ev hev
      dsimp only at hev
      simp only [List.mem_cons, List.not_mem_nil, or_false] at hev
      rcases hev with rfl | rfl <;> trivial
    · dsimp only
      cases o <;> decide
  · unfold amznKeycomboProbe
    rw [if_neg hcfg]
    exact ⟨fun ev hev => (List.not_mem_nil hev).elim, hmsgs, fun hs => absurd rfl hs,
      fun hs => absurd rfl hs, fun _ o => by cases o <;> exact ⟨Nat.zero_le 1, rfl⟩⟩

/-! ## A parse that comes to the keys that are down -/

section
variable {l : StringList} {fn : ComboFunc} {msgs : ComboFunc → Text}

theorem downRun_plain (h : (msgs fn).length + appended l.names < comboMsgSize) :
    ∀ ev ∈ (downRun l fn msgs).2.1, ev.Plain (comboSize l) := by
  intro ev hev
  rcases downOn_mem fn hev with ⟨j, v, hj, rfl⟩ | ⟨off, bytes, rfl⟩
  · refine ⟨rfl, ?_⟩
    unfold keysDownOff comboSize
    omega
  · have hle : (msgs fn).length ≤ comboMsgSize := by omega
    refine @downOn_msg fn _ _ _ [] hle ?_ _ _ hev
    rw [downOn_length fn l.names hle]
    omega

theorem downRun_msgs (h : (msgs fn).length + appended l.names < comboMsgSize)
    (hmsgs : ∀ fn, (msgs fn).length < comboMsgSize) (fn' : ComboFunc) :
    (Function.update msgs fn (downRun l fn msgs).2.2 fn').length < comboMsgSize := by
  by_cases he : fn' = fn
  · subst he
    rw [Function.update_self]
    unfold downRun
    rw [downOn_length fn' l.names (by omega)]
    omega
  · rw [Function.update_of_ne he]
    exact hmsgs fn'

/-- The array of the keys that are down, once its terminator and the delay are stored. -/
theorem downRun_holds (hk : ∀ name ∈ l.names, Known name) {pre : List Ev} {delay : Int}
    (hpre : ∀ off v, .int .combo off v ∉ pre) :
    Holds (pre ++ ((downRun l fn msgs).2.1 ++
      [.int .combo (keysDownOff l.names.length) 0, .int .combo keyDownDelayOff delay]))
      .combo sizeofPlatformData l.names := by
  have htail : ∀ (w : Int) (j : Nat), wordFrom w
      [.int .combo (keysDownOff l.names.length) 0, .int .combo keyDownDelayOff delay] .combo
      (keysDownOff j) = if l.names.length = j then 0 else w := by
    intro w j
    unfold keysDownOff keyDownDelayOff sizeofPlatformData
    show (if Obj.combo = .combo ∧ 24 = 40 + 4 * j then delay
      else if Obj.combo = .combo ∧ 40 + 4 * l.names.length = 40 + 4 * j then 0 else w) = _
    rw [if_neg (by omega)]
    refine if_congr ?_ rfl rfl
    rw [and_iff_right rfl]
    omega
  refine ⟨fun j name hj => ⟨hk name (List.mem_of_getElem? hj), ?_⟩, ?_⟩
  · have hlt := (List.getElem?_eq_some_iff.1 hj).1
    rw [wordFrom_append, wordFrom_append, wordFrom_of_not (hpre _)]
    refine (htail _ j).trans ?_
    rw [if_neg (by omega)]
    have hword := @downOn_word fn 0 (msgs fn) _ 0 hk _ _ hj
    rwa [Nat.zero_add] at hword
  · rw [wordFrom_append, wordFrom_append]
    refine (htail _ l.names.length).trans ?_
    rw [if_pos rfl]

end

/-- The stores in the head of the platform data. -/
theorem plain_head {l : StringList} {off : Nat} (h : off + 8 ≤ sizeofPlatformData) :
    (∀ v, (Ev.int .combo off v).Plain (comboSize l)) ∧ (Ev.ptr .combo off).Plain (comboSize l) := by
  unfold Ev.Plain comboSize
  exact ⟨fun _ => ⟨rfl, by omega⟩, rfl, by omega⟩

theorem plain_end (l : StringList) :
    (Ev.int .combo (keysDownOff l.names.length) 0).Plain (comboSize l) := by
  unfold Ev.Plain comboSize keysDownOff
  exact ⟨rfl, by omega⟩

theorem comboSize_ne (l : StringList) : ((comboSize l : Nat) : Int) ≠ 0 := by
  unfold comboSize sizeofPlatformData
  omega

/-- No strings in a property: no array for it. -/
theorem readKeysUp_none {i : ProbeIn} {size : Int}
    (h : ¬ ofPropertyCountStrings i.node.keysUp > 0) : readKeysUp i size = (size, []) :=
  if_neg h

/-- **A probe that gets through** without an array for the keys that are up. -/
theorem ReadsDown.through {i : ProbeIn} {fn : ComboFunc} {l : StringList}
    {msgs : ComboFunc → Text} {delay : Nat} (h : ReadsDown i fn l)
    (hk : ∀ name ∈ l.names, Known name) (hd : i.node.delay = some delay)
    (hup : ¬ ofPropertyCountStrings i.node.keysUp > 0)
    (hroom : (msgs fn).length + appended l.names < comboMsgSize)
    (hmsgs : ∀ fn, (msgs fn).length < comboMsgSize) : ProbeOk i (amznKeycomboProbe i msgs) := by
  have hdown : (downRun l fn msgs).1 = true := (downOn_ok fn 0 (msgs fn) l.names).2 hk
  have hread : readDelay i (comboSize l) =
      (((comboSize l : Nat) : Int), [.int .combo keyDownDelayOff delay]) := by
    unfold readDelay
    rw [hd, readKeysUp_none hup]
  have hprobe : amznKeycomboProbe i msgs = ⟨comboSize l,
      [.alloc .cfg sizeofKeysConfig, .alloc .combo (comboSize l), .ptr .combo keyDownFnOff] ++
        ((downRun l fn msgs).2.1 ++ [.int .combo (keysDownOff l.names.length) 0,
          .int .combo keyDownDelayOff delay]),
      Function.update msgs fn (downRun l fn msgs).2.2⟩ := by
    unfold amznKeycomboProbe
    rw [if_pos h.cfg, h.parse, if_pos hdown, if_pos hdown, hread]
    exact if_neg (comboSize_ne l)
  rw [hprobe]
  refine ⟨?_, downRun_msgs hroom hmsgs, fun _ => ⟨l, h.keys, downRun_holds hk ?_⟩,
    fun _ lu hlu hne => ?_, fun hz => absurd hz (comboSize_ne l)⟩
  · intro ev hev
    dsimp only at hev ⊢
    have hmem : ∀ rest : List Ev, .alloc .combo (comboSize l) ∈
        [.alloc .cfg sizeofKeysConfig, .alloc .combo (comboSize l), .ptr .combo keyDownFnOff] ++
          rest := fun _ => List.mem_cons_of_mem _ List.mem_cons_self
    simp only [List.mem_cons, List.mem_append, List.not_mem_nil, or_false] at hev
    rcases hev with (rfl | rfl | rfl) | hev | rfl | rfl
    · trivial
    · trivial
    · exact (plain_head (by decide)).2.inside (hmem _)
    · exact (downRun_plain hroom ev hev).inside (hmem _)
    · exact (plain_end l).inside (hmem _)
    · exact ((plain_head (by decide)).1 _).inside (hmem _)
  · intro off v hmem
    simp only [List.mem_cons, List.not_mem_nil, reduceCtorEq, or_false] at hmem
  · rw [hlu, count_ok hne] at hup
    have := List.length_pos_iff.2 hne
    omega

/-- A probe that comes to the keys that are down is right where the condition holds. -/
theorem ReadsDown.ok {i : ProbeIn} {fn : ComboFunc} {l : StringList} {msgs : ComboFunc → Text}
    (h : ReadsDown i fn l) (hfit : Fits msgs i) (hmsgs : ∀ fn, (msgs fn).length < comboMsgSize) :
    ProbeOk i (amznKeycomboProbe i msgs) := by
  have hroom := hfit.msg fn l h
  have hplain := downRun_plain hroom
  have hmsgs' := downRun_msgs hroom hmsgs
  have hparse := h.parse msgs
  have hfn : (Ev.ptr .combo keyDownFnOff).Plain (comboSize l) := (plain_head (by decide)).2
  by_cases hdown : (downRun l fn msgs).1 = true
  · have hk : ∀ name ∈ l.names, Known name := (downOn_ok fn 0 (msgs fn) l.names).1 hdown
    rw [if_pos hdown, if_pos hdown] at hparse
    unfold readDelay at hparse
    cases hd : i.node.delay with
    | none =>
      rw [hd] at hparse
      refine fail_ok h.cfg hparse ?_ hmsgs'
      intro ev hev
      simp only [freeKeycomboPlatdata, List.mem_cons, List.mem_append, List.not_mem_nil,
        or_false] at hev
      rcases hev with rfl | hev | rfl
      exacts [hfn, hplain ev hev, plain_end l]
    | some delay =>
      by_cases hcnt : ofPropertyCountStrings i.node.keysUp > 0
      · obtain ⟨lu, hlu, hne⟩ := (count_cases i.node.keysUp).resolve_left (by omega)
        have hno := hfit.up ⟨fn, l, h, hk, by rw [hd]; exact Option.some_ne_none _⟩ lu hlu hne
        have hread : readKeysUp i (comboSize l) = (0, [.ptr .combo keysUpOff]) := by
          unfold readKeysUp
          dsimp only
          rw [if_pos hcnt, hno]
          rfl
        rw [hd] at hparse
        dsimp only at hparse
        rw [hread] at hparse
        refine fail_ok h.cfg hparse ?_ hmsgs'
        intro ev hev
        simp only [List.mem_cons, List.mem_append, List.not_mem_nil, or_false] at hev
        rcases hev with rfl | hev | rfl | rfl | rfl
        exacts [hfn, hplain ev hev, plain_end l, (plain_head (by decide)).1 _,
          (plain_head (by decide)).2]
      · exact h.through hk hd hcnt hroom hmsgs
  · rw [if_neg hdown, if_neg hdown] at hparse
    refine fail_ok h.cfg hparse ?_ hmsgs'
    intro ev hev
    rw [List.append_nil, List.mem_cons] at hev
    rcases hev with rfl | hev
    exacts [hfn, hplain ev hev]

/-- Every probe that meets the condition is right. -/
theorem Fits.ok {i : ProbeIn} {msgs : ComboFunc → Text} (hfit : Fits msgs i)
    (hmsgs : ∀ fn, (msgs fn).length < comboMsgSize) : ProbeOk i (amznKeycomboProbe i msgs) := by
  by_cases hread : ∃ fn l, ReadsDown i fn l
  · obtain ⟨fn, l, h⟩ := hread
    exact h.ok hfit hmsgs
  · have hno : ∀ fn l, ¬ ReadsDown i fn l := fun fn l h => hread ⟨fn, l, h⟩
    by_cases hcfg : i.kzallocCfg = true
    · rcases parse_early hno hcfg with h | ⟨size, h⟩
      · exact fail_none (fun _ => h) hmsgs
      · exact fail_ok hcfg h (fun ev hev => (List.not_mem_nil hev).elim) hmsgs
    · exact fail_none (fun hc => absurd hc hcfg) hmsgs

/-! ## The array for the keys that are up -/

/-- A parse that gets the array: what it stores, and a size that is not 0. -/
theorem ReadsDown.parse_up {i : ProbeIn} {fn : ComboFunc} {l lu : StringList} {delay : Nat}
    (h : ReadsDown i fn l) (msgs : ComboFunc → Text)
    (hk : ∀ name ∈ l.names, Known name) (hd : i.node.delay = some delay)
    (hlu : i.node.keysUp = .ok lu) (hne : lu.names ≠ []) (hup : i.kzallocUp = true) :
    (dtToKeycomboData i msgs).size = comboSize l ∧
    (dtToKeycomboData i msgs).evs =
      .alloc .combo (comboSize l) :: .ptr .combo keyDownFnOff :: ((downRun l fn msgs).2.1 ++
        .int .combo (keysDownOff l.names.length) 0 :: .int .combo keyDownDelayOff delay ::
        .alloc .up (lu.names.length + 1) :: .ptr .combo keysUpOff ::
        ((upLoop (.ok lu) lu.names.length 0).2 ++
          [.int .up (4 * (upLoop (.ok lu) lu.names.length 0).1) 0])) := by
  have hdown : (downRun l fn msgs).1 = true := (downOn_ok fn 0 (msgs fn) l.names).2 hk
  have hpos := List.length_pos_iff.2 hne
  have hread : readDelay i (comboSize l) = (((comboSize l : Nat) : Int),
      .int .combo keyDownDelayOff delay :: .alloc .up (lu.names.length + 1) ::
      .ptr .combo keysUpOff :: ((upLoop (.ok lu) lu.names.length 0).2 ++
        [.int .up (4 * (upLoop (.ok lu) lu.names.length 0).1) 0])) := by
    unfold readDelay readKeysUp
    rw [hd, hlu, count_ok hne]
    dsimp only
    rw [if_pos (by omega), if_pos hup, Int.toNat_natCast]
    rfl
  rw [h.parse, if_pos hdown, if_pos hdown, hread]
  exact ⟨rfl, rfl⟩

/-- A probe that gets the array is wrong: where the loop stores all the keys, the terminator is past
its end, and where it stops before, the keys are not the ones that are listed. -/
theorem ReadsDown.up_bad {i : ProbeIn} {fn : ComboFunc} {l lu : StringList}
    {msgs : ComboFunc → Text} (h : ReadsDown i fn l) (hk : ∀ name ∈ l.names, Known name)
    (hd : i.node.delay ≠ none) (hlu : i.node.keysUp = .ok lu) (hne : lu.names ≠ [])
    (hup : i.kzallocUp = true) : ¬ ProbeOk i (amznKeycomboProbe i msgs) := by
  intro hok
  obtain ⟨delay, hd⟩ := Option.ne_none_iff_exists'.1 hd
  obtain ⟨hsize, hevs⟩ := h.parse_up msgs hk hd hlu hne hup
  have hne0 : (dtToKeycomboData i msgs).size ≠ 0 := by
    rw [hsize]
    exact comboSize_ne l
  have hprobe : amznKeycomboProbe i msgs = ⟨(dtToKeycomboData i msgs).size,
      .alloc .cfg sizeofKeysConfig :: (dtToKeycomboData i msgs).evs,
      (dtToKeycomboData i msgs).msgs⟩ := by
    unfold amznKeycomboProbe
    rw [if_pos h.cfg]
    exact if_neg hne0
  rw [hprobe, hevs] at hok
  have hstop := @upLoop_stop lu lu.names.length 0 rfl
  generalize hr : upLoop (.ok lu) lu.names.length 0 = r at hok hstop
  obtain ⟨size, hmem, hle⟩ := hok.inside (.int .up (4 * r.1) 0) (by simp)
  have hsz : size = lu.names.length + 1 := by
    simp only [List.mem_cons, List.mem_append, List.not_mem_nil, Ev.alloc.injEq, reduceCtorEq,
      false_and, false_or, or_false, true_and] at hmem
    rcases hmem with hmem | hmem | hmem
    · rcases downOn_mem fn hmem with ⟨j, v, -, he⟩ | ⟨off, bytes, he⟩ <;> cases he
    · exact hmem
    · rw [← hr] at hmem
      obtain ⟨off, v, he⟩ := upLoop_mem hmem
      cases he
  have hlt : r.1 < lu.names.length := by omega
  have hget := List.getElem?_eq_getElem hlt
  exact hstop hget ((hok.up hne0 lu hlu hne).1 r.1 _ hget).1

/-- A probe that is right met the condition. -/
theorem ProbeOk.fits {i : ProbeIn} {msgs : ComboFunc → Text}
    (hok : ProbeOk i (amznKeycomboProbe i msgs)) (hmsgs : ∀ fn, (msgs fn).length < comboMsgSize) :
    Fits msgs i := by
  refine ⟨fun fn l h => ?_, ?_⟩
  · have hterm := hok.terminated fn
    rw [h.probe_msgs, Function.update_self] at hterm
    unfold downRun at hterm
    have hle := (hmsgs fn).le
    rw [downOn_length fn l.names hle] at hterm
    omega
  · rintro ⟨fn, l, h, hk, hd⟩ lu hlu hne
    by_contra hup
    exact h.up_bad hk hd hlu hne (by simpa using hup) hok

/-! ## Runs of probes -/

/-- **Along every run of probes**, each is right if and only if each meets the condition on the
messages it finds. -/
theorem probes_iff (is : List ProbeIn) :
    Sys.Along probeStep (fun msgs i => ProbeOk i (amznKeycomboProbe i msgs)) funcsMsg is ↔
      Sys.Along probeStep Fits funcsMsg is := by
  refine Sys.along_iff (I := fun msgs : ComboFunc → Text => ∀ fn, (msgs fn).length < comboMsgSize)
    (fun msgs i hmsgs => ⟨fun hok => hok.fits hmsgs, fun hfit => hfit.ok hmsgs⟩) ?_ is funcsMsg ?_
  · intro msgs i o msgs' _ hok hstep
    injection hstep with hpair
    injection hpair with _ hm
    rw [← hm]
    exact hok.terminated
  · intro fn
    cases fn <;> decide

/-- A combo on the keys `down`, released with the keys `up`. -/
def comboNode (down up : StringList) : ProbeIn where
  node := { keysDown := .ok down, func := some 0, delay := some 5000, keysUp := .ok up }
  kzallocCfg := true
  kzallocCombo := true
  kzallocUp := true

/-- One key that is up gets two bytes, in which its `int` and the terminator do not fit; a combo of
two keys that is probed four times fills the message. -/
theorem probes_overrun :
    ¬ Sys.Along probeStep (fun msgs i => ProbeOk i (amznKeycomboProbe i msgs)) funcsMsg
      [comboNode ⟨[ascii "KEY_POWER"], by decide⟩ ⟨[ascii "KEY_VOLUMEUP"], by decide⟩] ∧
    ¬ Sys.Along probeStep (fun msgs i => ProbeOk i (amznKeycomboProbe i msgs)) funcsMsg
      (List.replicate 4 (comboNode ⟨[ascii "KEY_VOLUMEUP", ascii "KEY_POWER"], by decide⟩
        ⟨[], by decide⟩)) := by
  refine ⟨?_, ?_⟩
  · rintro ⟨hok, -⟩
    have hevs : (amznKeycomboProbe (comboNode ⟨[ascii "KEY_POWER"], by decide⟩
        ⟨[ascii "KEY_VOLUMEUP"], by decide⟩) funcsMsg).evs =
        [.alloc .cfg 32, .alloc .combo 48, .ptr .combo 0, .int .combo 40 116,
          .msg .panic 23 (ascii "KEY_POWER" ++ [0]), .msg .panic 32 [32, 0], .int .combo 44 0,
          .int .combo 24 5000, .alloc .up 2, .ptr .combo 32, .int .up 0 115, .int .up 4 0] := by
      decide
    obtain ⟨size, hmem, hle⟩ := hok.inside (.int .up 4 0) (by rw [hevs]; simp)
    rw [hevs] at hmem
    simp only [List.mem_cons, List.not_mem_nil, Ev.alloc.injEq, reduceCtorEq, false_and, false_or,
      or_false, true_and] at hmem
    omega
  · rintro ⟨-, h⟩
    obtain ⟨-, h⟩ := h _ _ rfl
    obtain ⟨-, h⟩ := h _ _ rfl
    obtain ⟨hok, -⟩ := h _ _ rfl
    exact absurd (hok.terminated .panic) (by decide)

end KeyCombo
