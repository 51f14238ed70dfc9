import FireTablet.Pd.Charging
import Mathlib.Algebra.GroupWithZero.Nat
import Mathlib.Tactic.SplitIfs
import Mathlib.Data.List.Induction

/-!
# The capabilities that are copied

The fixed capabilities come out in order, with their own voltages and currents. Their powers are
computed with the current at the position that they had before the others were left out, and the
selected index is the position there; both are right where nothing was left out before
(`pdGetCap_iff`). The table that the algorithm works with is that one (`pdHalGetAdapterCap_eq`).
-/

namespace Pd

open CInt

def RemoteCap.Fixed (c : RemoteCap) : Bool := c.type = 0

/-- The fixed capabilities, with the positions they are reported at. -/
def fixedAt (cs : List RemoteCap) : List (RemoteCap × Nat) :=
  cs.zipIdx.filter fun x => x.1.Fixed

theorem map_fixedAt (cs : List RemoteCap) :
    (fixedAt cs).map Prod.fst = cs.filter RemoteCap.Fixed := by
  have h := List.filter_map (f := Prod.fst) (p := RemoteCap.Fixed) (l := cs.zipIdx)
  rw [List.zipIdx_map_fst] at h
  exact h.symm

theorem fixedAt_append (cs : List RemoteCap) (c : RemoteCap) :
    fixedAt (cs ++ [c]) = if c.Fixed then fixedAt cs ++ [(c, cs.length)] else fixedAt cs := by
  unfold fixedAt
  rw [List.zipIdx_append, List.filter_append, Nat.zero_add]
  by_cases h : c.Fixed <;> simp [h]

theorem length_fixedAt_le (cs : List RemoteCap) : (fixedAt cs).length ≤ cs.length := by
  have := List.length_filter_le (fun x : RemoteCap × Nat => x.1.Fixed) cs.zipIdx
  rwa [List.length_zipIdx] at this

/-- What the entry at `k` is after a capability reported at `i` has been copied to it. -/
structure Copied (old t : AdapterPowerCap) (k : Nat) (c : RemoteCap) (i : Nat) : Prop where
  type : t.type k = mtkPd
  ma : t.ma k = c.ma
  maxMv : t.maxMv k = c.maxMv
  minMv : t.minMv k = c.minMv
  maxwatt : t.maxwatt k = i32 (c.maxMv * if i = k then c.ma else old.ma i)
  minwatt : t.minwatt k = i32 (c.minMv * if i = k then c.ma else old.ma i)

/-- An entry as it was. -/
structure Untouched (old t : AdapterPowerCap) (k : Nat) : Prop where
  ma : t.ma k = old.ma k
  maxMv : t.maxMv k = old.maxMv k
  minMv : t.minMv k = old.minMv k
  maxwatt : t.maxwatt k = old.maxwatt k

/-- The state of the loop when some capabilities are copied. -/
structure Progress (old : AdapterPowerCap) (cs : List RemoteCap) (s : AdapterPowerCap × Nat) :
    Prop where
  count : s.2 = (fixedAt cs).length
  copied : ∀ k c i, (fixedAt cs)[k]? = some (c, i) → Copied old s.1 k c i
  rest : ∀ k, s.2 ≤ k → Untouched old s.1 k
  selected : s.1.selectedCapIdx = old.selectedCapIdx

/-- One capability more. -/
theorem Progress.step {old : AdapterPowerCap} {cs : List RemoteCap} {s : AdapterPowerCap × Nat}
    (h : Progress old cs s) (hlt : cs.length < pdoMaxNr) (c : RemoteCap) :
    ∃ s', copyCap s (c, cs.length) = some s' ∧ Progress old (cs ++ [c]) s' := by
  obtain ⟨t, j⟩ := s
  obtain ⟨hcount, hcopied, hrest, hsel⟩ := h
  simp only at hcount hcopied hrest hsel
  have hj : j ≤ cs.length := hcount ▸ length_fixedAt_le cs
  have h10 : ¬ adapterCapMaxNr ≤ cs.length := by
    unfold pdoMaxNr at hlt
    unfold adapterCapMaxNr
    omega
  unfold copyCap
  simp only
  rw [if_neg (by omega)]
  by_cases hc : c.type = 0
  · rw [if_pos ⟨hc, by omega⟩, if_neg h10]
    have hfix : c.Fixed = true := decide_eq_true hc
    refine ⟨_, rfl, ⟨?_, ?_, ?_, hsel⟩⟩
    · rw [fixedAt_append, if_pos hfix, List.length_append, hcount]
      rfl
    · intro k c' i hk
      rw [fixedAt_append, if_pos hfix] at hk
      by_cases hkj : k < (fixedAt cs).length
      · rw [List.getElem?_append_left hkj] at hk
        obtain ⟨h1, h2, h3, h4, h5, h6⟩ := hcopied k c' i hk
        have hne : k ≠ j := by omega
        exact ⟨by simp [set, hne, h1], by simp [set, hne, h2], by simp [set, hne, h3],
          by simp [set, hne, h4], by simp [set, hne, h5], by simp [set, hne, h6]⟩
      · rw [List.getElem?_append_right (by omega)] at hk
        obtain ⟨hk0, hci⟩ : k = j ∧ (c, cs.length) = (c', i) := by
          rcases hd : k - (fixedAt cs).length with _ | n
          · rw [hd] at hk
            exact ⟨by omega, Option.some.inj hk⟩
          · rw [hd] at hk
            cases hk
        obtain ⟨rfl, rfl⟩ := Prod.mk.inj hci
        subst hk0
        have hma : set t.ma k c.ma cs.length =
            if cs.length = k then c.ma else old.ma cs.length := by
          unfold set
          split_ifs with heq
          · rfl
          · exact (hrest _ (by omega)).ma
        exact ⟨if_pos rfl, if_pos rfl, if_pos rfl, if_pos rfl, (if_pos rfl).trans (by rw [hma]),
          (if_pos rfl).trans (by rw [hma])⟩
    · intro k hk
      have hne : k ≠ j := by simp only at hk; omega
      obtain ⟨h1, h2, h3, h4⟩ := hrest k (by simp only at hk; omega)
      exact ⟨(if_neg hne).trans h1, (if_neg hne).trans h2, (if_neg hne).trans h3,
        (if_neg hne).trans h4⟩
  · have hfix : ¬ c.Fixed = true := by simpa [RemoteCap.Fixed] using hc
    rw [if_neg fun h => hc h.1]
    refine ⟨_, rfl, ⟨?_, ?_, hrest, hsel⟩⟩
    · rw [fixedAt_append, if_neg hfix]
      exact hcount
    · rw [fixedAt_append, if_neg hfix]
      exact hcopied

/-- The loop over a list that fits the arrays. -/
theorem foldlM_progress (old : AdapterPowerCap) {cs : List RemoteCap} (h : cs.length ≤ pdoMaxNr) :
    ∃ s, cs.zipIdx.foldlM copyCap (old, 0) = some s ∧ Progress old cs s := by
  induction cs using List.reverseRecOn with
  | nil => exact ⟨_, rfl, rfl, by simp [fixedAt], fun _ _ => ⟨rfl, rfl, rfl, rfl⟩, rfl⟩
  | append_singleton cs c ih =>
    rw [List.length_append, List.length_singleton] at h
    obtain ⟨s, hs, hp⟩ := ih (by omega)
    obtain ⟨s', hs', hp'⟩ := hp.step (by omega) c
    refine ⟨s', ?_, hp'⟩
    rw [List.zipIdx_append, List.foldlM_append, hs, Nat.zero_add]
    exact (bind_pure _).trans hs'

/-- Behind the end of the arrays nothing may be read. -/
theorem foldlM_long (old : AdapterPowerCap) {cs : List RemoteCap} (h : pdoMaxNr < cs.length) :
    cs.zipIdx.foldlM copyCap (old, 0) = none := by
  have hsplit : cs = cs.take pdoMaxNr ++ cs[pdoMaxNr] :: cs.drop (pdoMaxNr + 1) := by
    rw [← List.drop_eq_getElem_cons h, List.take_append_drop]
  have hlen : (cs.take pdoMaxNr).length = pdoMaxNr := List.length_take_of_le (Nat.le_of_lt h)
  obtain ⟨s, hs, -⟩ := foldlM_progress old (Nat.le_of_eq hlen)
  rw [hsplit, List.zipIdx_append, List.foldlM_append, hs, List.zipIdx_cons, hlen]
  rfl

/-! ## What is returned -/

/-- The fixed capabilities and no others, with their own values, and the position of the one that
is selected. -/
structure Returned (remote : RemotePowerCap) (t : AdapterPowerCap) : Prop where
  nr : t.nr = (remote.caps.filter RemoteCap.Fixed).length
  entry : ∀ k c, (remote.caps.filter RemoteCap.Fixed)[k]? = some c →
    t.type k = mtkPd ∧ t.ma k = c.ma ∧ t.maxMv k = c.maxMv ∧ t.minMv k = c.minMv ∧
      t.maxwatt k = c.maxMv * c.ma ∧ t.minwatt k = c.minMv * c.ma
  selected : ∀ s c, (remote.selectedCapIdx : Nat) = s + 1 → remote.caps[s]? = some c →
    c.Fixed = true →
      (t.selectedCapIdx : Nat) = ((remote.caps.take s).filter RemoteCap.Fixed).length

/-- Nothing is left out before the selected capability, and the power of a capability with one left
out before it is that with the current that the table had there. -/
structure CapsFit (old : AdapterPowerCap) (remote : RemotePowerCap) : Prop where
  le : remote.caps.length ≤ pdoMaxNr
  nr : remote.caps = [] → old.nr = 0
  power : ∀ k c i, (fixedAt remote.caps)[k]? = some (c, i) →
    i32 (c.maxMv * if i = k then c.ma else old.ma i) = c.maxMv * c.ma ∧
      i32 (c.minMv * if i = k then c.ma else old.ma i) = c.minMv * c.ma
  selected : ∀ s c, (remote.selectedCapIdx : Nat) = s + 1 → remote.caps[s]? = some c →
    c.Fixed = true → ∀ c' ∈ remote.caps.take s, c'.Fixed = true

/-- The reported position is the position in the table when nothing is left out before. -/
theorem take_filter_iff {remote : RemotePowerCap} {s : Nat} {c : RemoteCap}
    (hs : (remote.selectedCapIdx : Nat) = s + 1) (hc : remote.caps[s]? = some c) :
    ((remote.selectedCapIdx - 1 : Fin 256) : Nat) =
        ((remote.caps.take s).filter RemoteCap.Fixed).length ↔
      ∀ c' ∈ remote.caps.take s, c'.Fixed = true := by
  have hlt := (List.getElem?_eq_some_iff.1 hc).1
  have hpos : ((remote.selectedCapIdx - 1 : Fin 256) : Nat) = s := by
    rw [Fin.sub_def]
    simp only [Fin.val_one]
    omega
  have hlen : (remote.caps.take s).length = s := List.length_take_of_le (Nat.le_of_lt hlt)
  rw [hpos, ← List.length_filter_eq_length_iff, hlen]
  exact eq_comm

/-- The entry at a position of the table and the fixed capability there. -/
theorem fixed_of_fixedAt {cs : List RemoteCap} {k i : Nat} {c : RemoteCap}
    (h : (fixedAt cs)[k]? = some (c, i)) : (cs.filter RemoteCap.Fixed)[k]? = some c := by
  rw [← map_fixedAt, List.getElem?_map, h]
  rfl

theorem fixedAt_of_fixed {cs : List RemoteCap} {k : Nat} {c : RemoteCap}
    (h : (cs.filter RemoteCap.Fixed)[k]? = some c) : ∃ i, (fixedAt cs)[k]? = some (c, i) := by
  rw [← map_fixedAt, List.getElem?_map, Option.map_eq_some_iff] at h
  obtain ⟨⟨c', i⟩, h, rfl⟩ := h
  exact ⟨i, h⟩

/-- The call for a list that fits. -/
theorem pdGetCap_eq (old : AdapterPowerCap) {remote : RemotePowerCap} (hne : remote.caps ≠ [])
    (hle : remote.caps.length ≤ pdoMaxNr) :
    ∃ t, pdGetCap old remote = some t ∧ t.nr = (remote.caps.filter RemoteCap.Fixed).length ∧
      t.selectedCapIdx = remote.selectedCapIdx - 1 ∧
      (∀ k c i, (fixedAt remote.caps)[k]? = some (c, i) → Copied old t k c i) ∧
      ∀ k, t.nr ≤ k → Untouched old t k := by
  obtain ⟨s, hs, hp⟩ := foldlM_progress { old with selectedCapIdx := remote.selectedCapIdx - 1 } hle
  refine ⟨{ s.1 with nr := s.2 }, ?_, ?_, hp.selected, ?_, ?_⟩
  · rw [pdGetCap, if_neg hne, hs]
    rfl
  · rw [← map_fixedAt, List.length_map]
    exact hp.count
  · intro k c i hk
    obtain ⟨h1, h2, h3, h4, h5, h6⟩ := hp.copied k c i hk
    exact ⟨h1, h2, h3, h4, h5, h6⟩
  · intro k hk
    obtain ⟨h1, h2, h3, h4⟩ := hp.rest k hk
    exact ⟨h1, h2, h3, h4⟩

/-- The table is right when nothing is left out before a capability whose power it changes. -/
theorem pdGetCap_iff (old : AdapterPowerCap) (remote : RemotePowerCap) :
    (∃ t, pdGetCap old remote = some t ∧ Returned remote t) ↔ CapsFit old remote := by
  by_cases hne : remote.caps = []
  · have hres : pdGetCap old remote = some old := if_pos hne
    constructor
    · rintro ⟨t, ht, hr⟩
      obtain rfl := Option.some.inj (hres.symm.trans ht)
      have hnr := hr.nr
      rw [hne] at hnr
      exact ⟨by simp [hne], fun _ => hnr, by simp [hne, fixedAt], by simp [hne]⟩
    · intro h
      exact ⟨old, hres, by rw [hne]; exact h.nr hne, by simp [hne], by simp [hne]⟩
  by_cases hle : remote.caps.length ≤ pdoMaxNr
  · obtain ⟨t, hres, hnr, hsel, hcopied, -⟩ := pdGetCap_eq old hne hle
    constructor
    · rintro ⟨t', ht', hr⟩
      obtain rfl := Option.some.inj (hres.symm.trans ht')
      refine ⟨hle, fun h => absurd h hne, ?_, ?_⟩
      · intro k c i hk
        obtain ⟨-, -, -, -, h5, h6⟩ := hr.entry k c (fixed_of_fixedAt hk)
        have hc := hcopied k c i hk
        exact ⟨hc.maxwatt.symm.trans h5, hc.minwatt.symm.trans h6⟩
      · intro s c hs hc hfix
        have := hr.selected s c hs hc hfix
        rw [hsel] at this
        exact (take_filter_iff hs hc).1 this
    · intro h
      refine ⟨t, hres, hnr, ?_, ?_⟩
      · intro k c hk
        obtain ⟨i, hi⟩ := fixedAt_of_fixed hk
        have hc := hcopied k c i hi
        obtain ⟨hmax, hmin⟩ := h.power k c i hi
        exact ⟨hc.type, hc.ma, hc.maxMv, hc.minMv, hc.maxwatt.trans hmax, hc.minwatt.trans hmin⟩
      · intro s c hs hc hfix
        rw [hsel]
        exact (take_filter_iff hs hc).2 (h.selected s c hs hc hfix)
  · have hres : pdGetCap old remote = none := by
      rw [pdGetCap, if_neg hne, foldlM_long _ (by omega)]
      rfl
    constructor
    · rintro ⟨t, ht, -⟩
      cases hres.symm.trans ht
    · intro h
      exact absurd h.le hle

/-! ## The table of the algorithm -/

/-- The adapter as it appears in the table. -/
def reported (remote : RemotePowerCap) (hle : remote.caps.length ≤ pdoMaxNr) : Adapter where
  caps := (fixedAt remote.caps).mapIdx fun k x =>
    ⟨x.1.minMv, x.1.maxMv, x.1.ma, i32 (x.1.maxMv * if x.2 = k then x.1.ma else 0)⟩
  accepted := none
  le := by
    have := length_fixedAt_le remote.caps
    rw [List.length_mapIdx]
    unfold pdoMaxNr at hle
    unfold pdCapMaxNr
    omega

/-- The table that the charging algorithm is given is the one it reads of such an adapter. -/
theorem pdHalGetAdapterCap_eq {remote : RemotePowerCap} (hle : remote.caps.length ≤ pdoMaxNr)
    (hne : remote.caps ≠ []) : pdHalGetAdapterCap remote =
      some ((reported remote hle).powerCap (remote.selectedCapIdx - 1 : Fin 256)) := by
  obtain ⟨t, hres, hnr, hsel, hcopied, hrest⟩ := pdGetCap_eq .zero hne hle
  rw [← map_fixedAt, List.length_map] at hnr
  have hlen := length_fixedAt_le remote.caps
  rw [pdHalGetAdapterCap, hres, Option.map_some, Adapter.powerCap, hsel, hnr]
  congr 2
  · exact (Nat.mod_eq_of_lt (Fin.is_lt _)).symm
  · exact (List.length_mapIdx ..).symm
  · funext i
    by_cases h0 : 0 ≤ i
    · rw [if_pos h0, List.getD_eq_getElem?_getD, reported, List.getElem?_mapIdx]
      cases hx : (fixedAt remote.caps)[i.toNat]? with
      | none =>
        have hge := List.getElem?_eq_none_iff.1 hx
        obtain ⟨h1, h2, h3, h4⟩ := hrest i.toNat (by omega)
        rw [h1, h2, h3, h4]
        exact ite_self _
      | some x =>
        have hlt := (List.getElem?_eq_some_iff.1 hx).1
        have hc := hcopied i.toNat x.1 x.2 hx
        rw [if_pos ⟨h0, by unfold pdoMaxNr at hle; omega⟩, hc.minMv, hc.maxMv, hc.ma, hc.maxwatt]
        rfl
    · rw [if_neg h0, if_neg fun h => h0 h.1]

/-! ## An adapter with a variable capability -/

local instance neZero_u8 : NeZero 256 := ⟨by decide⟩

/-- 5 V at 3 A, a variable capability, and 9 V at 2 A, which is selected. -/
def variableCaps : RemotePowerCap :=
  ⟨3, [⟨5000, 5000, 3000, 0⟩, ⟨12000, 5000, 2000, 2⟩, ⟨9000, 9000, 2000, 0⟩]⟩

theorem variableCaps_le : variableCaps.caps.length ≤ pdoMaxNr := by decide

theorem pdHalGetAdapterCap_variable : pdHalGetAdapterCap variableCaps =
    some ((reported variableCaps variableCaps_le).powerCap
      (variableCaps.selectedCapIdx - 1 : Fin 256)) :=
  pdHalGetAdapterCap_eq variableCaps_le (List.cons_ne_nil _ _)

/-- The 9 V capability comes out with a power of zero and the index of a third one. -/
theorem variableCaps_wrong :
    (∃ t, pdGetCap .zero variableCaps = some t ∧ t.nr = 2 ∧ t.maxMv 1 = 9000 ∧ t.ma 1 = 2000 ∧
      t.maxwatt 1 = 0 ∧ t.selectedCapIdx = 2) ∧
    ¬ ∃ t, pdGetCap .zero variableCaps = some t ∧ Returned variableCaps t := by
  refine ⟨⟨_, rfl, by decide, by decide, by decide, by decide, by decide⟩, ?_⟩
  rintro ⟨t, ht, hr⟩
  obtain rfl := Option.some.inj ht
  have := (hr.entry 1 ⟨9000, 9000, 2000, 0⟩ rfl).2.2.2.2.1
  revert this
  decide

end Pd
