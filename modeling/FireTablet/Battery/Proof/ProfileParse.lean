import FireTablet.Battery.ProfileDts
import FireTablet.Battery.Proof.ProfileRows

/-!
# What parsing a profile leaves in its table

The first loop stores as many rows as the first table declares, or as are begun in the property
(`rowsRead`), a cell that is missing being the one of the row before (`lastCell`). The last row
fills the rest (`fgCustomParseTable_eq`). So a table is as the device tree says if it has the rows
of the first table, or if they only repeat (`profiles_parsed_iff`).
-/

namespace Battery

open CInt

/-! ## The rows that are stored -/

/-- The number of cells divided into rows, counting the one that is begun. -/
def rowsBegun (c n : Nat) : Nat := (n + c - 1) / c

/-- The rows that the first loop stores from `n` cells: there is at least one before the bound is
looked at. -/
def rowsRead (c : Nat) (bound : Int) (n : Nat) : Nat :=
  max 1 (min (rowsBegun c n) (rowsBegun c bound.toNat))

/-- The cell that column `f` has last, before row `r`. -/
def lastCell (cells : List Cell) (c f : Nat) : Nat → Option Cell
  | 0 => none
  | r + 1 => cells[c * r + f]?.or (lastCell cells c f r)

/-- The value of a cell. -/
def cellVal (v : Option Cell) : Int := (v.getD 0 : Cell)

/-- The row that is stored as row `r`. -/
def lastRow (cells : List Cell) (c r : Nat) (row : Row) : Row :=
  row.store (cellVal (lastCell cells c 0 (r + 1))) (cellVal (lastCell cells c 1 (r + 1)))
    (cellVal (lastCell cells c 2 (r + 1))) (cellVal (lastCell cells c (c - 1) (r + 1)))

/-- The variables after `r` rows. -/
def varsAt (cells : List Cell) (c r : Nat) : RowVars :=
  let var (f : Nat) := (lastCell cells c f r).map fun v : Cell => i32 v
  { mah := var 0, voltage := var 1, resistance := var 2, resistance2 := var (c - 1) }

/-- The rows from `r` on, up to `T`, stored. -/
def storedRows (cells : List Cell) (c r T : Nat) (rows : Nat → Row) (k : Nat) : Row :=
  if r ≤ k ∧ k < T then lastRow cells c k (rows k) else rows k

/-- A hundred rows, the last of the first `T` repeated. -/
def filledRows (cells : List Cell) (c T : Nat) (rows : Nat → Row) (k : Nat) : Row :=
  if k < 100 then lastRow cells c (min k (T - 1)) (rows k) else rows k

theorem toWord_i32 (x : Int) : toWord (i32 x) = toWord x := by
  simp only [toWord, u32_i32]

theorem toShort_i32 (x : Int) : toShort (i32 x) = toShort x := by
  have h : u16 (i32 x) = u16 x := by unfold u16 i32; omega
  simp only [toShort, h]

theorem Row.store_i32 (row : Row) (mah voltage resistance resistance2 : Int) :
    row.store (i32 mah) (i32 voltage) (i32 resistance) (i32 resistance2) =
      row.store mah voltage resistance resistance2 := by
  simp only [Row.store, toWord_i32, toShort_i32]

section
variable {cells : List Cell} {c : Nat}

theorem lastCell_present {f r : Nat} (h : c * r + f < cells.length) :
    lastCell cells c f (r + 1) = cells[c * r + f]? := by
  rw [lastCell, List.getElem?_eq_getElem h, Option.some_or]

theorem lastCell_isSome {f r : Nat} :
    (lastCell cells c f (r + 1)).isSome ↔ f < cells.length := by
  induction r with
  | zero => simp [lastCell]
  | succ r ih =>
    rw [lastCell, Option.isSome_or, Bool.or_eq_true, ih, isSome_getElem?]
    constructor
    · rintro (h | h)
      · omega
      · exact h
    · exact .inr

/-- The variables can be stored if the first row was complete. -/
theorem store_varsAt (hc : c = 3 ∨ c = 4) (r k : Nat) (rows : Nat → Row) :
    (varsAt cells c (r + 1)).store k rows =
      if k < 100 ∧ c ≤ cells.length then
        some (Function.update rows k (lastRow cells c r (rows k)))
      else none := by
  by_cases hn : c ≤ cells.length
  · have hval : ∀ f < c, ∃ v, lastCell cells c f (r + 1) = some v := fun f hf =>
      Option.isSome_iff_exists.mp (lastCell_isSome.mpr (by omega))
    obtain ⟨v0, h0⟩ := hval 0 (by omega)
    obtain ⟨v1, h1⟩ := hval 1 (by omega)
    obtain ⟨v2, h2⟩ := hval 2 (by omega)
    obtain ⟨v3, h3⟩ := hval (c - 1) (by omega)
    simp only [RowVars.store, varsAt, lastRow, cellVal, h0, h1, h2, h3, Option.map_some,
      Option.bind_eq_bind, Option.bind_some, Option.getD_some, Row.store_i32, hn, and_true]
    rfl
  · rw [if_neg (by omega)]
    have hnone : lastCell cells c (c - 1) (r + 1) = none := by
      rw [← Option.not_isSome_iff_eq_none, lastCell_isSome]
      omega
    simp [RowVars.store, varsAt, hnone]

theorem update_storedRows (r T : Nat) (rows : Nat → Row) (hr : r < T) :
    storedRows cells c (r + 1) T (Function.update rows r (lastRow cells c r (rows r))) =
      storedRows cells c r T rows := by
  funext k
  by_cases hk : k = r
  · subst hk
    simp [storedRows, hr]
  · have h : (r + 1 ≤ k ∧ k < T) ↔ (r ≤ k ∧ k < T) := by omega
    simp only [storedRows, Function.update_of_ne hk, h]

/-! ## The first loop -/

/-- Where the loop stands after row `r`. -/
def nextIdx (c n r : Nat) : Nat := if c = 4 ∧ n ≤ 4 * r + 3 then 4 * r + 3 else c * (r + 1)

/-- **One iteration**, at a row that is begun. -/
theorem parseLoop_step (hc : c = 3 ∨ c = 4) {r fuel : Nat} {bound : Int} {rows : Nat → Row}
    (hr : c * r < cells.length) :
    parseLoop cells bound c (fuel + 1) (c * r) (varsAt cells c r) r rows =
      if r < 100 ∧ c ≤ cells.length then
        let next := nextIdx c cells.length r
        let rows' := Function.update rows r (lastRow cells c r (rows r))
        if (next : Int) ≥ bound then some ⟨next, varsAt cells c (r + 1), r + 1, rows'⟩
        else parseLoop cells bound c fuel next (varsAt cells c (r + 1)) (r + 1) rows'
      else none := by
  have hmah : readU32Index cells (c * r) =
      (lastCell cells c 0 (r + 1)).map fun v : Cell => i32 v := by
    rw [lastCell_present (by omega)]; rfl
  have hsome : ∃ v, lastCell cells c 0 (r + 1) = some v :=
    Option.isSome_iff_exists.mp (lastCell_isSome.mpr (by omega))
  obtain ⟨v, hv⟩ := hsome
  have hcol : ∀ f, (readU32Index cells (c * r + f)).or
      ((lastCell cells c f r).map fun v : Cell => i32 v) =
        (lastCell cells c f (r + 1)).map fun v : Cell => i32 v := fun f => by
    rw [lastCell, Option.map_or]; rfl
  have hnext : (if c = 4 ∧ (readU32Index cells (c * r + 3)).isSome then c * r + 4
      else c * r + 3) = nextIdx c cells.length r := by
    simp only [readU32Index, Option.isSome_map, isSome_getElem?, nextIdx]
    obtain rfl | rfl := hc <;> split_ifs <;> omega
  have hvars : ({
      mah := some (i32 v)
      voltage := (readU32Index cells (c * r + 1)).or (varsAt cells c r).voltage
      resistance := (readU32Index cells (c * r + 2)).or (varsAt cells c r).resistance
      resistance2 :=
        if c = 4 then (readU32Index cells (c * r + 3)).or (varsAt cells c r).resistance2
        else (readU32Index cells (c * r + 2)).or (varsAt cells c r).resistance } : RowVars) =
      varsAt cells c (r + 1) := by
    simp only [varsAt, hcol, hv, Option.map_some]
    obtain rfl | rfl := hc
    · rfl
    · simp only [if_true, Nat.add_one_sub_one, hcol]
  rw [parseLoop, hmah, hv]
  simp only [Option.map_some, hvars, hnext, store_varsAt hc]
  split_ifs <;> rfl

/-- The loop over the rows from `r` on. -/
theorem parseLoop_eq (hc : c = 3 ∨ c = 4) {bound : Int} :
    ∀ (d : Nat) {r fuel : Nat} {rows : Nat → Row},
      rowsRead c bound cells.length = r + d + 1 → c * r < cells.length → d + 1 < fuel →
      parseLoop cells bound c fuel (c * r) (varsAt cells c r) r rows =
        if rowsRead c bound cells.length ≤ 100 ∧ c ≤ cells.length then
          some ⟨nextIdx c cells.length (r + d), varsAt cells c (r + d + 1), r + d + 1,
            storedRows cells c r (r + d + 1) rows⟩
        else none
  | 0, r, fuel + 2, rows, hT, hr, _ => by
    have hmax := hT
    simp only [rowsRead, rowsBegun] at hmax
    have hlt : (r < 100 ∧ c ≤ cells.length) ↔ (r + 0 + 1 ≤ 100 ∧ c ≤ cells.length) := by omega
    have hrows : Function.update rows r (lastRow cells c r (rows r)) =
        storedRows cells c r (r + 1) rows := by
      rw [← update_storedRows r (r + 1) rows (Nat.lt_succ_self r)]
      funext k
      rw [storedRows, if_neg (by omega)]
    rw [parseLoop_step hc hr, hT]
    simp only [hlt, hrows, Nat.add_zero]
    -- the loop ends at the bound, or as there is no further cell
    by_cases hge : (nextIdx c cells.length r : Int) ≥ bound
    · simp only [if_pos hge]
    · have hend : readU32Index cells (nextIdx c cells.length r) = none := by
        rw [readU32Index, Option.map_eq_none_iff, List.getElem?_eq_none_iff]
        unfold nextIdx at hge ⊢
        obtain rfl | rfl := hc <;> split_ifs at hge ⊢ <;> omega
      simp only [if_neg hge, parseLoop, hend]
  | d + 1, r, fuel + 1, rows, hT, hr, hf => by
    have hmax := hT
    simp only [rowsRead, rowsBegun] at hmax
    have hnext : nextIdx c cells.length r = c * (r + 1) := by
      unfold nextIdx
      obtain rfl | rfl := hc <;> split_ifs <;> omega
    have hlt : ¬ ((c * (r + 1) : Nat) : Int) ≥ bound := by
      obtain rfl | rfl := hc <;> omega
    have hmore : c * (r + 1) < cells.length := by
      obtain rfl | rfl := hc <;> omega
    rw [parseLoop_step hc hr]
    simp only [hnext, if_neg hlt]
    rw [parseLoop_eq hc d (by omega) hmore (by omega), update_storedRows _ _ _ (by omega),
      show r + 1 + d = r + (d + 1) by omega]
    split_ifs <;> first | rfl | omega

/-! ## The second loop -/

/-- From a whole number of rows on, the last row fills the rest of the hundred. -/
theorem padLoop_eq (hc : c = 3 ∨ c = 4) (hn : c ≤ cells.length) (r : Nat) :
    ∀ (fuel : Nat) {k : Nat} (rows : Nat → Row), k ≤ 100 → 100 - k < fuel →
      padLoop c (varsAt cells c (r + 1)) fuel (c * k) k rows =
        some fun j => if k ≤ j ∧ j < 100 then lastRow cells c r (rows j) else rows j
  | fuel + 1, k, rows, hk, hf => by
    rw [padLoop]
    by_cases hlt : k < 100
    · have hidx : c * k < 100 * c := by
        obtain rfl | rfl := hc <;> omega
      rw [if_pos hidx, store_varsAt hc, if_pos ⟨hlt, hn⟩, show c * k + c = c * (k + 1) by rfl]
      simp only [Option.bind_eq_bind, Option.bind_some]
      rw [padLoop_eq hc hn r fuel _ (by omega) (by omega)]
      congr 1
      funext j
      by_cases hj : j = k
      · subst hj
        simp [hlt]
      · have h : (k + 1 ≤ j ∧ j < 100) ↔ (k ≤ j ∧ j < 100) := by omega
        simp only [Function.update_of_ne hj, h]
    · have hidx : ¬ c * k < 100 * c := by
        obtain rfl | rfl := hc <;> omega
      rw [if_neg hidx]
      congr 1
      funext j
      rw [if_neg (by omega)]

/-- From one cell less on, there is a row too many. -/
theorem padLoop_past (hn : 4 ≤ cells.length) (r : Nat) :
    ∀ (fuel : Nat) {k : Nat} (rows : Nat → Row), k < 100 →
      padLoop 4 (varsAt cells 4 (r + 1)) fuel (4 * k + 3) (k + 1) rows = none
  | 0, _, _, _ => rfl
  | fuel + 1, k, rows, hk => by
    rw [padLoop, if_pos (by omega), store_varsAt (.inr rfl)]
    by_cases hlast : k + 1 < 100
    · rw [if_pos ⟨hlast, hn⟩]
      exact padLoop_past hn r fuel _ hlast
    · rw [if_neg (by omega)]
      rfl

/-! ## A table -/

/-- The table can be parsed: its rows fit into a hundred, the first one is complete, and of four
columns every one. -/
structure ParseFits (c : Nat) (bound : Int) (n : Nat) : Prop where
  rows : rowsRead c bound n ≤ 100
  first : c ≤ n
  whole : c = 4 → 4 * rowsRead c bound n ≤ n

instance (c : Nat) (bound : Int) (n : Nat) : Decidable (ParseFits c bound n) :=
  decidable_of_iff (_ ∧ _ ∧ (_ → _))
    ⟨fun h => ⟨h.1, h.2.1, h.2.2⟩, fun h => ⟨h.rows, h.first, h.whole⟩⟩

theorem rowsRead_pos (c : Nat) (bound : Int) (n : Nat) : 0 < rowsRead c bound n :=
  Nat.le_max_left _ _

/-- **A profile** that fits leaves its rows, the last of them repeated; any other has no defined
result. One without a cell is not looked at. -/
theorem fgCustomParseTable_eq (hc : c = 3 ∨ c = 4) (saddles : Int) (rows : Nat → Row) :
    fgCustomParseTable saddles cells c rows =
      if cells = [] then some rows
      else if ParseFits c (i32 (saddles * c)) cells.length then
        some (filledRows cells c (rowsRead c (i32 (saddles * c)) cells.length) rows)
      else none := by
  cases hcells : cells with
  | nil => rfl
  | cons v vs =>
    rw [← hcells, if_neg (by simp [hcells])]
    have hpos : 0 < cells.length := by simp [hcells]
    obtain ⟨d, hd⟩ : ∃ d, d + 1 = rowsRead c (i32 (saddles * c)) cells.length :=
      ⟨_, Nat.sub_add_cancel (rowsRead_pos _ _ _)⟩
    have hle : d < cells.length := by
      have hmax := hd
      simp only [rowsRead, rowsBegun] at hmax
      obtain rfl | rfl := hc <;> omega
    have hloop : parseLoop cells (i32 (saddles * c)) c (cells.length + 1) 0
        ⟨none, none, none, none⟩ 0 rows =
          if rowsRead c (i32 (saddles * c)) cells.length ≤ 100 ∧ c ≤ cells.length then
            some ⟨nextIdx c cells.length (0 + d), varsAt cells c (0 + d + 1), 0 + d + 1,
              storedRows cells c 0 (0 + d + 1) rows⟩
          else none :=
      parseLoop_eq (r := 0) hc d (by omega) (by omega) (by omega)
    rw [fgCustomParseTable, hloop, ← hd, Nat.zero_add]
    by_cases hfit : d + 1 ≤ 100 ∧ c ≤ cells.length
    · have hidx : nextIdx c cells.length d ≠ 0 := by
        unfold nextIdx
        obtain rfl | rfl := hc <;> split_ifs <;> omega
      simp only [if_pos hfit, Option.bind_eq_bind, Option.bind_some, if_neg hidx]
      by_cases hwhole : c = 4 ∧ cells.length ≤ 4 * d + 3
      · obtain ⟨rfl, hn⟩ := hwhole
        rw [nextIdx, if_pos ⟨rfl, hn⟩, padLoop_past hfit.2 d _ _ (by omega), if_neg]
        intro h
        have := h.whole rfl
        omega
      · rw [nextIdx, if_neg hwhole, padLoop_eq hc hfit.2 d _ _ hfit.1 (by omega),
          if_pos ⟨by omega, hfit.2, by omega⟩]
        congr 1
        funext j
        by_cases hj : j < d + 1
        · simp [storedRows, filledRows, hj, show ¬ d + 1 ≤ j by omega, show j < 100 by omega,
            show min j d = j by omega]
        · simp [storedRows, filledRows, hj, show d + 1 ≤ j by omega, show min j d = d by omega]
    · rw [if_neg hfit, if_neg fun h => hfit ⟨hd ▸ h.rows, h.first⟩]
      rfl

/-! ## The rows of the property -/

/-- Row `k` of the property. -/
def dtsRow (cells : List Cell) (c k : Nat) (row : Row) : Row :=
  row.store (cellVal cells[c * k]?) (cellVal cells[c * k + 1]?) (cellVal cells[c * k + 2]?)
    (cellVal cells[c * k + (c - 1)]?)

/-- The declared rows that are present. -/
def rowsPresent (size : Int) (cells : List Cell) (c : Nat) : Nat :=
  min size.toNat (cells.length / c)

/-- The hundred rows of a table with `m` rows of the property. -/
def dtsRows (cells : List Cell) (c m : Nat) (rows : Nat → Row) (k : Nat) : Row :=
  if k < 100 then dtsRow cells c (min k (m - 1)) (rows k) else rows k

/-- The condition on a table: it has a row, it can be parsed, and what lies between the rows that
are stored and its own repeats the row before. -/
structure TableFits (c : Nat) (saddles size : Int) (cells : List Cell) : Prop where
  present : 0 < rowsPresent size cells c
  parse : ParseFits c (i32 (saddles * c)) cells.length
  same : ∀ k < 100,
    min (rowsRead c (i32 (saddles * c)) cells.length) (rowsPresent size cells c) ≤ k →
    k < max (rowsRead c (i32 (saddles * c)) cells.length) (rowsPresent size cells c) →
    lastRow cells c k = lastRow cells c
      (min (rowsRead c (i32 (saddles * c)) cells.length) (rowsPresent size cells c) - 1)

theorem dtsRow_eq (hc : c = 3 ∨ c = 4) {k : Nat} (hk : k < cells.length / c) :
    dtsRow cells c k = lastRow cells c k := by
  have hlt : ∀ f < c, c * k + f < cells.length := fun f hf => by
    obtain rfl | rfl := hc <;> omega
  funext row
  rw [dtsRow, lastRow, lastCell_present (hlt 0 (by omega)), lastCell_present (hlt 1 (by omega)),
    lastCell_present (hlt 2 (by omega)), lastCell_present (hlt (c - 1) (by omega))]
  rfl

/-- What is stored does not depend on the row before. -/
theorem lastRow_congr {j k : Nat} {row : Row} (h : lastRow cells c j row = lastRow cells c k row) :
    lastRow cells c j = lastRow cells c k := by
  funext row'
  simp only [lastRow, Row.store, Row.mk.injEq, and_true] at h ⊢
  exact h

theorem filledRows_iff (hc : c = 3 ∨ c = 4) {T m : Nat} (hT : 0 < T) (hm : 0 < m)
    (hle : m ≤ cells.length / c) (rows : Nat → Row) :
    filledRows cells c T rows = dtsRows cells c m rows ↔
      ∀ k < 100, min T m ≤ k → k < max T m →
        lastRow cells c k = lastRow cells c (min T m - 1) := by
  have hrow : ∀ k, dtsRow cells c (min k (m - 1)) = lastRow cells c (min k (m - 1)) := fun k =>
    dtsRow_eq hc (by omega)
  constructor
  · intro h k hk hlo hhi
    have hrows := congrFun h k
    rw [filledRows, dtsRows, if_pos hk, if_pos hk, hrow] at hrows
    have heq := lastRow_congr hrows
    obtain hlt | hge := Nat.lt_or_ge T m
    · rw [show min k (T - 1) = min T m - 1 by omega, show min k (m - 1) = k by omega] at heq
      exact heq.symm
    · rw [show min k (T - 1) = k by omega, show min k (m - 1) = min T m - 1 by omega] at heq
      exact heq
  · intro h
    funext k
    unfold filledRows dtsRows
    by_cases hk : k < 100
    · rw [if_pos hk, if_pos hk, hrow]
      refine congrFun ?_ (rows k)
      obtain hlo | hlo := Nat.lt_or_ge k (min T m)
      · rw [show min k (T - 1) = k by omega, show min k (m - 1) = k by omega]
      · obtain hlt | hge := Nat.lt_or_ge T m
        · rw [show min k (T - 1) = min T m - 1 by omega]
          exact (h (min k (m - 1)) (by omega) (by omega) (by omega)).symm
        · obtain heq | hgt := Nat.eq_or_lt_of_le hge
          · rw [heq]
          · rw [show min k (m - 1) = min T m - 1 by omega]
            exact h (min k (T - 1)) (by omega) (by omega) (by omega)
    · rw [if_neg hk, if_neg hk]

/-- A table is filled with the rows of its property if and only if it meets the condition. -/
theorem parseTable_iff (hc : c = 3 ∨ c = 4) (saddles size : Int) (rows : Nat → Row) :
    (0 < rowsPresent size cells c ∧ fgCustomParseTable saddles cells c rows =
      some (dtsRows cells c (rowsPresent size cells c) rows)) ↔
        TableFits c saddles size cells := by
  have hiff : 0 < rowsPresent size cells c →
      (filledRows cells c (rowsRead c (i32 (saddles * c)) cells.length) rows =
        dtsRows cells c (rowsPresent size cells c) rows ↔ _) := fun hpos =>
    filledRows_iff hc (rowsRead_pos _ _ _) hpos (Nat.min_le_right _ _) rows
  have hne : 0 < rowsPresent size cells c → cells ≠ [] := fun hpos hnil => by
    simp [rowsPresent, hnil] at hpos
  constructor
  · intro ⟨hpos, heq⟩
    rw [fgCustomParseTable_eq hc, if_neg (hne hpos)] at heq
    split_ifs at heq with hfit
    exact ⟨hpos, hfit, (hiff hpos).mp (Option.some.inj heq)⟩
  · intro h
    refine ⟨h.present, ?_⟩
    rw [fgCustomParseTable_eq hc, if_neg (hne h.present), if_pos h.parse,
      (hiff h.present).mpr h.same]

end

/-! ## The tables -/

/-- Parsing table `i` leaves the others, and fills its rows if its property exists. -/
def TableParsed (dts : ProfileDts) (i : Nat) (t t' : Nat → TempProfile) : Prop :=
  ∃ rows, t' = Function.update t i { t i with size := dts.size t i, rows := rows } ∧
    match dts.profile i with
    | none => rows = (t i).rows
    | some cells =>
      0 < rowsPresent (dts.size t i) cells (dts.column i) ∧
        rows = dtsRows cells (dts.column i)
          (rowsPresent (dts.size t i) cells (dts.column i)) (t i).rows

theorem ProfileDts.column_cases (dts : ProfileDts) (i : Nat) :
    dts.column i = 3 ∨ dts.column i = 4 := by
  unfold ProfileDts.column
  dsimp only
  split_ifs <;> omega

section
variable {dts : ProfileDts} {i : Nat} {s t t' : Nat → TempProfile}

/-- The count of the first table, as the parsing of table `i` reads it. -/
def saddlesAt (dts : ProfileDts) (i : Nat) (s : Nat → TempProfile) : Int :=
  if i = 0 then dts.size s 0 else (s 0).size

theorem initTable_eq :
    fgCustomInitTable dts i s =
      if i < 10 then
        (fgCustomParseTable (saddlesAt dts i s) ((dts.profile i).getD []) (dts.column i)
          (s i).rows).map
            fun rows => Function.update s i { s i with size := dts.size s i, rows := rows }
      else none := by
  have hsaddles : ∀ p : TempProfile, p.size = dts.size s i →
      (Function.update s i p 0).size = saddlesAt dts i s := fun p hp => by
    unfold saddlesAt
    split_ifs with h
    · rw [h, Function.update_self, hp, h]
    · rw [Function.update_of_ne (Ne.symm h)]
  unfold fgCustomInitTable
  dsimp only
  rw [hsaddles _ rfl, Function.update_self, Option.map_eq_bind]
  simp only [Function.update_idem, Option.bind_eq_bind]
  rfl

/-- The tables that have not been parsed yet are the old ones, and the count of the first one is
known. -/
theorem initTables_rest : ∀ {n : Nat} {s : Nat → TempProfile},
    fgCustomInitTables dts n t = some s →
      (∀ j, n ≤ j → s j = t j) ∧ (0 < n → (s 0).size = dts.size t 0)
  | 0, _, h => ⟨fun _ _ => by rw [← Option.some.inj h], fun h => absurd h (by decide)⟩
  | n + 1, s, h => by
    obtain ⟨u, hu, hs⟩ := Option.bind_eq_some_iff.mp h
    obtain ⟨hrest, hsize⟩ := initTables_rest hu
    rw [initTable_eq] at hs
    split_ifs at hs
    obtain ⟨rows, -, rfl⟩ := Option.map_eq_some_iff.mp hs
    refine ⟨fun j hj => ?_, fun _ => ?_⟩
    · rw [Function.update_of_ne (by omega), hrest j (by omega)]
    · cases n with
      | zero => rw [Function.update_self]; simp only [ProfileDts.size, hrest 0 (Nat.le_refl 0)]
      | succ n => rw [Function.update_of_ne (by omega), hsize (by omega)]

/-- **One table**, after those before it. -/
theorem initTable_iff (hs : fgCustomInitTables dts i t = some s) :
    (∃ s', fgCustomInitTable dts i s = some s' ∧ TableParsed dts i s s') ↔
      i < 10 ∧ ∀ cells, dts.profile i = some cells →
        TableFits (dts.column i) (dts.size t 0) (dts.size t i) cells := by
  obtain ⟨hrest, hsize⟩ := initTables_rest hs
  have hsaddles : saddlesAt dts i s = dts.size t 0 := by
    unfold saddlesAt
    split_ifs with h
    · simp only [ProfileDts.size, hrest 0 (by omega)]
    · exact hsize (by omega)
  have hown : dts.size s i = dts.size t i := by
    simp only [ProfileDts.size, hrest i (Nat.le_refl i)]
  rw [initTable_eq, hsaddles]
  by_cases hi : i < 10
  · simp only [TableParsed, hi, true_and, hown]
    cases hp : dts.profile i with
    | none =>
      refine iff_of_true ⟨_, rfl, (s i).rows, rfl, rfl⟩ fun _ h => ?_
      cases h
    | some cells =>
      simp only [Option.getD_some, Option.some.injEq, forall_eq']
      rw [← parseTable_iff (dts.column_cases i) _ _ (s i).rows]
      constructor
      · intro ⟨s', hs', rows, hrows, hpos, hfill⟩
        obtain ⟨rows', hparse, heq⟩ := Option.map_eq_some_iff.mp hs'
        have hsame := congrArg TempProfile.rows (congrFun (heq.trans hrows) i)
        simp only [Function.update_self] at hsame
        exact ⟨hpos, by rw [hparse, hsame, hfill]⟩
      · intro ⟨hpos, hparse⟩
        exact ⟨_, by rw [hparse]; rfl, _, rfl, hpos, rfl⟩
  · rw [if_neg hi]
    exact iff_of_false (fun ⟨_, h, _⟩ => by cases h) fun h => hi h.1

end

/-- All the tables are parsed, each one as its property says. -/
def ProfilesParsed (dts : ProfileDts) (activeTableNumber : Int) (t : Nat → TempProfile) : Prop :=
  ∃ t', fgCustomInitProfiles dts activeTableNumber t = some t' ∧
    ∀ i < activeTableNumber.toNat, ∃ s s', fgCustomInitTables dts i t = some s ∧
      fgCustomInitTables dts (i + 1) t = some s' ∧ TableParsed dts i s s'

/-- **The profiles** are parsed as the device tree says if and only if there are ten tables at most,
each of which meets its condition. -/
theorem profiles_parsed_iff (dts : ProfileDts) (activeTableNumber : Int) (t : Nat → TempProfile) :
    ProfilesParsed dts activeTableNumber t ↔
      activeTableNumber ≤ 10 ∧ ∀ i < activeTableNumber.toNat, ∀ cells,
        dts.profile i = some cells →
          TableFits (dts.column i) (dts.size t 0) (dts.size t i) cells := by
  have hstep : ∀ {i : Nat} {s s' : Nat → TempProfile}, fgCustomInitTables dts i t = some s →
      fgCustomInitTables dts (i + 1) t = some s' → fgCustomInitTable dts i s = some s' :=
    fun hs hs' => by rwa [fgCustomInitTables, hs] at hs'
  constructor
  · intro ⟨_, _, hall⟩
    have hone : ∀ i < activeTableNumber.toNat, i < 10 ∧ ∀ cells, dts.profile i = some cells →
        TableFits (dts.column i) (dts.size t 0) (dts.size t i) cells := fun i hi => by
      obtain ⟨s, s', hs, hs', hparsed⟩ := hall i hi
      exact (initTable_iff hs).mp ⟨s', hstep hs hs', hparsed⟩
    refine ⟨?_, fun i hi => (hone i hi).2⟩
    by_contra hmore
    have := (hone 10 (by omega)).1
    omega
  · intro ⟨hten, hfits⟩
    -- each table meets its condition after those before it
    have hrun : ∀ n ≤ activeTableNumber.toNat, ∃ s, fgCustomInitTables dts n t = some s ∧
        ∀ i < n, ∃ s s', fgCustomInitTables dts i t = some s ∧
          fgCustomInitTables dts (i + 1) t = some s' ∧ TableParsed dts i s s' := fun n => by
      induction n with
      | zero => exact fun _ => ⟨t, rfl, fun i hi => absurd hi (Nat.not_lt_zero i)⟩
      | succ n ih =>
        intro hn
        obtain ⟨s, hs, hall⟩ := ih (by omega)
        obtain ⟨s', hs', hparsed⟩ := (initTable_iff hs).mpr ⟨by omega, hfits n (by omega)⟩
        have hnext : fgCustomInitTables dts (n + 1) t = some s' := by
          rw [fgCustomInitTables, hs]
          exact hs'
        refine ⟨s', hnext, fun i hi => ?_⟩
        obtain hlt | rfl : i < n ∨ i = n := by omega
        · exact hall i hlt
        · exact ⟨s, s', hs, hnext, hparsed⟩
    exact hrun _ (Nat.le_refl _)

/-- Tables without rows. -/
def emptyTables (_ : Nat) : TempProfile :=
  ⟨0, 0, 0, 0, 0, 0, 0, fun _ => ⟨0, 0, 0, 0, 0⟩, by decide⟩

/-- Two tables, the second of which declares a row more. -/
def twoTablesDts : ProfileDts where
  num i := if i = 0 then some 1 else some 2
  col _ := none
  profile i := if i = 0 then some [10, 11, 12] else some [20, 21, 22, 30, 31, 32]

/-- The second row of the second table is not stored. -/
theorem profile_row_lost : ¬ ∀ dts activeTableNumber t, ProfilesParsed dts activeTableNumber t := by
  intro h
  obtain ⟨t', ht', hall⟩ := h twoTablesDts 2 emptyTables
  obtain ⟨s, s', hs, hs', rows, hrows, hparsed⟩ := hall 1 (by decide)
  have hstored : (fgCustomInitTables twoTablesDts 2 emptyTables).map
      (fun t => ((t 1).rows 1).mah) = some 20 := by decide +kernel
  rw [hs', Option.map_some, hrows, Function.update_self, Option.some.injEq] at hstored
  have hrow : (rows 1).mah = 30 := by rw [hparsed.2]; rfl
  exact absurd (hrow.symm.trans hstored) (by decide)

end Battery
