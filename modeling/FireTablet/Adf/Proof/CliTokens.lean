import FireTablet.Adf.Cli

/-!
# The parameters of a command

The loop of `adfCli_send` moves its parameter's start only where it writes one. A separator at the
start of a command or after another one becomes part of the next parameter, and a parameter that no
separator ends is not written. The ring has the tokens of the command if and only if each is ended
by one separator, with at most one more at the end, and all of them fit (`send_iff`). Here are the
tokens and the parameters as lists (`params_separated`); the ring comes in the next module.
-/

namespace Adf

/-! ## Tokens -/

/-- The tokens of a command: its maximal runs of bytes that are no separators. -/
def tokens (cmd : List UInt8) : List (List UInt8) :=
  (cmd.splitOnP isSeparator).filter fun token => token ≠ []

/-- The tokens one after another, each with a NUL. -/
def stream (tokens : List (List UInt8)) : List UInt8 := tokens.flatMap fun token => token ++ [0]

/-- Every separator ends a token, but for one more at the end, and the last token is ended by one;
`inside` is whether the byte before is a token's. -/
def separated : Bool → List UInt8 → Bool
  | inside, [] => !inside
  | inside, c :: rest =>
    if isSeparator c then (inside || rest.isEmpty) && separated false rest
    else separated true rest

/-- The bytes that are no separators. -/
def plain (bs : List UInt8) : List UInt8 := bs.filter fun c => !isSeparator c

theorem plain_append (as bs : List UInt8) : plain (as ++ bs) = plain as ++ plain bs :=
  List.filter_append as bs

theorem plain_sep {c : UInt8} (h : isSeparator c = true) (bs : List UInt8) :
    plain (c :: bs) = plain bs := by
  unfold plain
  rw [List.filter_cons_of_neg (by simp [h])]

/-- The first separator ends the first token, if there is one before it. -/
theorem tokens_sep {cur : List UInt8} (hcur : ∀ b ∈ cur, isSeparator b = false) {c : UInt8}
    (hc : isSeparator c = true) (rest : List UInt8) :
    tokens (cur ++ c :: rest) = if cur = [] then tokens rest else cur :: tokens rest := by
  unfold tokens
  rw [List.splitOnP_append_cons_of_forall_mem hcur c hc, List.filter_cons]
  by_cases hnil : cur = []
  · rw [if_pos hnil, if_neg (by simp [hnil])]
  · rw [if_neg hnil, if_pos (by simp [hnil])]

theorem tokens_plain {cur : List UInt8} (hcur : ∀ b ∈ cur, isSeparator b = false) :
    tokens cur = if cur = [] then [] else [cur] := by
  unfold tokens
  rw [List.splitOnP_eq_singleton hcur, List.filter_cons]
  by_cases hnil : cur = []
  · rw [if_pos hnil, if_neg (by simp [hnil]), List.filter_nil]
  · rw [if_neg hnil, if_pos (by simp [hnil]), List.filter_nil]

theorem tokens_flatten_from (cmd : List UInt8) {cur : List UInt8}
    (hcur : ∀ b ∈ cur, isSeparator b = false) :
    (tokens (cur ++ cmd)).flatten = cur ++ plain cmd := by
  induction cmd generalizing cur with
  | nil =>
    rw [List.append_nil, tokens_plain hcur]
    split_ifs with hnil
    · rw [hnil]
      rfl
    · simp [plain]
  | cons c rest ih =>
    by_cases hc : isSeparator c = true
    · have hrest : (tokens rest).flatten = plain rest := @ih [] (by simp)
      rw [tokens_sep hcur hc, plain_sep hc]
      split_ifs with hnil
      · rw [hnil, hrest]
        rfl
      · rw [List.flatten_cons, hrest]
    · have hc := Bool.not_eq_true _ ▸ hc
      have happ : cur ++ c :: rest = (cur ++ [c]) ++ rest := by simp
      rw [happ, ih (by simpa [or_imp, forall_and] using ⟨hcur, hc⟩)]
      simp [plain, hc]

theorem tokens_flatten (cmd : List UInt8) : (tokens cmd).flatten = plain cmd :=
  @tokens_flatten_from cmd [] (by simp)

/-! ## Parameters -/

/-- The parameters that the loop writes; `cur` is what it has read of the next one. -/
def params : List UInt8 → List UInt8 → List (List UInt8)
  | _, [] => []
  | cur, c :: rest =>
    if isSeparator c ∧ cur ≠ [] then cur :: params [] rest else params (cur ++ [c]) rest

/-- What it has read at the end and does not write. -/
def leftover : List UInt8 → List UInt8 → List UInt8
  | cur, [] => cur
  | cur, c :: rest =>
    if isSeparator c ∧ cur ≠ [] then leftover [] rest else leftover (cur ++ [c]) rest

/-- No byte of a token is lost but for those at the end. -/
theorem params_plain (cur rest : List UInt8) :
    plain (params cur rest).flatten ++ plain (leftover cur rest) = plain (cur ++ rest) := by
  induction rest generalizing cur with
  | nil => rw [params, leftover, List.append_nil, List.flatten_nil]; rfl
  | cons c rest ih =>
    unfold params leftover
    split_ifs with hc
    · rw [List.flatten_cons, plain_append, List.append_assoc, ih, List.nil_append, plain_append,
        plain_sep hc.1]
    · rw [ih, List.append_assoc]
      rfl

theorem params_length (cur rest : List UInt8) : (params cur rest).length ≤ rest.length := by
  induction rest generalizing cur with
  | nil => exact Nat.le_refl 0
  | cons c rest ih =>
    unfold params
    split_ifs
    · exact Nat.succ_le_succ (ih [])
    · exact Nat.le_succ_of_le (ih _)

/-- Only the first byte of a parameter may be a separator. -/
theorem params_tail {cur : List UInt8} (hcur : ∀ b ∈ cur.tail, isSeparator b = false)
    (rest : List UInt8) :
    ∀ t ∈ params cur rest, t ≠ [] ∧ ∀ b ∈ t.tail, isSeparator b = false := by
  induction rest generalizing cur with
  | nil => exact fun t ht => (List.not_mem_nil ht).elim
  | cons c rest ih =>
    unfold params
    split_ifs with hc
    · rw [List.forall_mem_cons]
      exact ⟨⟨hc.2, hcur⟩, ih (by simp)⟩
    · refine ih ?_
      cases cur with
      | nil => simp
      | cons b cur =>
        rw [List.cons_append, List.tail_cons]
        intro b' hb'
        rcases List.mem_append.1 hb' with hb' | hb'
        · exact hcur b' hb'
        · rw [List.mem_singleton.1 hb']
          exact Bool.eq_false_iff.2 fun h => hc ⟨h, List.cons_ne_nil b cur⟩

/-- A separator that was read as part of a parameter stays in one, or bytes of a token are lost. -/
theorem dirty {cur rest : List UInt8} (hsep : ∃ b ∈ cur, isSeparator b = true)
    (h : rest ≠ [] ∨ plain cur ≠ [])
    (hclean : ∀ t ∈ params cur rest, ∀ b ∈ t, isSeparator b = false) :
    plain (leftover cur rest) ≠ [] := by
  induction rest generalizing cur with
  | nil => exact h.resolve_left fun hn => hn rfl
  | cons c rest ih =>
    unfold params at hclean
    unfold leftover
    obtain ⟨b, hb, hbs⟩ := hsep
    split_ifs at hclean ⊢ with hc
    · have := hclean cur List.mem_cons_self b hb
      rw [hbs] at this
      cases this
    · refine ih ⟨b, List.mem_append_left _ hb, hbs⟩ (.inr ?_) hclean
      have hcs : isSeparator c = false :=
        Bool.eq_false_iff.2 fun hs => hc ⟨hs, List.ne_nil_of_mem hb⟩
      rw [plain_append]
      simp [plain, hcs]

/-- A command is separated if and only if its parameters have no separators and nothing is lost. -/
theorem separated_iff {cur : List UInt8} (hcur : ∀ b ∈ cur, isSeparator b = false)
    (rest : List UInt8) :
    separated (!cur.isEmpty) rest = true ↔
      (∀ t ∈ params cur rest, ∀ b ∈ t, isSeparator b = false) ∧ plain (leftover cur rest) = [] := by
  induction rest generalizing cur with
  | nil =>
    unfold separated params leftover plain
    rw [List.filter_eq_self.2 (by simpa using hcur)]
    simp
  | cons c rest ih =>
    unfold separated params leftover
    by_cases hc : isSeparator c = true
    · cases cur with
      | cons b cur =>
        have hne : b :: cur ≠ [] := List.cons_ne_nil b cur
        rw [if_pos hc, if_pos ⟨hc, hne⟩, if_pos ⟨hc, hne⟩, List.forall_mem_cons]
        have := @ih [] (by simp)
        simp only [List.isEmpty_nil, Bool.not_true] at this
        simp only [List.isEmpty_cons, Bool.not_false, Bool.true_or, Bool.true_and, this]
        exact ⟨fun h => ⟨⟨hcur, h.1⟩, h.2⟩, fun h => ⟨h.1.2, h.2⟩⟩
      | nil =>
        rw [if_pos hc, if_neg (by simp), if_neg (by simp), List.nil_append]
        cases rest with
        | nil =>
          simp [separated, params, leftover, plain, hc]
        | cons c' rest =>
          refine iff_of_false (by simp) fun h => ?_
          exact dirty ⟨c, List.mem_singleton.2 rfl, hc⟩ (.inl (List.cons_ne_nil _ _)) h.1 h.2
    · have hcs := Bool.not_eq_true _ ▸ hc
      have hcur' : ∀ b ∈ cur ++ [c], isSeparator b = false := by
        simpa [or_imp, forall_and] using ⟨hcur, hcs⟩
      have hin : (!(cur ++ [c]).isEmpty) = true := by cases cur <;> rfl
      rw [if_neg hc, if_neg fun h => hc h.1, if_neg fun h => hc h.1, ← ih hcur', hin]

/-- The parameters of a separated command are its tokens. -/
theorem params_separated {cur : List UInt8} (hcur : ∀ b ∈ cur, isSeparator b = false)
    {rest : List UInt8} (h : separated (!cur.isEmpty) rest = true) :
    params cur rest = tokens (cur ++ rest) := by
  induction rest generalizing cur with
  | nil =>
    have hnil : cur = [] := by simpa [separated] using h
    rw [hnil]
    rfl
  | cons c rest ih =>
    unfold separated at h
    unfold params
    by_cases hc : isSeparator c = true
    · rw [if_pos hc, Bool.and_eq_true] at h
      have hrest : params [] rest = tokens rest := @ih [] (by simp) h.2
      rw [tokens_sep hcur hc]
      by_cases hnil : cur = []
      · have hend : rest = [] := by simpa [hnil] using h.1
        rw [if_neg (by simp [hnil]), if_pos hnil, hend]
        rfl
      · rw [if_pos ⟨hc, hnil⟩, if_neg hnil, hrest]
    · have hcs := Bool.not_eq_true _ ▸ hc
      have hin : (!(cur ++ [c]).isEmpty) = true := by cases cur <;> rfl
      rw [if_neg hc] at h
      rw [if_neg fun hand => hc hand.1, ih (by simpa [or_imp, forall_and] using ⟨hcur, hcs⟩)
        (by rw [hin]; exact h), List.append_assoc, List.singleton_append]

end Adf
