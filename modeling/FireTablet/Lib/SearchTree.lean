import Mathlib.Data.List.Basic

/-!
# Binary trees kept in order

`Tree.linkAt dir x` walks down from the root, to the left or to the right as `dir` says of each node
that is met, and puts `x` where the walk ends; the walk gives up at a node where `dir` says so. On a
tree whose nodes are in order for `dir`, `x` lands between those that send it to the right and those
that send it to the left (`linkAt_inorder`). What a balancing scheme does besides is a
`Rebalancing`.
-/

namespace SearchTree

variable {α : Type*}

/-- A binary tree. -/
inductive Tree (α : Type*)
  | nil
  | node (l : Tree α) (a : α) (r : Tree α)

namespace Tree

/-- The nodes from left to right. -/
def inorder : Tree α → List α
  | nil => []
  | node l a r => l.inorder ++ a :: r.inorder

/-- Link a new node where the walk ends. -/
def linkAt (dir : α → Option Bool) (x : α) : Tree α → Option (Tree α)
  | nil => some (node nil x nil)
  | node l a r =>
    match dir a with
    | none => none
    | some true => (linkAt dir x l).map fun l' => node l' a r
    | some false => (linkAt dir x r).map fun r' => node l a r'

/-- The tree of a list. -/
def ofList : List α → Tree α
  | [] => nil
  | a :: as => node nil a (ofList as)

@[simp] theorem inorder_ofList (as : List α) : (ofList as).inorder = as := by
  induction as with
  | nil => rfl
  | cons a as ih => rw [ofList, inorder, ih]; rfl

/-- **Linking keeps the order**: the new node comes behind the nodes that send it to the right and
before those that send it to the left. -/
theorem linkAt_inorder {dir : α → Option Bool} (x : α) {t : Tree α}
    (hd : ∀ a ∈ t.inorder, dir a ≠ none)
    (ho : t.inorder.Pairwise fun a b => dir a = some true → dir b = some true) :
    ∃ t' pre post, t.linkAt dir x = some t' ∧ t.inorder = pre ++ post ∧
      t'.inorder = pre ++ x :: post ∧ (∀ a ∈ pre, dir a = some false) ∧
      ∀ a ∈ post, dir a = some true := by
  induction t with
  | nil => exact ⟨_, [], [], rfl, rfl, rfl, by simp, by simp⟩
  | node l a r ihl ihr =>
    simp only [inorder, List.mem_append, List.mem_cons] at hd
    rw [inorder, List.pairwise_append, List.pairwise_cons] at ho
    obtain ⟨hol, ⟨har, hor⟩, hla⟩ := ho
    cases hda : dir a with
    | none => exact absurd hda (hd a (.inr (.inl rfl)))
    | some left =>
      cases left with
      | true =>
        obtain ⟨l', pre, post, h, he, he', hpre, hpost⟩ := ihl (fun b hb => hd b (.inl hb)) hol
        refine ⟨node l' a r, pre, post ++ a :: r.inorder, by simp [linkAt, hda, h],
          by simp [inorder, he], by simp [inorder, he'], hpre, fun b hb => ?_⟩
        rcases List.mem_append.1 hb with hb | hb
        · exact hpost b hb
        · rcases List.mem_cons.1 hb with rfl | hb
          · exact hda
          · exact har b hb hda
      | false =>
        obtain ⟨r', pre, post, h, he, he', hpre, hpost⟩ :=
          ihr (fun b hb => hd b (.inr (.inr hb))) hor
        refine ⟨node l a r', l.inorder ++ a :: pre, post, by simp [linkAt, hda, h],
          by simp [inorder, he], by simp [inorder, he'], fun b hb => ?_, hpost⟩
        have hleft {c : α} (hc : dir c ≠ none) (hn : dir c = some true → dir a = some true) :
            dir c = some false := by
          cases hdc : dir c with
          | none => exact absurd hdc hc
          | some left =>
            cases left with
            | false => rfl
            | true => rw [hn hdc] at hda; cases hda
        rcases List.mem_append.1 hb with hb | hb
        · exact hleft (hd b (.inl hb)) (hla b hb a (List.mem_cons_self ..))
        · rcases List.mem_cons.1 hb with rfl | hb
          · exact hda
          · exact hpre b hb

end Tree

/-- What a balancing scheme does after a node is linked, and to erase one. -/
structure Rebalancing (α : Type*) [DecidableEq α] where
  color : Tree α → Tree α
  erase : α → Tree α → Tree α
  inorder_color : ∀ t, (color t).inorder = t.inorder
  inorder_erase : ∀ a t, (erase a t).inorder = t.inorder.erase a

attribute [simp] Rebalancing.inorder_color Rebalancing.inorder_erase

/-- No balancing. -/
def Rebalancing.plain (α : Type*) [DecidableEq α] : Rebalancing α where
  color t := t
  erase a t := .ofList (t.inorder.erase a)
  inorder_color _ := rfl
  inorder_erase _ _ := Tree.inorder_ofList _

end SearchTree
