import Mathlib.Data.Finset.SDiff
import Mathlib.Data.List.Nodup
import Mathlib.Data.List.Perm.Basic

/-!
# Ledgers of resources

A ledger is a list of accounts, each with the resources that its owner is to give back. It is right
for the resources that are out if each of them is in exactly one account.
-/

namespace Ledger

variable {β : Type*} {out : Finset β} {as as' : List (List β)} {a : List β}

/-- Every resource that is out is in one account, once. -/
structure Right (out : Finset β) (as : List (List β)) : Prop where
  once : as.flatten.Nodup
  mem : ∀ b, b ∈ out ↔ b ∈ as.flatten

theorem right_nil : Right (∅ : Finset β) [] :=
  ⟨List.nodup_nil, fun b => by simp⟩

theorem Right.perm (h : Right out as) (hp : as.Perm as') : Right out as' :=
  ⟨hp.flatten.nodup_iff.1 h.once, fun b => (h.mem b).trans hp.flatten.mem_iff⟩

theorem Right.nodup_head (h : Right out (a :: as)) : a.Nodup :=
  (List.nodup_append.1 (by simpa using h.once)).1

theorem Right.head_mem (h : Right out (a :: as)) {b : β} (hb : b ∈ a) : b ∈ out :=
  (h.mem b).2 (List.mem_append_left _ hb)

variable [DecidableEq β]

/-- An account is closed when its resources are given back. -/
theorem Right.close (h : Right out (a :: as)) : Right (out \ a.toFinset) as := by
  have hn := h.once
  rw [List.flatten_cons, List.nodup_append] at hn
  refine ⟨hn.2.1, fun b => ?_⟩
  rw [Finset.mem_sdiff, h.mem b, List.flatten_cons, List.mem_append, List.mem_toFinset]
  refine ⟨fun ⟨hm, hna⟩ => hm.resolve_left hna, fun hm => ⟨.inr hm, fun ha => ?_⟩⟩
  exact hn.2.2 b ha b hm rfl

/-- An account is opened with resources that were not out. -/
theorem Right.opened (h : Right out as) (ha : a.Nodup) (hd : ∀ b ∈ a, b ∉ out) :
    Right (out ∪ a.toFinset) (a :: as) := by
  refine ⟨?_, fun b => ?_⟩
  · rw [List.flatten_cons, List.nodup_append]
    refine ⟨ha, h.once, fun b hb b' hb' he => hd b hb ?_⟩
    rw [h.mem b, he]
    exact hb'
  · rw [Finset.mem_union, h.mem b, List.flatten_cons, List.mem_append, List.mem_toFinset, or_comm]

end Ledger
