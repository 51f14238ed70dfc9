import Mathlib.Data.Finset.Card

/-!
# Shared resources with one owner

Holders use resources and each of them is at a place. A resource has a count of the holders that use
it and, while there are some, an owner: the one place where all of them are. A holder may start to
use resources that are free or owned by its place; the one that ends last leaves them free.
-/

namespace Shared

variable {ι κ θ : Type*} {held : Finset ι} {i : ι}

section Count

variable {P : ι → Prop} [DecidablePred P]

theorem card_filter_pos : 0 < (held.filter P).card ↔ ∃ i ∈ held, P i := by
  rw [Finset.card_pos, Finset.filter_nonempty_iff]

variable [DecidableEq ι]

theorem card_filter_insert (hi : i ∉ held) :
    ((insert i held).filter P).card = (held.filter P).card + if P i then 1 else 0 := by
  rw [Finset.filter_insert]
  split
  · rw [Finset.card_insert_of_notMem fun h => hi (Finset.mem_filter.1 h).1]
  · rfl

theorem card_filter_erase (hi : i ∈ held) :
    ((held.erase i).filter P).card + (if P i then 1 else 0) = (held.filter P).card := by
  rw [Finset.filter_erase]
  split
  case isTrue hp => exact Finset.card_erase_add_one (Finset.mem_filter.2 ⟨hi, hp⟩)
  case isFalse hp =>
    rw [Finset.erase_eq_of_notMem fun h => hp (Finset.mem_filter.1 h).2, Nat.add_zero]

end Count

variable [DecidableEq κ] {uses uses' : ι → Finset κ} {place place' : ι → Option θ}
  {count : κ → ℤ} {owner : κ → Option θ}

/-- The counts and the owners of the resources that the holders use. -/
structure Owned (held : Finset ι) (uses : ι → Finset κ) (place : ι → Option θ) (count : κ → ℤ)
    (owner : κ → Option θ) : Prop where
  count : ∀ k, count k = (held.filter (k ∈ uses ·)).card
  place : ∀ i ∈ held, ∀ k ∈ uses i, place i = owner k
  owner : ∀ k, owner k ≠ none → ∃ i ∈ held, k ∈ uses i

theorem owned_empty : Owned ∅ uses place (fun _ => 0) (fun _ => none) where
  count k := by simp
  place i hi := absurd hi (Finset.notMem_empty i)
  owner k hk := absurd rfl hk

/-- Only the holders matter. -/
theorem Owned.congr (h : Owned held uses place count owner) (hu : ∀ i ∈ held, uses' i = uses i)
    (hp : ∀ i ∈ held, place' i = place i) : Owned held uses' place' count owner where
  count k := by
    rw [h.count k]
    congr 2
    exact Finset.filter_congr fun i hi => by rw [hu i hi]
  place i hi k hk := by
    rw [hp i hi]
    exact h.place i hi k (hu i hi ▸ hk)
  owner k hk := by
    obtain ⟨i, hi, hki⟩ := h.owner k hk
    exact ⟨i, hi, (hu i hi).symm ▸ hki⟩

theorem Owned.pos_iff (h : Owned held uses place count owner) (k : κ) :
    0 < count k ↔ ∃ i ∈ held, k ∈ uses i := by
  rw [h.count k, Int.natCast_pos, card_filter_pos]

/-- Where every holder has a place, a resource has an owner exactly while it is used. -/
theorem Owned.owner_iff (h : Owned held uses place count owner) (hs : ∀ i ∈ held, place i ≠ none)
    (k : κ) : owner k ≠ none ↔ 0 < count k := by
  rw [h.pos_iff]
  refine ⟨h.owner k, fun ⟨i, hi, hk⟩ => ?_⟩
  rw [← h.place i hi k hk]
  exact hs i hi

variable [DecidableEq ι]

/-- A holder starts to use resources that are free or owned by its place. -/
theorem Owned.take (h : Owned held uses place count owner) (hs : ∀ i ∈ held, place i ≠ none)
    (hi : i ∉ held) {t : θ} (ht : place i = some t)
    (hfree : ∀ k ∈ uses i, owner k = none ∨ owner k = some t) :
    Owned (insert i held) uses place (fun k => if k ∈ uses i then count k + 1 else count k)
      (fun k => if k ∈ uses i ∧ count k ≤ 0 then some t else owner k) where
  count k := by
    rw [card_filter_insert hi, h.count k]
    split <;> simp
  place j hj k hk := by
    rcases Finset.mem_insert.1 hj with rfl | hj
    · by_cases hc : count k ≤ 0
      · rw [if_pos ⟨hk, hc⟩, ht]
      · rw [if_neg fun hn => hc hn.2, ht]
        rcases hfree k hk with hn | he
        · exact absurd hn ((h.owner_iff hs k).2 (by omega))
        · exact he.symm
    · have hc : 0 < count k := (h.pos_iff k).2 ⟨j, hj, hk⟩
      rw [if_neg fun hn => absurd hn.2 (by omega)]
      exact h.place j hj k hk
  owner k hk := by
    by_cases hc : k ∈ uses i ∧ count k ≤ 0
    · exact ⟨i, Finset.mem_insert_self .., hc.1⟩
    · rw [if_neg hc] at hk
      obtain ⟨j, hj, hkj⟩ := h.owner k hk
      exact ⟨j, Finset.mem_insert_of_mem hj, hkj⟩

/-- A holder ends, and leaves the resources free that no other uses. -/
theorem Owned.give (h : Owned held uses place count owner) (hi : i ∈ held) :
    Owned (held.erase i) uses place (fun k => if k ∈ uses i then count k - 1 else count k)
      (fun k => if k ∈ uses i ∧ count k - 1 ≤ 0 then none else owner k) where
  count k := by
    have := card_filter_erase (P := (k ∈ uses ·)) hi
    have hc := h.count k
    split
    case isTrue hk =>
      rw [if_pos hk] at this
      omega
    case isFalse hk =>
      rw [if_neg hk] at this
      omega
  place j hj k hk := by
    obtain ⟨hne, hj⟩ := Finset.mem_erase.1 hj
    rw [if_neg, h.place j hj k hk]
    rintro ⟨hki, hc⟩
    have h1 := card_filter_erase (P := (k ∈ uses ·)) hi
    have h2 : 0 < ((held.erase i).filter (k ∈ uses ·)).card :=
      card_filter_pos.2 ⟨j, Finset.mem_erase.2 ⟨hne, hj⟩, hk⟩
    have h3 := h.count k
    rw [if_pos hki] at h1
    omega
  owner k hk := by
    by_cases hc : k ∈ uses i ∧ count k - 1 ≤ 0
    · rw [if_pos hc] at hk
      exact absurd rfl hk
    · rw [if_neg hc] at hk
      obtain ⟨j, hj, hkj⟩ := h.owner k hk
      by_cases hji : j = i
      · subst hji
        have h1 := card_filter_erase (P := (k ∈ uses ·)) hi
        have h3 := h.count k
        rw [if_pos hkj] at h1
        have h2 : ¬ count k - 1 ≤ 0 := fun hle => hc ⟨hkj, hle⟩
        exact card_filter_pos.1 (by omega)
      · exact ⟨j, Finset.mem_erase.2 ⟨hji, hj⟩, hkj⟩

end Shared
