import Mathlib.Data.Finset.Image
import Mathlib.Data.Finset.Disjoint
import Mathlib.Logic.Equiv.Defs

/-!
# Tenants of places

Tenants hold sets of places. They are kept apart when no place has two tenants, and every place
that is held is in order. The rules follow what an allocator does: a tenant gives places up, a
tenant gets new ones, all tenants move at once along a permutation of the places.

## Main definitions

* `Kept`

## Main results

* `Kept.shrink`, `Kept.grant`, `Kept.exchange`: the three moves
* `kept_option`
-/

namespace Tenancy

variable {κ ι : Type*} {held held' : κ → Finset ι} {good good' : ι → Prop}

/-- Distinct tenants hold disjoint sets of good places. -/
structure Kept (held : κ → Finset ι) (good : ι → Prop) : Prop where
  disjoint : ∀ k k', k ≠ k' → Disjoint (held k) (held k')
  good : ∀ k, ∀ i ∈ held k, good i

theorem Kept.tenant_unique (h : Kept held good) {k k' : κ} {i : ι} (hi : i ∈ held k)
    (hi' : i ∈ held k') : k = k' := by
  by_contra hne
  exact Finset.disjoint_left.mp (h.disjoint k k' hne) hi hi'

/-- Tenants give places up. -/
theorem Kept.shrink (h : Kept held good) (hsub : ∀ k, held' k ⊆ held k)
    (hgood : ∀ k, ∀ i ∈ held' k, good i → good' i) : Kept held' good' where
  disjoint k k' hne := Finset.disjoint_of_subset_left (hsub k)
    (Finset.disjoint_of_subset_right (hsub k') (h.disjoint k k' hne))
  good k i hi := hgood k i hi (h.good k i (hsub k hi))

theorem Kept.grant (h : Kept held good) {k : κ} (hsub : ∀ k' ≠ k, held' k' ⊆ held k')
    (hfree : ∀ i ∈ held' k, ∀ k' ≠ k, i ∉ held' k') (hnew : ∀ i ∈ held' k, good' i)
    (hgood : ∀ i, good i → good' i) : Kept held' good' := by
  constructor
  · intro k₁ k₂ hne
    rw [Finset.disjoint_left]
    intro i h₁ h₂
    rcases eq_or_ne k₁ k with rfl | hk₁
    · exact hfree i h₁ k₂ hne.symm h₂
    · rcases eq_or_ne k₂ k with rfl | hk₂
      · exact hfree i h₂ k₁ hne h₁
      · exact hne (h.tenant_unique (hsub k₁ hk₁ h₁) (hsub k₂ hk₂ h₂))
  · intro k' i hi
    rcases eq_or_ne k' k with rfl | hk'
    · exact hnew i hi
    · exact hgood i (h.good k' i (hsub k' hk' hi))

/-- All tenants move along a permutation. -/
theorem Kept.exchange [DecidableEq ι] (h : Kept held good) (σ : Equiv.Perm ι)
    (hgood : ∀ i, good i → good' (σ i)) : Kept (fun k => (held k).image σ) good' := by
  constructor
  · intro k k' hne
    exact (Finset.disjoint_image σ.injective).mpr (h.disjoint k k' hne)
  · intro k i hi
    obtain ⟨j, hj, rfl⟩ := Finset.mem_image.mp hi
    exact hgood j (h.good k j hj)

/-- One tenant set beside the others. -/
theorem kept_option {slots : Option κ → Finset ι} :
    Kept slots good ↔ Kept (fun k => slots (some k)) good ∧
      ∀ i ∈ slots none, good i ∧ ∀ k, i ∉ slots (some k) := by
  constructor
  · intro h
    refine ⟨⟨fun k k' hne => h.disjoint _ _ ?_, fun k => h.good (some k)⟩, fun i hi => ?_⟩
    · rwa [Ne, Option.some_inj]
    · exact ⟨h.good none i hi, fun k hk => Option.some_ne_none k (h.tenant_unique hk hi)⟩
  · rintro ⟨h, hnone⟩
    constructor
    · rintro (_ | k) (_ | k') hne
      · exact absurd rfl hne
      · exact Finset.disjoint_left.mpr fun i hi => (hnone i hi).2 k'
      · exact Finset.disjoint_right.mpr fun i hi => (hnone i hi).2 k
      · exact h.disjoint k k' fun heq => hne (congrArg some heq)
    · rintro (_ | k) i hi
      · exact (hnone i hi).1
      · exact h.good k i hi

end Tenancy
