import Mathlib.Algebra.Order.Group.Int
import Mathlib.Data.Multiset.UnionInter

/-!
# Custody of resources

Resources with names are kept in places of a state, or are in the hands of the code that runs. A
ledger takes the census of the places and a surplus, an error count that is zero as long as nothing
is given back twice. Code moves resources between its hands and the places; what it moves adds up.

## Main definitions

* `Ledger`
* `Ledger.Owned s hand`: every resource is in one place, or once in hand
* `Ledger.Moves s hand s' hand'`: nothing is lost and nothing made between the two states

## Main results

* `Ledger.Moves.trans`, `Ledger.Moves.owned`: moves compose and keep custody
* `Ledger.moves_foldl`: a fold that takes one resource out of the hands for each element
-/

/-- The census and the error count of the states of a system. -/
structure Ledger (σ ι : Type*) where
  census : σ → Multiset ι
  surplus : σ → ℤ

namespace Ledger

variable {σ ι α : Type*} (L : Ledger σ ι)

/-- Every resource is in one place or once in hand, and nothing was given back twice. -/
structure Owned (s : σ) (hand : Multiset ι) : Prop where
  nodup : (L.census s + hand).Nodup
  surplus : L.surplus s = 0

/-- From one state to the other the resources stay the same. -/
structure Moves (s : σ) (hand : Multiset ι) (s' : σ) (hand' : Multiset ι) : Prop where
  census : L.census s' + hand' = L.census s + hand
  surplus : L.surplus s' = L.surplus s

variable {L} {s s' s'' : σ} {hand hand' hand'' : Multiset ι}

theorem Moves.refl : L.Moves s hand s hand := ⟨rfl, rfl⟩

theorem Moves.trans (h : L.Moves s hand s' hand') (h' : L.Moves s' hand' s'' hand'') :
    L.Moves s hand s'' hand'' :=
  ⟨h'.census.trans h.census, h'.surplus.trans h.surplus⟩

/-- Moves keep custody. -/
theorem Moves.owned (h : L.Moves s hand s' hand') (hs : L.Owned s hand) : L.Owned s' hand' :=
  ⟨h.census ▸ hs.nodup, h.surplus.trans hs.surplus⟩

theorem Moves.of_eq (hcensus : L.census s' = L.census s) (hsurplus : L.surplus s' = L.surplus s) :
    L.Moves s hand s' hand :=
  ⟨by rw [hcensus], hsurplus⟩

theorem Owned.notMem {i : ι} (h : L.Owned s (i ::ₘ hand)) : i ∉ L.census s := by
  intro hi
  have hdisjoint := (Multiset.nodup_add.mp h.nodup).2.2
  exact Multiset.disjoint_left.mp hdisjoint hi (Multiset.mem_cons_self i hand)

/-- **One resource leaves the hands for each element of a list.** -/
theorem moves_foldl {f : σ → α → σ} {key : α → ι}
    (hf : ∀ s x hand, L.Owned s (key x ::ₘ hand) → L.Moves s (key x ::ₘ hand) (f s x) hand)
    {l : List α} (hs : L.Owned s (l.map key + hand)) :
    L.Moves s (l.map key + hand) (l.foldl f s) hand := by
  induction l generalizing s with
  | nil => simpa using Moves.refl
  | cons x l ih =>
    have hkeys : (((x :: l).map key : List ι) : Multiset ι) + hand =
        key x ::ₘ ((l.map key : List ι) + hand) := by
      rw [List.map_cons, ← Multiset.cons_coe, Multiset.cons_add]
    rw [hkeys] at hs ⊢
    have hx := hf s x _ hs
    exact hx.trans (ih (hx.owned hs))

theorem surplus_le_foldl {f : σ → α → σ} (hf : ∀ s x, L.surplus s ≤ L.surplus (f s x))
    (l : List α) (s : σ) : L.surplus s ≤ L.surplus (l.foldl f s) := by
  induction l generalizing s with
  | nil => exact le_rfl
  | cons x l ih => exact (hf s x).trans (ih (f s x))

end Ledger
