import Mathlib.Data.List.Nodup
import Mathlib.Data.Set.Defs
import Mathlib.Logic.Function.Basic

/-!
# Lending

A pool lends its items to holders. An item is taken from the head of the queue of free items, and
one that is given back goes to the end of the queue. A holder has at most one item at a time.

## Main definitions

* `Lending`
* `borrow`, `giveBack`: an item goes out and comes back
* `Sound`, `Covers`

## Main results

* `Sound.borrow`, `Sound.giveBack`: both keep a pool sound
* `Covers.borrow`, `Covers.giveBack`: both lose nothing
* `Sound.eq_of_held`: an item has one holder
-/

/-- The free items and what each holder has. -/
structure Lending (ι β : Type*) where
  free : List β
  held : ι → Option β

namespace Lending

variable {ι β : Type*}

/-- Every item is free once or with one holder. -/
structure Sound (l : Lending ι β) : Prop where
  nodup : l.free.Nodup
  notMem : ∀ i, ∀ b ∈ l.held i, b ∉ l.free
  unique : ∀ i j, ∀ b ∈ l.held i, b ∈ l.held j → i = j

/-- No item of `s` is lost. -/
def Covers (l : Lending ι β) (s : Set β) : Prop := ∀ b ∈ s, b ∈ l.free ∨ ∃ i, b ∈ l.held i

variable {l : Lending ι β} {i j : ι} {b : β} {rest : List β} {s : Set β}

/-- **An item has one holder.** -/
theorem Sound.eq_of_held (h : l.Sound) (hi : l.held i = some b) (hj : l.held j = some b) : i = j :=
  h.unique i j b hi hj

variable [DecidableEq ι]

def borrow (l : Lending ι β) (i : ι) : Option (β × Lending ι β) :=
  match l.free with
  | [] => none
  | b :: rest => some (b, ⟨rest, Function.update l.held i (some b)⟩)

def giveBack (l : Lending ι β) (i : ι) : Lending ι β :=
  ⟨l.free ++ (l.held i).toList, Function.update l.held i none⟩

theorem borrow_eq_some {l' : Lending ι β} (h : l.borrow i = some (b, l')) :
    ∃ rest, l.free = b :: rest ∧ l' = ⟨rest, Function.update l.held i (some b)⟩ := by
  unfold borrow at h
  split at h
  · exact nomatch h
  · rename_i rest hfree
    obtain ⟨rfl, rfl⟩ := Prod.mk.inj (Option.some.inj h)
    exact ⟨rest, hfree, rfl⟩

/-- **The first free item goes to a holder that has none.** -/
theorem Sound.borrow {l' : Lending ι β} (h : l.Sound) (hl : l.borrow i = some (b, l')) :
    l'.Sound := by
  obtain ⟨rest, hfree, rfl⟩ := borrow_eq_some hl
  have hnodup := h.nodup
  rw [hfree] at hnodup
  obtain ⟨hnotMem, hrest⟩ := List.nodup_cons.mp hnodup
  have hother (j : ι) : ∀ c ∈ l.held j, c ≠ b ∧ c ∉ rest := by
    intro c hc
    have hcfree := h.notMem j c hc
    rw [hfree] at hcfree
    exact ⟨List.ne_of_not_mem_cons hcfree, List.not_mem_of_not_mem_cons hcfree⟩
  have hheld (j : ι) (c : β) (hc : c ∈ Function.update l.held i (some b) j) :
      j = i ∧ c = b ∨ c ∈ l.held j := by
    rcases eq_or_ne j i with rfl | hji
    · rw [Function.update_self] at hc
      exact .inl ⟨rfl, (Option.some.inj hc).symm⟩
    · rw [Function.update_of_ne hji] at hc
      exact .inr hc
  refine ⟨hrest, fun j c hc => ?_, fun j k c hj hk => ?_⟩
  · rcases hheld j c hc with ⟨-, rfl⟩ | hc
    · exact hnotMem
    · exact (hother j c hc).2
  · rcases hheld j c hj with ⟨rfl, rfl⟩ | hj' <;> rcases hheld k _ hk with ⟨rfl, hcb⟩ | hk'
    · rfl
    · exact absurd rfl (hother k _ hk').1
    · exact absurd hcb (hother j c hj').1
    · exact h.unique j k c hj' hk'

/-- **A holder gives its item back.** -/
theorem Sound.giveBack (h : l.Sound) (i : ι) : (l.giveBack i).Sound := by
  have hheld (j : ι) (c : β) (hc : c ∈ (l.giveBack i).held j) : j ≠ i ∧ c ∈ l.held j := by
    rcases eq_or_ne j i with rfl | hji
    · exact absurd hc (by simp [Lending.giveBack])
    · exact ⟨hji, by simpa [Lending.giveBack, hji] using hc⟩
  refine ⟨?_, fun j c hc hmem => ?_, fun j k c hj hk => ?_⟩
  · refine List.nodup_append.mpr ⟨h.nodup, ?_, fun c hc d hd hcd => ?_⟩
    · cases l.held i <;> simp
    · exact h.notMem i d (Option.mem_toList.mp hd) (hcd ▸ hc)
  · obtain ⟨hji, hc⟩ := hheld j c hc
    rcases List.mem_append.mp hmem with hmem | hmem
    · exact h.notMem j c hc hmem
    · exact hji (h.unique j i c hc (Option.mem_toList.mp hmem))
  · exact h.unique j k c (hheld j c hj).2 (hheld k c hk).2

/-- **An item that goes to a holder that has none is not lost.** -/
theorem Covers.borrow {l' : Lending ι β} (h : l.Covers s) (hi : l.held i = none)
    (hl : l.borrow i = some (b, l')) : l'.Covers s := by
  obtain ⟨rest, hfree, rfl⟩ := borrow_eq_some hl
  intro c hc
  rcases h c hc with hmem | ⟨j, hj⟩
  · rw [hfree] at hmem
    rcases List.mem_cons.mp hmem with rfl | hmem
    · exact .inr ⟨i, Function.update_self ..⟩
    · exact .inl hmem
  · have hji : j ≠ i := fun hji => by
      rw [hji, hi] at hj
      exact nomatch hj
    exact .inr ⟨j, (Function.update_of_ne hji _ _).trans hj⟩

/-- **An item that is given back is not lost.** -/
theorem Covers.giveBack (h : l.Covers s) (i : ι) : (l.giveBack i).Covers s := by
  intro c hc
  rcases h c hc with hmem | ⟨j, hj⟩
  · exact .inl (List.mem_append_left _ hmem)
  · rcases eq_or_ne j i with rfl | hji
    · exact .inl (List.mem_append_right _ (Option.mem_toList.mpr hj))
    · exact .inr ⟨j, (Function.update_of_ne hji _ _).trans hj⟩

end Lending
