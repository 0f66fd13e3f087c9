import Mathlib.Order.Monotone.Basic
import Mathlib.Logic.Function.Iterate
import Rtl88x2eu.Lib.Loop

/-!
# Walks through a buffer

A buffer holds items one after another. Where an item is tells where the next one is, further on.
A search goes along the walk until it comes to an item that it looks for, or is not to go on.

## Main definitions

* `At`, `First`, `searchBody`

## Main results

* `At.next_le`: no item begins inside another one
* `reaches_search_iff`: how far a search comes
* `search_eq_some`: what it finds
-/

namespace Walk

variable {next : ℕ → ℕ} {start p q : ℕ}

/-- An item of the walk is at `p`. -/
def At (next : ℕ → ℕ) (start p : ℕ) : Prop := ∃ k, next^[k] start = p

theorem at_start : At next start start := ⟨0, rfl⟩

theorem At.step (h : At next start p) : At next start (next p) := by
  obtain ⟨k, rfl⟩ := h
  exact ⟨k + 1, Function.iterate_succ_apply' next k start⟩

theorem strictMono_iterate (hnext : ∀ p, p < next p) : StrictMono fun k => next^[k] start := by
  refine strictMono_nat_of_lt_succ fun k => ?_
  rw [Function.iterate_succ_apply']
  exact hnext _

/-- **No item begins inside another one.** -/
theorem At.next_le (hnext : ∀ p, p < next p) (hp : At next start p) (hq : At next start q)
    (hlt : p < q) : next p ≤ q := by
  obtain ⟨j, rfl⟩ := hp
  obtain ⟨k, rfl⟩ := hq
  have hmono : StrictMono fun k => next^[k] start := strictMono_iterate hnext
  have hjk : j < k := hmono.lt_iff_lt.mp hlt
  have hsucc : next (next^[j] start) = next^[j + 1] start :=
    (Function.iterate_succ_apply' next j start).symm
  exact hsucc.trans_le (hmono.monotone hjk)

theorem At.start_le (hnext : ∀ p, p < next p) (hp : At next start p) : start ≤ p := by
  obtain ⟨k, rfl⟩ := hp
  exact (strictMono_iterate hnext).monotone (Nat.zero_le k)

/-- The first item for which `P` holds. -/
structure First (next : ℕ → ℕ) (start : ℕ) (P : ℕ → Prop) (p : ℕ) : Prop where
  item : At next start p
  holds : P p
  first : ∀ q < p, At next start q → ¬P q

/-- A pass of a search: it goes on where `go` holds, until `hit` does. -/
def searchBody (go hit : ℕ → Bool) (next : ℕ → ℕ) (p : ℕ) : ℕ ⊕ Option ℕ :=
  if go p then if hit p then .inr (some p) else .inl (next p) else .inr none

variable {go hit : ℕ → Bool}

theorem searchBody_eq_inl :
    searchBody go hit next p = .inl q ↔ (go p = true ∧ hit p = false) ∧ next p = q := by
  unfold searchBody
  cases go p <;> cases hit p <;> simp

theorem searchBody_eq_some :
    searchBody go hit next p = .inr (some q) ↔ (go p = true ∧ hit p = true) ∧ p = q := by
  unfold searchBody
  cases go p <;> cases hit p <;> simp

/-- **How far a search comes.** -/
theorem reaches_search_iff (hnext : ∀ p, p < next p) :
    Loop.Reaches (searchBody go hit next) start p ↔
      At next start p ∧ ∀ q < p, At next start q → go q = true ∧ hit q = false := by
  constructor
  · intro h
    refine h.invariant (I := fun p => At next start p ∧
      ∀ q < p, At next start q → go q = true ∧ hit q = false) ?_ ⟨at_start, fun q hq hat => ?_⟩
    · rintro s s' ⟨hs, hpast⟩ hbody
      obtain ⟨hpass, rfl⟩ := searchBody_eq_inl.mp hbody
      refine ⟨hs.step, fun q hq hat => ?_⟩
      rcases Nat.lt_trichotomy q s with hlt | rfl | hgt
      · exact hpast q hlt hat
      · exact hpass
      · exact absurd (hs.next_le hnext hat hgt) (Nat.not_le.mpr hq)
    · exact absurd (hat.start_le hnext) (Nat.not_le.mpr hq)
  · rintro ⟨⟨k, rfl⟩, hpast⟩
    induction k with
    | zero => exact .refl start
    | succ k ih =>
      have hlt : next^[k] start < next^[k + 1] start := by
        rw [Function.iterate_succ_apply']
        exact hnext _
      have hreach := ih fun q hq => hpast q (hq.trans hlt)
      refine hreach.tail (searchBody_eq_inl.mpr ⟨hpast _ hlt ⟨k, rfl⟩, ?_⟩)
      exact (Function.iterate_succ_apply' next k start).symm

theorem isSome_search {n limit : ℕ} (hnext : ∀ p, p < next p) (hgo : ∀ p, go p = true → p < limit)
    (hn : limit - start < n) : (Loop.iterate (searchBody go hit next) n start).isSome := by
  refine Loop.isSome_iterate (fun p => limit - p) (fun s s' hbody => ?_) hn
  obtain ⟨⟨hpass, -⟩, rfl⟩ := searchBody_eq_inl.mp hbody
  have hs := hgo s hpass
  have hlt := hnext s
  omega

/-- **What a search finds** is the first item that it looks for. -/
theorem search_eq_some {n : ℕ} (hnext : ∀ p, p < next p)
    (h : Loop.iterate (searchBody go hit next) n start = some (some p)) :
    First next start (fun p => hit p = true) p ∧ go p = true := by
  obtain ⟨t, ht, hleft⟩ := Loop.exists_iterate_iff.mp ⟨n, h⟩
  obtain ⟨⟨hgo, hhit⟩, rfl⟩ := searchBody_eq_some.mp hleft
  obtain ⟨hat, hpast⟩ := (reaches_search_iff hnext).mp ht
  refine ⟨⟨hat, hhit, fun q hq hitem => ?_⟩, hgo⟩
  rw [(hpast q hq hitem).2]
  exact Bool.false_ne_true

/-- **What a search comes to and looks for, it finds.** -/
theorem search_of_reaches {n : ℕ}
    (hsome : (Loop.iterate (searchBody go hit next) n start).isSome)
    (hp : Loop.Reaches (searchBody go hit next) start p) (hgo : go p = true) (hhit : hit p = true) :
    Loop.iterate (searchBody go hit next) n start = some (some p) :=
  Loop.iterate_of_reaches hsome hp (searchBody_eq_some.mpr ⟨⟨hgo, hhit⟩, rfl⟩)

end Walk
