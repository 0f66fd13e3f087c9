import Mathlib.Algebra.BigOperators.Group.Finset.Piecewise
import Mathlib.Algebra.Order.Ring.Int
import Mathlib.Data.Fintype.Basic
import Mathlib.Tactic.Abel

/-!
# Backlogs

Items wait in queues, and every queue belongs to a class of service. A class keeps a list of its
queues that have something waiting; the lengths of the queues and the totals of the classes are
counted beside them. The primitives change one of these at a time, as code does: a backlog is in
balance before and after a transaction, and in between it is in balance up to one queue, which may
stand on the list of its class with nothing left.

## Main definitions

* `Backlog`
* `push`, `pop`, `charge`, `link`, `unlink`, `settle`: the primitives
* `Balanced`, `Loose`, `contents`

## Main results

* `Balanced.enqueue`: an item comes in
* `Loose.take`, `Loose.settle`, `Loose.rotate`: items leave, and the queue goes off or to the end of
  its list
* `Balanced.clear`: a queue is emptied
-/

/-- Queues `ι`, classes `κ`, items `α`. -/
structure Backlog (ι κ α : Type*) where
  pending : ι → List α
  count : ι → ℤ
  ready : κ → List ι
  total : κ → ℤ

namespace Backlog

variable {ι κ α : Type*}

/-- Nothing waits. -/
def empty : Backlog ι κ α := ⟨fun _ => [], fun _ => 0, fun _ => [], fun _ => 0⟩

section Primitives

variable [DecidableEq ι] [DecidableEq κ]

/-- An item goes to the end of a queue. -/
def push (b : Backlog ι κ α) (i : ι) (x : α) : Backlog ι κ α :=
  { b with
    pending := Function.update b.pending i (b.pending i ++ [x])
    count := Function.update b.count i (b.count i + 1) }

/-- The first item leaves a queue. -/
def pop (b : Backlog ι κ α) (i : ι) : Backlog ι κ α :=
  { b with
    pending := Function.update b.pending i (b.pending i).tail
    count := Function.update b.count i (b.count i - 1) }

def charge (b : Backlog ι κ α) (k : κ) (n : ℤ) : Backlog ι κ α :=
  { b with total := Function.update b.total k (b.total k + n) }

/-- A queue goes to the end of a list. -/
def link (b : Backlog ι κ α) (k : κ) (i : ι) : Backlog ι κ α :=
  { b with ready := Function.update b.ready k (b.ready k ++ [i]) }

/-- A queue goes off the list that it is on. -/
def unlink (b : Backlog ι κ α) (i : ι) : Backlog ι κ α :=
  { b with ready := fun k => (b.ready k).erase i }

/-- The queue is on a list. -/
def Linked (b : Backlog ι κ α) (i : ι) : Prop := ∃ k, i ∈ b.ready k

instance Linked.decidable [Fintype κ] (b : Backlog ι κ α) (i : ι) : Decidable (b.Linked i) :=
  inferInstanceAs (Decidable (∃ _, _))

/-- A queue with nothing left goes off its list. -/
def settle (b : Backlog ι κ α) (i : ι) : Backlog ι κ α :=
  if (b.pending i).isEmpty then b.unlink i else b

/-- An item comes in; a queue that is on no list goes on the one of the class. -/
def enqueue [Fintype κ] (b : Backlog ι κ α) (k : κ) (i : ι) (x : α) : Backlog ι κ α :=
  ((if b.Linked i then b else b.link k i).push i x).charge k 1

def take (b : Backlog ι κ α) (k : κ) (i : ι) : Backlog ι κ α := (b.pop i).charge k (-1)

def clear (b : Backlog ι κ α) (k : κ) (i : ι) : Backlog ι κ α :=
  let b := ({ b with pending := Function.update b.pending i [] }).unlink i
  { b.charge k (-b.count i) with count := Function.update b.count i 0 }

end Primitives

/-- Counts are lengths, a queue is on the list of its class exactly if something waits in it, and on
no other, and totals are sums. -/
structure Balanced [Fintype ι] [DecidableEq κ] (cls : ι → κ) (b : Backlog ι κ α) : Prop where
  count : ∀ i, b.count i = (b.pending i).length
  ready : ∀ k i, i ∈ b.ready k ↔ cls i = k ∧ b.pending i ≠ []
  nodup : ∀ k, (b.ready k).Nodup
  total : ∀ k, b.total k = ∑ i with cls i = k, b.count i

/-- A balanced backlog, but queue `i` may stand on the list of its class with nothing left. -/
structure Loose [Fintype ι] [DecidableEq κ] (cls : ι → κ) (i : ι) (b : Backlog ι κ α) : Prop where
  count : ∀ j, b.count j = (b.pending j).length
  cls_of_mem : ∀ k, ∀ j ∈ b.ready k, cls j = k
  mem_of_pending : ∀ j, b.pending j ≠ [] → j ∈ b.ready (cls j)
  pending_of_mem : ∀ k, ∀ j ∈ b.ready k, j ≠ i → b.pending j ≠ []
  nodup : ∀ k, (b.ready k).Nodup
  total : ∀ k, b.total k = ∑ j with cls j = k, b.count j

/-- What waits, with its queue. -/
def contents [Fintype ι] (b : Backlog ι κ α) : Multiset (ι × α) :=
  ∑ i, ((b.pending i).map (Prod.mk i) : Multiset (ι × α))

variable [Fintype ι] {cls : ι → κ} {b : Backlog ι κ α} {i : ι} {k : κ} {x : α}

section Balance

variable [DecidableEq κ]

theorem balanced_empty : Balanced cls (empty : Backlog ι κ α) where
  count _ := rfl
  ready _ _ := by simp [empty]
  nodup _ := List.nodup_nil
  total _ := by simp [empty]

theorem Balanced.loose (h : Balanced cls b) (i : ι) : Loose cls i b where
  count := h.count
  cls_of_mem k j hj := ((h.ready k j).mp hj).1
  mem_of_pending j hj := (h.ready _ j).mpr ⟨rfl, hj⟩
  pending_of_mem k j hj _ := ((h.ready k j).mp hj).2
  nodup := h.nodup
  total := h.total

/-- A loose backlog whose queue is settled. -/
theorem Loose.balanced (h : Loose cls i b) (hi : i ∈ b.ready (cls i) → b.pending i ≠ []) :
    Balanced cls b where
  count := h.count
  ready k j := by
    refine ⟨fun hj => ?_, fun ⟨hcls, hj⟩ => hcls ▸ h.mem_of_pending j hj⟩
    have hcls := h.cls_of_mem k j hj
    rcases eq_or_ne j i with rfl | hne
    · exact ⟨hcls, hi (hcls ▸ hj)⟩
    · exact ⟨hcls, h.pending_of_mem k j hj hne⟩
  nodup := h.nodup
  total := h.total

theorem Balanced.linked_iff (h : Balanced cls b) : b.Linked i ↔ b.pending i ≠ [] := by
  constructor
  · rintro ⟨k, hk⟩
    exact ((h.ready k i).mp hk).2
  · intro hi
    exact ⟨cls i, (h.ready _ _).mpr ⟨rfl, hi⟩⟩

end Balance

variable [DecidableEq ι] [DecidableEq κ]

theorem sum_update_count (f : ι → ℤ) (i : ι) (n : ℤ) (k : κ) :
    ∑ j with cls j = k, Function.update f i (f i + n) j =
      (∑ j with cls j = k, f j) + if cls i = k then n else 0 := by
  have hpoint (j : ι) : Function.update f i (f i + n) j = f j + if j = i then n else 0 := by
    rcases eq_or_ne j i with rfl | hne
    · simp
    · simp [hne]
  simp only [hpoint, Finset.sum_add_distrib, Finset.sum_ite_eq', Finset.mem_filter,
    Finset.mem_univ, true_and]

theorem total_charge (htotal : ∀ k, b.total k = ∑ j with cls j = k, b.count j) (i : ι) (n : ℤ)
    (k : κ) :
    Function.update b.total (cls i) (b.total (cls i) + n) k =
      ∑ j with cls j = k, Function.update b.count i (b.count i + n) j := by
  rw [sum_update_count, ← htotal]
  rcases eq_or_ne k (cls i) with rfl | hne
  · simp
  · simp [hne, Ne.symm hne]

omit [Fintype ι] in
theorem pending_enqueue [Fintype κ] :
    (b.enqueue k i x).pending = Function.update b.pending i (b.pending i ++ [x]) := by
  unfold enqueue
  split_ifs <;> rfl

/-- **An item comes in.** -/
theorem Balanced.enqueue [Fintype κ] (h : Balanced cls b) (i : ι) (x : α) :
    Balanced cls (b.enqueue (cls i) i x) := by
  have hpending := pending_enqueue (b := b) (k := cls i) (i := i) (x := x)
  have hcount : (b.enqueue (cls i) i x).count = Function.update b.count i (b.count i + 1) := by
    unfold Backlog.enqueue
    split_ifs <;> rfl
  have htotal : (b.enqueue (cls i) i x).total =
      Function.update b.total (cls i) (b.total (cls i) + 1) := by
    unfold Backlog.enqueue
    split_ifs <;> rfl
  refine ⟨fun j => ?_, fun k j => ?_, fun k => ?_, fun k => ?_⟩
  · rw [hcount, hpending]
    rcases eq_or_ne j i with rfl | hne
    · simp [h.count]
    · simp [hne, h.count]
  · rw [hpending]
    by_cases hlinked : b.Linked i
    · have hready : (b.enqueue (cls i) i x).ready = b.ready := by
        rw [Backlog.enqueue, if_pos hlinked]
        rfl
      rw [hready, h.ready]
      rcases eq_or_ne j i with rfl | hne
      · simp [h.linked_iff.mp hlinked]
      · simp [hne]
    · have hready : (b.enqueue (cls i) i x).ready =
          Function.update b.ready (cls i) (b.ready (cls i) ++ [i]) := by
        rw [Backlog.enqueue, if_neg hlinked]
        rfl
      have hempty : b.pending i = [] := by
        by_contra hne
        exact hlinked (h.linked_iff.mpr hne)
      rw [hready]
      rcases eq_or_ne k (cls i) with rfl | hk
      · rcases eq_or_ne j i with rfl | hne
        · simp
        · simp [hne, h.ready]
      · rcases eq_or_ne j i with rfl | hne
        · simp [hk, h.ready, hempty, Ne.symm hk]
        · simp [hk, hne, h.ready]
  · unfold Backlog.enqueue
    split_ifs with hlinked
    · exact h.nodup k
    · show (Function.update b.ready (cls i) (b.ready (cls i) ++ [i]) k).Nodup
      rcases eq_or_ne k (cls i) with rfl | hk
      · have hnot : i ∉ b.ready (cls i) := fun hi => hlinked ⟨_, hi⟩
        rw [Function.update_self, ← List.concat_eq_append]
        exact (h.nodup _).concat hnot
      · rw [Function.update_of_ne hk]
        exact h.nodup k
  · rw [htotal, hcount]
    exact total_charge h.total i 1 k

/-- **An item leaves a queue that is not empty.** -/
theorem Loose.take (h : Loose cls i b) (hi : b.pending i ≠ []) :
    Loose cls i (b.take (cls i) i) where
  count j := by
    show Function.update b.count i (b.count i - 1) j = _
    rcases eq_or_ne j i with rfl | hne
    · have hpos := List.length_pos_iff.mpr hi
      simp only [Backlog.take, charge, pop, Function.update_self, h.count, List.length_tail]
      omega
    · simp [Backlog.take, charge, pop, hne, h.count]
  cls_of_mem := h.cls_of_mem
  mem_of_pending j hj := by
    apply h.mem_of_pending
    rcases eq_or_ne j i with rfl | hne
    · exact hi
    · simpa [Backlog.take, charge, pop, hne] using hj
  pending_of_mem k j hj hne := by
    simpa [Backlog.take, charge, pop, hne] using h.pending_of_mem k j hj hne
  nodup := h.nodup
  total k := by
    show Function.update b.total (cls i) (b.total (cls i) + -1) k =
      ∑ j with cls j = k, Function.update b.count i (b.count i - 1) j
    rw [sub_eq_add_neg]
    exact total_charge h.total i (-1) k

omit [Fintype ι] [DecidableEq κ] in
theorem mem_unlink (h : ∀ k, (b.ready k).Nodup) {j : ι} :
    j ∈ (b.unlink i).ready k ↔ j ≠ i ∧ j ∈ b.ready k := (h k).mem_erase_iff

/-- **A queue with nothing left goes off its list.** -/
theorem Loose.settle (h : Loose cls i b) : Balanced cls (b.settle i) := by
  unfold Backlog.settle
  split_ifs with hi
  · have hempty := List.isEmpty_iff.mp hi
    refine ⟨h.count, fun k j => ?_, fun k => (h.nodup k).erase i, h.total⟩
    rw [mem_unlink h.nodup]
    constructor
    · rintro ⟨hne, hj⟩
      exact ⟨h.cls_of_mem k j hj, h.pending_of_mem k j hj hne⟩
    · rintro ⟨rfl, hj⟩
      exact ⟨fun hji => hj (hji ▸ hempty), h.mem_of_pending j hj⟩
  · refine h.balanced fun _ hempty => ?_
    rw [hempty] at hi
    exact hi rfl

/-- **A queue goes to the end of its list.** -/
theorem Loose.rotate (h : Loose cls i b) (hi : b.pending i ≠ []) :
    Balanced cls ((b.unlink i).link (cls i) i) := by
  refine ⟨h.count, fun k j => ?_, fun k => ?_, h.total⟩
  · show j ∈ Function.update (b.unlink i).ready (cls i) _ k ↔ cls j = k ∧ b.pending j ≠ []
    have hother (hj : j ≠ i) : j ∈ (b.unlink i).ready k ↔ cls j = k ∧ b.pending j ≠ [] := by
      rw [mem_unlink h.nodup]
      constructor
      · rintro ⟨-, hmem⟩
        exact ⟨h.cls_of_mem k j hmem, h.pending_of_mem k j hmem hj⟩
      · rintro ⟨rfl, hpending⟩
        exact ⟨hj, h.mem_of_pending j hpending⟩
    rcases eq_or_ne j i with rfl | hne
    · rcases eq_or_ne k (cls j) with rfl | hk
      · simpa using hi
      · rw [Function.update_of_ne hk, mem_unlink h.nodup]
        simp [Ne.symm hk]
    · rw [← hother hne]
      rcases eq_or_ne k (cls i) with rfl | hk
      · simp [hne]
      · rw [Function.update_of_ne hk]
  · show (Function.update (b.unlink i).ready (cls i) ((b.unlink i).ready (cls i) ++ [i]) k).Nodup
    rcases eq_or_ne k (cls i) with rfl | hk
    · have hnot : i ∉ (b.unlink i).ready (cls i) := fun hmem =>
        ((mem_unlink h.nodup).mp hmem).1 rfl
      rw [Function.update_self, ← List.concat_eq_append]
      exact ((h.nodup _).erase i).concat hnot
    · rw [Function.update_of_ne hk]
      exact (h.nodup k).erase i

/-- **A queue is emptied.** -/
theorem Balanced.clear (h : Balanced cls b) (i : ι) : Balanced cls (b.clear (cls i) i) := by
  refine ⟨fun j => ?_, fun k j => ?_, fun k => (h.nodup k).erase i, fun k => ?_⟩
  · show Function.update b.count i 0 j = (Function.update b.pending i [] j).length
    rcases eq_or_ne j i with rfl | hne
    · simp
    · simp [hne, h.count]
  · show j ∈ (b.unlink i).ready k ↔ cls j = k ∧ Function.update b.pending i [] j ≠ []
    rw [mem_unlink h.nodup, h.ready]
    rcases eq_or_ne j i with rfl | hne
    · simp
    · simp [hne]
  · show Function.update b.total (cls i) (b.total (cls i) + -b.count i) k =
      ∑ j with cls j = k, Function.update b.count i 0 j
    rw [total_charge h.total i (-b.count i) k, add_neg_cancel]

omit [DecidableEq ι] [DecidableEq κ] in
theorem contents_empty : (empty : Backlog ι κ α).contents = 0 := by simp [contents, empty]

omit [DecidableEq κ] in
theorem contents_update {c : Backlog ι κ α} {l : List α}
    (h : c.pending = Function.update b.pending i l) :
    c.contents + ((b.pending i).map (Prod.mk i) : Multiset (ι × α)) =
      b.contents + (l.map (Prod.mk i) : Multiset (ι × α)) := by
  unfold contents
  rw [← Finset.add_sum_erase _ _ (Finset.mem_univ i),
    ← Finset.add_sum_erase Finset.univ (fun j => ((b.pending j).map (Prod.mk j) : Multiset (ι × α)))
      (Finset.mem_univ i)]
  have hrest : ∑ j ∈ Finset.univ.erase i, ((c.pending j).map (Prod.mk j) : Multiset (ι × α)) =
      ∑ j ∈ Finset.univ.erase i, ((b.pending j).map (Prod.mk j) : Multiset (ι × α)) := by
    refine Finset.sum_congr rfl fun j hj => ?_
    rw [h, Function.update_of_ne (Finset.ne_of_mem_erase hj)]
  rw [hrest, h, Function.update_self]
  abel

theorem contents_enqueue [Fintype κ] : (b.enqueue k i x).contents = (i, x) ::ₘ b.contents := by
  have h := contents_update (pending_enqueue (b := b) (k := k) (i := i) (x := x))
  rw [List.map_append, ← Multiset.coe_add, ← add_assoc, add_right_comm] at h
  rw [add_right_cancel h, add_comm]
  rfl

theorem contents_take {rest : List α} (h : b.pending i = x :: rest) :
    b.contents = (i, x) ::ₘ (b.take k i).contents := by
  have hupdate := contents_update (b := b) (c := b.take k i) rfl
  rw [h] at hupdate
  have hcons : ((x :: rest).map (Prod.mk i) : Multiset (ι × α)) =
      (i, x) ::ₘ (rest.map (Prod.mk i) : Multiset (ι × α)) := rfl
  rw [hcons, List.tail_cons, ← Multiset.singleton_add, ← add_assoc] at hupdate
  rw [← add_right_cancel hupdate, add_comm]
  rfl

theorem contents_clear :
    b.contents = (b.clear k i).contents + ((b.pending i).map (Prod.mk i) : Multiset (ι × α)) := by
  have h := contents_update (b := b) (c := b.clear k i) (l := []) rfl
  rw [h]
  simp

omit [DecidableEq ι] [DecidableEq κ] in
theorem contents_congr {b' : Backlog ι κ α} (h : b'.pending = b.pending) :
    b'.contents = b.contents := by
  simp only [contents, h]

omit [DecidableEq ι] [DecidableEq κ] in
theorem mem_contents {j : ι} : (j, x) ∈ b.contents ↔ x ∈ b.pending j := by
  simp [contents, Multiset.mem_sum]

end Backlog
