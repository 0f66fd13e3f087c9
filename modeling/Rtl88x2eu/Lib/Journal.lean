import Mathlib.Data.List.Nodup

/-!
# Journals made of blocks

A journal is written block by block, each block about one item. As long as no item gets two blocks,
what the journal says about an item is its block, in order and without gaps.

## Main definitions

* `journal`, `About`

## Main results

* `filter_journal`: what the journal says about an item that has a block
-/

namespace Journal

variable {κ α : Type*} {key : α → κ} {bs : List (κ × List α)}

/-- The entries of all blocks in order. -/
def journal (bs : List (κ × List α)) : List α := bs.flatMap Prod.snd

@[simp] theorem journal_append_singleton (b : κ × List α) :
    journal (bs ++ [b]) = journal bs ++ b.2 := by
  simp [journal]

/-- The entries of a block are about the item of the block. -/
def About (key : α → κ) (bs : List (κ × List α)) : Prop := ∀ b ∈ bs, ∀ a ∈ b.2, key a = b.1

variable [DecidableEq κ]

theorem filter_journal_of_notMem (h : About key bs) {k : κ} (hk : k ∉ bs.map Prod.fst) :
    (journal bs).filter (fun a => key a = k) = [] := by
  refine List.filter_eq_nil_iff.mpr fun a ha => ?_
  obtain ⟨b, hb, hab⟩ := List.mem_flatMap.mp ha
  rw [h b hb a hab, decide_eq_true_eq]
  rintro rfl
  exact hk (List.mem_map_of_mem hb)

/-- **What is said about an item is its block.** -/
theorem filter_journal (h : About key bs) (hnodup : (bs.map Prod.fst).Nodup) {b : κ × List α}
    (hb : b ∈ bs) : (journal bs).filter (fun a => key a = b.1) = b.2 := by
  induction bs with
  | nil => cases hb
  | cons b' bs ih =>
    rw [List.map_cons, List.nodup_cons] at hnodup
    have hrest : About key bs := fun c hc => h c (List.mem_cons_of_mem _ hc)
    have hsplit : journal (b' :: bs) = b'.2 ++ journal bs := rfl
    rw [hsplit, List.filter_append]
    rcases List.mem_cons.mp hb with rfl | htail
    · have hself : b.2.filter (fun a => key a = b.1) = b.2 :=
        List.filter_eq_self.mpr fun a ha => decide_eq_true (h b hb a ha)
      rw [hself, filter_journal_of_notMem hrest hnodup.1, List.append_nil]
    · have hother : b'.2.filter (fun a => key a = b.1) = [] := by
        refine List.filter_eq_nil_iff.mpr fun a ha => ?_
        rw [h b' List.mem_cons_self a ha, decide_eq_true_eq]
        intro heq
        rw [heq] at hnodup
        exact hnodup.1 (List.mem_map_of_mem htail)
      rw [hother, List.nil_append, ih hrest hnodup.2 htail]

end Journal
