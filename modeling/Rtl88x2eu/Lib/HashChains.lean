import Mathlib.Data.List.Basic
import Mathlib.Data.List.Nodup
import Mathlib.Logic.Function.Basic

/-!
# Chained buckets with back-pointers

Every bucket is the head of a singly linked chain, and every node also knows the place that points
at it: the head of its bucket or the link of the node before it. So a node is taken out of its chain
without a walk. A node that is not in a chain has no such place.

## Main definitions

* `Table`
* `link`, `unlink`: put a node in front of a bucket, take a node out
* `find`, `Chain`, `Holds`

## Main results

* `Holds.link`, `Holds.unlink`: what the two operations make of the chains
* `find_of_chain`: a walk finds what the list has
-/

namespace HashChains

variable {H : Type}

/-- A place where a pointer stands. -/
inductive Slot (H : Type)
  | head (h : H)
  | next (i : ℕ)
deriving DecidableEq

/-- The heads of the buckets, and the pointers of every node. -/
@[ext] structure Table (H : Type) where
  head : H → Option ℕ
  next : ℕ → Option ℕ
  pprev : ℕ → Option (Slot H)

namespace Table

/-- What stands in a place. -/
def load (t : Table H) : Slot H → Option ℕ
  | .head h => t.head h
  | .next i => t.next i

/-- Walk from a pointer to the first node with a property; `none` if the steps do not suffice. -/
def find (t : Table H) (q : ℕ → Bool) : ℕ → Option ℕ → Option (Option ℕ)
  | _, none => some none
  | 0, some _ => none
  | n + 1, some i => if q i then some (some i) else find t q n (t.next i)

variable [DecidableEq H]

/-- Write a place. -/
def store (t : Table H) (p : Slot H) (c : Option ℕ) : Table H :=
  match p with
  | .head h => { t with head := Function.update t.head h c }
  | .next i => { t with next := Function.update t.next i c }

/-- Write the back-pointer of a node, if there is one. -/
def storePprev (t : Table H) (c : Option ℕ) (p : Option (Slot H)) : Table H :=
  match c with
  | none => t
  | some i => { t with pprev := Function.update t.pprev i p }

/-- Put a node in front of a bucket. -/
def link (t : Table H) (i : ℕ) (h : H) : Table H :=
  let t := t.store (.next i) (t.head h)
  let t := t.storePprev (t.next i) (some (.next i))
  let t := t.store (.head h) (some i)
  t.storePprev (some i) (some (.head h))

/-- Take a node out of its chain. There is none if nothing points at the node. -/
def unlink (t : Table H) (i : ℕ) : Option (Table H) :=
  match t.pprev i with
  | none => none
  | some p =>
    let t := t.store p (t.next i)
    let t := t.storePprev (t.next i) (some p)
    let t := t.store (.next i) none
    some (t.storePprev (some i) none)

end Table

open Table

variable {t t' : Table H} {p : Slot H} {c : Option ℕ} {l : List ℕ} {i : ℕ}

/-- From a pointer that stands at a place, these nodes are reached. -/
def Chain (t : Table H) (p : Slot H) : Option ℕ → List ℕ → Prop
  | c, [] => c = none
  | c, i :: l => c = some i ∧ t.pprev i = some p ∧ Chain t (.next i) (t.next i) l

/-- A chain is in its nodes only. -/
theorem Chain.congr (h : Chain t p c l)
    (heq : ∀ i ∈ l, t'.next i = t.next i ∧ t'.pprev i = t.pprev i) : Chain t' p c l := by
  induction l generalizing p c with
  | nil => exact h
  | cons i l ih =>
    obtain ⟨hc, hp, hl⟩ := h
    obtain ⟨hnext, hpprev⟩ := heq i List.mem_cons_self
    refine ⟨hc, hpprev.trans hp, ?_⟩
    rw [hnext]
    exact ih hl fun j hj => heq j (List.mem_cons_of_mem _ hj)

/-- The node that a place belongs to is another one. -/
def Slot.Avoids (p : Slot H) (l : List ℕ) : Prop := ∀ i ∈ l, p ≠ .next i

theorem Chain.pprev_mem (h : Chain t p c l) (hnodup : l.Nodup) (hi : i ∈ l) :
    t.pprev i = some p ∨ ∃ j ∈ l, j ≠ i ∧ t.pprev i = some (.next j) := by
  induction l generalizing p c with
  | nil => cases hi
  | cons k l ih =>
    obtain ⟨-, hp, hl⟩ := h
    obtain ⟨hkl, hnodup⟩ := List.nodup_cons.mp hnodup
    rcases List.mem_cons.mp hi with rfl | hi
    · exact .inl hp
    · right
      rcases ih hl hnodup hi with hk | ⟨j, hj, hne, hpj⟩
      · refine ⟨k, List.mem_cons_self, ?_, hk⟩
        rintro rfl
        exact hkl hi
      · exact ⟨j, List.mem_cons_of_mem _ hj, hne, hpj⟩

/-- The first node. -/
theorem Chain.head_mem (h : Chain t p c l) (hc : c = some i) : i ∈ l := by
  cases l with
  | nil =>
    rw [show c = none from h] at hc
    cases hc
  | cons j l =>
    cases hc.symm.trans h.1
    exact List.mem_cons_self

theorem Chain.next_mem (h : Chain t p c l) (hi : i ∈ l) {j : ℕ} (hj : t.next i = some j) :
    j ∈ l := by
  induction l generalizing p c with
  | nil => cases hi
  | cons k l ih =>
    obtain ⟨-, -, hl⟩ := h
    rcases List.mem_cons.mp hi with rfl | hi
    · cases l with
      | nil => rw [show t.next i = none from hl] at hj; cases hj
      | cons k' l =>
        rw [hl.1] at hj
        cases hj
        exact List.mem_cons_of_mem _ List.mem_cons_self
    · exact List.mem_cons_of_mem _ (ih hl hi)

section

variable [DecidableEq H]

/-- The pointers after a node was put in front of a bucket. -/
def linked (t : Table H) (i : ℕ) (h : H) : Table H where
  head h' := if h' = h then some i else t.head h'
  next j := if j = i then t.head h else t.next j
  pprev j := if j = i then some (.head h) else if t.head h = some j then some (.next i)
    else t.pprev j

theorem link_eq {h : H} (hi : t.head h ≠ some i) : t.link i h = linked t i h := by
  unfold link
  dsimp only [store]
  rw [Function.update_self]
  cases hc : t.head h with
  | none =>
    ext1 <;> funext j <;> simp [storePprev, linked, Function.update_apply, hc]
  | some k =>
    have hki : k ≠ i := fun hk => hi (hk ▸ hc)
    ext1 <;> funext j <;> simp [storePprev, linked, Function.update_apply, hc, eq_comm]

/-- The pointers after a node was taken out. -/
def unlinked (t : Table H) (i : ℕ) (p : Slot H) : Table H where
  head h := if p = .head h then t.next i else t.head h
  next j := if j = i then none else if p = .next j then t.next i else t.next j
  pprev j := if j = i then none else if t.next i = some j then some p else t.pprev j

theorem next_store_of_ne (hself : p ≠ .next i) : (t.store p c).next i = t.next i := by
  cases p with
  | head h => rfl
  | next j => exact Function.update_of_ne (fun h => hself (congrArg Slot.next h.symm)) _ _

theorem unlink_eq (hp : t.pprev i = some p) (hself : p ≠ .next i) :
    t.unlink i = some (unlinked t i p) := by
  unfold unlink
  rw [hp]
  dsimp only
  rw [next_store_of_ne hself]
  apply congrArg some
  ext1
  · funext h
    cases p <;> cases hc : t.next i <;>
      simp [store, storePprev, unlinked, Function.update_apply, eq_comm, hc]
  · funext j
    cases p <;> cases hc : t.next i <;>
      simp [store, storePprev, unlinked, Function.update_apply, eq_comm, hc]
  · funext j
    cases p <;> cases hc : t.next i <;>
      simp [store, storePprev, unlinked, Function.update_apply, eq_comm, hc]

/-! ## What the operations make of the chains -/

/-- What stands in another place stays there. -/
theorem load_unlinked {q : Slot H} (hp : p ≠ q) (hq : q ≠ .next i) :
    (unlinked t i p).load q = t.load q := by
  cases q with
  | head h => exact if_neg hp
  | next j =>
    have hj : j ≠ i := fun hj => hq (congrArg Slot.next hj)
    exact (if_neg hj).trans (if_neg hp)

theorem load_unlinked_self (hp : p ≠ .next i) : (unlinked t i p).load p = t.next i := by
  cases p with
  | head h => exact if_pos rfl
  | next j =>
    have hj : j ≠ i := fun hj => hp (congrArg Slot.next hj)
    exact (if_neg hj).trans (if_pos rfl)

theorem unlinked_of_ne {j : ℕ} (hj : j ≠ i) (hp : p ≠ .next j) (hnext : t.next i ≠ some j) :
    (unlinked t i p).next j = t.next j ∧ (unlinked t i p).pprev j = t.pprev j :=
  ⟨(if_neg hj).trans (if_neg hp), (if_neg hj).trans (if_neg hnext)⟩

theorem linked_of_ne {h : H} {j : ℕ} (hj : j ≠ i) (hhead : t.head h ≠ some j) :
    (linked t i h).next j = t.next j ∧ (linked t i h).pprev j = t.pprev j :=
  ⟨if_neg hj, (if_neg hj).trans (if_neg hhead)⟩

theorem Chain.unlinked {q : Slot H} (h : Chain t q c l) (hnodup : l.Nodup) (hq : q.Avoids l)
    (hi : i ∈ l) (hp : t.pprev i = some p) (hc : t.load q = c) :
    Chain (unlinked t i p) q ((unlinked t i p).load q) (l.erase i) := by
  induction l generalizing q c with
  | nil => cases hi
  | cons k l ih =>
    obtain ⟨rfl, hk, hl⟩ := h
    obtain ⟨hkl, hl'⟩ := List.nodup_cons.mp hnodup
    by_cases hik : i = k
    · subst hik
      obtain rfl : q = p := Option.some.inj (hk.symm.trans hp)
      rw [List.erase_cons_head, load_unlinked_self (hq i hi)]
      cases l with
      | nil => exact hl
      | cons j l =>
        obtain ⟨hj, -, hl⟩ := hl
        obtain ⟨hjl, -⟩ := List.nodup_cons.mp hl'
        have hji : j ≠ i := fun h => hkl (h ▸ List.mem_cons_self)
        have hkeep : (unlinked t i q).next j = t.next j :=
          (if_neg hji).trans (if_neg (hq j (by simp)))
        refine ⟨hj, (if_neg hji).trans (if_pos hj), ?_⟩
        rw [hkeep]
        refine hl.congr fun m hm => unlinked_of_ne ?_ (hq m (by simp [hm])) ?_
        · rintro rfl
          exact hkl (List.mem_cons_of_mem _ hm)
        · rw [hj]
          rintro ⟨⟩
          exact hjl hm
    · have hil : i ∈ l := (List.mem_cons.mp hi).resolve_left hik
      -- the place that points at the node is behind the start
      have hpq : p ≠ q := by
        rcases hl.pprev_mem hl' hil with h | ⟨j, hj, -, h⟩
        · obtain rfl := Option.some.inj (hp.symm.trans h)
          exact (hq k List.mem_cons_self).symm
        · obtain rfl := Option.some.inj (hp.symm.trans h)
          exact (hq j (List.mem_cons_of_mem _ hj)).symm
      have hnext : t.next i ≠ some k := fun h => hkl (hl.next_mem hil h)
      rw [List.erase_cons_tail (by simpa using Ne.symm hik), load_unlinked hpq (hq i hi), hc]
      refine ⟨rfl, ?_, ih hl hl' ?_ hil rfl⟩
      · exact ((if_neg (Ne.symm hik)).trans (if_neg hnext)).trans hk
      · intro j hj h
        cases h
        exact hkl hj

/-- The buckets are chains of these nodes, and no node is in two places. -/
structure Holds (t : Table H) (lists : H → List ℕ) : Prop where
  chain : ∀ h, Chain t (.head h) (t.head h) (lists h)
  nodup : ∀ h, (lists h).Nodup
  apart : ∀ {h h' i}, i ∈ lists h → i ∈ lists h' → h = h'

variable {lists : H → List ℕ} {h : H}

/-- **A node is taken out of its chain.** -/
theorem Holds.unlink (hh : Holds t lists) (hi : i ∈ lists h) :
    ∃ t', t.unlink i = some t' ∧ Holds t' (Function.update lists h ((lists h).erase i)) := by
  -- the place that points at the node is the bucket or another node of it
  obtain ⟨p, hp, hplace⟩ : ∃ p, t.pprev i = some p ∧
      (p = .head h ∨ ∃ j ∈ lists h, j ≠ i ∧ p = .next j) := by
    rcases (hh.chain h).pprev_mem (hh.nodup h) hi with hp | ⟨j, hj, hne, hp⟩
    · exact ⟨_, hp, .inl rfl⟩
    · exact ⟨_, hp, .inr ⟨j, hj, hne, rfl⟩⟩
  have hself : p ≠ .next i := by
    rcases hplace with rfl | ⟨j, -, hne, rfl⟩
    · simp
    · simpa using hne
  have hsub (h' : H) {j : ℕ} (hj : j ∈ Function.update lists h ((lists h).erase i) h') :
      j ∈ lists h' := by
    by_cases heq : h' = h
    · subst heq
      rw [Function.update_self] at hj
      exact List.mem_of_mem_erase hj
    · rwa [Function.update_of_ne heq] at hj
  refine ⟨_, unlink_eq hp hself, ⟨fun h' => ?_, fun h' => ?_, ?_⟩⟩
  · by_cases heq : h' = h
    · subst heq
      rw [Function.update_self]
      exact (hh.chain h').unlinked (hh.nodup h') (fun _ _ => nofun) hi hp rfl
    · rw [Function.update_of_ne heq]
      have hhead : p ≠ .head h' := by
        rcases hplace with rfl | ⟨j, -, -, rfl⟩
        · simpa using Ne.symm heq
        · simp
      have hkeep : (unlinked t i p).head h' = t.head h' := if_neg hhead
      rw [hkeep]
      refine (hh.chain h').congr fun m hm => unlinked_of_ne ?_ ?_ ?_
      · rintro rfl
        exact heq (hh.apart hm hi)
      · rcases hplace with rfl | ⟨j, hj, -, rfl⟩
        · simp
        · rintro ⟨⟩
          exact heq (hh.apart hm hj)
      · intro hnext
        exact heq (hh.apart hm ((hh.chain h).next_mem hi hnext))
  · by_cases heq : h' = h
    · subst heq
      rw [Function.update_self]
      exact (hh.nodup h').erase i
    · rw [Function.update_of_ne heq]
      exact hh.nodup h'
  · intro h₁ h₂ j h₁j h₂j
    exact hh.apart (hsub h₁ h₁j) (hsub h₂ h₂j)

/-- **A node is put in front of a bucket.** -/
theorem Holds.link (hh : Holds t lists) (hi : ∀ h, i ∉ lists h) (h : H) :
    Holds (t.link i h) (Function.update lists h (i :: lists h)) := by
  have hhead : t.head h ≠ some i := fun heq => hi h ((hh.chain h).head_mem heq)
  rw [link_eq hhead]
  refine ⟨fun h' => ?_, fun h' => ?_, ?_⟩
  · by_cases heq : h' = h
    · subst heq
      rw [Function.update_self]
      have hnext : (linked t i h').next i = t.head h' := if_pos rfl
      refine ⟨if_pos rfl, if_pos rfl, ?_⟩
      rw [hnext]
      have hold := hh.chain h'
      cases hl : lists h' with
      | nil => rwa [hl] at hold
      | cons j l =>
        rw [hl] at hold
        obtain ⟨hj, -, hrest⟩ := hold
        have hji : j ≠ i := by
          rintro rfl
          exact hi h' (hl ▸ List.mem_cons_self)
        have hkeep : (linked t i h').next j = t.next j := if_neg hji
        refine ⟨hj, (if_neg hji).trans (if_pos hj), ?_⟩
        rw [hkeep]
        refine hrest.congr fun m hm => linked_of_ne ?_ ?_
        · rintro rfl
          exact hi h' (hl ▸ List.mem_cons_of_mem _ hm)
        · rw [hj]
          rintro ⟨⟩
          have hnodup := hh.nodup h'
          rw [hl] at hnodup
          exact (List.nodup_cons.mp hnodup).1 hm
    · rw [Function.update_of_ne heq]
      have hkeep : (linked t i h).head h' = t.head h' := if_neg heq
      rw [hkeep]
      refine (hh.chain h').congr fun m hm => linked_of_ne ?_ fun hhm => ?_
      · rintro rfl
        exact hi h' hm
      · exact heq (hh.apart hm ((hh.chain h).head_mem hhm))
  · by_cases heq : h' = h
    · subst heq
      rw [Function.update_self]
      exact List.nodup_cons.mpr ⟨hi h', hh.nodup h'⟩
    · rw [Function.update_of_ne heq]
      exact hh.nodup h'
  · intro h₁ h₂ j h₁j h₂j
    by_cases hj : j = i
    · subst hj
      have hone (h' : H) (hmem : j ∈ Function.update lists h (j :: lists h) h') : h' = h := by
        by_contra heq
        rw [Function.update_of_ne heq] at hmem
        exact hi h' hmem
      rw [hone h₁ h₁j, hone h₂ h₂j]
    · have hold (h' : H) (hmem : j ∈ Function.update lists h (i :: lists h) h') : j ∈ lists h' := by
        by_cases heq : h' = h
        · subst heq
          rw [Function.update_self] at hmem
          exact (List.mem_cons.mp hmem).resolve_left hj
        · rwa [Function.update_of_ne heq] at hmem
      exact hh.apart (hold h₁ h₁j) (hold h₂ h₂j)

end

/-- **A walk finds what the list has.** -/
theorem find_of_chain (q : ℕ → Bool) {n : ℕ} (h : Chain t p c l) (hn : l.length ≤ n) :
    t.find q n c = some (l.find? q) := by
  induction l generalizing p c n with
  | nil =>
    rw [show c = none from h]
    cases n <;> rfl
  | cons i l ih =>
    obtain ⟨rfl, -, hl⟩ := h
    cases n with
    | zero => cases hn
    | succ n =>
      rw [find, List.find?_cons]
      cases hq : q i with
      | true => rfl
      | false => exact ih hl (Nat.le_of_succ_le_succ hn)

end HashChains
