import Mathlib.Algebra.Order.Ring.Int
import Mathlib.Data.List.Basic

/-!
# Tables beside a counter

The entries of a table have keys. A counter beside the table is raised before an entry is added and
lowered when one is removed, so that it says how many entries there are as long as everything that
raises it adds an entry. A walk removes entries one after the other.

## Main definitions

* `lookup`, `remove`: the entry of a key, and the table without it
* `walk`, `CountedList`
* `CountedList.add`, `CountedList.walk`: the operations on both
* `CountedList.Exact`: the counter is the number of entries

## Main results

* `walk_length`: what is left and what was removed
* `walk_eq_zero_iff`: when a walk removes nothing
* `CountedList.exact_add_iff`, `CountedList.exact_walk_iff`: when an addition keeps the counter
  exact, and that a walk does
-/

namespace CountedTable

variable {κ α : Type*} [DecidableEq κ] (key : α → κ)

def lookup (l : List α) (k : κ) : Option α := l.find? fun x => key x = k

def remove (l : List α) (k : κ) : List α := l.eraseP fun x => key x = k

/-- A walk that removes the entries for which `p` holds: what is left, and how many these were. -/
def walk (p : α → Bool) : List κ → List α → List α × ℕ
  | [], l => (l, 0)
  | k :: ks, l =>
    if (lookup key l k).any p then
      let r := walk p ks (remove key l k)
      (r.1, r.2 + 1)
    else walk p ks l

variable {key} {p : α → Bool} {l : List α} {k : κ}

theorem length_remove {x : α} (h : lookup key l k = some x) :
    (remove key l k).length + 1 = l.length := by
  have hmem := List.mem_of_find?_eq_some h
  have hkey := List.find?_some h
  rw [remove, List.length_eraseP_of_mem hmem hkey]
  exact Nat.sub_add_cancel (List.length_pos_of_mem hmem)

/-- **What a walk leaves and what it removes are the whole table.** -/
theorem walk_length (ks : List κ) (l : List α) :
    (walk key p ks l).1.length + (walk key p ks l).2 = l.length := by
  induction ks generalizing l with
  | nil => rfl
  | cons k ks ih =>
    unfold walk
    split_ifs with hp
    · cases hx : lookup key l k with
      | none =>
        rw [hx] at hp
        exact absurd hp Bool.false_ne_true
      | some x =>
        have hrest := ih (remove key l k)
        have hone := length_remove hx
        dsimp only
        omega
    · exact ih l

/-- **A walk removes nothing if the table has no entry for it to remove.** -/
theorem walk_eq_zero_iff (ks : List κ) (l : List α) :
    (walk key p ks l).2 = 0 ↔ ∀ k ∈ ks, (lookup key l k).any p = false := by
  induction ks generalizing l with
  | nil => exact iff_of_true rfl fun k hk => absurd hk List.not_mem_nil
  | cons k ks ih =>
    rw [List.forall_mem_cons]
    unfold walk
    split_ifs with hp
    · exact iff_of_false not_false fun h => absurd hp (ne_true_of_eq_false h.1)
    · rw [ih]
      exact (and_iff_right (eq_false_of_ne_true hp)).symm

/-- A table beside its counter. -/
structure CountedList (α : Type*) where
  entries : List α := []
  num : ℤ := 0

namespace CountedList

def Exact (t : CountedList α) : Prop := t.num = t.entries.length

variable (key) in
/-- An addition behind the counter: the counter is raised; `alloc` and `insert` say whether there is
an entry to add and whether the table takes one. An entry that is there already is kept. -/
def add (t : CountedList α) (x : α) (alloc insert : Bool) : Bool × CountedList α :=
  let t := { t with num := t.num + 1 }
  if !alloc then (false, t)
  else if (lookup key t.entries (key x)).isSome then (true, t)
  else if !insert then (false, t)
  else (true, { t with entries := x :: t.entries })

variable (key) in
def walk (p : α → Bool) (ks : List κ) (t : CountedList α) : CountedList α :=
  let r := CountedTable.walk key p ks t.entries
  ⟨r.1, t.num - r.2⟩

variable {t : CountedList α} {x : α}

/-- **An addition keeps the counter exact if it adds an entry.** -/
theorem exact_add_iff (h : t.Exact) (alloc insert : Bool) :
    (t.add key x alloc insert).2.Exact ↔
      alloc ∧ insert ∧ lookup key t.entries (key x) = none := by
  unfold Exact at h ⊢
  unfold add
  cases alloc with
  | false =>
    refine iff_of_false ?_ fun h => Bool.false_ne_true h.1
    show ¬t.num + 1 = (t.entries.length : ℤ)
    omega
  | true =>
    cases hx : lookup key t.entries (key x) with
    | some y =>
      simp only [hx]
      refine iff_of_false ?_ fun h => Option.some_ne_none y h.2.2
      show ¬t.num + 1 = (t.entries.length : ℤ)
      omega
    | none =>
      simp only [hx]
      cases insert with
      | false =>
        refine iff_of_false ?_ fun h => Bool.false_ne_true h.2.1
        show ¬t.num + 1 = (t.entries.length : ℤ)
        omega
      | true =>
        refine iff_of_true ?_ ⟨trivial, rfl, trivial⟩
        show t.num + 1 = ((x :: t.entries).length : ℤ)
        rw [List.length_cons, h]
        rfl

theorem add_num (t : CountedList α) (x : α) (alloc insert : Bool) :
    (t.add key x alloc insert).2.num = t.num + 1 := by
  unfold add
  dsimp only
  split_ifs <;> rfl

/-- **A walk leaves the counter as exact as it was.** -/
theorem exact_walk_iff (t : CountedList α) (p : α → Bool) (ks : List κ) :
    (t.walk key p ks).Exact ↔ t.Exact := by
  have hlen := @walk_length _ _ _ key p ks t.entries
  unfold Exact
  show t.num - (CountedTable.walk key p ks t.entries).2 =
    ((CountedTable.walk key p ks t.entries).1.length : ℤ) ↔ _
  omega

theorem walk_num_le (t : CountedList α) (p : α → Bool) (ks : List κ) :
    (t.walk key p ks).num ≤ t.num := by
  show t.num - ((CountedTable.walk key p ks t.entries).2 : ℤ) ≤ t.num
  omega

end CountedList

end CountedTable
