import Mathlib.Data.List.Basic
import Mathlib.Data.Nat.Basic

/-!
# Memory

A memory gives every address a cell. Blocks of cells are written and read back: a block that was
written is read as it is, and a read beside a write sees nothing of it.

## Main definitions

* `write`, `read`, `AgreeBelow`

## Main results

* `read_write`: what was written is read
* `read_write_of_disjoint`: the frame rule
* `write_write_append`, `write_write_suffix`: blocks that are written piece by piece
-/

namespace Memory

variable {α : Type*} {m m' m'' : ℕ → α} {a b n k : ℕ} {xs ys zs : List α}

/-- The cells from `a` on become `xs`. -/
def write (m : ℕ → α) (a : ℕ) (xs : List α) (i : ℕ) : α :=
  if i < a then m i else (xs[i - a]?).getD (m i)

/-- The `n` cells from `a` on. -/
def read (m : ℕ → α) (a n : ℕ) : List α := (List.range n).map fun i => m (a + i)

@[simp] theorem length_read (m : ℕ → α) (a n : ℕ) : (read m a n).length = n := by simp [read]

@[simp] theorem read_zero (m : ℕ → α) (a : ℕ) : read m a 0 = [] := rfl

@[simp] theorem write_nil (m : ℕ → α) (a : ℕ) : write m a [] = m := by
  funext i
  simp [write]

theorem getElem_read {i : ℕ} (h : i < (read m a n).length) : (read m a n)[i] = m (a + i) := by
  simp [read]

theorem write_of_lt {i : ℕ} (h : i < a) : write m a xs i = m i := if_pos h

theorem write_of_le {i : ℕ} (h : a + xs.length ≤ i) : write m a xs i = m i := by
  rw [write, if_neg (by omega), List.getElem?_eq_none (by omega)]
  rfl

theorem write_of_mem {i : ℕ} (h : i < xs.length) : write m a xs (a + i) = xs[i] := by
  rw [write, if_neg (by omega), Nat.add_sub_cancel_left, List.getElem?_eq_getElem h]
  rfl

theorem read_congr (h : ∀ i, a ≤ i → i < a + n → m i = m' i) : read m a n = read m' a n := by
  apply List.map_congr_left
  intro i hi
  exact h (a + i) (by omega) (by simpa using hi)

/-- **What was written is read.** -/
theorem read_write : read (write m a xs) a xs.length = xs := by
  apply List.ext_getElem
  · simp
  · intro i _ hi
    rw [getElem_read, write_of_mem hi]

/-- **The frame rule.** -/
theorem read_write_of_disjoint (h : b + n ≤ a ∨ a + xs.length ≤ b) :
    read (write m a xs) b n = read m b n := by
  apply read_congr
  intro i hle hlt
  rcases h with h | h
  · exact write_of_lt (by omega)
  · exact write_of_le (by omega)

theorem read_add : read m a (n + k) = read m a n ++ read m (a + n) k := by
  simp [read, List.range_add, Nat.add_assoc, Function.comp_def]

theorem read_write_part (h : k + n ≤ xs.length) :
    read (write m a xs) (a + k) n = (xs.drop k).take n := by
  apply List.ext_getElem
  · simp only [length_read, List.length_take, List.length_drop]
    omega
  · intro i h₁ _
    rw [length_read] at h₁
    rw [getElem_read, Nat.add_assoc, write_of_mem (by omega)]
    simp

theorem write_singleton_self {x : α} : write m a [x] a = x := by
  simp [write]

theorem read_write_singleton {x : α} :
    read (write m (a + k) [x]) a n = (read m a n).set k x := by
  apply List.ext_getElem
  · simp
  · intro i h₁ _
    rw [length_read] at h₁
    rw [getElem_read, List.getElem_set]
    split_ifs with hi
    · subst hi
      exact write_singleton_self
    · rw [getElem_read]
      rcases Nat.lt_or_gt_of_ne hi with hi | hi
      · exact write_of_le (by simp; omega)
      · exact write_of_lt (by omega)

theorem take_read (h : k ≤ n) : (read m a n).take k = read m a k := by
  obtain ⟨j, rfl⟩ := Nat.exists_eq_add_of_le h
  rw [read_add, List.take_left' (length_read m a k)]

theorem drop_read (h : k ≤ n) : (read m a n).drop k = read m (a + k) (n - k) := by
  obtain ⟨j, rfl⟩ := Nat.exists_eq_add_of_le h
  rw [read_add, List.drop_left' (length_read m a k), Nat.add_sub_cancel_left]

/-- Two blocks one after the other. -/
theorem write_write_append (h : b = a + xs.length) :
    write (write m a xs) b ys = write m a (xs ++ ys) := by
  subst h
  funext i
  rcases Nat.lt_or_ge i a with hi | hi
  · rw [write_of_lt (by omega), write_of_lt hi, write_of_lt hi]
  rcases Nat.lt_or_ge i (a + xs.length) with hx | hx
  · obtain ⟨j, rfl⟩ := Nat.exists_eq_add_of_le hi
    rw [write_of_lt hx, write_of_mem (by omega), write_of_mem (by simp; omega),
      List.getElem_append_left]
  rcases Nat.lt_or_ge i (a + xs.length + ys.length) with hy | hy
  · obtain ⟨j, rfl⟩ := Nat.exists_eq_add_of_le hx
    rw [write_of_mem (by omega), Nat.add_assoc, write_of_mem (by simp; omega),
      List.getElem_append_right (by omega)]
    simp
  · rw [write_of_le hy, write_of_le hx, write_of_le (by simp; omega)]

/-- The end of a block is written anew. -/
theorem write_write_suffix (h : b = a + xs.length) (hlen : ys.length = zs.length) :
    write (write m a (xs ++ ys)) b zs = write m a (xs ++ zs) := by
  have hover : write (write (write m a xs) b ys) b zs = write (write m a xs) b zs := by
    funext i
    rcases Nat.lt_or_ge i b with hi | hi
    · rw [write_of_lt hi, write_of_lt hi, write_of_lt hi]
    rcases Nat.lt_or_ge i (b + zs.length) with hz | hz
    · obtain ⟨j, rfl⟩ := Nat.exists_eq_add_of_le hi
      rw [write_of_mem (by omega), write_of_mem (by omega)]
    · rw [write_of_le hz, write_of_le (by omega), write_of_le hz]
  rw [← write_write_append h, hover, write_write_append h]

/-- Two memories that are alike below an address. -/
def AgreeBelow (b : ℕ) (m m' : ℕ → α) : Prop := ∀ i < b, m' i = m i

theorem AgreeBelow.refl (b : ℕ) (m : ℕ → α) : AgreeBelow b m m := fun _ _ => rfl

theorem AgreeBelow.trans (h : AgreeBelow b m m') (h' : AgreeBelow b m' m'') :
    AgreeBelow b m m'' := fun i hi => (h' i hi).trans (h i hi)

theorem AgreeBelow.mono (h : AgreeBelow b m m') (hle : a ≤ b) : AgreeBelow a m m' :=
  fun i hi => h i (by omega)

theorem AgreeBelow.read_eq {n : ℕ} (h : AgreeBelow b m m') (hle : a + n ≤ b) :
    read m' a n = read m a n :=
  List.map_congr_left fun i hi => h (a + i) (by
    rw [List.mem_range] at hi
    omega)

theorem agreeBelow_write (h : b ≤ a) : AgreeBelow b m (write m a xs) :=
  fun _ hi => write_of_lt (by omega)

end Memory
