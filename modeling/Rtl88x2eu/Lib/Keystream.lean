import Mathlib.Data.List.Basic
import Mathlib.Logic.Function.Basic

/-!
# Stream ciphers

A stream cipher runs an automaton that gives one element of the stream for every symbol of the text,
and combines the two. What combines a symbol with the same element twice gives the symbol back, so
that the cipher undoes itself from the same state.

## Main definitions

* `crypt`, `stream`, `pad`

## Main results

* `crypt_append`: a text in two parts
* `crypt_crypt`, `pad_pad`: the cipher undoes itself
* `crypt_eq_iff`: which ciphertexts decipher to a text
* `crypt_eq_crypt_iff`: which streams cipher a text alike
-/

namespace Keystream

variable {α β σ : Type*} {op : α → β → α} {next : σ → β × σ}

/-- **The text under the stream**, and the state behind it. -/
def crypt (op : α → β → α) (next : σ → β × σ) : σ → List α → List α × σ
  | c, [] => ([], c)
  | c, x :: xs =>
    let r := crypt op next (next c).2 xs
    (op x (next c).1 :: r.1, r.2)

@[simp] theorem crypt_nil (c : σ) : crypt op next c [] = ([], c) := rfl

@[simp] theorem crypt_cons (c : σ) (x : α) (xs : List α) :
    crypt op next c (x :: xs) =
      (op x (next c).1 :: (crypt op next (next c).2 xs).1, (crypt op next (next c).2 xs).2) := rfl

@[simp] theorem length_crypt (c : σ) (xs : List α) : (crypt op next c xs).1.length = xs.length := by
  induction xs generalizing c with
  | nil => rfl
  | cons x xs ih => simp [ih]

/-- **A text in two parts**: the second part goes on in the state behind the first. -/
theorem crypt_append (c : σ) (xs ys : List α) :
    (crypt op next c (xs ++ ys)).1 =
      (crypt op next c xs).1 ++ (crypt op next (crypt op next c xs).2 ys).1 := by
  induction xs generalizing c with
  | nil => rfl
  | cons x xs ih => simp only [List.cons_append, crypt_cons, ih]

theorem take_crypt (c : σ) (xs : List α) (n : ℕ) :
    (crypt op next c xs).1.take n = (crypt op next c (xs.take n)).1 := by
  induction xs generalizing c n with
  | nil => simp
  | cons x xs ih =>
    cases n with
    | zero => rfl
    | succ n => simp only [crypt_cons, List.take_succ_cons, ih]

/-- **A stream cipher undoes itself.** -/
theorem crypt_crypt (hop : ∀ b, Function.Involutive fun x => op x b) (c : σ) (xs : List α) :
    (crypt op next c (crypt op next c xs).1).1 = xs := by
  induction xs generalizing c with
  | nil => rfl
  | cons x xs ih => simp only [crypt_cons, ih, hop (next c).1 x]

/-- What deciphers to a text is the text under the same stream. -/
theorem crypt_eq_iff (hop : ∀ b, Function.Involutive fun x => op x b) (c : σ) (xs ys : List α) :
    (crypt op next c ys).1 = xs ↔ ys = (crypt op next c xs).1 := by
  constructor
  · rintro rfl
    exact (crypt_crypt hop c ys).symm
  · rintro rfl
    exact crypt_crypt hop c xs

/-- The stream itself. -/
def stream (next : σ → β × σ) : σ → ℕ → List β
  | _, 0 => []
  | c, n + 1 => (next c).1 :: stream next (next c).2 n

@[simp] theorem stream_succ (c : σ) (n : ℕ) :
    stream next c (n + 1) = (next c).1 :: stream next (next c).2 n := rfl

/-- **Two streams cipher a text alike** exactly where they are alike. -/
theorem crypt_eq_crypt_iff (hop : ∀ x, Function.Injective (op x)) (c c' : σ) (xs : List α) :
    (crypt op next c xs).1 = (crypt op next c' xs).1 ↔
      stream next c xs.length = stream next c' xs.length := by
  induction xs generalizing c c' with
  | nil => exact iff_of_true rfl rfl
  | cons x xs ih =>
    simp only [crypt_cons, stream_succ, List.length_cons, List.cons.injEq]
    exact and_congr (hop x).eq_iff (ih _ _)

/-- A block of the text under a block of the stream. -/
def pad (op : α → β → α) (xs : List α) (bs : List β) : List α := List.zipWith op xs bs

theorem length_pad {xs : List α} {bs : List β} (h : xs.length ≤ bs.length) :
    (pad op xs bs).length = xs.length := by
  simp [pad, h]

/-- A block undoes itself. -/
theorem pad_pad (hop : ∀ b, Function.Involutive fun x => op x b) {xs : List α} {bs : List β}
    (h : xs.length ≤ bs.length) : pad op (pad op xs bs) bs = xs := by
  apply List.ext_getElem
  · simp [pad, h]
  · intro i _ _
    simp only [pad, List.getElem_zipWith]
    exact hop _ _

end Keystream
