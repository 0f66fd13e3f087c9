import Mathlib.Data.Nat.ModEq
import Mathlib.Data.List.Basic
import Mathlib.Algebra.Group.Nat.Even

/-!
# One's-complement sums

The checksum of the internet protocols: the 16-bit words of a message in network order, added with
the carries brought round, a last odd byte taken as the high byte of a word. Bringing the carries
round keeps the sum modulo 65535, where the two byte orders differ by the unit 256.

## Main definitions

* `wordSum`, `foldCarries`, `complement`

## Main results

* `wordSum_append`, `wordSum_replace`: sums of parts, and of a message with one word replaced
* `foldCarries_modEq`, `foldCarries_lt`: the carries brought round
* `add_complement_mod`
-/

namespace OnesSum

/-- The sum of the words of a message. -/
def wordSum : List UInt8 → ℕ
  | [] => 0
  | [x] => 256 * x.toNat
  | x :: y :: p => 256 * x.toNat + y.toNat + wordSum p

theorem wordSum_append : ∀ {p q : List UInt8}, Even p.length →
    wordSum (p ++ q) = wordSum p + wordSum q
  | [], q, _ => by simp [wordSum]
  | [x], q, h => absurd h Nat.not_even_one
  | x :: y :: p, q, h => by
    have hp : Even p.length := by
      simpa [Nat.even_add_one] using h
    simp only [List.cons_append, wordSum, wordSum_append hp]
    omega

theorem wordSum_replace {p r : List UInt8} (hp : Even p.length) (x y x' y' : UInt8) :
    wordSum (p ++ x' :: y' :: r) + (256 * x.toNat + y.toNat) =
      wordSum (p ++ x :: y :: r) + (256 * x'.toNat + y'.toNat) := by
  simp only [wordSum_append hp, wordSum]
  omega

/-- A sum with its carries brought round. -/
def foldCarries (n : ℕ) : ℕ :=
  if n < 65536 then n else foldCarries (n % 65536 + n / 65536)
termination_by n
decreasing_by omega

theorem foldCarries_of_lt {n : ℕ} (h : n < 65536) : foldCarries n = n := by
  rw [foldCarries, if_pos h]

theorem foldCarries_lt (n : ℕ) : foldCarries n < 65536 := by
  induction n using foldCarries.induct with
  | case1 n h => rwa [foldCarries_of_lt h]
  | case2 n h ih => rwa [foldCarries, if_neg h]

theorem foldCarries_modEq (n : ℕ) : foldCarries n ≡ n [MOD 65535] := by
  induction n using foldCarries.induct with
  | case1 n h => rw [foldCarries_of_lt h]
  | case2 n h ih =>
    rw [foldCarries, if_neg h]
    refine ih.trans ?_
    unfold Nat.ModEq
    omega

/-- A sum that is not zero stays so. -/
theorem foldCarries_pos {n : ℕ} (hn : 0 < n) : 0 < foldCarries n := by
  induction n using foldCarries.induct with
  | case1 n h => rwa [foldCarries_of_lt h]
  | case2 n h ih =>
    rw [foldCarries, if_neg h]
    exact ih (by omega)

/-- The checksum of a message whose words sum to `n`. -/
def complement (n : ℕ) : ℕ := 65535 - foldCarries n

theorem complement_lt (n : ℕ) : complement n < 65536 := by
  unfold complement
  omega

/-- What a message sums to once it carries a checksum. -/
theorem add_complement_mod {m n : ℕ} :
    (m + complement n) % 65535 = 0 ↔ m ≡ n [MOD 65535] := by
  have hlt := foldCarries_lt n
  have hmod := foldCarries_modEq n
  unfold complement Nat.ModEq at *
  omega

end OnesSum
