import Mathlib.Tactic.Linarith
import Mathlib.Algebra.Order.Ring.Int

/-!
# Serial number arithmetic

Numbers taken modulo `2 * h` and compared by the half range: `a` precedes `b` when the residue
of `a - b` lies in the upper half. The comparison is not transitive on residues. It is the order
of the integers as long as the two integers behind the residues are closer than `h`, and every
residue has exactly one such integer near a given base.

## Main definitions

* `Less`, `unwrap`

## Main results

* `less_iff_lt`: near numbers compare as integers
* `emod_eq_emod_iff`: near numbers with one residue are equal
* `unwrap_emod`, `sub_le_unwrap`, `unwrap_lt_add`: what `unwrap` returns
-/

namespace Serial

/-- The half-range comparison of residues modulo `2 * h`. -/
def Less (h a b : ℤ) : Prop := h ≤ (a - b) % (2 * h)

instance (h a b : ℤ) : Decidable (Less h a b) := inferInstanceAs (Decidable (_ ≤ _))

/-- The integer in `[base - h, base + h)` with the residue of `s`. -/
def unwrap (h base s : ℤ) : ℤ := base - h + (s - (base - h)) % (2 * h)

@[simp] theorem less_emod (h a b : ℤ) :
    Less h (a % (2 * h)) (b % (2 * h)) ↔ Less h a b := by
  rw [Less, Less, ← Int.sub_emod]

/-- **Near numbers compare as integers.** -/
theorem less_iff_lt {h a b : ℤ} (hlo : -h ≤ a - b) (hhi : a - b < h) : Less h a b ↔ a < b := by
  unfold Less
  rcases lt_or_ge a b with hab | hab
  · have hwrap : (a - b) % (2 * h) = a - b + 2 * h := by
      rw [← Int.add_emod_right, Int.emod_eq_of_lt] <;> omega
    omega
  · have hsame : (a - b) % (2 * h) = a - b := Int.emod_eq_of_lt (by omega) (by omega)
    omega

/-- Numbers closer than the modulus have one residue only if they are equal. -/
theorem emod_eq_emod_iff {m a b : ℤ} (hlo : -m < a - b) (hhi : a - b < m) :
    a % m = b % m ↔ a = b := by
  constructor
  · intro hab
    have hdvd : m ∣ a - b := Int.dvd_of_emod_eq_zero (Int.emod_eq_emod_iff_emod_sub_eq_zero.mp hab)
    have hzero : a - b = 0 :=
      Int.eq_zero_of_abs_lt_dvd hdvd (abs_lt.mpr ⟨hlo, hhi⟩)
    omega
  · rintro rfl
    rfl

theorem unwrap_emod (h base s : ℤ) : unwrap h base s % (2 * h) = s % (2 * h) := by
  rw [unwrap, Int.add_emod, Int.emod_emod_of_dvd _ (dvd_refl _), ← Int.add_emod]
  congr 1
  omega

theorem sub_le_unwrap {h : ℤ} (hpos : 0 < h) (base s : ℤ) : base - h ≤ unwrap h base s := by
  have hnonneg := Int.emod_nonneg (s - (base - h)) (show 2 * h ≠ 0 by omega)
  simp only [unwrap]
  omega

theorem unwrap_lt_add {h : ℤ} (hpos : 0 < h) (base s : ℤ) : unwrap h base s < base + h := by
  have hlt := Int.emod_lt_of_pos (s - (base - h)) (show 0 < 2 * h by omega)
  simp only [unwrap]
  omega

end Serial
