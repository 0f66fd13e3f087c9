import Mathlib.Data.BitVec
import Mathlib.Logic.Function.Iterate

/-!
# Cyclic redundancy checks

A cyclic redundancy check of any width and polynomial, in both bit orders. Bit by bit, the register
is shifted, and the polynomial added when a one falls out. The step is linear, so the eight steps
for a byte depend on the low byte of the register alone, up to a shift: a table of 256 entries does.

## Main definitions

* `stepDown poly`, `stepUp poly`: a step that shifts to the right, or to the left
* `byteStep`

## Main results

* `stepDown_xor`: the step is linear
* `byteStep_eq_table`: the byte-wise step from a table
* `reverse_stepUp`
-/

namespace Crc

variable {w n : ℕ} {poly x y : BitVec w}

def stepDown (poly x : BitVec w) : BitVec w :=
  if x.getLsbD 0 then (x >>> 1) ^^^ poly else x >>> 1

def stepUp (poly x : BitVec w) : BitVec w :=
  if x.msb then (x <<< 1) ^^^ poly else x <<< 1

/-- The eight steps of a byte. -/
def byteStep (poly x : BitVec w) (b : BitVec 8) : BitVec w :=
  (stepDown poly)^[8] (x ^^^ b.setWidth w)

/-- **The step is linear.** -/
theorem stepDown_xor : stepDown poly (x ^^^ y) = stepDown poly x ^^^ stepDown poly y := by
  have hcancel : ∀ a b : BitVec w, (a ^^^ poly) ^^^ (b ^^^ poly) = a ^^^ b := by
    intro a b
    rw [BitVec.xor_comm b, ← BitVec.xor_assoc, BitVec.xor_assoc a, BitVec.xor_self,
      BitVec.xor_zero]
  unfold stepDown
  rw [BitVec.getLsbD_xor, BitVec.ushiftRight_xor_distrib]
  cases x.getLsbD 0 <;> cases y.getLsbD 0
  case true.true => exact (hcancel _ _).symm
  case true.false =>
    show (x >>> 1) ^^^ (y >>> 1) ^^^ poly = (x >>> 1) ^^^ poly ^^^ (y >>> 1)
    rw [BitVec.xor_assoc, BitVec.xor_comm (y >>> 1), ← BitVec.xor_assoc]
  case false.true => exact BitVec.xor_assoc _ _ _
  case false.false => rfl

theorem iterate_stepDown_xor :
    (stepDown poly)^[n] (x ^^^ y) = (stepDown poly)^[n] x ^^^ (stepDown poly)^[n] y := by
  induction n generalizing x y with
  | zero => rfl
  | succ n ih => rw [Function.iterate_succ_apply, stepDown_xor, ih]; rfl

theorem iterate_stepDown_of_low (h : ∀ i < n, x.getLsbD i = false) :
    (stepDown poly)^[n] x = x >>> n := by
  induction n generalizing x with
  | zero => rw [BitVec.ushiftRight_zero]; rfl
  | succ n ih =>
    have hstep : stepDown poly x = x >>> 1 := by
      rw [stepDown, h 0 (Nat.succ_pos n)]
      rfl
    rw [Function.iterate_succ_apply, hstep, ih, ← BitVec.shiftRight_add, Nat.add_comm]
    intro i hi
    rw [BitVec.getLsbD_ushiftRight]
    exact h (1 + i) (by omega)

/-- **The byte-wise step**: eight steps are an entry of a table and a shift. -/
theorem byteStep_eq_table {table : BitVec 8 → BitVec w} (hw : 8 ≤ w)
    (htable : ∀ b, table b = (stepDown poly)^[8] (b.setWidth w)) (b : BitVec 8) :
    byteStep poly x b = table (x.setWidth 8 ^^^ b) ^^^ (x >>> 8) := by
  -- the register with its low byte cleared, and the low byte that the table is looked up with
  have hsplit : x ^^^ b.setWidth w =
      (x ^^^ (x.setWidth 8).setWidth w) ^^^ (x.setWidth 8 ^^^ b).setWidth w := by
    ext i hi
    simp only [BitVec.getElem_xor, BitVec.getElem_setWidth, BitVec.getLsbD_xor,
      BitVec.getLsbD_setWidth]
    by_cases h8 : i < 8 <;> simp [h8, ← BitVec.getLsbD_eq_getElem]
  have hlow : ∀ i < 8, (x ^^^ (x.setWidth 8).setWidth w).getLsbD i = false := by
    intro i hi
    simp [hi, show i < w by omega]
  have hshift : (x ^^^ (x.setWidth 8).setWidth w) >>> 8 = x >>> 8 := by
    ext i hi
    simp
  rw [byteStep, hsplit, iterate_stepDown_xor, iterate_stepDown_of_low hlow, hshift, ← htable,
    BitVec.xor_comm]

/-- The two bit orders mirror each other. -/
theorem reverse_stepUp : (stepUp poly x).reverse = stepDown poly.reverse x.reverse := by
  have hmsb : x.reverse.getLsbD 0 = x.msb := by
    rw [BitVec.getLsbD_reverse, BitVec.msb_eq_getMsbD_zero]
  have hshift : (x <<< 1).reverse = x.reverse >>> 1 := by
    ext i hi
    rw [← BitVec.getLsbD_eq_getElem, ← BitVec.getLsbD_eq_getElem, BitVec.getLsbD_ushiftRight,
      BitVec.getLsbD_reverse, BitVec.getLsbD_reverse, BitVec.getMsbD_shiftLeft, Nat.add_comm]
  have hxor : ∀ a b : BitVec w, (a ^^^ b).reverse = a.reverse ^^^ b.reverse := by
    intro a b
    ext i hi
    simp only [← BitVec.getLsbD_eq_getElem, BitVec.getLsbD_xor, BitVec.getLsbD_reverse,
      BitVec.getMsbD_xor]
  unfold stepUp stepDown
  rw [hmsb]
  cases x.msb
  · exact hshift
  · show ((x <<< 1) ^^^ poly).reverse = (x.reverse >>> 1) ^^^ poly.reverse
    rw [hxor, hshift]

theorem reverse_iterate_stepUp :
    ((stepUp poly)^[n] x).reverse = (stepDown poly.reverse)^[n] x.reverse := by
  induction n generalizing x with
  | zero => rfl
  | succ n ih => rw [Function.iterate_succ_apply, ih, reverse_stepUp]; rfl

end Crc
