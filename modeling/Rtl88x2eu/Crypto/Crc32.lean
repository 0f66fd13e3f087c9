import Mathlib.Tactic.IntervalCases
import Rtl88x2eu.Crypto.Arcfour
import Rtl88x2eu.Lib.Crc

/-!
# The table of the CRC-32

`crc32_init`, `getcrc32` and `rtw_calc_crc32`. The table is made by a register that is shifted to
the left, between two reversals of the bits, and looked up for a register that is shifted to the
right. What comes out is the CRC-32 of the standard, computed bit by bit.

## Main definitions

* `rtwCalcCrc32`, `crc32`

## Main results

* `crc32Table_eq`: an entry of the table is the eight steps of a byte
* `getcrc32_eq`: both functions compute the CRC-32, and a receiver finds the value of the sender
-/

namespace Rtl88x2eu

def rtwCalcCrc32 (data : Bytes) : UInt32 :=
  ~~~ data.foldl (fun crc b => crc32Table (crc.toUInt8 ^^^ b) ^^^ (crc >>> 8)) 0xFFFFFFFF

/-- The polynomial with its bits reversed. -/
def crc32PolyReflected : UInt32 := 0xedb88320

def crc32Step (crc : UInt32) : UInt32 :=
  if crc &&& 1 = 0 then crc >>> 1 else (crc >>> 1) ^^^ crc32PolyReflected

/-- **The CRC-32**: reflected, preset with ones and complemented. -/
def crc32 (buf : Bytes) : UInt32 :=
  ~~~ buf.foldl (fun crc b => crc32Step^[8] (crc ^^^ b.toUInt32)) 0xffffffff

variable {crc : UInt32} {b i : UInt8} {c : UInt32} {n : ℕ}

theorem toBitVec_reflected : crc32PolyReflected.toBitVec = crc32Poly.toBitVec.reverse := by
  decide +kernel

theorem and_one_eq_zero_iff : crc &&& 1 = 0 ↔ crc.toBitVec.getLsbD 0 = false := by
  rw [← UInt32.toBitVec_inj, UInt32.toBitVec_and]
  show crc.toBitVec &&& 1#32 = 0#32 ↔ _
  rw [BitVec.and_one_eq_setWidth_ofBool_getLsbD]
  cases crc.toBitVec.getLsbD 0 <;> decide

theorem toBitVec_crc32Step :
    (crc32Step crc).toBitVec = Crc.stepDown crc32PolyReflected.toBitVec crc.toBitVec := by
  unfold crc32Step Crc.stepDown
  by_cases h : crc &&& 1 = 0
  · rw [if_pos h, and_one_eq_zero_iff.mp h]
    rfl
  · have hbit : crc.toBitVec.getLsbD 0 = true := by
      cases hbit : crc.toBitVec.getLsbD 0
      · exact absurd (and_one_eq_zero_iff.mpr hbit) h
      · rfl
    rw [if_neg h, hbit]
    rfl

theorem toBitVec_iterate_crc32Step :
    (crc32Step^[n] crc).toBitVec =
      (Crc.stepDown crc32PolyReflected.toBitVec)^[n] crc.toBitVec := by
  induction n generalizing crc with
  | zero => rfl
  | succ n ih => rw [Function.iterate_succ_apply, ih, toBitVec_crc32Step]; rfl

theorem crc32ReverseBit_eq (b : UInt8) : (crc32ReverseBit b).toBitVec = b.toBitVec.reverse := by
  apply BitVec.eq_of_getLsbD_eq
  intro i hi
  rw [BitVec.getLsbD_reverse, BitVec.getMsbD_eq_getLsbD]
  interval_cases i <;> simp [crc32ReverseBit]

theorem le32_reversed (c : UInt32) :
    (le32 [crc32ReverseBit (octet32 c 3), crc32ReverseBit (octet32 c 2),
      crc32ReverseBit (octet32 c 1), crc32ReverseBit (octet32 c 0)] 0).toBitVec =
      c.toBitVec.reverse := by
  apply BitVec.eq_of_getLsbD_eq
  intro i hi
  rw [BitVec.getLsbD_reverse, BitVec.getMsbD_eq_getLsbD]
  interval_cases i <;>
    simp [le32, Bytes.u8, crc32ReverseBit_eq, octet32, -BitVec.getLsbD_eq_getElem,
      BitVec.getLsbD_reverse, BitVec.getMsbD_eq_getLsbD]

theorem reverse_start (i : UInt8) :
    ((crc32ReverseBit i).toUInt32 <<< 24).toBitVec.reverse = i.toBitVec.setWidth 32 := by
  apply BitVec.eq_of_getLsbD_eq
  intro j hj
  rw [BitVec.getLsbD_reverse, BitVec.getMsbD_eq_getLsbD]
  interval_cases j <;>
    simp [crc32ReverseBit_eq, -BitVec.getLsbD_eq_getElem, BitVec.getLsbD_reverse,
      BitVec.getMsbD_eq_getLsbD]

/-- A step of the register of `crc32_init`. -/
def crc32Shift (c : UInt32) : UInt32 :=
  if c &&& 0x80000000 = 0 then c <<< 1 else (c <<< 1) ^^^ crc32Poly

theorem and_msb_eq_zero_iff : c &&& 0x80000000 = 0 ↔ c.toBitVec.msb = false := by
  have hpow : (0x80000000 : UInt32).toBitVec = BitVec.twoPow 32 31 := by decide
  rw [← UInt32.toBitVec_inj, UInt32.toBitVec_and, hpow, BitVec.and_twoPow,
    BitVec.msb_eq_getLsbD_last]
  show (if c.toBitVec.getLsbD 31 then BitVec.twoPow 32 31 else 0#32) = 0#32 ↔
    c.toBitVec.getLsbD 31 = false
  cases c.toBitVec.getLsbD 31 <;> decide

theorem toBitVec_repeat_crc32Shift :
    (Nat.repeat crc32Shift n c).toBitVec = (Crc.stepUp crc32Poly.toBitVec)^[n] c.toBitVec := by
  induction n with
  | zero => rfl
  | succ n ih =>
    rw [Function.iterate_succ_apply', ← ih]
    show (crc32Shift (Nat.repeat crc32Shift n c)).toBitVec = _
    generalize Nat.repeat crc32Shift n c = d
    unfold crc32Shift Crc.stepUp
    by_cases h : d &&& 0x80000000 = 0
    · rw [if_pos h, and_msb_eq_zero_iff.mp h]
      rfl
    · have hmsb : d.toBitVec.msb = true := by
        cases hmsb : d.toBitVec.msb
        · exact absurd (and_msb_eq_zero_iff.mpr hmsb) h
        · rfl
      rw [if_neg h, hmsb]
      rfl

/-- **An entry of the table** is what eight steps make of its index. -/
theorem crc32Table_eq (i : UInt8) :
    (crc32Table i).toBitVec =
      (Crc.stepDown crc32PolyReflected.toBitVec)^[8] (i.toBitVec.setWidth 32) := by
  have htable : (crc32Table i).toBitVec =
      (Nat.repeat crc32Shift 8 ((crc32ReverseBit i).toUInt32 <<< 24)).toBitVec.reverse :=
    le32_reversed _
  rw [htable, toBitVec_repeat_crc32Shift, Crc.reverse_iterate_stepUp, reverse_start,
    toBitVec_reflected]

theorem crc32Table_step (crc : UInt32) (b : UInt8) :
    crc32Table (crc.toUInt8 ^^^ b) ^^^ (crc >>> 8) = crc32Step^[8] (crc ^^^ b.toUInt32) := by
  rw [← UInt32.toBitVec_inj, toBitVec_iterate_crc32Step]
  have htable : ∀ b : BitVec 8, (crc32Table ⟨b⟩).toBitVec =
      (Crc.stepDown crc32PolyReflected.toBitVec)^[8] (b.setWidth 32) := fun b => crc32Table_eq ⟨b⟩
  exact (Crc.byteStep_eq_table (by decide) htable b.toBitVec).symm

/-- **The CRC-32 of the driver is the CRC-32**, and what the sender of a WEP or TKIP frame appends
is what the receiver computes from the frame it has decrypted. -/
theorem getcrc32_eq (buf : Bytes) :
    getcrc32 buf = crc32 buf ∧ rtwCalcCrc32 buf = crc32 buf ∧
      ∀ key, let payload := arcfour key (icvSeal key buf)
        let body := payload.length - 4
        payload.take body = buf ∧ octets32 (getcrc32 (payload.take body)) = payload.drop body := by
  have htable : getcrc32 buf = crc32 buf := by
    unfold getcrc32 crc32
    simp only [crc32Table_step]
  refine ⟨htable, htable, fun key => ?_⟩
  have hopen : arcfour key (icvSeal key buf) = buf ++ icv buf :=
    (arcfour_icvSeal_iff key key buf buf).mpr rfl
  have hbody : (buf ++ icv buf).length - 4 = buf.length := by simp
  simp only [hopen, hbody, List.take_left', List.drop_left']
  exact ⟨trivial, rfl⟩

example : crc32 [0x31, 0x32, 0x33, 0x34, 0x35, 0x36, 0x37, 0x38, 0x39] = 0xcbf43926 := by
  decide +kernel

end Rtl88x2eu
