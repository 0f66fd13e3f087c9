import Rtl88x2eu.Efuse.Writers
import Mathlib.Algebra.BigOperators.Ring.Finset

/-!
# The size that is planned and the size that is programmed

`check_efuse_enough_8822e` adds up the entries before `program_efuse_8822e` writes them. Both go
through the blocks of eight bytes, two of which share a byte of the mask. The programmer takes the
high nibble for even blocks and the low nibble for odd ones; the planner tests the offset within
the block, which is always 0, and takes the high nibble twice.

## Main definitions

* `evenBytes`, `oddBytes`: what the entries of the even and of the odd blocks take
* `SizedExactly`

## Main results

* `length_programBytes`, `pgNum_eq`: what is programmed, and what is planned
* `sizedExactly_iff`: when they agree
* `not_sizedExactly_oddBlock`: a single word of an odd block
-/

namespace Rtl88x2eu.Efuse

open RecordLog Failing

variable {info : PgEfuseInfo} {updatedMask : Map} {efuseEnd : ℕ}

def evenBytes (info : PgEfuseInfo) (updatedMask : Map) : ℕ :=
  ∑ k ∈ Finset.range (info.efuseMapSize / 16), entrySize (updatedMask k >>> 4)

def oddBytes (info : PgEfuseInfo) (updatedMask : Map) : ℕ :=
  ∑ k ∈ Finset.range (info.efuseMapSize / 16), entrySize (updatedMask k &&& 0x0F)

/-- Planner and programmer agree. -/
structure SizedExactly (info : PgEfuseInfo) (updatedMask : Map) (efuseEnd : ℕ) : Prop where
  planned : ∀ s s', s.efuseEnd = efuseEnd → Returns (programEfuse info updatedMask) s () s' →
    s'.burned.length = s.burned.length + pgNum info updatedMask
  fits : ∀ s, s.efuseEnd = efuseEnd → (exec (checkEfuseEnough info updatedMask) s).1 = .ok () →
    ∀ p ∈ (exec (programEfuse info updatedMask) s).2.burned.drop s.burned.length,
      efuseEnd ≤ p.1 ∧ p.1 < efuseSize
  refused : ∀ s, s.efuseEnd = efuseEnd →
    (exec (checkEfuseEnough info updatedMask) s).1 = .error .efuseNotEnough →
    ∀ s', Returns (programEfuse info updatedMask) s () s' →
      efuseSize < efuseEnd + (s'.burned.drop s.burned.length).length

/-! ## The sums -/

theorem foldl_add_eq_sum (f : ℕ → ℕ) (l : List ℕ) (n : ℕ) :
    l.foldl (fun acc i => acc + f i) n = n + (l.map f).sum := by
  induction l generalizing n with
  | nil => rfl
  | cons i l ih =>
    rw [List.foldl_cons, ih, List.map_cons, List.sum_cons, Nat.add_assoc]

theorem sum_strides (f : ℕ → ℕ) (n : ℕ) :
    ((strides 8 (16 * n)).map f).sum =
      ∑ k ∈ Finset.range n, (f (16 * k) + f (16 * k + 8)) := by
  have hcount : (16 * n + 8 - 1) / 8 = 2 * n := by omega
  unfold strides
  rw [hcount]
  induction n with
  | zero => rfl
  | succ n ih =>
    rw [Finset.sum_range_succ, ← ih (by omega), show 2 * (n + 1) = 2 * n + 1 + 1 by omega,
      List.range_succ, List.range_succ]
    simp only [List.map_append, List.map_cons, List.map_nil, List.sum_append, List.sum_cons,
      List.sum_nil]
    rw [show 8 * (2 * n) = 16 * n by omega, show 8 * (2 * n + 1) = 16 * n + 8 by omega]
    omega

theorem entrySize_eq (preWordEn : UInt8) :
    entrySize preWordEn = if preWordEn > 0 then 2 + 2 * (pgWords preWordEn).length else 0 := by
  have hfold (l : List ℕ) (n : ℕ) : l.foldl (fun pgNum _ => pgNum + 2) n = n + 2 * l.length := by
    induction l generalizing n with
    | nil => rfl
    | cons i l ih =>
      rw [List.foldl_cons, ih, List.length_cons]
      omega
  unfold entrySize
  rw [hfold]

theorem length_pgEntryBytes (wordEn preWordEn : UInt8) (i : ℕ) :
    (pgEntryBytes info wordEn preWordEn i).length = 2 + 2 * (pgWords preWordEn).length := by
  unfold pgEntryBytes
  simp [List.length_flatMap]
  omega

theorem length_blockBytes (i : ℕ) :
    (blockBytes info updatedMask i).length = entrySize (pgPreWordEn updatedMask i) := by
  rw [entrySize_eq]
  unfold blockBytes
  split
  · exact length_pgEntryBytes ..
  · rfl

theorem pgPreWordEn_even (k : ℕ) : pgPreWordEn updatedMask (16 * k) = updatedMask k >>> 4 := by
  unfold pgPreWordEn
  rw [show 16 * k / 8 = 2 * k by omega, show 16 * k / 16 = k by omega, Nat.and_one_is_mod,
    if_neg (by omega)]

theorem pgPreWordEn_odd (k : ℕ) :
    pgPreWordEn updatedMask (16 * k + 8) = updatedMask k &&& 0x0F := by
  unfold pgPreWordEn
  rw [show (16 * k + 8) / 8 = 2 * k + 1 by omega, show (16 * k + 8) / 16 = k by omega,
    Nat.and_one_is_mod, if_pos (by omega)]

theorem checkPreWordEn_stride (updatedMask : Map) (j : ℕ) :
    checkPreWordEn updatedMask (8 * j) = updatedMask (8 * j / 16) >>> 4 := by
  unfold checkPreWordEn
  rw [show 7 = 2 ^ 3 - 1 from rfl, Nat.and_two_pow_sub_one_eq_mod, if_neg (by omega)]

/-- **What is programmed.** -/
theorem length_programBytes (updatedMask : Map) (hsize : info.efuseMapSize % 16 = 0) :
    (programBytes info updatedMask).length =
      evenBytes info updatedMask + oddBytes info updatedMask := by
  obtain ⟨n, hn⟩ : ∃ n, info.efuseMapSize = 16 * n := ⟨info.efuseMapSize / 16, by omega⟩
  unfold programBytes evenBytes oddBytes
  rw [List.length_flatMap]
  simp only [length_blockBytes]
  rw [hn, sum_strides, Nat.mul_div_cancel_left n (by omega), ← Finset.sum_add_distrib]
  refine Finset.sum_congr rfl fun k _ => ?_
  rw [pgPreWordEn_even, pgPreWordEn_odd]

/-- **What is planned.** -/
theorem pgNum_eq (updatedMask : Map) (hsize : info.efuseMapSize % 16 = 0) :
    pgNum info updatedMask = 2 * evenBytes info updatedMask := by
  obtain ⟨n, hn⟩ : ∃ n, info.efuseMapSize = 16 * n := ⟨info.efuseMapSize / 16, by omega⟩
  unfold pgNum evenBytes
  rw [foldl_add_eq_sum, Nat.zero_add, hn, sum_strides, Nat.mul_div_cancel_left n (by omega),
    Finset.mul_sum]
  refine Finset.sum_congr rfl fun k _ => ?_
  have heven := checkPreWordEn_stride updatedMask (2 * k)
  have hodd := checkPreWordEn_stride updatedMask (2 * k + 1)
  rw [show 8 * (2 * k) = 16 * k by omega, show 16 * k / 16 = k by omega] at heven
  rw [show 8 * (2 * k + 1) = 16 * k + 8 by omega, show (16 * k + 8) / 16 = k by omega] at hodd
  rw [heven, hodd]
  omega

/-! ## Agreement -/

theorem length_addressed (i : ℕ) (bs : List UInt8) : (addressed i bs).length = bs.length := by
  induction bs generalizing i with
  | nil => rfl
  | cons b bs ih => rw [addressed, List.length_cons, List.length_cons, ih]

theorem checkEfuseEnough_ok {s : Adapter} :
    (exec (checkEfuseEnough info updatedMask) s).1 = .ok () ↔
      pgNum info updatedMask + s.efuseEnd < efuseSize := by
  unfold checkEfuseEnough
  rw [exec_bind, exec_look]
  dsimp only
  rw [exec_failIf]
  split
  · exact iff_of_false (by simp) (by omega)
  · exact iff_of_true rfl (by omega)

theorem checkEfuseEnough_error {s : Adapter} :
    (exec (checkEfuseEnough info updatedMask) s).1 = .error .efuseNotEnough ↔
      efuseSize ≤ pgNum info updatedMask + s.efuseEnd := by
  unfold checkEfuseEnough
  rw [exec_bind, exec_look]
  dsimp only
  rw [exec_failIf]
  split
  · exact iff_of_true rfl (by omega)
  · exact iff_of_false (by simp) (by omega)

theorem programEfuse_burned {s s' : Adapter} (h : Returns (programEfuse info updatedMask) s () s') :
    s'.burned = s.burned ++ addressed s.efuseEnd (programBytes info updatedMask) := by
  obtain ⟨n, hburned, hok⟩ := writes_programEfuse info updatedMask s
  rw [h] at hburned hok
  rw [(hok rfl).1, List.take_length] at hburned
  exact hburned

def workingAdapter (efuseEnd : ℕ) : Adapter where
  cells := blank
  burn := fun _ _ value => value
  efuseEnd := efuseEnd

/-- **When the planner and the programmer agree**: the even and the odd blocks take equally many
bytes, and the last byte of the efuse stays free. -/
theorem sizedExactly_iff (hsize : info.efuseMapSize % 16 = 0) :
    SizedExactly info updatedMask efuseEnd ↔
      evenBytes info updatedMask = oddBytes info updatedMask ∧
        efuseEnd + (evenBytes info updatedMask + oddBytes info updatedMask) ≠ efuseSize := by
  have hlength := length_programBytes updatedMask hsize
  have hplan := pgNum_eq updatedMask hsize
  constructor
  · intro h
    obtain ⟨s', hret⟩ := @programEfuse_succeeds (workingAdapter efuseEnd) info updatedMask
      (fun _ => rfl) (cellsTake_of_not_check rfl)
    have hburned := programEfuse_burned hret
    have hplanned := h.planned _ _ rfl hret
    rw [hburned, List.length_append, length_addressed] at hplanned
    refine ⟨by omega, fun hfull => ?_⟩
    -- an exact fit is refused
    have herror : (exec (checkEfuseEnough info updatedMask) (workingAdapter efuseEnd)).1 =
        .error .efuseNotEnough := by
      rw [checkEfuseEnough_error]
      show efuseSize ≤ pgNum info updatedMask + efuseEnd
      omega
    have hover := h.refused _ rfl herror _ hret
    rw [hburned, List.drop_left, length_addressed] at hover
    omega
  · rintro ⟨heq, hne⟩
    refine ⟨fun s s' _ hret => ?_, fun s hend hok p hp => ?_, fun s hend herr s' hret => ?_⟩
    · rw [programEfuse_burned hret, List.length_append, length_addressed]
      omega
    · rw [checkEfuseEnough_ok] at hok
      obtain ⟨n, hburned, -⟩ := writes_programEfuse info updatedMask s
      rw [hburned, List.drop_left] at hp
      have hrange := mem_addressed hp
      have htake := List.length_take_le' n (programBytes info updatedMask)
      omega
    · rw [checkEfuseEnough_error] at herr
      rw [programEfuse_burned hret, List.drop_left, length_addressed]
      omega

def shortInfo : PgEfuseInfo where
  efuseMap := fun _ => 0x00
  efuseMapSize := 416
  efuseMask := fun _ => 0x00
  efuseMaskSize := 26

theorem sizedExactly_balanced : SizedExactly shortInfo (fun _ => 0x11) 100 :=
  (sizedExactly_iff rfl).mpr (by decide +kernel)

/-- One word of block 1 is planned as no byte at all, and its four bytes run over the end. -/
theorem not_sizedExactly_oddBlock :
    ¬ ∀ (info : PgEfuseInfo) (updatedMask : Map) (efuseEnd : ℕ), info.efuseMapSize % 16 = 0 →
      info.efuseMapSize ≤ eepromSize → SizedExactly info updatedMask efuseEnd := by
  intro h
  have hfits := (h shortInfo (Function.update (fun _ => 0x00) 0 0x01) 1215 rfl (by decide)).fits
    (workingAdapter 1215) rfl (by decide +kernel)
  exact absurd (hfits (1218, 0x00) (by decide +kernel)).2 (by decide)

end Rtl88x2eu.Efuse
