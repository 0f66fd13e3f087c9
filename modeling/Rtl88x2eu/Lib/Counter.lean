import Mathlib.Data.List.Perm.Subperm
import Mathlib.Data.Nat.ModEq

/-!
# Values drawn from a counter

A counter that wraps around at `N` gives out its values one after the other. As long as it has not
been drawn from `N` times, no value has been given out twice, whatever has become of the values in
the meantime and in whatever order they are kept.

## Main definitions

* `Ledger`

## Main results

* `Ledger.draw`: the next value is a new one
* `Ledger.subperm`: values may be dropped and put in another order
-/

namespace Counter

variable {N start drawn : ℕ} {used used' : List ℕ}

/-- The values are those of different draws among the first `drawn`. -/
structure Ledger (N start drawn : ℕ) (used : List ℕ) : Prop where
  nodup : used.Nodup
  of_draw : ∀ v ∈ used, ∃ k, 0 < k ∧ k ≤ drawn ∧ v = (start + k) % N

theorem Ledger.nil (N start drawn : ℕ) : Ledger N start drawn [] :=
  ⟨List.nodup_nil, fun _ h => absurd h List.not_mem_nil⟩

/-- Values may be dropped and put in another order. -/
theorem Ledger.subperm (h : Ledger N start drawn used) (hsub : used'.Subperm used) :
    Ledger N start drawn used' := by
  have hmem := hsub.subset
  obtain ⟨l, hperm, hsublist⟩ := hsub
  exact ⟨hperm.nodup_iff.mp (h.nodup.sublist hsublist), fun v hv => h.of_draw v (hmem hv)⟩

/-- A draw whose value nobody keeps. -/
theorem Ledger.skip (h : Ledger N start drawn used) : Ledger N start (drawn + 1) used := by
  refine ⟨h.nodup, fun v hv => ?_⟩
  obtain ⟨k, hpos, hle, rfl⟩ := h.of_draw v hv
  exact ⟨k, hpos, by omega, rfl⟩

/-- **The next value is a new one.** -/
theorem Ledger.draw (h : Ledger N start drawn used) (hlt : drawn < N) :
    Ledger N start (drawn + 1) ((start + (drawn + 1)) % N :: used) := by
  refine ⟨List.nodup_cons.mpr ⟨fun hmem => ?_, h.nodup⟩, fun v hv => ?_⟩
  · obtain ⟨k, hpos, hle, hv⟩ := h.of_draw _ hmem
    have hmod : k ≡ drawn + 1 [MOD N] := Nat.ModEq.add_left_cancel' start hv.symm
    have hdvd : N ∣ drawn + 1 - k := (Nat.modEq_iff_dvd' (by omega)).mp hmod
    have := Nat.le_of_dvd (by omega) hdvd
    omega
  · rcases List.mem_cons.mp hv with rfl | hv
    · exact ⟨drawn + 1, Nat.succ_pos _, le_rfl, rfl⟩
    · exact h.skip.of_draw v hv

end Counter
