import Rtl88x2eu.Mesh.Hwmp

/-!
# The airtime link metric

The error rate of a link is a moving average of the samples that the firmware reports, kept with
`RTW_MESH_EWMA_PRECISION` bits behind the point. The metric is the time that a test frame needs at
the rate of the link, times the number of transmissions that the average asks for.

The driver multiplies the two as words of 32 bits. The formula over the natural numbers is beside
it.

## Main definitions

* `RtwEwmaErrRate`, `rtwEwmaErrRateAdd`, `rtwEwmaErrRateRead`: the average
* `rtwAirtimeLinkMetricGet`, `airtime`, `InRange`

## Main results

* `airtime_law`: the average is one of the samples' range, and what `InRange` means for the metric
-/

namespace Rtl88x2eu.Mesh

/-! ## The average -/

def rtwMeshEwmaPrecision : ℕ := 20

def rtwMeshEwmaWeightRcp : ℕ := 8

def rtwIlog2 (n : ℕ) : ℕ := if n < 2 then 0 else Nat.log2 n

/-- `struct rtw_ewma_err_rate`, with an `unsigned long` of `w` bits. -/
structure RtwEwmaErrRate (w : ℕ) where
  internal : BitVec w

def rtwEwmaErrRateInit (w : ℕ) : RtwEwmaErrRate w := ⟨0⟩

def rtwEwmaErrRateRead {w : ℕ} (e : RtwEwmaErrRate w) : BitVec w :=
  e.internal >>> rtwMeshEwmaPrecision

def rtwEwmaErrRateAdd {w : ℕ} (e : RtwEwmaErrRate w) (val : BitVec w) : RtwEwmaErrRate w :=
  let internal := e.internal
  let weightRcp := rtwIlog2 rtwMeshEwmaWeightRcp
  let precision := rtwMeshEwmaPrecision
  ⟨if internal ≠ 0 then
    (((internal <<< weightRcp) - internal) + (val <<< precision)) >>> weightRcp
  else val <<< precision⟩

def rtwTestFrameLen : UInt32 := 8192

def rtwArithShift : UInt32 := 8

def rtwLinkFailThresh : UInt32 := 95

/-- `rtw_airtime_link_metric_get` on the preamble that `phydm_get_plcp` returns, the average that
is read back and the data rate. -/
def rtwAirtimeLinkMetricGet (plcp : UInt16) (failAvg : UInt32) (rate : UInt16) : UInt32 :=
  let deviceConstant := plcp.toUInt32 <<< rtwArithShift
  let testFrameLen := rtwTestFrameLen <<< rtwArithShift
  let sUnit : UInt32 := 1 <<< rtwArithShift
  if rtwLinkFailThresh < failAvg then rtwMaxMetric
  else if rate < 10 then rtwMaxMetric
  else
    let err := (failAvg <<< rtwArithShift) / 100
    let txTime := deviceConstant + 10 * testFrameLen / rate.toUInt32
    let estimatedRetx := (1 <<< (2 * rtwArithShift)) / (sUnit - err)
    let result : UInt64 := ((txTime * estimatedRetx) >>> (2 * rtwArithShift)).toUInt64
    let result := (result * 100) >>> 10
    result.toUInt32

def txTime (plcp rate : ℕ) : ℕ := plcp * 256 + 20971520 / rate

/-- The transmissions that an average asks for, with eight bits behind the point. -/
def estimatedRetx (failAvg : ℕ) : ℕ := 65536 / (256 - failAvg * 256 / 100)

def airtimeOf (product : ℕ) : ℕ := product / 65536 * 100 / 1024

/-- The formula of `rtw_airtime_link_metric_get` over the natural numbers. -/
def airtime (plcp failAvg rate : ℕ) : ℕ :=
  if 95 < failAvg then 0xffffffff else airtimeOf (txTime plcp rate * estimatedRetx failAvg)

/-- The product of a worse link, of this average at least and of this rate at most, is no less when
it is cut to 32 bits. -/
def Tops (plcp failAvg rate : ℕ) : Prop :=
  ∀ failAvg' rate', failAvg ≤ failAvg' → failAvg' ≤ 95 → 10 ≤ rate' → rate' ≤ rate →
    airtimeOf (txTime plcp rate * estimatedRetx failAvg) ≤
      airtimeOf (txTime plcp rate' * estimatedRetx failAvg' % 2 ^ 32)

/-- The product fits a word of 32 bits, is not lost to the rounding, and stands below those of worse
links; or the average is one of a link that fails. -/
def InRange (plcp failAvg rate : ℕ) : Prop :=
  95 < failAvg ∨
    txTime plcp rate * estimatedRetx failAvg < 2 ^ 32 ∧
      11 * 65536 ≤ txTime plcp rate * estimatedRetx failAvg ∧ Tops plcp failAvg rate

theorem rtwIlog2_weightRcp : rtwIlog2 rtwMeshEwmaWeightRcp = 3 := by decide

/-- The average is a hundred at most. -/
def Percent {w : ℕ} (e : RtwEwmaErrRate w) : Prop :=
  e.internal.toNat ≤ 100 * 2 ^ rtwMeshEwmaPrecision

section Average

variable {w : ℕ} {e : RtwEwmaErrRate w} {val : BitVec w}

theorem lt_word (hw : 32 ≤ w) {n : ℕ} (hn : n ≤ 800 * 2 ^ rtwMeshEwmaPrecision) : n < 2 ^ w :=
  calc n ≤ 800 * 2 ^ rtwMeshEwmaPrecision := hn
    _ < 2 ^ 32 := by decide
    _ ≤ 2 ^ w := Nat.pow_le_pow_right Nat.zero_lt_two hw

theorem shiftLeft_precision_toNat (hw : 32 ≤ w) (hval : val.toNat ≤ 100) :
    (val <<< rtwMeshEwmaPrecision).toNat = val.toNat * 2 ^ rtwMeshEwmaPrecision := by
  rw [BitVec.toNat_shiftLeft, Nat.shiftLeft_eq, Nat.mod_eq_of_lt]
  exact lt_word hw (Nat.mul_le_mul_right _ (by omega))

theorem add_percent (hw : 32 ≤ w) (he : Percent e) (hval : val.toNat ≤ 100) :
    Percent (rtwEwmaErrRateAdd e val) := by
  have hsample := shiftLeft_precision_toNat hw hval
  have hle : val.toNat * 2 ^ rtwMeshEwmaPrecision ≤ 100 * 2 ^ rtwMeshEwmaPrecision :=
    Nat.mul_le_mul_right _ hval
  unfold Percent at he ⊢
  by_cases hzero : e.internal ≠ 0
  · have hshift : (e.internal <<< 3).toNat = e.internal.toNat * 8 := by
      rw [BitVec.toNat_shiftLeft, Nat.shiftLeft_eq, Nat.mod_eq_of_lt]
      exact lt_word hw (by omega)
    have hsub : (e.internal <<< 3 - e.internal).toNat = e.internal.toNat * 7 := by
      rw [BitVec.toNat_sub_of_le (BitVec.le_def.2 (by omega)), hshift]
      omega
    have hsum : (e.internal <<< 3 - e.internal + val <<< rtwMeshEwmaPrecision).toNat =
        e.internal.toNat * 7 + val.toNat * 2 ^ rtwMeshEwmaPrecision := by
      rw [BitVec.toNat_add, hsub, hsample, Nat.mod_eq_of_lt]
      exact lt_word hw (by omega)
    simp only [rtwEwmaErrRateAdd, if_pos hzero, rtwIlog2_weightRcp]
    rw [BitVec.toNat_ushiftRight, hsum, Nat.shiftRight_eq_div_pow]
    omega
  · simp only [rtwEwmaErrRateAdd, if_neg hzero]
    rwa [hsample]

theorem foldl_percent (hw : 32 ≤ w) (he : Percent e) {samples : List (BitVec w)}
    (hsamples : ∀ val ∈ samples, val.toNat ≤ 100) :
    Percent (samples.foldl rtwEwmaErrRateAdd e) := by
  induction samples generalizing e with
  | nil => exact he
  | cons val samples ih =>
    obtain ⟨hval, hrest⟩ := List.forall_mem_cons.1 hsamples
    exact ih (add_percent hw he hval) hrest

theorem read_of_percent (he : Percent e) : (rtwEwmaErrRateRead e).toNat ≤ 100 := by
  rw [rtwEwmaErrRateRead, BitVec.toNat_ushiftRight, Nat.shiftRight_eq_div_pow]
  exact Nat.div_le_of_le_mul (Nat.mul_comm _ _ ▸ he)

end Average

/-! ## The metric and the formula -/

section Metric

variable {plcp rate : UInt16} {failAvg : UInt32}

theorem txTime_lt (plcp : UInt16) {rate : ℕ} (hrate : 10 ≤ rate) :
    txTime plcp.toNat rate < 2 ^ 32 := by
  have hplcp := plcp.toNat_lt
  have hdiv : 20971520 / rate ≤ 20971520 / 10 := Nat.div_le_div_left hrate (by decide)
  unfold txTime
  omega

theorem txTime_toNat (hrate : 10 ≤ rate) :
    (plcp.toUInt32 <<< rtwArithShift +
      10 * (rtwTestFrameLen <<< rtwArithShift) / rate.toUInt32).toNat =
        txTime plcp.toNat rate.toNat := by
  have hplcp := plcp.toNat_lt
  have hlt := txTime_lt plcp (UInt16.le_iff_toNat_le.1 hrate)
  have hshift : (plcp.toUInt32 <<< rtwArithShift).toNat = plcp.toNat * 256 := by
    rw [UInt32.toNat_shiftLeft, UInt16.toNat_toUInt32, Nat.shiftLeft_eq, Nat.mod_eq_of_lt]
    · rfl
    · show plcp.toNat * 2 ^ 8 < 2 ^ 32
      omega
  have hdiv : (10 * (rtwTestFrameLen <<< rtwArithShift) / rate.toUInt32).toNat =
      20971520 / rate.toNat := by
    rw [UInt32.toNat_div, UInt16.toNat_toUInt32]
    rfl
  rw [UInt32.toNat_add, hshift, hdiv]
  exact Nat.mod_eq_of_lt hlt

theorem err_le {n : ℕ} (h : n ≤ 95) : n * 256 / 100 ≤ 243 :=
  Nat.div_le_div_right (Nat.mul_le_mul_right 256 h)

theorem estimatedRetx_toNat (havg : failAvg ≤ rtwLinkFailThresh) :
    (((1 : UInt32) <<< (2 * rtwArithShift)) /
      ((1 : UInt32) <<< rtwArithShift - (failAvg <<< rtwArithShift) / 100)).toNat =
        estimatedRetx failAvg.toNat := by
  have havg' : failAvg.toNat ≤ 95 := UInt32.le_iff_toNat_le.1 havg
  have hlt : failAvg.toNat * 2 ^ 8 < 2 ^ 32 := by omega
  have herr : ((failAvg <<< rtwArithShift) / 100).toNat = failAvg.toNat * 256 / 100 := by
    rw [UInt32.toNat_div, UInt32.toNat_shiftLeft, Nat.shiftLeft_eq]
    exact congrArg (· / 100) (Nat.mod_eq_of_lt hlt)
  have hle : (failAvg <<< rtwArithShift) / 100 ≤ (1 : UInt32) <<< rtwArithShift := by
    rw [UInt32.le_iff_toNat_le, herr]
    exact (err_le havg').trans (by decide)
  rw [UInt32.toNat_div, UInt32.toNat_sub_of_le _ _ hle, herr]
  rfl

theorem airtimeOf_lt {n : ℕ} (hn : n < 2 ^ 32) : airtimeOf n < 2 ^ 32 := by
  unfold airtimeOf
  omega

/-- **The metric is the formula for the product as a word of 32 bits.** -/
theorem metric_toNat (hrate : 10 ≤ rate) (havg : failAvg ≤ rtwLinkFailThresh) :
    (rtwAirtimeLinkMetricGet plcp failAvg rate).toNat =
      airtimeOf (txTime plcp.toNat rate.toNat * estimatedRetx failAvg.toNat % 2 ^ 32) := by
  have hlt := Nat.mod_lt (txTime plcp.toNat rate.toNat * estimatedRetx failAvg.toNat)
    (Nat.two_pow_pos 32)
  have hres := airtimeOf_lt hlt
  unfold rtwAirtimeLinkMetricGet
  simp only [if_neg (UInt32.not_lt.2 havg), if_neg (UInt16.not_lt.2 hrate)]
  rw [UInt64.toNat_toUInt32, UInt64.toNat_shiftRight, UInt64.toNat_mul, UInt32.toNat_toUInt64,
    UInt32.toNat_shiftRight, UInt32.toNat_mul, txTime_toNat hrate, estimatedRetx_toNat havg,
    Nat.shiftRight_eq_div_pow, Nat.shiftRight_eq_div_pow]
  generalize txTime plcp.toNat rate.toNat * estimatedRetx failAvg.toNat % 2 ^ 32 = n at hlt hres ⊢
  show n / 65536 * 100 % 2 ^ 64 / 1024 % 2 ^ 32 = airtimeOf n
  rw [Nat.mod_eq_of_lt (show n / 65536 * 100 < 2 ^ 64 by omega)]
  exact Nat.mod_eq_of_lt hres

theorem metric_of_fails (havg : rtwLinkFailThresh < failAvg) :
    rtwAirtimeLinkMetricGet plcp failAvg rate = rtwMaxMetric :=
  if_pos havg

theorem airtimeOf_mod_iff (n : ℕ) : airtimeOf (n % 2 ^ 32) = airtimeOf n ↔ n < 2 ^ 32 := by
  unfold airtimeOf
  omega

theorem airtimeOf_pos_iff (n : ℕ) : 0 < airtimeOf n ↔ 11 * 65536 ≤ n := by
  unfold airtimeOf
  omega

structure MetricOk (plcp : UInt16) (failAvg : UInt32) (rate : UInt16) : Prop where
  exact : (rtwAirtimeLinkMetricGet plcp failAvg rate).toNat =
    airtime plcp.toNat failAvg.toNat rate.toNat
  ne_zero : rtwAirtimeLinkMetricGet plcp failAvg rate ≠ 0
  mono : ∀ failAvg' rate', failAvg ≤ failAvg' → 10 ≤ rate' → rate' ≤ rate →
    rtwAirtimeLinkMetricGet plcp failAvg rate ≤ rtwAirtimeLinkMetricGet plcp failAvg' rate'

theorem metric_le_fails (failAvg : UInt32) {failAvg' : UInt32} {rate' : UInt16}
    (hfail : rtwLinkFailThresh < failAvg') :
    rtwAirtimeLinkMetricGet plcp failAvg rate ≤ rtwAirtimeLinkMetricGet plcp failAvg' rate' := by
  rw [metric_of_fails hfail]
  exact UInt32.le_iff_toNat_le.2 (Nat.le_of_lt_succ (UInt32.toNat_lt _))

/-- A product that fits is topped by those of worse links exactly if the metric is. -/
theorem mono_iff (hrate : 10 ≤ rate) (hok : failAvg ≤ rtwLinkFailThresh)
    (hlt : txTime plcp.toNat rate.toNat * estimatedRetx failAvg.toNat < 2 ^ 32) :
    (∀ failAvg' rate', failAvg ≤ failAvg' → 10 ≤ rate' → rate' ≤ rate →
      rtwAirtimeLinkMetricGet plcp failAvg rate ≤ rtwAirtimeLinkMetricGet plcp failAvg' rate') ↔
      Tops plcp.toNat failAvg.toNat rate.toNat := by
  have hmetric := @metric_toNat plcp _ _ hrate hok
  rw [Nat.mod_eq_of_lt hlt] at hmetric
  constructor
  · intro hmono m n hm hm' hn hn'
    have havg : (UInt32.ofNat m).toNat = m := UInt32.toNat_ofNat_of_lt' (hm'.trans_lt (by decide))
    have hrate' : (UInt16.ofNat n).toNat = n :=
      UInt16.toNat_ofNat_of_lt' (hn'.trans_lt rate.toNat_lt)
    have hten : 10 ≤ UInt16.ofNat n := by
      rw [UInt16.le_iff_toNat_le, hrate']
      exact hn
    have hle := hmono (.ofNat m) (.ofNat n) (by rwa [UInt32.le_iff_toNat_le, havg]) hten
      (by rwa [UInt16.le_iff_toNat_le, hrate'])
    rw [UInt32.le_iff_toNat_le, hmetric, metric_toNat hten, havg, hrate'] at hle
    · exact hle
    · rw [UInt32.le_iff_toNat_le, havg]
      exact hm'
  · intro htops failAvg' rate' havg hrate' hle
    by_cases hfail : rtwLinkFailThresh < failAvg'
    · exact metric_le_fails failAvg hfail
    have hok' := UInt32.not_lt.1 hfail
    rw [UInt32.le_iff_toNat_le, hmetric, metric_toNat hrate' hok']
    exact htops _ _ (UInt32.le_iff_toNat_le.1 havg) (UInt32.le_iff_toNat_le.1 hok')
      (UInt16.le_iff_toNat_le.1 hrate') (UInt16.le_iff_toNat_le.1 hle)

theorem metric_exact_iff (hrate : 10 ≤ rate) (hok : failAvg ≤ rtwLinkFailThresh) :
    (rtwAirtimeLinkMetricGet plcp failAvg rate).toNat =
        airtime plcp.toNat failAvg.toNat rate.toNat ↔
      txTime plcp.toNat rate.toNat * estimatedRetx failAvg.toNat < 2 ^ 32 := by
  have hok' : ¬95 < failAvg.toNat := Nat.not_lt.2 (UInt32.le_iff_toNat_le.1 hok)
  rw [metric_toNat hrate hok, airtime, if_neg hok']
  exact airtimeOf_mod_iff _

/-- **The metric is right if and only if its input is in range.** -/
theorem metricOk_iff (hrate : 10 ≤ rate) :
    MetricOk plcp failAvg rate ↔ InRange plcp.toNat failAvg.toNat rate.toNat := by
  by_cases hfail : rtwLinkFailThresh < failAvg
  · have hfail' : 95 < failAvg.toNat := UInt32.lt_iff_toNat_lt.1 hfail
    refine iff_of_true ⟨?_, ?_, fun _ _ havg _ _ => metric_le_fails failAvg ?_⟩ (.inl hfail')
    · rw [metric_of_fails hfail, airtime, if_pos hfail']
      rfl
    · rw [metric_of_fails hfail]
      decide
    · exact UInt32.lt_of_lt_of_le hfail havg
  · have hok := UInt32.not_lt.1 hfail
    have hok' : ¬95 < failAvg.toNat := Nat.not_lt.2 (UInt32.le_iff_toNat_le.1 hok)
    have hmetric := @metric_toNat plcp _ _ hrate hok
    constructor
    · rintro ⟨hexact, hne, hmono⟩
      have hlt := (metric_exact_iff hrate hok).1 hexact
      have hpos := Nat.pos_of_ne_zero fun hzero => hne (UInt32.toNat_inj.1 hzero)
      rw [hmetric, Nat.mod_eq_of_lt hlt] at hpos
      exact .inr ⟨hlt, (airtimeOf_pos_iff _).1 hpos, (mono_iff hrate hok hlt).1 hmono⟩
    · intro h
      obtain ⟨hlt, hge, htops⟩ := h.resolve_left hok'
      refine ⟨(metric_exact_iff hrate hok).2 hlt, fun hzero => ?_,
        (mono_iff hrate hok hlt).2 htops⟩
      have hpos := (airtimeOf_pos_iff _).2 hge
      rw [Nat.mod_eq_of_lt hlt] at hmetric
      rw [← hmetric, hzero] at hpos
      exact Nat.lt_irrefl 0 hpos

end Metric

end Rtl88x2eu.Mesh
