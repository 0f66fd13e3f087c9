import Mathlib.Algebra.BigOperators.Group.Finset.Piecewise
import Mathlib.Algebra.Order.BigOperators.Group.Finset
import Rtl88x2eu.Lib.Transition
import Rtl88x2eu.Sta.Macid

/-!
# The operating stations of a role

`rtw_macid_ctl_set_h2c_msr` of `rtw_wlan_util.c` stores the media status of a MAC id, which says
whether its station operates and in which role, and counts the operating stations of every role. It
looks at the transitions of the operating bit only: a station that goes on operating in another role
stays counted in the old one.

## Main definitions

* `MsrCtl`, `rtwMacidCtlSetH2cMsr`: the part of the table, and the call
* `OpNumExact`, `RoleKept`

## Main results

* `opNum_iff`: the counts are exact all along a run if and only if every call keeps them so
-/

namespace Rtl88x2eu.Sta

def h2cMsrRoleMax : ℕ := 8

def msrOpmode (msr : UInt8) : Bool := msr &&& 1 ≠ 0

def msrRole (msr : UInt8) : ℕ := (msr >>> 4).toNat

structure MsrCtl where
  num : ℕ
  num_le : num ≤ macidNumSwLimit
  h2cMsr : Fin macidNumSwLimit → UInt8 := fun _ => 0
  opNum : Fin h2cMsrRoleMax → UInt8 := fun _ => 0

/-- A count is changed, with the bit of its role in `op_num_change_bmp`. -/
def MsrCtl.changeOpNum (c : MsrCtl) (role : ℕ) (f : UInt8 → UInt8) : UInt8 × MsrCtl :=
  if h : role < h2cMsrRoleMax then
    (1 <<< UInt8.ofNat role,
      { c with opNum := Function.update c.opNum ⟨role, h⟩ (f (c.opNum ⟨role, h⟩)) })
  else (0, c)

def MsrCtl.countChange (c : MsrCtl) (old msr : UInt8) : UInt8 × MsrCtl :=
  if msrOpmode old && !msrOpmode msr then c.changeOpNum (msrRole old) (· - 1)
  else if !msrOpmode old && msrOpmode msr then c.changeOpNum (msrRole msr) (· + 1)
  else (0, c)

def rtwMacidCtlSetH2cMsr (c : MsrCtl) (id msr : UInt8) : UInt8 × MsrCtl :=
  if h : id.toNat < c.num then
    let i : Fin macidNumSwLimit := ⟨id.toNat, h.trans_le c.num_le⟩
    let o := c.countChange (c.h2cMsr i) msr
    (o.1, { o.2 with h2cMsr := Function.update c.h2cMsr i msr })
  else (0, c)

/-- A call, with an id and a media status. -/
def msrStep (c : MsrCtl) (e : UInt8 × UInt8) : Option MsrCtl :=
  some (rtwMacidCtlSetH2cMsr c e.1 e.2).2

/-! ## What is counted -/

def InRole (msr : UInt8) (role : Fin h2cMsrRoleMax) : Prop :=
  msrOpmode msr = true ∧ msrRole msr = role

instance (msr : UInt8) (role : Fin h2cMsrRoleMax) : Decidable (InRole msr role) :=
  inferInstanceAs (Decidable (_ ∧ _))

def operating (h2cMsr : Fin macidNumSwLimit → UInt8) (role : Fin h2cMsrRoleMax) : ℕ :=
  ∑ i, if InRole (h2cMsr i) role then 1 else 0

/-- **Every role is counted exactly.** -/
def OpNumExact (c : MsrCtl) : Prop := ∀ role, (c.opNum role).toNat = operating c.h2cMsr role

/-- **When a call keeps the counts exact**: a station that operates before and after the call does
so in the same role, or in none that is counted. -/
def RoleKept (c : MsrCtl) (e : UInt8 × UInt8) : Prop :=
  ∀ h : e.1.toNat < c.num,
    let old := c.h2cMsr ⟨e.1.toNat, h.trans_le c.num_le⟩
    msrOpmode old = true → msrOpmode e.2 = true →
      msrRole old = msrRole e.2 ∨ (h2cMsrRoleMax ≤ msrRole old ∧ h2cMsrRoleMax ≤ msrRole e.2)

instance (c : MsrCtl) (e : UInt8 × UInt8) : Decidable (RoleKept c e) :=
  inferInstanceAs (Decidable (∀ _ : _, _ → _ → _ ∨ _))

variable {c c' : MsrCtl} {h2cMsr : Fin macidNumSwLimit → UInt8} {i : Fin macidNumSwLimit}
  {msr old id : UInt8} {role : Fin h2cMsrRoleMax} {n : ℕ} {f : UInt8 → UInt8}

/-- Storing a media status takes the old one out of the count and puts the new one in. -/
theorem operating_update :
    operating (Function.update h2cMsr i msr) role + (if InRole (h2cMsr i) role then 1 else 0) =
      operating h2cMsr role + if InRole msr role then 1 else 0 := by
  have hupdate : (fun j => if InRole (Function.update h2cMsr i msr j) role then 1 else 0) =
      Function.update (fun j => if InRole (h2cMsr j) role then 1 else 0) i
        (if InRole msr role then 1 else 0) := by
    funext j
    by_cases hj : j = i
    · subst hj
      simp only [Function.update_self]
    · simp only [Function.update_of_ne hj]
  unfold operating
  rw [hupdate, Finset.sum_update_of_mem (Finset.mem_univ i),
    Finset.sum_eq_add_sum_sdiff_singleton_of_mem (Finset.mem_univ i)
      (fun j => if InRole (h2cMsr j) role then 1 else 0)]
  omega

theorem operating_le (h2cMsr : Fin macidNumSwLimit → UInt8) (role : Fin h2cMsrRoleMax) :
    operating h2cMsr role ≤ macidNumSwLimit := by
  calc operating h2cMsr role ≤ ∑ _i : Fin macidNumSwLimit, 1 :=
        Finset.sum_le_sum fun j _ => by split <;> omega
    _ = macidNumSwLimit := by simp [Finset.card_univ]

theorem changeOpNum_opNum :
    (c.changeOpNum n f).2.opNum role = if n = role then f (c.opNum role) else c.opNum role := by
  unfold MsrCtl.changeOpNum
  by_cases h : n < h2cMsrRoleMax
  · rw [dif_pos h]
    by_cases hn : n = role
    · subst hn
      simp
    · have hne : role ≠ ⟨n, h⟩ := fun heq => hn (congrArg Fin.val heq).symm
      simp only [if_neg hn, Function.update_of_ne hne]
  · rw [dif_neg h, if_neg fun hn : n = role => h (hn ▸ role.isLt)]

theorem countChange_opNum :
    (c.countChange old msr).2.opNum role =
      if InRole old role ∧ msrOpmode msr = false then c.opNum role - 1
      else if msrOpmode old = false ∧ InRole msr role then c.opNum role + 1
      else c.opNum role := by
  unfold MsrCtl.countChange InRole
  by_cases hold : msrOpmode old = true <;> by_cases hmsr : msrOpmode msr = true <;>
    simp [hold, hmsr, changeOpNum_opNum]

theorem exact_role_iff (hexact : (c.opNum role).toNat = operating c.h2cMsr role) :
    ((c.countChange (c.h2cMsr i) msr).2.opNum role).toNat =
        operating (Function.update c.h2cMsr i msr) role ↔
      (msrOpmode (c.h2cMsr i) = true → msrOpmode msr = true →
        (InRole (c.h2cMsr i) role ↔ InRole msr role)) := by
  have hcount := @operating_update c.h2cMsr i msr role
  have hle := operating_le c.h2cMsr role
  have hlimit : macidNumSwLimit = 32 := rfl
  rw [countChange_opNum]
  by_cases hold : InRole (c.h2cMsr i) role <;> by_cases hmsr : InRole msr role
  · -- the role has the station before and after
    simp only [if_pos hold, if_pos hmsr] at hcount
    simp only [hold, hmsr, hold.1, hmsr.1, true_and, and_true, Bool.true_eq_false, if_false,
      iff_self, implies_true, iff_true]
    omega
  · simp only [if_pos hold, if_neg hmsr] at hcount
    simp only [hold, hmsr, hold.1, true_and, and_false, if_false, true_implies, true_iff]
    by_cases hop : msrOpmode msr = true
    · simp only [hop, Bool.true_eq_false, if_false, true_implies]
      exact iff_of_false (by omega) not_false
    · have hone : (1 : UInt8).toNat ≤ (c.opNum role).toNat := by
        have hone : (1 : UInt8).toNat = 1 := rfl
        omega
      have hfalse : msrOpmode msr = false := Bool.eq_false_iff.mpr hop
      simp only [hfalse, if_true, Bool.false_eq_true, false_implies, iff_true]
      rw [UInt8.toNat_sub_of_le _ _ hone]
      have hone' : (1 : UInt8).toNat = 1 := rfl
      omega
  · simp only [if_neg hold, if_pos hmsr] at hcount
    simp only [hold, hmsr, hmsr.1, false_and, and_true, if_false, true_implies, false_iff,
      not_true]
    by_cases hop : msrOpmode (c.h2cMsr i) = true
    · simp only [hop, Bool.true_eq_false, if_false, true_implies]
      exact iff_of_false (by omega) not_false
    · have hfalse : msrOpmode (c.h2cMsr i) = false := Bool.eq_false_iff.mpr hop
      simp only [hfalse, if_true, Bool.false_eq_true, false_implies, iff_true]
      rw [UInt8.toNat_add, Nat.mod_eq_of_lt] <;> have hone : (1 : UInt8).toNat = 1 := rfl <;> omega
  · simp only [if_neg hold, if_neg hmsr] at hcount
    simp only [hold, hmsr, false_and, and_false, if_false, iff_self, implies_true, iff_true]
    omega

/-- Two roles are the same for every count, or are not counted. -/
theorem role_iff {m n : ℕ} :
    (∀ role : Fin h2cMsrRoleMax, m = role ↔ n = role) ↔
      m = n ∨ (h2cMsrRoleMax ≤ m ∧ h2cMsrRoleMax ≤ n) := by
  constructor
  · intro h
    by_cases hm : m < h2cMsrRoleMax
    · exact .inl ((h ⟨m, hm⟩).mp rfl).symm
    · by_cases hn : n < h2cMsrRoleMax
      · exact .inl ((h ⟨n, hn⟩).mpr rfl)
      · exact .inr ⟨Nat.le_of_not_lt hm, Nat.le_of_not_lt hn⟩
  · rintro (rfl | ⟨hm, hn⟩) role
    · exact Iff.rfl
    · have hlt := role.isLt
      exact iff_of_false (by omega) (by omega)

/-- **One call** leaves the counts exact if and only if it keeps the role. -/
theorem opNumExact_step_iff (hexact : OpNumExact c) {e : UInt8 × UInt8}
    (hstep : msrStep c e = some c') : OpNumExact c' ↔ RoleKept c e := by
  obtain rfl := Option.some.inj hstep
  unfold rtwMacidCtlSetH2cMsr RoleKept
  by_cases hid : e.1.toNat < c.num
  · rw [dif_pos hid]
    show (∀ role, _ = _) ↔ _
    simp only [exact_role_iff (hexact _), hid, forall_true_left]
    rw [← role_iff]
    constructor
    · intro h hold hmsr role
      have hrole := h role hold hmsr
      unfold InRole at hrole
      simpa only [hold, hmsr, true_and] using hrole
    · intro h role hold hmsr
      unfold InRole
      simpa only [hold, hmsr, true_and] using h hold hmsr role
  · rw [dif_neg hid]
    exact iff_of_true hexact fun h => absurd h hid

/-- The table before the first call. -/
def msrStart (num : ℕ) (h : num ≤ macidNumSwLimit) : MsrCtl := { num := num, num_le := h }

theorem opNumExact_start (num : ℕ) (h : num ≤ macidNumSwLimit) : OpNumExact (msrStart num h) := by
  intro role
  have hno : ¬InRole 0 role := fun hrole => absurd hrole.1 (by decide)
  simp [operating, msrStart, hno]

/-- **The counts of the operating stations** are exact all along a run, from a table of zeros, if
and only if no call gives another counted role to a station that operates before and after it. -/
theorem opNum_iff (num : ℕ) (h : num ≤ macidNumSwLimit) (es : List (UInt8 × UInt8)) :
    (∀ es' t, es' <+: es → Transition.run msrStep (msrStart num h) es' = some t → OpNumExact t) ↔
      Transition.Meets msrStep RoleKept (msrStart num h) es := by
  have htotal : ∀ (es : List (UInt8 × UInt8)) c, ∃ t, Transition.run msrStep c es = some t := by
    intro es
    induction es with
    | nil => exact fun c => ⟨c, rfl⟩
    | cons e es ih => exact fun c => ih _
  obtain ⟨t, ht⟩ := htotal es (msrStart num h)
  refine Transition.forall_prefix_iff_meets (fun _ hc => hc) (fun c e c' hc hstep => ?_)
    (opNumExact_start num h) ht
  have hiff := opNumExact_step_iff hc hstep
  exact ⟨hiff, hiff.mpr⟩

/-- Two stations of an access point, one of which stops to operate. -/
theorem opNum_iff_stops :
    Transition.Meets msrStep RoleKept (msrStart 2 (by decide)) [(0, 0x21), (1, 0x21), (0, 0x20)] ∧
      ∀ es' t, es' <+: [((0 : UInt8), (0x21 : UInt8)), (1, 0x21), (0, 0x20)] →
        Transition.run msrStep (msrStart 2 (by decide)) es' = some t → OpNumExact t := by
  have hmeets : Transition.Meets msrStep RoleKept (msrStart 2 (by decide))
      [(0, 0x21), (1, 0x21), (0, 0x20)] := by decide +kernel
  exact ⟨hmeets, (opNum_iff 2 (by decide) [(0, 0x21), (1, 0x21), (0, 0x20)]).mpr hmeets⟩

/-- A station goes on operating, first as a station and then as an access point. -/
theorem not_opNumExact :
    ¬∀ (num : ℕ) (h : num ≤ macidNumSwLimit) (es : List (UInt8 × UInt8)) (t : MsrCtl),
      Transition.run msrStep (msrStart num h) es = some t → OpNumExact t := by
  intro h
  have hexact := h 1 (by decide) [(0, 0x11), (0, 0x21)] _ rfl ⟨1, by decide⟩
  exact absurd hexact (by decide +kernel)

end Rtl88x2eu.Sta
