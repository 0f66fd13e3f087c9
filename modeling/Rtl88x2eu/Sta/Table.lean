import Mathlib.Algebra.BigOperators.Group.Finset.Basic
import Mathlib.Algebra.BigOperators.Group.Finset.Piecewise
import Mathlib.Algebra.Order.BigOperators.Group.Finset
import Mathlib.Algebra.Order.Group.Multiset
import Mathlib.Data.Fintype.Card
import Mathlib.Tactic.Abel
import Rtl88x2eu.Lib.Custody
import Rtl88x2eu.Lib.Transition
import Rtl88x2eu.Recv.Attrib

/-!
# The station table

`rtw_sta_mgt.c` keeps a fixed number of `sta_info` slots. A free slot waits in a queue, the others
hang in a hash table by their addresses, and a counter counts these. When all stations are freed,
they are unlinked in one walk and freed one by one behind it, and freeing unlinks again.

The slots are resources: they are in the queue, in a bucket, or, between the two loops of
`rtw_free_all_stainfo`, in the hands of the function.

## Main definitions

* `StaTable`
* `rtwAllocStainfo`, `rtwFreeStainfo`, `rtwFreeAllStainfo`, `rtwGetStainfo`
* `slotLedger`, `Sound`: the custody of the slots
* `StationsSound`

## Main results

* `sound_rtwAllocStainfo`, `sound_rtwFreeStainfo`, `sound_rtwFreeAllStainfo`: the operations
* `stations_sound`: every run keeps the table sound, and the broadcast station stays until it is
  freed
-/

namespace Rtl88x2eu.Sta

/-! ## The table -/

def numSta : ℕ := 32

/-- The place of a `sta_info` in `pstainfo_buf`. -/
abbrev StaSlot := Fin numSta

def wifiMacHash (mac : MacAddr) : ℕ :=
  let x : UInt32 := mac.b0.toUInt32
  let x := (x <<< 2) ^^^ mac.b1.toUInt32
  let x := (x <<< 2) ^^^ mac.b2.toUInt32
  let x := (x <<< 2) ^^^ mac.b3.toUInt32
  let x := (x <<< 2) ^^^ mac.b4.toUInt32
  let x := (x <<< 2) ^^^ mac.b5.toUInt32
  let x := x ^^^ (x >>> 8)
  (x &&& 31).toNat

theorem wifiMacHash_lt (mac : MacAddr) : wifiMacHash mac < numSta := by
  rw [wifiMacHash, UInt32.toNat_and]
  exact Nat.lt_succ_of_le Nat.and_le_right

/-- The fields of `struct sta_priv` that say where the slots are, and `psta->cmn.mac_addr`. -/
structure StaTable where
  freeStaQueue : List StaSlot
  staHash : ℕ → List StaSlot
  asocStaCount : ℤ
  macAddr : StaSlot → MacAddr

namespace StaTable

def rtwInitStaPriv : StaTable where
  freeStaQueue := List.finRange numSta
  staHash _ := []
  asocStaCount := 0
  macAddr _ := .zero

def rtwGetStainfo (t : StaTable) (hwaddr : MacAddr) : Option StaSlot :=
  let addr := if hwaddr.isMcast then .bcast else hwaddr
  (t.staHash (wifiMacHash addr)).find? fun psta => t.macAddr psta = addr

def rtwGetBcmcStainfo (t : StaTable) : Option StaSlot := t.rtwGetStainfo .bcast

def rtwAllocStainfo (t : StaTable) (hwaddr : MacAddr) : StaTable × Option StaSlot :=
  match t.freeStaQueue with
  | [] => (t, none)
  | psta :: queue =>
    let t := { t with
      freeStaQueue := queue
      macAddr := Function.update t.macAddr psta hwaddr }
    let index := wifiMacHash hwaddr
    if index ≥ numSta then (t, none)
    else
      ({ t with
          staHash := Function.update t.staHash index (t.staHash index ++ [psta])
          asocStaCount := t.asocStaCount + 1 }, some psta)

/-- `rtw_list_delete(&psta->hash_list)`: the entry leaves the list that it is in, if any. -/
def unlink (t : StaTable) (psta : StaSlot) : StaTable :=
  { t with staHash := fun i => (t.staHash i).erase psta }

/-- `rtw_free_stainfo`; without stations of the pre-link kind, which are not compiled in -/
def rtwFreeStainfo (t : StaTable) (psta : StaSlot) : StaTable :=
  let t := t.unlink psta
  { t with
    asocStaCount := t.asocStaCount - 1
    freeStaQueue := t.freeStaQueue ++ [psta] }

/-- The walk over one bucket in `rtw_free_all_stainfo`. The next entry is read before an entry is
unlinked, so that the walk sees the bucket as it was. -/
def unlinkBucket (pbcmc : Option StaSlot) (t : StaTable × List StaSlot) (index : ℕ) :
    StaTable × List StaSlot :=
  (t.1.staHash index).foldl (fun t psta =>
    if pbcmc ≠ some psta then (t.1.unlink psta, t.2 ++ [psta]) else t) t

def rtwFreeAllStainfo (t : StaTable) : StaTable :=
  if t.asocStaCount = 1 then t
  else
    let unlinked := (List.range numSta).foldl (unlinkBucket t.rtwGetBcmcStainfo) (t, [])
    unlinked.2.foldl rtwFreeStainfo unlinked.1

/-- The station is in the bucket of its address. -/
def Hashed (t : StaTable) (psta : StaSlot) : Prop :=
  psta ∈ t.staHash (wifiMacHash (t.macAddr psta))

instance (t : StaTable) : DecidablePred t.Hashed :=
  fun psta => inferInstanceAs (Decidable (psta ∈ t.staHash _))

end StaTable

/-- What happens to the table. -/
inductive StaOp where
  | alloc (hwaddr : MacAddr)
  | free (psta : StaSlot)
  | freeAll

def staStep (t : StaTable) : StaOp → Option StaTable
  | .alloc hwaddr =>
    if t.rtwGetStainfo hwaddr = none then some (t.rtwAllocStainfo hwaddr).1 else none
  | .free psta => if t.Hashed psta then some (t.rtwFreeStainfo psta) else none
  | .freeAll => some t.rtwFreeAllStainfo

def StaTable.afterInit : StaTable := (StaTable.rtwInitStaPriv.rtwAllocStainfo .bcast).1

def bcmcSlot : StaSlot := ⟨0, by decide⟩

/-! ## The custody of the slots -/

namespace StaTable

def bucketed (t : StaTable) : Multiset StaSlot :=
  ∑ i ∈ Finset.range numSta, (t.staHash i : Multiset _)

def slotLedger : Ledger StaTable StaSlot where
  census t := t.freeStaQueue + t.bucketed
  surplus t := t.asocStaCount + t.freeStaQueue.length - numSta

variable {t t' : StaTable} {psta s : StaSlot} {i : ℕ} {hwaddr a : MacAddr}
  {hand : Multiset StaSlot}

theorem mem_bucketed : s ∈ t.bucketed ↔ ∃ i < numSta, s ∈ t.staHash i := by
  simp [bucketed, Multiset.mem_sum]

theorem bucketed_update (hi : i < numSta) (l : List StaSlot) (c : ℤ) (q : List StaSlot)
    (m : StaSlot → MacAddr) :
    (⟨q, Function.update t.staHash i l, c, m⟩ : StaTable).bucketed + (t.staHash i : Multiset _) =
      t.bucketed + (l : Multiset _) := by
  have hmem : i ∈ Finset.range numSta := Finset.mem_range.mpr hi
  have hupdate : (fun j => ((Function.update t.staHash i l j : List StaSlot) : Multiset StaSlot)) =
      Function.update (fun j => (t.staHash j : Multiset _)) i (l : Multiset _) := by
    funext j
    by_cases hj : j = i
    · subst hj
      rw [Function.update_self, Function.update_self]
    · rw [Function.update_of_ne hj, Function.update_of_ne hj]
  rw [bucketed, hupdate, Finset.sum_update_of_mem hmem, bucketed,
    Finset.sum_eq_add_sum_sdiff_singleton_of_mem hmem]
  abel

def LookedFor (a : MacAddr) : Prop := a.isMcast = false ∨ a = .bcast

/-- Every slot is in the queue, in the bucket of its address, or in hand, the counter is right, and
no two stations are found under one address. -/
structure Sound (t : StaTable) (hand : Multiset StaSlot) : Prop where
  census : slotLedger.census t + hand = (Finset.univ : Finset StaSlot).val
  surplus : slotLedger.surplus t = 0
  bucket : ∀ i s, s ∈ t.staHash i → i = wifiMacHash (t.macAddr s)
  unique : ∀ s s', t.Hashed s → t.Hashed s' → t.macAddr s = t.macAddr s' →
    LookedFor (t.macAddr s) → s = s'

theorem Sound.owned (h : Sound t hand) : slotLedger.Owned t hand :=
  ⟨h.census ▸ Finset.univ.nodup, h.surplus⟩

theorem Sound.of_moves {hand' : Multiset StaSlot} (h : Sound t hand)
    (hmoves : slotLedger.Moves t hand t' hand')
    (hbucket : ∀ i s, s ∈ t'.staHash i → i = wifiMacHash (t'.macAddr s))
    (hunique : ∀ s s', t'.Hashed s → t'.Hashed s' → t'.macAddr s = t'.macAddr s' →
      LookedFor (t'.macAddr s) → s = s') : Sound t' hand' :=
  ⟨hmoves.census.trans h.census, hmoves.surplus.trans h.surplus, hbucket, hunique⟩

theorem Sound.hashed_of_mem (h : Sound t hand) (hs : s ∈ t.staHash i) : t.Hashed s := by
  rw [Hashed, ← h.bucket i s hs]
  exact hs

theorem Sound.hashed_iff (h : Sound t hand) : t.Hashed s ↔ s ∈ t.bucketed := by
  rw [mem_bucketed]
  exact ⟨fun hs => ⟨_, wifiMacHash_lt _, hs⟩, fun ⟨_, _, hs⟩ => h.hashed_of_mem hs⟩

theorem Sound.nodup (h : Sound t hand) :
    ((t.freeStaQueue : Multiset StaSlot) + t.bucketed + hand).Nodup :=
  h.owned.nodup

theorem Sound.nodup_staHash (h : Sound t hand) (i : ℕ) : (t.staHash i).Nodup := by
  by_cases hi : i < numSta
  · have hle : (t.staHash i : Multiset StaSlot) ≤
        (t.freeStaQueue : Multiset StaSlot) + t.bucketed + hand := by
      have hmem := Finset.mem_range.mpr hi
      have hone : (t.staHash i : Multiset StaSlot) ≤ t.bucketed :=
        Finset.single_le_sum (f := fun j => (t.staHash j : Multiset StaSlot))
          (fun _ _ => zero_le) hmem
      exact hone.trans ((Multiset.le_add_left _ _).trans (Multiset.le_add_right _ _))
    exact Multiset.coe_nodup.mp (Multiset.nodup_of_le hle h.nodup)
  · have hempty : t.staHash i = [] := by
      refine List.eq_nil_iff_forall_not_mem.mpr fun s hs => hi ?_
      rw [h.bucket i s hs]
      exact wifiMacHash_lt _
    rw [hempty]
    exact List.nodup_nil

theorem Sound.staHash_unlink (h : Sound t hand) :
    (t.unlink psta).staHash = Function.update t.staHash (wifiMacHash (t.macAddr psta))
      ((t.staHash (wifiMacHash (t.macAddr psta))).erase psta) := by
  funext i
  by_cases hi : i = wifiMacHash (t.macAddr psta)
  · subst hi
    rw [Function.update_self]
    rfl
  · rw [Function.update_of_ne hi]
    exact List.erase_of_not_mem fun hmem => hi (h.bucket i psta hmem)

theorem Sound.hashed_unlink (h : Sound t hand) :
    (t.unlink psta).Hashed s ↔ s ≠ psta ∧ t.Hashed s :=
  (h.nodup_staHash _).mem_erase_iff

theorem Sound.unlink_of_moves {hand' : Multiset StaSlot} (h : Sound t hand)
    (hmoves : slotLedger.Moves t hand (t.unlink psta) hand') : Sound (t.unlink psta) hand' := by
  refine h.of_moves hmoves (fun i s hs => h.bucket i s (List.mem_of_mem_erase hs)) ?_
  intro s s' hs hs' heq haddr
  exact h.unique s s' (h.hashed_unlink.mp hs).2 (h.hashed_unlink.mp hs').2 heq haddr

/-- **A hashed station is taken into the hands.** -/
theorem Sound.unlink (h : Sound t hand) (hs : t.Hashed psta) :
    Sound (t.unlink psta) (psta ::ₘ hand) := by
  refine h.unlink_of_moves ⟨?_, rfl⟩
  have hbuckets := bucketed_update (t := t) (wifiMacHash_lt (t.macAddr psta))
    ((t.staHash (wifiMacHash (t.macAddr psta))).erase psta) t.asocStaCount t.freeStaQueue t.macAddr
  rw [← h.staHash_unlink] at hbuckets
  change (t.unlink psta).bucketed + _ = _ at hbuckets
  have hbucket : (t.staHash (wifiMacHash (t.macAddr psta)) : Multiset StaSlot) =
      psta ::ₘ ((t.staHash (wifiMacHash (t.macAddr psta))).erase psta : List StaSlot) :=
    Multiset.coe_eq_coe.mpr (List.perm_cons_erase hs)
  rw [hbucket, ← Multiset.singleton_add, ← add_assoc] at hbuckets
  have hbuckets' := add_right_cancel hbuckets
  show (t.freeStaQueue + (t.unlink psta).bucketed : Multiset StaSlot) + psta ::ₘ hand =
    t.freeStaQueue + t.bucketed + hand
  rw [← hbuckets', ← Multiset.singleton_add]
  abel

/-- **A station in hand is freed.** Unlinking it again does nothing. -/
theorem sound_rtwFreeStainfo (h : Sound t (psta ::ₘ hand)) :
    Sound (t.rtwFreeStainfo psta) hand := by
  have hnot : ∀ i, psta ∉ t.staHash i := by
    intro i hmem
    have hplaced : psta ∈ slotLedger.census t :=
      Multiset.mem_add.mpr (.inr (h.hashed_iff.mp (h.hashed_of_mem hmem)))
    exact h.owned.notMem hplaced
  have hsame : t.unlink psta = t := by
    have hhash : (t.unlink psta).staHash = t.staHash :=
      funext fun i => List.erase_of_not_mem (hnot i)
    cases t
    exact congrArg (fun hash => StaTable.mk _ hash _ _) hhash
  rw [StaTable.rtwFreeStainfo, hsame]
  refine h.of_moves ⟨?_, ?_⟩ h.bucket h.unique
  · show ((t.freeStaQueue ++ [psta] : List StaSlot) : Multiset StaSlot) + t.bucketed + hand =
      t.freeStaQueue + t.bucketed + psta ::ₘ hand
    rw [← Multiset.coe_add, ← Multiset.singleton_add, Multiset.coe_singleton]
    abel
  · show t.asocStaCount - 1 + ((t.freeStaQueue ++ [psta]).length : ℤ) - numSta =
      t.asocStaCount + t.freeStaQueue.length - numSta
    rw [List.length_append, List.length_singleton]
    omega

theorem Sound.rtwFreeStainfo (h : Sound t hand) (hs : t.Hashed psta) :
    Sound (t.rtwFreeStainfo psta) hand := by
  have htwice : t.rtwFreeStainfo psta = (t.unlink psta).rtwFreeStainfo psta := by
    have hunlink : (t.unlink psta).unlink psta = t.unlink psta := by
      have hhash : ((t.unlink psta).unlink psta).staHash = (t.unlink psta).staHash := by
        funext i
        exact List.erase_of_not_mem ((h.nodup_staHash i).not_mem_erase)
      exact congrArg (fun hash => StaTable.mk t.freeStaQueue hash t.asocStaCount t.macAddr) hhash
    rw [StaTable.rtwFreeStainfo, StaTable.rtwFreeStainfo, hunlink]
  rw [htwice]
  exact sound_rtwFreeStainfo (h.unlink hs)

/-- The address that `rtw_get_stainfo` looks for. -/
def soughtAddr (hwaddr : MacAddr) : MacAddr := if hwaddr.isMcast then .bcast else hwaddr

theorem lookedFor_soughtAddr (hwaddr : MacAddr) : LookedFor (soughtAddr hwaddr) := by
  rw [soughtAddr]
  by_cases hmcast : hwaddr.isMcast = true
  · rw [if_pos hmcast]
    exact .inr rfl
  · rw [if_neg hmcast]
    exact .inl (Bool.eq_false_iff.mpr hmcast)

theorem soughtAddr_of_lookedFor (ha : LookedFor a) : soughtAddr a = a := by
  rcases ha with ha | rfl
  · simp [soughtAddr, ha]
  · rfl

theorem rtwGetStainfo_eq : t.rtwGetStainfo hwaddr =
    (t.staHash (wifiMacHash (soughtAddr hwaddr))).find?
      fun psta => t.macAddr psta = soughtAddr hwaddr := rfl

/-- **A search finds the station with the address that it looks for.** -/
theorem Sound.rtwGetStainfo_eq_some (h : Sound t hand) :
    t.rtwGetStainfo hwaddr = some s ↔ t.Hashed s ∧ t.macAddr s = soughtAddr hwaddr := by
  rw [rtwGetStainfo_eq]
  constructor
  · intro hfound
    have haddr : t.macAddr s = soughtAddr hwaddr := by simpa using List.find?_some hfound
    exact ⟨h.hashed_of_mem (List.mem_of_find?_eq_some hfound), haddr⟩
  · rintro ⟨hs, haddr⟩
    have hmem : s ∈ t.staHash (wifiMacHash (soughtAddr hwaddr)) := haddr ▸ hs
    obtain ⟨s', hs'⟩ := Option.isSome_iff_exists.mp
      (List.find?_isSome (p := fun psta => t.macAddr psta = soughtAddr hwaddr).mpr
        ⟨s, hmem, decide_eq_true haddr⟩)
    have haddr' : t.macAddr s' = soughtAddr hwaddr := by simpa using List.find?_some hs'
    have hhashed' := h.hashed_of_mem (List.mem_of_find?_eq_some hs')
    have heq := h.unique s s' hs hhashed' (haddr.trans haddr'.symm)
      (haddr ▸ lookedFor_soughtAddr hwaddr)
    rw [hs', heq]

/-- **A free slot goes into the bucket of an address that was not found.** -/
theorem sound_rtwAllocStainfo (h : Sound t 0) (hnew : t.rtwGetStainfo hwaddr = none) :
    Sound (t.rtwAllocStainfo hwaddr).1 0 := by
  rw [StaTable.rtwAllocStainfo]
  cases hfree : t.freeStaQueue with
  | nil => exact h
  | cons psta queue =>
    have hindex : ¬ wifiMacHash hwaddr ≥ numSta := not_le.mpr (wifiMacHash_lt hwaddr)
    dsimp only
    rw [if_neg hindex]
    have hnot : ¬ t.Hashed psta := by
      intro hhashed
      have hdisjoint := (Multiset.nodup_add.mp (Multiset.nodup_add.mp h.nodup).1).2.2
      exact Multiset.disjoint_left.mp hdisjoint (by simp [hfree]) (h.hashed_iff.mp hhashed)
    have haddr : ∀ s, s ≠ psta → Function.update t.macAddr psta hwaddr s = t.macAddr s :=
      fun s hs => Function.update_of_ne hs ..
    have hmem : ∀ i s, s ∈ Function.update t.staHash (wifiMacHash hwaddr)
        (t.staHash (wifiMacHash hwaddr) ++ [psta]) i ↔
          s ∈ t.staHash i ∨ i = wifiMacHash hwaddr ∧ s = psta := by
      intro i s
      by_cases hi : i = wifiMacHash hwaddr
      · subst hi
        simp
      · simp [hi]
    have hold : ∀ i s, s ∈ t.staHash i → s ≠ psta := by
      rintro i s hs rfl
      exact hnot (h.hashed_of_mem hs)
    set t' : StaTable := ⟨queue, Function.update t.staHash (wifiMacHash hwaddr)
      (t.staHash (wifiMacHash hwaddr) ++ [psta]), t.asocStaCount + 1,
      Function.update t.macAddr psta hwaddr⟩
    have hhashed : ∀ s, t'.Hashed s ↔ t.Hashed s ∨ s = psta := by
      intro s
      refine (hmem _ s).trans ?_
      by_cases hs : s = psta
      · subst hs
        simp [t']
      · simp only [hs, and_false, or_false]
        show s ∈ t.staHash (wifiMacHash (Function.update t.macAddr psta hwaddr s)) ↔ _
        rw [haddr s hs]
        rfl
    -- two stations of one address: if one of them is new, the other would have been found
    have hnone : ∀ s, t.Hashed s → t.macAddr s = hwaddr → LookedFor hwaddr → False := by
      intro s hs heq hlooked
      have hfound := h.rtwGetStainfo_eq_some.mpr
        ⟨hs, heq.trans (soughtAddr_of_lookedFor hlooked).symm⟩
      exact Option.some_ne_none s (hfound.symm.trans hnew)
    refine h.of_moves ⟨?_, ?_⟩ (fun i s hs => ?_) fun s s' hs hs' heq hlooked => ?_
    · have hbuckets := bucketed_update (t := t) (wifiMacHash_lt hwaddr)
        (t.staHash (wifiMacHash hwaddr) ++ [psta]) (t.asocStaCount + 1) queue
        (Function.update t.macAddr psta hwaddr)
      rw [← Multiset.coe_add, add_left_comm, add_comm _ (t.staHash _ : Multiset StaSlot)]
        at hbuckets
      have hbuckets' : t'.bucketed = t.bucketed + {psta} := add_left_cancel hbuckets
      show (queue : Multiset StaSlot) + t'.bucketed + 0 =
        (t.freeStaQueue : Multiset StaSlot) + t.bucketed + 0
      rw [hbuckets', hfree, ← Multiset.cons_coe, ← Multiset.singleton_add]
      abel
    · show t.asocStaCount + 1 + (queue.length : ℤ) - numSta =
        t.asocStaCount + (t.freeStaQueue.length : ℤ) - numSta
      rw [hfree, List.length_cons]
      omega
    · show i = wifiMacHash (Function.update t.macAddr psta hwaddr s)
      rcases (hmem i s).mp hs with hs | ⟨rfl, rfl⟩
      · rw [haddr s (hold i s hs)]
        exact h.bucket i s hs
      · rw [Function.update_self]
    · change Function.update t.macAddr psta hwaddr s = Function.update t.macAddr psta hwaddr s'
        at heq
      change LookedFor (Function.update t.macAddr psta hwaddr s) at hlooked
      by_cases hsp : s = psta
      · by_cases hsp' : s' = psta
        · rw [hsp, hsp']
        · subst hsp
          rw [Function.update_self] at heq hlooked
          rw [haddr s' hsp'] at heq
          exact (hnone s' (((hhashed s').mp hs').resolve_right hsp') heq.symm hlooked).elim
      · rw [haddr s hsp] at heq hlooked
        have hthere := ((hhashed s).mp hs).resolve_right hsp
        by_cases hsp' : s' = psta
        · subst hsp'
          rw [Function.update_self] at heq
          exact (hnone s hthere heq (heq ▸ hlooked)).elim
        · rw [haddr s' hsp'] at heq
          exact h.unique s s' hthere (((hhashed s').mp hs').resolve_right hsp') heq hlooked

theorem sound_foldl_unlink (pbcmc : Option StaSlot) {bucket list : List StaSlot}
    (h : Sound t (list : Multiset StaSlot)) (hbucket : ∀ s ∈ bucket, t.Hashed s)
    (hnodup : bucket.Nodup) :
    ∃ t' list', bucket.foldl (fun t psta =>
        if pbcmc ≠ some psta then (t.1.unlink psta, t.2 ++ [psta]) else t) (t, list) =
          (t', list') ∧ Sound t' (list' : Multiset StaSlot) ∧ t'.macAddr = t.macAddr ∧
      ∀ s, t'.Hashed s ↔ t.Hashed s ∧ (s ∈ bucket → pbcmc = some s) := by
  induction bucket generalizing t list with
  | nil => exact ⟨t, list, rfl, h, rfl, fun s => by simp⟩
  | cons psta bucket ih =>
    obtain ⟨hnot, hnodup⟩ := List.nodup_cons.mp hnodup
    rw [List.foldl_cons]
    by_cases hkeep : pbcmc = some psta
    · rw [if_neg (not_not.mpr hkeep)]
      obtain ⟨t', list', hres, hsound, haddr, hhashed⟩ :=
        ih h (fun s hs => hbucket s (List.mem_cons_of_mem _ hs)) hnodup
      refine ⟨t', list', hres, hsound, haddr, fun s => (hhashed s).trans ?_⟩
      refine and_congr_right fun _ => ⟨fun hrest hs => ?_, fun hall hs => ?_⟩
      · rcases List.mem_cons.mp hs with rfl | hs
        · exact hkeep
        · exact hrest hs
      · exact hall (List.mem_cons_of_mem _ hs)
    · rw [if_pos hkeep]
      have hone := h.unlink (hbucket psta List.mem_cons_self)
      have hhand : psta ::ₘ (list : Multiset StaSlot) =
          ((list ++ [psta] : List StaSlot) : Multiset _) :=
        Multiset.coe_eq_coe.mpr (List.perm_append_singleton psta list).symm
      rw [hhand] at hone
      obtain ⟨t', list', hres, hsound, haddr, hhashed⟩ := ih hone (fun s hs => by
        refine h.hashed_unlink.mpr ⟨?_, hbucket s (List.mem_cons_of_mem _ hs)⟩
        rintro rfl
        exact hnot hs) hnodup
      refine ⟨t', list', hres, hsound, haddr, fun s => (hhashed s).trans ?_⟩
      rw [h.hashed_unlink]
      constructor
      · rintro ⟨⟨hne, hs⟩, hrest⟩
        exact ⟨hs, fun hmem => hrest ((List.mem_cons.mp hmem).resolve_left hne)⟩
      · rintro ⟨hs, hall⟩
        refine ⟨⟨?_, hs⟩, fun hmem => hall (List.mem_cons_of_mem _ hmem)⟩
        rintro rfl
        exact hkeep (hall List.mem_cons_self)

theorem sound_foldl_unlinkBucket (pbcmc : Option StaSlot) {indices : List ℕ} {list : List StaSlot}
    (h : Sound t (list : Multiset StaSlot)) :
    ∃ t' list', indices.foldl (unlinkBucket pbcmc) (t, list) = (t', list') ∧
      Sound t' (list' : Multiset StaSlot) ∧ t'.macAddr = t.macAddr ∧
      ∀ s, t'.Hashed s ↔
        t.Hashed s ∧ (wifiMacHash (t.macAddr s) ∈ indices → pbcmc = some s) := by
  induction indices generalizing t list with
  | nil => exact ⟨t, list, rfl, h, rfl, fun s => by simp⟩
  | cons index indices ih =>
    obtain ⟨u, list', hres, hsound, haddr, hhashed⟩ := sound_foldl_unlink pbcmc h
      (fun s hs => h.hashed_of_mem hs) (h.nodup_staHash index)
    obtain ⟨t', list'', hres', hsound', haddr', hhashed'⟩ := ih hsound
    have hstep : unlinkBucket pbcmc (t, list) index = (u, list') := hres
    refine ⟨t', list'', ?_, hsound', haddr'.trans haddr, fun s => (hhashed' s).trans ?_⟩
    · rw [List.foldl_cons, hstep]
      exact hres'
    · rw [hhashed, haddr, and_assoc]
      refine and_congr_right fun hs => ?_
      have hbucket : s ∈ t.staHash index ↔ wifiMacHash (t.macAddr s) = index :=
        ⟨fun hmem => (h.bucket index s hmem).symm, fun heq => heq ▸ hs⟩
      rw [hbucket, List.mem_cons, or_imp]

/-- The loop that frees what is in hand. -/
theorem sound_foldl_rtwFreeStainfo {list : List StaSlot} (h : Sound t (list : Multiset StaSlot)) :
    Sound (list.foldl StaTable.rtwFreeStainfo t) 0 ∧
      (list.foldl StaTable.rtwFreeStainfo t).macAddr = t.macAddr ∧
      ∀ s, (list.foldl StaTable.rtwFreeStainfo t).Hashed s ↔ t.Hashed s := by
  induction list generalizing t with
  | nil => exact ⟨h, rfl, fun _ => Iff.rfl⟩
  | cons psta list ih =>
    have hhand : ((psta :: list : List StaSlot) : Multiset StaSlot) = psta ::ₘ list := rfl
    rw [hhand] at h
    obtain ⟨hsound, haddr, hhashed⟩ := ih (sound_rtwFreeStainfo h)
    refine ⟨hsound, haddr, fun s => (hhashed s).trans (h.hashed_unlink.trans ?_)⟩
    refine and_iff_right_of_imp ?_
    rintro hs rfl
    exact h.owned.notMem (Multiset.mem_add.mpr (.inr (h.hashed_iff.mp hs)))

theorem Sound.asocStaCount_eq (h : Sound t 0) : t.asocStaCount = t.bucketed.card := by
  have hcard := congrArg Multiset.card h.census
  have hall : (Finset.univ : Finset StaSlot).val.card = 32 := rfl
  rw [hall, add_zero] at hcard
  change Multiset.card ((t.freeStaQueue : Multiset StaSlot) + t.bucketed) = 32 at hcard
  rw [Multiset.card_add, Multiset.coe_card] at hcard
  have hsurplus : t.asocStaCount + (t.freeStaQueue.length : ℤ) - (32 : ℕ) = 0 := h.surplus
  omega

/-- **Only the broadcast station is left when all stations are freed.** -/
theorem sound_rtwFreeAllStainfo (h : Sound t 0) :
    Sound t.rtwFreeAllStainfo 0 ∧ t.rtwFreeAllStainfo.macAddr = t.macAddr ∧
      ∀ b, t.rtwGetBcmcStainfo = some b → ∀ s, t.rtwFreeAllStainfo.Hashed s ↔ s = b := by
  rw [StaTable.rtwFreeAllStainfo]
  by_cases hone : t.asocStaCount = 1
  · rw [if_pos hone]
    refine ⟨h, rfl, fun b hb s => ?_⟩
    have hcard : t.bucketed.card = 1 := by
      have hcount := h.asocStaCount_eq
      omega
    obtain ⟨c, hc⟩ := Multiset.card_eq_one.mp hcard
    have hbmem := h.hashed_iff.mp (h.rtwGetStainfo_eq_some.mp hb).1
    rw [hc, Multiset.mem_singleton] at hbmem
    rw [h.hashed_iff, hc, Multiset.mem_singleton, hbmem]
  · rw [if_neg hone]
    obtain ⟨u, list, hres, hsound, haddr, hhashed⟩ :=
      @sound_foldl_unlinkBucket t t.rtwGetBcmcStainfo (List.range numSta) [] h
    rw [hres]
    obtain ⟨hsound', haddr', hhashed'⟩ := sound_foldl_rtwFreeStainfo hsound
    refine ⟨hsound', haddr'.trans haddr, fun b hb s => ?_⟩
    rw [hhashed', hhashed, hb]
    have hin : wifiMacHash (t.macAddr s) ∈ List.range numSta :=
      List.mem_range.mpr (wifiMacHash_lt _)
    constructor
    · rintro ⟨-, hkept⟩
      exact (Option.some.inj (hkept hin)).symm
    · rintro rfl
      exact ⟨(h.rtwGetStainfo_eq_some.mp hb).1, fun _ => rfl⟩

end StaTable

/-! ## The table over runs -/

open StaTable

/-- What is asked of the table. -/
structure StationsSound (t : StaTable) : Prop where
  once : ∀ s, s ∈ t.freeStaQueue ∧ (∀ i, s ∉ t.staHash i) ∨
    s ∉ t.freeStaQueue ∧ ∀ i, s ∈ t.staHash i ↔ i = wifiMacHash (t.macAddr s)
  nodup : t.freeStaQueue.Nodup ∧ ∀ i, (t.staHash i).Nodup
  count : t.asocStaCount = (Finset.univ.filter t.Hashed).card
  unicast : ∀ a, a.isMcast = false → ∀ s,
    t.rtwGetStainfo a = some s ↔ t.Hashed s ∧ t.macAddr s = a
  multicast : ∀ a, a.isMcast = true → ∀ s,
    t.rtwGetStainfo a = some s ↔ t.Hashed s ∧ t.macAddr s = .bcast
  freeAll : ∀ b, t.Hashed b → t.macAddr b = .bcast →
    ∀ s, t.rtwFreeAllStainfo.Hashed s ↔ s = b

section Runs

variable {t t' : StaTable} {e : StaOp} {es : List StaOp}

/-- **A table in whose custody all slots are is sound.** -/
theorem StaTable.Sound.stationsSound (h : Sound t 0) : StationsSound t := by
  have hnodup : ((t.freeStaQueue : Multiset StaSlot) + t.bucketed).Nodup :=
    (Multiset.nodup_add.mp h.nodup).1
  obtain ⟨hfree, hbuckets, hdisjoint⟩ := Multiset.nodup_add.mp hnodup
  have hall : ∀ s, s ∈ t.freeStaQueue ∨ s ∈ t.bucketed := by
    intro s
    have hs : s ∈ slotLedger.census t + 0 := h.census ▸ Finset.mem_univ s
    rw [add_zero] at hs
    exact Multiset.mem_add.mp hs
  refine ⟨fun s => ?_, ⟨Multiset.coe_nodup.mp hfree, h.nodup_staHash⟩, ?_, fun a ha s => ?_,
    fun a ha s => ?_, fun b hb haddr => ?_⟩
  · rcases hall s with hs | hs
    · refine .inl ⟨hs, fun i hi => ?_⟩
      exact Multiset.disjoint_left.mp hdisjoint hs (h.hashed_iff.mp (h.hashed_of_mem hi))
    · refine .inr ⟨fun hq => Multiset.disjoint_left.mp hdisjoint hq hs, fun i => ?_⟩
      exact ⟨h.bucket i s, fun hi => hi ▸ h.hashed_iff.mpr hs⟩
  · have hset : Finset.univ.filter t.Hashed = t.bucketed.toFinset := by
      ext s
      simp [h.hashed_iff]
    rw [h.asocStaCount_eq, hset, Multiset.toFinset_card_of_nodup hbuckets]
  · rw [h.rtwGetStainfo_eq_some, soughtAddr, ha]
    rfl
  · rw [h.rtwGetStainfo_eq_some, soughtAddr, ha]
    rfl
  · exact (sound_rtwFreeAllStainfo h).2.2 b (h.rtwGetStainfo_eq_some.mpr ⟨hb, haddr⟩)

theorem sound_afterInit : Sound afterInit 0 := by
  have hempty : Sound rtwInitStaPriv 0 := by
    refine ⟨?_, by decide, by simp [rtwInitStaPriv], by simp [rtwInitStaPriv, StaTable.Hashed]⟩
    have hnone : rtwInitStaPriv.bucketed = 0 := by simp [bucketed, rtwInitStaPriv]
    show (List.finRange numSta : Multiset StaSlot) + rtwInitStaPriv.bucketed + 0 = _
    rw [hnone, add_zero, add_zero]
    rfl
  exact sound_rtwAllocStainfo hempty rfl

/-- **Every step keeps the slots in custody.** -/
theorem sound_staStep (h : Sound t 0) (hstep : staStep t e = some t') : Sound t' 0 := by
  cases e with
  | alloc hwaddr =>
    by_cases hnew : t.rtwGetStainfo hwaddr = none
    · rw [staStep, if_pos hnew] at hstep
      exact Option.some.inj hstep ▸ sound_rtwAllocStainfo h hnew
    · rw [staStep, if_neg hnew] at hstep
      cases hstep
  | free psta =>
    by_cases hs : t.Hashed psta
    · rw [staStep, if_pos hs] at hstep
      exact Option.some.inj hstep ▸ h.rtwFreeStainfo hs
    · rw [staStep, if_neg hs] at hstep
      cases hstep
  | freeAll => exact Option.some.inj hstep ▸ (sound_rtwFreeAllStainfo h).1

theorem hashed_rtwAllocStainfo (h : Sound t 0) {s : StaSlot} (hs : t.Hashed s) (hwaddr : MacAddr) :
    (t.rtwAllocStainfo hwaddr).1.Hashed s ∧
      (t.rtwAllocStainfo hwaddr).1.macAddr s = t.macAddr s := by
  rw [StaTable.rtwAllocStainfo]
  cases hfree : t.freeStaQueue with
  | nil => exact ⟨hs, rfl⟩
  | cons psta queue =>
    have hindex : ¬ wifiMacHash hwaddr ≥ numSta := not_le.mpr (wifiMacHash_lt hwaddr)
    dsimp only
    rw [if_neg hindex]
    have hne : s ≠ psta := by
      rintro rfl
      have hdisjoint := (Multiset.nodup_add.mp (Multiset.nodup_add.mp h.nodup).1).2.2
      exact Multiset.disjoint_left.mp hdisjoint (by simp [hfree]) (h.hashed_iff.mp hs)
    have haddr : Function.update t.macAddr psta hwaddr s = t.macAddr s :=
      Function.update_of_ne hne ..
    refine ⟨?_, haddr⟩
    show s ∈ Function.update t.staHash (wifiMacHash hwaddr)
      (t.staHash (wifiMacHash hwaddr) ++ [psta])
        (wifiMacHash (Function.update t.macAddr psta hwaddr s))
    rw [haddr]
    by_cases hi : wifiMacHash (t.macAddr s) = wifiMacHash hwaddr
    · rw [hi, Function.update_self]
      exact List.mem_append_left _ (hi ▸ hs)
    · rw [Function.update_of_ne hi]
      exact hs

/-- The station `b` is the broadcast station. -/
def IsBcmc (t : StaTable) (b : StaSlot) : Prop := t.Hashed b ∧ t.macAddr b = .bcast

/-- The broadcast station stays as long as it is not freed by name. -/
theorem isBcmc_staStep {b : StaSlot} (h : Sound t 0) (hb : IsBcmc t b) (he : e ≠ .free b)
    (hstep : staStep t e = some t') : IsBcmc t' b := by
  obtain ⟨hs, haddr⟩ := hb
  cases e with
  | alloc hwaddr =>
    by_cases hnew : t.rtwGetStainfo hwaddr = none
    · rw [staStep, if_pos hnew] at hstep
      obtain rfl := Option.some.inj hstep
      obtain ⟨hs', haddr'⟩ := hashed_rtwAllocStainfo h hs hwaddr
      exact ⟨hs', haddr'.trans haddr⟩
    · rw [staStep, if_neg hnew] at hstep
      cases hstep
  | free psta =>
    by_cases hpsta : t.Hashed psta
    · rw [staStep, if_pos hpsta] at hstep
      obtain rfl := Option.some.inj hstep
      have hne : b ≠ psta := fun heq => he (heq ▸ rfl)
      exact ⟨h.hashed_unlink.mpr ⟨hne, hs⟩, haddr⟩
    · rw [staStep, if_neg hpsta] at hstep
      cases hstep
  | freeAll =>
    obtain rfl := Option.some.inj hstep
    obtain ⟨-, haddr', hleft⟩ := sound_rtwFreeAllStainfo h
    have hfound : t.rtwGetBcmcStainfo = some b := h.rtwGetStainfo_eq_some.mpr ⟨hs, haddr⟩
    exact ⟨(hleft b hfound b).mpr rfl, (congrFun haddr' b).trans haddr⟩

/-- **The table is sound over every run, and the broadcast station of the start is the one that
every multicast address yields until it is freed itself.** -/
theorem stations_sound (hrun : Transition.run staStep afterInit es = some t) :
    StationsSound t ∧ ((∀ e ∈ es, e ≠ .free bcmcSlot) →
      ∀ a : MacAddr, a.isMcast = true → t.rtwGetStainfo a = some bcmcSlot) := by
  have hinv : ∀ t e t', Sound t 0 → staStep t e = some t' → Sound t' 0 :=
    fun _ _ _ => sound_staStep
  have hsound := @Transition.run_invariant _ _ staStep (fun t => Sound t 0) _ _ _ hinv
    sound_afterInit hrun
  refine ⟨hsound.stationsSound, fun hkept a ha => ?_⟩
  have hstep : ∀ t e t', (Sound t 0 ∧ IsBcmc t bcmcSlot) → e ≠ .free bcmcSlot →
      staStep t e = some t' → Sound t' 0 ∧ IsBcmc t' bcmcSlot :=
    fun t e t' h he hstep => ⟨sound_staStep h.1 hstep, isBcmc_staStep h.1 h.2 he hstep⟩
  have hstart : Sound afterInit 0 ∧ IsBcmc afterInit bcmcSlot := ⟨sound_afterInit, by decide, rfl⟩
  have hend := Transition.run_invariant_of_meets hstep hstart
    (Transition.meets_of_forall_mem hkept afterInit) hrun
  exact (hsound.stationsSound.multicast a ha bcmcSlot).mpr hend.2

def twoStations : List StaOp :=
  [.alloc ⟨2, 0, 0, 0, 0, 1⟩, .alloc ⟨2, 0, 0, 0, 0, 2⟩, .free ⟨1, by decide⟩, .freeAll]

/-- Only the broadcast station is left of them. -/
theorem stations_sound_twoStations :
    ∃ t, Transition.run staStep afterInit twoStations = some t ∧ t.asocStaCount = 1 ∧
      StationsSound t ∧ ((∀ e ∈ twoStations, e ≠ .free bcmcSlot) →
        ∀ a : MacAddr, a.isMcast = true → t.rtwGetStainfo a = some bcmcSlot) := by
  have hcount :
      (Transition.run staStep afterInit twoStations).map StaTable.asocStaCount = some 1 := by decide
  obtain ⟨t, hrun, hcount⟩ := Option.map_eq_some_iff.mp hcount
  exact ⟨t, hrun, hcount, stations_sound hrun⟩

/-- **Once the broadcast station has been freed, a multicast address yields no station.** -/
theorem not_multicast_found :
    ∃ t, Transition.run staStep afterInit [.free bcmcSlot] = some t ∧
      MacAddr.bcast.isMcast = true ∧ t.rtwGetStainfo .bcast = none := by
  have hnone : (Transition.run staStep afterInit [.free bcmcSlot]).map
      (fun t => t.rtwGetStainfo .bcast) = some none := by decide
  obtain ⟨t, hrun, hnone⟩ := Option.map_eq_some_iff.mp hnone
  exact ⟨t, hrun, by decide, hnone⟩

end Runs

end Rtl88x2eu.Sta
