import Rtl88x2eu.Cam.Slots
import Rtl88x2eu.Lib.Tenancy
import Rtl88x2eu.Lib.Transition
import Mathlib.Data.Finset.Card

/-!
# Who holds a slot

A key holds one slot or, with a key of 256 bits, two. The search that reuses the entry of a key
trusts the driver's copy of the entries, and the first-fit search trusts the bitmap; with both in
order no slot gets a second holder. Three operations do not look at all: a key that is set again
with a cipher of the other width takes the slot behind its own whatever is there, the broadcast
station of an AP does the same behind the first free slot, and a swap does not tell the broadcast
station that its slot moved.

## Main definitions

* `SlotsOwned`, `Event.Ok`

## Main results

* `setKey_inv`, `clearKeys_inv`, `swap_inv`, `allocMacid_inv`, `releaseMacid_inv`: the operations
* `slotsOwned_of_run`: the runs whose operations all meet the condition
* `not_slotsOwned_rekey`: a key that is set again with 256 bits takes its neighbour's slot
-/

namespace Rtl88x2eu.Cam

open Tenancy Transition Dvobj

variable {s s' : Dvobj} {addr : MacAddr} {kid : ℕ} {gk spp : Bool} {algorithm : UInt8} {k : Key}
  {i a b : ℕ}

def Dvobj.bcSlots (s : Dvobj) : Finset ℕ :=
  if s.ifaceBmc = invalidCamId then ∅ else keySlots s.ifaceBmc s.chkExtraSec

def Dvobj.slots (s : Dvobj) : Option Key → Finset ℕ
  | some k => s.held k
  | none => s.bcSlots

theorem bcSlots_subset : s.bcSlots ⊆ keySlots s.ifaceBmc s.chkExtraSec := by
  unfold bcSlots
  split
  · exact Finset.empty_subset _
  · exact Finset.Subset.refl _

/-- **The slots of distinct holders are disjoint, all below `num` and all marked.** -/
def SlotsOwned (s : Dvobj) : Prop :=
  Kept s.slots fun i => i < s.num ∧ s.used.isSet i = true

structure Caches (ent : SecCamEnt) (k : Key) : Prop where
  mac : ent.mac = k.addr
  kid : (ent.ctrl &&& 0x03).toNat = k.kid
  gk : (ent.ctrl &&& 0x40 != 0) = k.gk

structure Inv (s : Dvobj) : Prop where
  keys : Kept s.held fun i => i < s.num ∧ s.used.isSet i = true
  bc : ∀ i ∈ s.bcSlots, (i < s.num ∧ s.used.isSet i = true) ∧ ∀ k, i ∉ s.held k
  cached : ∀ k, ∀ i ∈ s.held k, Caches (s.camCache i) k
  num : s.num ≤ 32

theorem Inv.slotsOwned (h : Inv s) : SlotsOwned s := kept_option.mpr ⟨h.keys, h.bc⟩

theorem isUsed_eq : s.isUsed i = (decide (i < s.num) && s.used.isSet i) := by
  unfold isUsed
  by_cases hi : i < s.num
  · rw [if_neg (Nat.not_le.mpr hi), decide_eq_true hi, Bool.true_and]
  · rw [if_pos (Nat.not_lt.mp hi), decide_eq_false hi, Bool.false_and]

theorem Inv.isUsed_of_mem (h : Inv s) (hi : i ∈ s.held k) : s.isUsed i = true := by
  obtain ⟨hlt, hused⟩ := h.keys.good k i hi
  rw [isUsed_eq, hused, decide_eq_true hlt]
  rfl

theorem Inv.camCacheChk_iff (h : Inv s) (hi : i ∈ s.held k) {kid : Option ℕ} {gk : Option Bool} :
    s.camCacheChk i addr kid gk = true ↔ Named k addr kid gk := by
  obtain ⟨hmac, hkid, hgk⟩ := h.cached k i hi
  have hisGk : s.isGk i = k.gk := by
    unfold isGk
    rw [if_neg (Nat.not_le.mpr (h.keys.good k i hi).1), if_neg (by simp [h.isUsed_of_mem hi]), hgk]
  unfold camCacheChk Named
  rw [hmac, hkid, hisGk]
  simp [and_assoc, Option.all_eq_true]

theorem rtwCamidSearch_some {kid : Option ℕ} {gk : Option Bool}
    (h : s.rtwCamidSearch addr kid gk = some i) :
    i < s.num ∧ s.camCacheChk i addr kid gk = true := by
  have hchk := List.find?_some (p := fun i => s.camCacheChk i addr kid gk) h
  exact ⟨List.mem_range.mp (List.mem_of_find?_eq_some h), hchk⟩

theorem rtwGetCamid_cases {extSec : Bool} (h : s.rtwGetCamid addr kid gk extSec = some i) :
    s.reused addr kid gk = some i ∨
      i < s.num ∧ s.isUsed i = false ∧
        (extSec = true → i + 1 < s.num ∧ s.isUsed (i + 1) = false) := by
  unfold rtwGetCamid at h
  rcases hreused : s.reused addr kid gk with _ | j
  · rw [hreused] at h
    have hfound := List.find?_some h
    refine .inr ⟨List.mem_range.mp (List.mem_of_find?_eq_some h), ?_⟩
    rcases extSec with _ | _
    · simpa using hfound
    · simpa using hfound
  · rw [hreused] at h
    exact .inl h

theorem mem_keySlots {camId : ℕ} {ext : Bool} :
    i ∈ keySlots camId ext ↔ i = camId ∨ ext = true ∧ i = camId + 1 := by
  unfold keySlots
  rcases ext with _ | _
  · simp
  · simp

/-! ## Setting keys -/

theorem ctrl_bits : ∀ (a : Fin 8) (kid : Fin 4) (gk ext spp : Bool),
    let ctrl := (0x8000 : UInt16) ||| UInt16.ofNat a <<< 2 ||| UInt16.ofNat kid |||
      (if gk then 0x40 else 0) ||| (if ext then 0x200 else 0) ||| (if spp then 0x80 else 0)
    ((ctrl &&& 0x03).toNat = kid ∧ (ctrl &&& 0x40 != 0) = gk) ∧
      (((ctrl ||| 0x20) &&& 0x03).toNat = kid ∧ ((ctrl ||| 0x20) &&& 0x40 != 0) = gk) := by
  decide +kernel

theorem keyCtrl_bits (gk : Bool) (algorithm : UInt8) (spp : Bool) (hkid : kid < 4) :
    let ctrl := keyCtrl kid gk algorithm spp
    ((ctrl &&& 0x03).toNat = kid ∧ (ctrl &&& 0x40 != 0) = gk) ∧
      (((ctrl ||| 0x20) &&& 0x03).toNat = kid ∧ ((ctrl ||| 0x20) &&& 0x40 != 0) = gk) := by
  have hlt : (algorithm &&& 0x07).toNat < 8 := by
    rw [UInt8.toNat_and]
    exact Nat.lt_succ_of_le Nat.and_le_right
  have hsec : (algorithm &&& 0x07).toUInt16 = UInt16.ofNat (algorithm &&& 0x07).toNat := by
    rw [UInt16.ofNat_uInt8ToNat]
  have hbits := ctrl_bits ⟨_, hlt⟩ ⟨kid, hkid⟩ gk (extSec algorithm) spp
  unfold keyCtrl
  rw [hsec]
  exact hbits

theorem camCache_writeCam {ctrl : UInt16} {mac : MacAddr} {key : Bytes} {ext : Bool} {camId : ℕ}
    (hi : i ∉ keySlots camId ext) :
    (s.writeCam camId ctrl mac key ext).camCache i = s.camCache i := by
  rw [mem_keySlots] at hi
  unfold writeCam writeCamCache
  rcases ext with _ | _
  · exact Function.update_of_ne (by simpa using hi) _ _
  · rw [if_pos rfl]
    have hi : i ≠ camId ∧ i ≠ camId + 1 := by simpa using hi
    exact (Function.update_of_ne hi.2 _ _).trans (Function.update_of_ne hi.1 _ _)

theorem caches_writeCam {key : Bytes} {camId : ℕ} (hkid : kid < 4)
    (hi : i ∈ keySlots camId (extSec algorithm)) :
    Caches ((s.writeCam camId (keyCtrl kid gk algorithm spp) addr key
      (extSec algorithm)).camCache i) ⟨addr, kid, gk⟩ := by
  obtain ⟨hfirst, hsecond⟩ := keyCtrl_bits gk algorithm spp hkid
  unfold writeCam writeCamCache
  rcases hext : extSec algorithm with _ | _
  · rw [hext, mem_keySlots] at hi
    obtain rfl : i = camId := by simpa using hi
    simp only [Bool.false_eq_true, if_false, Function.update_self]
    exact ⟨rfl, hfirst.1, hfirst.2⟩
  · rw [hext, mem_keySlots] at hi
    rw [if_pos rfl]
    by_cases hnext : i = camId + 1
    · subst hnext
      simp only [Function.update_self]
      exact ⟨rfl, hsecond.1, hsecond.2⟩
    · obtain rfl : i = camId := by simpa [hnext] using hi
      simp only [Function.update_of_ne hnext, Function.update_self]
      exact ⟨rfl, hfirst.1, hfirst.2⟩

def Replaces (s : Dvobj) (k k' : Key) : Prop :=
  k' = k ∨ s.chkBmc = false ∧ k'.addr = k.addr ∧ k'.kid = k.kid

theorem mem_give_self {slots : Finset ℕ} : i ∈ s.give k slots k ↔ i ∈ slots := by
  unfold give
  rw [if_pos rfl]

theorem give_of_ne {slots : Finset ℕ} {k' : Key} (hne : k' ≠ k) :
    s.give k slots k' = if s.chkBmc = false ∧ k'.addr = k.addr ∧ k'.kid = k.kid then ∅
      else s.held k' := if_neg hne

theorem mem_give_of_ne {slots : Finset ℕ} {k' : Key} (hne : k' ≠ k) (hi : i ∈ s.give k slots k') :
    i ∈ s.held k' ∧ ¬ Replaces s k k' := by
  rw [give_of_ne hne] at hi
  by_cases hrepl : s.chkBmc = false ∧ k'.addr = k.addr ∧ k'.kid = k.kid
  · rw [if_pos hrepl] at hi
    exact absurd hi (Finset.notMem_empty i)
  · rw [if_neg hrepl] at hi
    exact ⟨hi, not_or.mpr ⟨hne, hrepl⟩⟩

/-- **The condition on a key that is set**: where the entry of the key is reused, the broadcast
station has no part in its slots, and a key of 256 bits finds the slot behind free of others. -/
def SetKeyOk (s : Dvobj) (sta : Option MacAddr) (kid : ℕ) (gk : Bool) (algorithm : UInt8) : Prop :=
  kid < 4 ∧ ∀ addr ∈ s.camAddr sta, ∀ i ∈ s.reused addr kid gk, i ∉ s.bcSlots ∧
    (extSec algorithm = true → i + 1 < s.num ∧ i + 1 ∉ s.bcSlots ∧
      ∀ k, ¬ Replaces s ⟨addr, kid, gk⟩ k → i + 1 ∉ s.held k)

structure Vacant (s : Dvobj) (k : Key) (i : ℕ) : Prop where
  lt : i < s.num
  bc : i ∉ s.bcSlots
  keys : ∀ k', ¬ Replaces s k k' → i ∉ s.held k'

theorem Inv.not_held_of_unused (h : Inv s) (hunused : s.isUsed i = false) (k : Key) :
    i ∉ s.held k := by
  intro hi
  rw [h.isUsed_of_mem hi] at hunused
  cases hunused

theorem Inv.vacant_of_unused (h : Inv s) (hlt : i < s.num) (hunused : s.isUsed i = false) :
    Vacant s k i := by
  refine ⟨hlt, fun hbc => ?_, fun k' _ => h.not_held_of_unused hunused k'⟩
  obtain ⟨hlt', hused⟩ := (h.bc i hbc).1
  rw [isUsed_eq, hused, decide_eq_true hlt'] at hunused
  cases hunused

theorem Inv.not_held_of_reused (h : Inv s) (hreused : s.reused addr kid gk = some i) {k' : Key}
    (hk' : ¬ Replaces s ⟨addr, kid, gk⟩ k') : i ∉ s.held k' := by
  intro hi
  obtain ⟨haddr, hkid, hgk⟩ := (h.camCacheChk_iff hi).mp (rtwCamidSearch_some hreused).2
  have hkid : kid = k'.kid := hkid kid rfl
  refine hk' ?_
  rcases hbmc : s.chkBmc with _ | _
  · exact .inr ⟨hbmc, haddr, hkid.symm⟩
  · rw [hbmc] at hgk
    have hgk : gk = k'.gk := hgk gk rfl
    obtain ⟨addr', kid', gk'⟩ := k'
    left
    rw [Key.mk.injEq]
    exact ⟨haddr, hkid.symm, hgk.symm⟩

theorem Inv.vacant_of_rtwGetCamid (h : Inv s) {sta : Option MacAddr}
    (hok : SetKeyOk s sta kid gk algorithm) (haddr : s.camAddr sta = some addr) {camId : ℕ}
    (hget : s.rtwGetCamid addr kid gk (extSec algorithm) = some camId)
    (hi : i ∈ keySlots camId (extSec algorithm)) : Vacant s ⟨addr, kid, gk⟩ i := by
  rw [mem_keySlots] at hi
  rcases rtwGetCamid_cases hget with hreused | ⟨hlt, hunused, hnext⟩
  · obtain ⟨hbc, hext⟩ := hok.2 addr haddr camId hreused
    rcases hi with rfl | ⟨hsec, rfl⟩
    · exact ⟨(rtwCamidSearch_some hreused).1, hbc, fun k' => h.not_held_of_reused hreused⟩
    · obtain ⟨hlt, hbc', hfree⟩ := hext hsec
      exact ⟨hlt, hbc', hfree⟩
  · rcases hi with rfl | ⟨hsec, rfl⟩
    · exact h.vacant_of_unused hlt hunused
    · exact h.vacant_of_unused (hnext hsec).1 (hnext hsec).2

/-- The bitmap after an allocation. -/
theorem isSet_alloc {map : Bmp} {camId : ℕ} {ext : Bool} :
    (if ext = true then (map.set camId).set (camId + 1) else map.set camId).isSet i =
      (map.isSet i || decide (i ∈ keySlots camId ext ∧ i < 32)) := by
  rcases ext with _ | _
  · rw [if_neg Bool.false_ne_true, Bmp.isSet_set]
    congr 1
    rw [decide_eq_decide, mem_keySlots]
    simp only [Bool.false_eq_true, false_and, or_false]
    constructor
    · rintro ⟨rfl, hlt⟩
      exact ⟨rfl, hlt⟩
    · rintro ⟨rfl, hlt⟩
      exact ⟨rfl, hlt⟩
  · rw [if_pos rfl, Bmp.isSet_set, Bmp.isSet_set, Bool.or_assoc]
    congr 1
    rw [← Bool.decide_or, decide_eq_decide, mem_keySlots]
    simp only [true_and]
    constructor
    · rintro (⟨rfl, hlt⟩ | ⟨rfl, hlt⟩)
      · exact ⟨.inl rfl, hlt⟩
      · exact ⟨.inr rfl, hlt⟩
    · rintro ⟨rfl | rfl, hlt⟩
      · exact .inl ⟨rfl, hlt⟩
      · exact .inr ⟨rfl, hlt⟩

theorem setKey_cases (s : Dvobj) (sta : Option MacAddr) (kid : ℕ) (gk : Bool) (algorithm : UInt8)
    (spp : Bool) (key : Bytes) :
    s.setKey sta kid gk algorithm spp key = s ∨
      ∃ addr camId, s.camAddr sta = some addr ∧
        s.rtwGetCamid addr kid gk (extSec algorithm) = some camId ∧
        s.setKey sta kid gk algorithm spp key =
          { s with
            used := if extSec algorithm = true then (s.used.set camId).set (camId + 1)
              else s.used.set camId
            camCache := (s.writeCam camId (keyCtrl kid gk algorithm spp) addr key
              (extSec algorithm)).camCache
            held := s.give ⟨addr, kid, gk⟩ (keySlots camId (extSec algorithm)) } := by
  rcases haddr : s.camAddr sta with _ | addr
  · left
    simp only [setKey, haddr]
  · rcases hget : s.rtwGetCamid addr kid gk (extSec algorithm) with _ | camId
    · left
      simp only [setKey, rtwCamidAlloc, haddr, Option.bind_some, hget]
    · right
      refine ⟨addr, camId, rfl, hget, ?_⟩
      simp only [setKey, rtwCamidAlloc, haddr, Option.bind_some, hget, writeCam, writeCamCache]
      split <;> rfl

/-- **Setting a key.** -/
theorem setKey_inv {sta : Option MacAddr} {key : Bytes} (h : Inv s)
    (hok : SetKeyOk s sta kid gk algorithm) : Inv (s.setKey sta kid gk algorithm spp key) := by
  rcases setKey_cases s sta kid gk algorithm spp key with heq | ⟨addr, camId, haddr, hget, heq⟩
  · rw [heq]
    exact h
  · rw [heq]
    have hvacant (j : ℕ) (hj : j ∈ keySlots camId (extSec algorithm)) :
        Vacant s ⟨addr, kid, gk⟩ j := h.vacant_of_rtwGetCamid hok haddr hget hj
    have hmarked (j : ℕ) (hj : s.used.isSet j = true) :
        (if extSec algorithm = true then (s.used.set camId).set (camId + 1)
          else s.used.set camId).isSet j = true := by
      rw [isSet_alloc, hj, Bool.true_or]
    constructor
    · -- the key holds the new slots, the others hold what they held
      apply h.keys.grant (k := ⟨addr, kid, gk⟩)
      · intro k' hne j hj
        exact (mem_give_of_ne hne hj).1
      · intro j hj k' hne hj'
        obtain ⟨hheld, hsurvives⟩ := mem_give_of_ne hne hj'
        exact (hvacant j (mem_give_self.mp hj)).keys k' hsurvives hheld
      · intro j hj
        have hj : j ∈ keySlots camId (extSec algorithm) := mem_give_self.mp hj
        refine ⟨(hvacant j hj).lt, ?_⟩
        have hlt : j < 32 := lt_of_lt_of_le (hvacant j hj).lt h.num
        rw [isSet_alloc, decide_eq_true ⟨hj, hlt⟩, Bool.or_true]
      · rintro j ⟨hlt, hused⟩
        exact ⟨hlt, hmarked j hused⟩
    · intro j hj
      obtain ⟨⟨hlt, hused⟩, hfree⟩ := h.bc j hj
      refine ⟨⟨hlt, hmarked j hused⟩, fun k' hk' => ?_⟩
      rcases eq_or_ne k' ⟨addr, kid, gk⟩ with rfl | hne
      · exact (hvacant j (mem_give_self.mp hk')).bc hj
      · exact hfree k' (mem_give_of_ne hne hk').1
    · intro k' j hj
      rcases eq_or_ne k' ⟨addr, kid, gk⟩ with rfl | hne
      · exact caches_writeCam hok.1 (mem_give_self.mp hj)
      · obtain ⟨hheld, hsurvives⟩ := mem_give_of_ne hne hj
        have hother : j ∉ keySlots camId (extSec algorithm) :=
          fun hj' => (hvacant j hj').keys k' hsurvives hheld
        show Caches ((s.writeCam camId _ addr key (extSec algorithm)).camCache j) k'
        rw [camCache_writeCam hother]
        exact h.cached k' j hheld
    · exact h.num

/-- **Setting the group key of an AP**, which stays within the slots of the broadcast station. -/
theorem setBmcKey_inv {key : Bytes} (h : Inv s)
    (hok : extSec algorithm = true → s.chkExtraSec = true) :
    Inv (s.setBmcKey kid algorithm spp key) := by
  have hframe :
      ∃ camCache, s.setBmcKey kid algorithm spp key = { s with camCache := camCache } := by
    unfold setBmcKey writeCam writeCamCache
    split
    · exact ⟨_, rfl⟩
    · exact ⟨_, rfl⟩
  obtain ⟨camCache, heq⟩ := hframe
  have hcache (k : Key) (j : ℕ) (hj : j ∈ s.held k) : camCache j = s.camCache j := by
    have hother : j ∉ keySlots s.ifaceBmc (extSec algorithm) := by
      intro hj'
      have hlt := (h.keys.good k j hj).1
      have hnum := h.num
      refine (h.bc j ?_).2 k hj
      unfold bcSlots
      rw [mem_keySlots] at hj'
      by_cases hinvalid : s.ifaceBmc = invalidCamId
      · have : s.ifaceBmc = 255 := hinvalid
        omega
      · rw [if_neg hinvalid, mem_keySlots]
        exact hj'.imp id fun hnext => ⟨hok hnext.1, hnext.2⟩
    rw [show camCache = (s.setBmcKey kid algorithm spp key).camCache by rw [heq]]
    exact camCache_writeCam hother
  rw [heq]
  refine ⟨h.keys, h.bc, fun k j hj => ?_, h.num⟩
  show Caches (camCache j) k
  rw [hcache k j hj]
  exact h.cached k j hj

/-! ## Giving slots back -/

/-- What leaves the check of a slot as it is. -/
theorem camCacheChk_congr {kid : Option ℕ} {gk : Option Bool} (hnum : s'.num = s.num)
    (hused : s'.used.isSet i = s.used.isSet i) (hcache : s'.camCache i = s.camCache i) :
    s'.camCacheChk i addr kid gk = s.camCacheChk i addr kid gk := by
  have hgk : s'.isGk i = s.isGk i := by
    unfold isGk
    rw [isUsed_eq, isUsed_eq, hnum, hused, hcache]
  unfold camCacheChk
  rw [hcache, hgk]

/-- The loop frees and clears only what the search finds. -/
structure Cleared (addr : MacAddr) (kid : Option ℕ) (gk : Option Bool) (s s' : Dvobj) : Prop where
  frame : ∃ used camCache, s' = { s with used := used, camCache := camCache }
  kept : ∀ i, s.camCacheChk i addr kid gk = false →
    s'.used.isSet i = s.used.isSet i ∧ s'.camCache i = s.camCache i

theorem rtwCamidFree_clearCamEntry (h : i < s.num) : (s.clearCamEntry i).rtwCamidFree i =
    { s with used := s.used.clr i, camCache := Function.update s.camCache i {} } := if_pos h

theorem clearOne {kid : Option ℕ} {gk : Option Bool} (h : s.rtwCamidSearch addr kid gk = some i) :
    Cleared addr kid gk s ((s.clearCamEntry i).rtwCamidFree i) := by
  obtain ⟨hlt, hchk⟩ := rtwCamidSearch_some h
  rw [rtwCamidFree_clearCamEntry hlt]
  refine ⟨⟨_, _, rfl⟩, fun j hj => ?_⟩
  have hne : j ≠ i := by
    rintro rfl
    rw [hchk] at hj
    cases hj
  constructor
  · show (s.used.clr i).isSet j = s.used.isSet j
    rw [Bmp.isSet_clr, decide_eq_true hne, Bool.and_true]
  · exact Function.update_of_ne hne _ _

theorem clearLoop_cleared {kid : Option ℕ} {gk : Option Bool} (fuel : ℕ) (s : Dvobj) :
    Cleared addr kid gk s (clearLoop addr kid gk fuel s) := by
  induction fuel generalizing s with
  | zero => exact ⟨⟨_, _, rfl⟩, fun i _ => ⟨rfl, rfl⟩⟩
  | succ fuel ih =>
    unfold clearLoop
    rcases hsearch : s.rtwCamidSearch addr kid gk with _ | camId
    · exact ⟨⟨_, _, rfl⟩, fun i _ => ⟨rfl, rfl⟩⟩
    · have hone := clearOne hsearch
      have hrest := ih ((s.clearCamEntry camId).rtwCamidFree camId)
      obtain ⟨used, camCache, hs⟩ := hone.frame
      obtain ⟨used', camCache', hs'⟩ := hrest.frame
      constructor
      · refine ⟨used', camCache', hs'.trans ?_⟩
        rw [hs]
      · intro i hi
        obtain ⟨hused, hcache⟩ := hone.kept i hi
        have hnum : ((s.clearCamEntry camId).rtwCamidFree camId).num = s.num := by rw [hs]
        obtain ⟨hused', hcache'⟩ := hrest.kept i (by rw [camCacheChk_congr hnum hused hcache, hi])
        exact ⟨hused'.trans hused, hcache'.trans hcache⟩

/-- **Giving slots back.** -/
theorem clearKeys_inv {kid : Option ℕ} {gk : Option Bool} (h : Inv s)
    (hok : ∀ i ∈ s.bcSlots, s.camCacheChk i addr kid gk = false) :
    Inv (s.clearKeys addr kid gk) := by
  have hcleared : Cleared addr kid gk s (clearLoop addr kid gk s.num s) := clearLoop_cleared s.num s
  obtain ⟨⟨used, camCache, hs⟩, hkept⟩ := hcleared
  have hsub (k : Key) : (if Named k addr kid gk then ∅ else s.held k) ⊆ s.held k := by
    split
    · exact Finset.empty_subset _
    · exact Finset.Subset.refl _
  have hunnamed (k : Key) (j : ℕ) (hj : j ∈ if Named k addr kid gk then ∅ else s.held k) :
      s.camCacheChk j addr kid gk = false := by
    by_cases hnamed : Named k addr kid gk
    · rw [if_pos hnamed] at hj
      exact absurd hj (Finset.notMem_empty j)
    · rw [if_neg hnamed] at hj
      rw [← Bool.not_eq_true, h.camCacheChk_iff hj]
      exact hnamed
  unfold clearKeys
  rw [hs] at hkept ⊢
  constructor
  · refine h.keys.shrink hsub fun k j hj hgood => ⟨hgood.1, ?_⟩
    exact (hkept j (hunnamed k j hj)).1.trans hgood.2
  · intro j hj
    obtain ⟨hgood, hfree⟩ := h.bc j hj
    refine ⟨⟨hgood.1, (hkept j (hok j hj)).1.trans hgood.2⟩, fun k hk => hfree k (hsub k hk)⟩
  · intro k j hj
    show Caches (camCache j) k
    rw [show camCache j = s.camCache j from (hkept j (hunnamed k j hj)).2]
    exact h.cached k j (hsub k hj)
  · exact h.num

theorem rtwSecCamSwap_spec (s : Dvobj) (ha : a < s.num) (hb : b < s.num) (hnum : s.num ≤ 32)
    (hne : a ≠ b) :
    ∃ used camCache, s.rtwSecCamSwap a b = { s with
        used := used, camCache := camCache, held := fun k => (s.held k).image (Equiv.swap a b) } ∧
      (∀ i, used.isSet (Equiv.swap a b i) = s.used.isSet i) ∧
      ∀ i, s.used.isSet i = true → camCache (Equiv.swap a b i) = s.camCache i := by
  have ha32 : a < 32 := lt_of_lt_of_le ha hnum
  have hb32 : b < 32 := lt_of_lt_of_le hb hnum
  have hcases (P : ℕ → Prop) (hPa : P a) (hPb : P b) (hP : ∀ i, i ≠ a → i ≠ b → P i) (i : ℕ) :
      P i := by
    rcases eq_or_ne i a with rfl | hia
    · exact hPa
    · rcases eq_or_ne i b with rfl | hib
      · exact hPb
      · exact hP i hia hib
  have husedA : s.isUsed a = s.used.isSet a := by rw [isUsed_eq, decide_eq_true ha, Bool.true_and]
  have husedB : s.isUsed b = s.used.isSet b := by rw [isUsed_eq, decide_eq_true hb, Bool.true_and]
  unfold rtwSecCamSwap
  rw [if_neg hne]
  dsimp only
  rw [husedA, husedB]
  rcases hA : s.used.isSet a with _ | _
  · rcases hB : s.used.isSet b with _ | _
    · -- neither slot is used
      simp only [Bool.false_eq_true, if_false]
      refine ⟨_, _, rfl, ?_, ?_⟩
      · apply hcases
        · simp [hA, hB]
        · simp [hA, hB]
        · intro i hia hib
          rw [Equiv.swap_apply_of_ne_of_ne hia hib]
      · apply hcases
        · simp [hA]
        · simp [hB]
        · intro i hia hib _
          rw [Equiv.swap_apply_of_ne_of_ne hia hib]
    · simp only [Bool.false_eq_true, if_false, if_true, rtwCamidFree, clearCamEntry, writeCamCache,
        rtwCamidSet, if_pos ha, if_pos hb]
      refine ⟨_, _, rfl, ?_, ?_⟩
      · apply hcases
        · simp [Bmp.isSet_set, Bmp.isSet_clr, hA, hne.symm]
        · simp [Bmp.isSet_set, hB, ha32]
        · intro i hia hib
          rw [Equiv.swap_apply_of_ne_of_ne hia hib, Bmp.isSet_set, Bmp.isSet_clr]
          simp [hia, hib]
      · apply hcases
        · simp [hA]
        · simp
        · intro i hia hib _
          simp [Equiv.swap_apply_of_ne_of_ne hia hib, hia, hib]
  · rcases hB : s.used.isSet b with _ | _
    · simp only [Bool.false_eq_true, if_false, if_true, rtwCamidFree, clearCamEntry, writeCamCache,
        rtwCamidSet, if_pos ha, if_pos hb]
      refine ⟨_, _, rfl, ?_, ?_⟩
      · apply hcases
        · simp [Bmp.isSet_set, hA, hb32]
        · simp [Bmp.isSet_set, Bmp.isSet_clr, hB, hne]
        · intro i hia hib
          rw [Equiv.swap_apply_of_ne_of_ne hia hib, Bmp.isSet_set, Bmp.isSet_clr]
          simp [hia, hib]
      · apply hcases
        · simp
        · simp [hB]
        · intro i hia hib _
          simp [Equiv.swap_apply_of_ne_of_ne hia hib, hia, hib]
    · simp only [if_true, rtwCamidFree, clearCamEntry, writeCamCache, rtwCamidSet, if_pos ha,
        if_pos hb]
      refine ⟨_, _, rfl, ?_, ?_⟩
      · apply hcases
        · simp [Bmp.isSet_set, hA, hb32]
        · simp [Bmp.isSet_set, hB, ha32]
        · intro i hia hib
          rw [Equiv.swap_apply_of_ne_of_ne hia hib, Bmp.isSet_set, Bmp.isSet_set, Bmp.isSet_clr,
            Bmp.isSet_clr]
          simp [hia, hib]
      · apply hcases
        · intro _
          simp [hne.symm]
        · simp
        · intro i hia hib _
          simp [Equiv.swap_apply_of_ne_of_ne hia hib, hia, hib]

/-- **The condition on a swap**: a slot of the broadcast station is only swapped for one that is
marked and that no key holds. -/
def SwapOk (s : Dvobj) (a b : ℕ) : Prop :=
  a < s.num ∧ b < s.num ∧
    (a ≠ b → a ∈ s.bcSlots → s.used.isSet b = true ∧ ∀ k, b ∉ s.held k) ∧
    (a ≠ b → b ∈ s.bcSlots → s.used.isSet a = true ∧ ∀ k, a ∉ s.held k)

/-- **Swapping.** -/
theorem swap_inv (h : Inv s) (hok : SwapOk s a b) : Inv (s.rtwSecCamSwap a b) := by
  obtain ⟨ha, hb, hbcA, hbcB⟩ := hok
  rcases eq_or_ne a b with rfl | hne
  · unfold rtwSecCamSwap
    rw [if_pos rfl]
    exact h
  obtain ⟨used, camCache, hs, hused, hcache⟩ := rtwSecCamSwap_spec s ha hb h.num hne
  rw [hs]
  have hlt (i : ℕ) (hi : i < s.num) : Equiv.swap a b i < s.num := by
    rw [Equiv.swap_apply_def]
    split
    · exact hb
    · split
      · exact ha
      · exact hi
  -- what became of a slot that the broadcast station keeps
  have hbc (i : ℕ) (hi : i ∈ s.bcSlots) :
      s.used.isSet (Equiv.swap a b i) = true ∧ ∀ k, Equiv.swap a b i ∉ s.held k := by
    rcases eq_or_ne i a with rfl | hia
    · rw [Equiv.swap_apply_left]
      exact hbcA hne hi
    · rcases eq_or_ne i b with rfl | hib
      · rw [Equiv.swap_apply_right]
        exact hbcB hne hi
      · rw [Equiv.swap_apply_of_ne_of_ne hia hib]
        exact ⟨(h.bc i hi).1.2, (h.bc i hi).2⟩
  constructor
  · apply h.keys.exchange
    rintro i ⟨hi, hmarked⟩
    exact ⟨hlt i hi, (hused i).trans hmarked⟩
  · intro i hi
    obtain ⟨hmarked, hfree⟩ := hbc i hi
    refine ⟨⟨(h.bc i hi).1.1, ?_⟩, fun k hk => ?_⟩
    · rw [← hused, Equiv.swap_apply_self] at hmarked
      exact hmarked
    · obtain ⟨j, hj, hji⟩ := Finset.mem_image.mp hk
      refine hfree k ?_
      rw [← hji, Equiv.swap_apply_self]
      exact hj
  · intro k i hi
    obtain ⟨j, hj, rfl⟩ := Finset.mem_image.mp hi
    show Caches (camCache (Equiv.swap a b j)) k
    rw [hcache j (h.keys.good k j hj).2]
    exact h.cached k j hj
  · exact h.num

/-- **The condition on the slots of an AP's broadcast station**: the first slot is below `num`, and
a second one is free of keys. -/
def AllocMacidOk (s : Dvobj) (addr : MacAddr) : Prop :=
  addr = .bcast → addr ≠ s.macAddr → s.mlme.isStaOrNull = false → ∀ i ∈ s.freeMacid true,
    i < s.num ∧ (s.chkExtraSec = true → i + 1 < s.num ∧ ∀ k, i + 1 ∉ s.held k)

theorem freeMacid_some (h : s.freeMacid true = some i) : s.isUsed i = false := by
  have hfound := List.find?_some (p := fun i => !(true && s.isUsed i) && !s.macidIsUsed i) h
  simp only [Bool.true_and, Bool.and_eq_true, Bool.not_eq_true'] at hfound
  exact hfound.1

theorem Inv.withoutBc (h : Inv s) {f : MacAddr → ℕ} {used ifG bmc : Bmp} :
    Inv { s with
      ifaceBmc := invalidCamId, macId := f, macidUsed := used, ifG := ifG, macidBmc := bmc } :=
  ⟨h.keys, fun i hi => absurd hi (Finset.notMem_empty i), h.cached, h.num⟩

/-- **Allocating a MAC id.** -/
theorem allocMacid_inv (h : Inv s) (hok : AllocMacidOk s addr) : Inv (s.rtwAllocMacid addr) := by
  unfold rtwAllocMacid
  by_cases hself : addr = s.macAddr
  · rw [if_pos hself]
    exact ⟨h.keys, h.bc, h.cached, h.num⟩
  rw [if_neg hself]
  by_cases hbcast : addr = .bcast
  · simp only [decide_eq_true hbcast, if_true, true_and]
    rcases hrole : s.mlme.isStaOrNull with _ | _
    · simp only [Bool.false_eq_true, if_false]
      have hfree : freeMacid { s with ifaceBmc := invalidCamId } true = s.freeMacid true := rfl
      rw [hfree]
      rcases hmacid : s.freeMacid true with _ | i
      · exact h.withoutBc
      · obtain ⟨hlt, hsecond⟩ := hok hbcast hself hrole i hmacid
        -- the slots that are reserved
        have hslots (j : ℕ) (hj : j ∈ keySlots i s.chkExtraSec) :
            j < s.num ∧ ∀ k, j ∉ s.held k := by
          rcases mem_keySlots.mp hj with rfl | ⟨hextra, rfl⟩
          · exact ⟨hlt, h.not_held_of_unused (freeMacid_some hmacid)⟩
          · exact hsecond hextra
        constructor
        · refine h.keys.shrink (fun k => Finset.Subset.refl _) fun k j _ hgood => ⟨hgood.1, ?_⟩
          show (if s.chkExtraSec = true then (s.used.set i).set (i + 1) else s.used.set i).isSet j =
              true
          rw [isSet_alloc, hgood.2, Bool.true_or]
        · intro j hj
          have hj : j ∈ keySlots i s.chkExtraSec := bcSlots_subset hj
          obtain ⟨hjlt, hjfree⟩ := hslots j hj
          refine ⟨⟨hjlt, ?_⟩, hjfree⟩
          show (if s.chkExtraSec = true then (s.used.set i).set (i + 1) else s.used.set i).isSet j =
              true
          rw [isSet_alloc, decide_eq_true ⟨hj, lt_of_lt_of_le hjlt h.num⟩, Bool.or_true]
        · exact h.cached
        · exact h.num
    · exact h.withoutBc
  · simp only [decide_eq_false hbcast, Bool.false_eq_true, if_false, false_and]
    rcases s.freeMacid false with _ | i
    · exact ⟨h.keys, h.bc, h.cached, h.num⟩
    · exact ⟨h.keys, h.bc, h.cached, h.num⟩

/-- **Releasing a MAC id**, which unmarks the slots of the broadcast station. -/
theorem releaseMacid_inv (h : Inv s) : Inv (s.rtwReleaseMacid addr) := by
  unfold rtwReleaseMacid
  dsimp only
  split
  · exact ⟨h.keys, h.bc, h.cached, h.num⟩
  · by_cases hbcast : addr = .bcast
    · rw [if_pos hbcast]
      constructor
      · refine h.keys.shrink (fun k => Finset.Subset.refl _) fun k j hj hgood => ⟨hgood.1, ?_⟩
        show (if s.ifaceBmc ≠ invalidCamId ∧ s.ifaceBmc < s.num then
          if s.chkExtraSec = true then (s.used.clr s.ifaceBmc).clr (s.ifaceBmc + 1)
          else s.used.clr s.ifaceBmc
          else s.used).isSet j = true
        by_cases hvalid : s.ifaceBmc ≠ invalidCamId ∧ s.ifaceBmc < s.num
        · rw [if_pos hvalid]
          have hother : j ∉ keySlots s.ifaceBmc s.chkExtraSec := by
            intro hj'
            refine (h.bc j ?_).2 k hj
            unfold bcSlots
            rwa [if_neg hvalid.1]
          rw [mem_keySlots, not_or] at hother
          rcases hextra : s.chkExtraSec with _ | _
          · rw [if_neg Bool.false_ne_true, Bmp.isSet_clr, hgood.2, decide_eq_true hother.1]
            rfl
          · have hnext : j ≠ s.ifaceBmc + 1 := fun heq => hother.2 ⟨hextra, heq⟩
            rw [if_pos rfl, Bmp.isSet_clr, Bmp.isSet_clr, hgood.2, decide_eq_true hother.1,
              decide_eq_true hnext]
            rfl
        · rw [if_neg hvalid]
          exact hgood.2
      · intro j hj
        exact absurd hj (Finset.notMem_empty j)
      · exact h.cached
      · exact h.num
    · rw [if_neg hbcast]
      exact ⟨h.keys, h.bc, h.cached, h.num⟩

/-! ## Sequences -/

/-- No slot is held, and the broadcast station has none. -/
structure Started (s : Dvobj) : Prop where
  held : ∀ k, s.held k = ∅
  ifaceBmc : s.ifaceBmc = invalidCamId
  num : s.num ≤ 32

theorem Started.inv (h : Started s) : Inv s where
  keys :=
    { disjoint := fun k k' _ => by
        rw [h.held k]
        exact Finset.disjoint_empty_left _
      good := fun k i hi => by
        rw [h.held k] at hi
        exact absurd hi (Finset.notMem_empty i) }
  bc i hi := by
    unfold bcSlots at hi
    rw [if_pos h.ifaceBmc] at hi
    exact absurd hi (Finset.notMem_empty i)
  cached k i hi := by
    rw [h.held k] at hi
    exact absurd hi (Finset.notMem_empty i)
  num := h.num

/-- **The condition on a step**: what an operation takes without looking is free, and no entry of
the broadcast station is freed behind its back. -/
def Event.Ok (s : Dvobj) : Event → Prop
  | .mlme _ => True
  | .setKey sta kid gk algorithm _ _ => SetKeyOk s sta kid gk algorithm
  | .setBmcKey _ algorithm _ _ => extSec algorithm = true → s.chkExtraSec = true
  | .clearKeys addr kid gk => ∀ i ∈ s.bcSlots, s.camCacheChk i addr kid gk = false
  | .swap a b => SwapOk s a b
  | .allocMacid addr => AllocMacidOk s addr
  | .releaseMacid _ => True

theorem step_inv {e : Event} (h : Inv s) (hok : e.Ok s) (hstep : step s e = some s') : Inv s' := by
  cases e with
  | mlme m =>
    obtain rfl := Option.some.inj hstep
    exact ⟨h.keys, h.bc, h.cached, h.num⟩
  | setKey sta kid gk algorithm spp key =>
    obtain rfl := Option.some.inj hstep
    exact setKey_inv h hok
  | setBmcKey kid algorithm spp key =>
    obtain rfl := Option.some.inj hstep
    exact setBmcKey_inv h hok
  | clearKeys addr kid gk =>
    obtain rfl := Option.some.inj hstep
    exact clearKeys_inv h hok
  | swap a b =>
    obtain rfl := Option.some.inj hstep
    exact swap_inv h hok
  | allocMacid addr =>
    obtain rfl := Option.some.inj hstep
    exact allocMacid_inv h hok
  | releaseMacid addr =>
    obtain rfl := Option.some.inj hstep
    exact releaseMacid_inv h

/-- **Slots have one holder along every run whose steps meet the condition.** -/
theorem slotsOwned_of_run {es : List Event} (hs : Started s)
    (hok : Meets step (fun s e => e.Ok s) s es) (hrun : run step s es = some s') :
    SlotsOwned s' := by
  have hinv : Inv s' :=
    run_invariant_of_meets (fun _ _ _ h hok hstep => step_inv h hok hstep) hs.inv hok hrun
  exact hinv.slotsOwned

/-- The driver after initialisation: `rtw_macid_ctl_init` has marked the MAC id for management
frames. -/
def initial : Dvobj where
  macidUsed := 2
  macidBmc := 2
  ifG := 2
  macAddr := ⟨0, 0xe0, 0x4c, 0, 0, 1⟩

theorem started_initial : Started initial := ⟨fun _ => rfl, rfl, by decide⟩

/-- Two stations of an AP. -/
def sta1 : MacAddr := ⟨2, 0, 0, 0, 0, 1⟩

def sta2 : MacAddr := ⟨2, 0, 0, 0, 0, 2⟩

def aes : UInt8 := 4

def gcmp256 : UInt8 := 0x17

def rekeyed : List Event :=
  [.mlme { state := .ap, isStaOrNull := false }, .allocMacid .bcast,
    .setKey (some sta1) 0 false aes false [], .setKey (some sta2) 0 false gcmp256 false [],
    .setKey (some sta1) 0 false aes false [], .swap 2 7, .clearKeys sta2 none none,
    .releaseMacid .bcast]

theorem slotsOwned_rekeyed : ∃ s', run step initial rekeyed = some s' ∧ SlotsOwned s' := by
  have hok : Meets step (fun s e => Event.Ok s e) initial rekeyed := by
    refine ⟨trivial, fun s₁ h₁ => ?_⟩
    obtain rfl := Option.some.inj h₁
    refine ⟨fun _ _ _ i hi => ?_, fun s₂ h₂ => ?_⟩
    · obtain rfl : 0 = i := Option.some.inj hi
      exact ⟨by decide, fun _ => ⟨by decide, fun k => Finset.notMem_empty 1⟩⟩
    obtain rfl := Option.some.inj h₂
    refine ⟨⟨by decide, fun addr haddr i hi => ?_⟩, fun s₃ h₃ => ?_⟩
    · obtain rfl := Option.some.inj haddr
      cases hi
    obtain rfl := Option.some.inj h₃
    refine ⟨⟨by decide, fun addr haddr i hi => ?_⟩, fun s₄ h₄ => ?_⟩
    · obtain rfl := Option.some.inj haddr
      cases hi
    obtain rfl := Option.some.inj h₄
    refine ⟨⟨by decide, fun addr haddr i hi => ?_⟩, fun s₅ h₅ => ?_⟩
    · obtain rfl := Option.some.inj haddr
      obtain rfl : 2 = i := Option.some.inj hi
      exact ⟨by decide +kernel, fun hext => absurd hext (by decide)⟩
    obtain rfl := Option.some.inj h₅
    refine ⟨⟨by decide, by decide, fun _ hbc => ?_, fun _ hbc => ?_⟩, fun s₆ h₆ => ?_⟩
    · exact absurd hbc (by decide +kernel)
    · exact absurd hbc (by decide +kernel)
    obtain rfl := Option.some.inj h₆
    refine ⟨?_, fun s₇ h₇ => ?_⟩
    · show ∀ i ∈ bcSlots _, camCacheChk _ i sta2 none none = false
      decide +kernel
    obtain rfl := Option.some.inj h₇
    refine ⟨trivial, fun s₈ h₈ => ?_⟩
    trivial
  exact ⟨_, rfl, slotsOwned_of_run started_initial hok rfl⟩

/-- A key of one slot is set again with a cipher of 256 bits, while the slot behind it belongs to
another station. -/
theorem not_slotsOwned_rekey :
    ¬ ∀ s es s', Started s → run step s es = some s' → SlotsOwned s' := by
  intro h
  have howned := h initial
    [.setKey (some sta1) 0 false aes false [], .setKey (some sta2) 0 false aes false [],
      .setKey (some sta1) 0 false gcmp256 false []] _ started_initial rfl
  have hdisjoint := howned.disjoint (some ⟨sta1, 0, false⟩) (some ⟨sta2, 0, false⟩) (by decide)
  exact Finset.disjoint_left.mp hdisjoint (show 1 ∈ _ by decide +kernel) (by decide +kernel)

end Rtl88x2eu.Cam
