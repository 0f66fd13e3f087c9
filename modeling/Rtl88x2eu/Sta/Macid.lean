import Mathlib.Data.Fintype.Basic
import Mathlib.Logic.Function.Basic
import Rtl88x2eu.Cam.Slots
import Rtl88x2eu.Lib.Transition

/-!
# The owners of MAC ids

`rtw_alloc_macid` and `rtw_release_macid` share one table between the adapters of a device. A MAC id
in use is marked in several bitmaps and points to its station. A station with the address of its own
adapter gets no id, the broadcast station of a station-mode adapter shares the id of the management
frames, and the broadcast station of an access point gets an id whose entry of the CAM is free too.

`Cam.Slots` follows the one broadcast station of one adapter through the CAM; here the CAM is only
looked at, and may change in any way between the steps.

What the table is for is said by a ledger, a partial function from ids to their owners. The bitmaps
refine it.

## Main definitions

* `MacidCtl`, `rtwAllocMacid`, `rtwReleaseMacid`: the table and its two operations
* `Ledger`, `Refines`: the owners of the ids, and that the table records them
* `MacidsOwned`, `AllocLaw`: what is asked of the table, and of an allocation that fails

## Main results

* `refines_alloc`, `refines_release`: the operations grant and revoke ids
* `macids_owned`: every run keeps the table in order, and only the station of an adapter's own
  address and the stations that find no id go without
-/

namespace Rtl88x2eu.Sta

open Cam (Bmp invalidCamId defaultMgmtMacid)

variable {ifaces : ℕ} {σ : Type*}

/-! ## The table -/

def macidNumSwLimit : ℕ := 32

def halMacidNum : ℕ := 128

/-- `struct macid_ctl_t`, for a number of adapters and over the stations `σ` -/
structure MacidCtl (ifaces : ℕ) (σ : Type*) where
  num : ℕ
  used : Bmp := 0
  bmc : Bmp := 0
  ifG : Fin ifaces → Bmp := fun _ => 0
  chG : Fin 2 → Bmp := fun _ => 0
  ifaceBmc : Fin ifaces → ℕ := fun _ => 0
  sta : ℕ → Option σ := fun _ => none

/-- The part of `struct cam_ctl_t` that the broadcast stations work on. -/
structure CamCtl where
  num : ℕ
  used : Bmp := 0
  /-- `sec_cap & SEC_CAP_CHK_EXTRA_SEC` -/
  chkExtraSec : Bool := true

def CamCtl.isUsed (cam : CamCtl) (id : ℕ) : Bool :=
  if id ≥ cam.num then false else cam.used.isSet id

namespace MacidCtl

def isUsed (ctl : MacidCtl ifaces σ) (id : ℕ) : Bool := ctl.used.isSet id

def rtwMacidGetIfaceBmp (ctl : MacidCtl ifaces σ) (id : ℕ) : Finset (Fin ifaces) :=
  Finset.univ.filter fun i => (ctl.ifG i).isSet id

def rtwIfaceBcmcIdSet (ctl : MacidCtl ifaces σ) (iface : Fin ifaces) (macId : ℕ) :
    MacidCtl ifaces σ :=
  { ctl with ifaceBmc := Function.update ctl.ifaceBmc iface macId }

def rtwMacidCtlInit (ctl : MacidCtl ifaces σ) : MacidCtl ifaces σ :=
  let id := defaultMgmtMacid
  { ctl with
    used := ctl.used.set id
    bmc := ctl.bmc.set id
    ifG := fun i => (ctl.ifG i).set id
    sta := Function.update ctl.sta id none }

def take (ctl : MacidCtl ifaces σ) (iface : Fin ifaces) (psta : σ) (i : ℕ) : MacidCtl ifaces σ :=
  { ctl with
    used := ctl.used.set i
    ifG := Function.update ctl.ifG iface ((ctl.ifG iface).set i)
    sta := Function.update ctl.sta i (some psta) }

/-- The marks that a release clears; those of the id itself only if no other adapter has it. -/
def drop (ctl : MacidCtl ifaces σ) (iface : Fin ifaces) (id : ℕ) : MacidCtl ifaces σ :=
  let ifbmp := (ctl.rtwMacidGetIfaceBmp id).erase iface
  let ctl := { ctl with ifG := Function.update ctl.ifG iface ((ctl.ifG iface).clr id) }
  if ifbmp = ∅ then
    { ctl with
      used := ctl.used.clr id
      bmc := ctl.bmc.clr id
      chG := fun i => (ctl.chG i).clr id
      sta := Function.update ctl.sta id none }
  else ctl

end MacidCtl

/-- The parts of `struct dvobj_priv`, of its adapters and of their stations that the two functions
work on. `live` is no data of the driver: it holds the stations between their allocation and their
release. -/
structure Device (ifaces : ℕ) (σ : Type*) where
  macidCtl : MacidCtl ifaces σ
  camCtl : CamCtl
  /-- `adapter_mac_addr` -/
  adapterMacAddr : Fin ifaces → MacAddr
  /-- `psta->padapter->iface_id` -/
  padapter : σ → Fin ifaces
  /-- `psta->cmn.mac_addr` -/
  macAddr : σ → MacAddr
  /-- `psta->cmn.mac_id` -/
  macId : σ → ℕ
  live : Finset σ

namespace Device

variable [DecidableEq σ]

/-- The loop of `rtw_alloc_macid`. -/
def freeMacid (d : Device ifaces σ) (isBcSta : Bool) : Option ℕ :=
  (List.range d.macidCtl.num).find? fun i =>
    !(isBcSta && d.camCtl.isUsed i) && !d.macidCtl.isUsed i

def setMacId (d : Device ifaces σ) (psta : σ) (id : ℕ) : Device ifaces σ :=
  { d with macId := Function.update d.macId psta id }

def takeCam (d : Device ifaces σ) (iface : Fin ifaces) (i : ℕ) : Device ifaces σ :=
  let used := d.camCtl.used.set i
  { d with
    macidCtl := { d.macidCtl with bmc := d.macidCtl.bmc.set i }.rtwIfaceBcmcIdSet iface i
    camCtl.used := if d.camCtl.chkExtraSec then used.set (i + 1) else used }

def dropCam (d : Device ifaces σ) (iface : Fin ifaces) : Device ifaces σ :=
  let id := d.macidCtl.ifaceBmc iface
  let used := d.camCtl.used.clr id
  { d with
    macidCtl := d.macidCtl.rtwIfaceBcmcIdSet iface invalidCamId
    camCtl.used :=
      if id ≠ invalidCamId ∧ id < d.camCtl.num then
        if d.camCtl.chkExtraSec then used.clr (id + 1) else used
      else d.camCtl.used }

/-- What `rtw_alloc_macid` does first for a broadcast station. -/
def resetBcmc (d : Device ifaces σ) (iface : Fin ifaces) (isBcSta : Bool) : Device ifaces σ :=
  if isBcSta then { d with macidCtl := d.macidCtl.rtwIfaceBcmcIdSet iface invalidCamId } else d

def rtwAllocMacid (d : Device ifaces σ) (psta : σ) (isStaOrNull : Bool) : Device ifaces σ :=
  let iface := d.padapter psta
  if d.macAddr psta = d.adapterMacAddr iface then d.setMacId psta d.macidCtl.num
  else
    let isBcSta := decide (d.macAddr psta = .bcast)
    let d := d.resetBcmc iface isBcSta
    if isBcSta ∧ isStaOrNull then d.setMacId psta defaultMgmtMacid
    else
      match d.freeMacid isBcSta with
      | none => d.setMacId psta d.macidCtl.num
      | some i =>
        let d := if isBcSta then d.takeCam iface i else d
        { d with macidCtl := d.macidCtl.take iface psta i }.setMacId psta i

def rtwReleaseMacid (d : Device ifaces σ) (psta : σ) : Device ifaces σ :=
  let iface := d.padapter psta
  let id := d.macId psta
  if d.macAddr psta = d.adapterMacAddr iface ∨ id ≥ d.macidCtl.num ∨ id = defaultMgmtMacid ∨
      d.macidCtl.isUsed id = false ∨ iface ∉ d.macidCtl.rtwMacidGetIfaceBmp id then
    d.setMacId psta d.macidCtl.num
  else
    let d := if d.macAddr psta = .bcast then d.dropCam iface else d
    { d with macidCtl := d.macidCtl.drop iface id }.setMacId psta d.macidCtl.num

end Device

/-- What happens to the table. `rtw_alloc_stainfo` gives the station its adapter and its address
before it asks for an id, and in whatever mode the adapter is; `cam` is any other work on the
CAM. -/
inductive MacidOp (ifaces : ℕ) (σ : Type*) where
  | alloc (psta : σ) (iface : Fin ifaces) (hwaddr : MacAddr) (isStaOrNull : Bool)
  | release (psta : σ)
  | cam (used : Bmp)

variable [DecidableEq σ]

def macidStep (d : Device ifaces σ) : MacidOp ifaces σ → Option (Device ifaces σ)
  | .alloc psta iface hwaddr isStaOrNull =>
    if psta ∈ d.live then none
    else
      let d := { d with
        padapter := Function.update d.padapter psta iface
        macAddr := Function.update d.macAddr psta hwaddr
        live := insert psta d.live }
      some (d.rtwAllocMacid psta isStaOrNull)
  | .release psta =>
    if psta ∈ d.live then some { d.rtwReleaseMacid psta with live := d.live.erase psta } else none
  | .cam used => some { d with camCtl.used := used }

/-- The device behind `rtw_macid_ctl_init`: the table has been zeroed and knows its size, and no
station is live. -/
structure Device.Initial (d : Device ifaces σ) : Prop where
  live : d.live = ∅
  macidCtl : d.macidCtl =
    MacidCtl.rtwMacidCtlInit { num := min halMacidNum macidNumSwLimit }

/-! ## The ledger -/

structure Owns (own : ℕ → Option σ) (num : ℕ) (live : Finset σ) (macId : σ → ℕ) : Prop where
  mgmt : own defaultMgmtMacid = none
  owner : ∀ id s, own id = some s → s ∈ live ∧ macId s = id ∧ id < num
  owned : ∀ s ∈ live, macId s < num → macId s ≠ defaultMgmtMacid → own (macId s) = some s

namespace Owns

variable {own : ℕ → Option σ} {num : ℕ} {live : Finset σ} {macId : σ → ℕ} {s : σ} {i id : ℕ}

omit [DecidableEq σ] in
theorem ne_mgmt (h : Owns own num live macId) (hs : own id = some s) : id ≠ defaultMgmtMacid := by
  rintro rfl
  exact Option.some_ne_none s (hs.symm.trans h.mgmt)

/-- A station comes that gets no id of its own. -/
theorem join (h : Owns own num live macId) (hs : s ∉ live)
    (hid : num ≤ id ∨ id = defaultMgmtMacid) :
    Owns own num (insert s live) (Function.update macId s id) := by
  refine ⟨h.mgmt, fun j t ht => ?_, fun t ht hlt hne => ?_⟩
  · obtain ⟨hlive, hmac, hj⟩ := h.owner j t ht
    have hts : t ≠ s := fun heq => hs (heq ▸ hlive)
    exact ⟨Finset.mem_insert_of_mem hlive, by rwa [Function.update_of_ne hts], hj⟩
  · by_cases hts : t = s
    · subst hts
      rw [Function.update_self] at hlt hne
      rcases hid with hid | hid
      · exact absurd hlt (not_lt.mpr hid)
      · exact absurd hid hne
    · rw [Function.update_of_ne hts] at hlt hne ⊢
      exact h.owned t (Finset.mem_of_mem_insert_of_ne ht hts) hlt hne

theorem grant (h : Owns own num live macId) (hs : s ∉ live) (hi : i < num)
    (hne : i ≠ defaultMgmtMacid) (hfree : own i = none) :
    Owns (Function.update own i (some s)) num (insert s live) (Function.update macId s i) := by
  refine ⟨?_, fun j t ht => ?_, fun t ht hlt hmgmt => ?_⟩
  · rw [Function.update_of_ne hne.symm]
    exact h.mgmt
  · by_cases hji : j = i
    · subst hji
      rw [Function.update_self] at ht
      obtain rfl := Option.some.inj ht
      exact ⟨Finset.mem_insert_self _ _, Function.update_self .., hi⟩
    · rw [Function.update_of_ne hji] at ht
      obtain ⟨hlive, hmac, hj⟩ := h.owner j t ht
      have hts : t ≠ s := fun heq => hs (heq ▸ hlive)
      exact ⟨Finset.mem_insert_of_mem hlive, by rwa [Function.update_of_ne hts], hj⟩
  · by_cases hts : t = s
    · subst hts
      rw [Function.update_self, Function.update_self]
    · rw [Function.update_of_ne hts] at hlt hmgmt ⊢
      have howned := h.owned t (Finset.mem_of_mem_insert_of_ne ht hts) hlt hmgmt
      have hti : macId t ≠ i := by
        intro heq
        rw [heq, hfree] at howned
        cases howned
      rwa [Function.update_of_ne hti]

/-- A station goes that owns no id. -/
theorem leave (h : Owns own num live macId)
    (hs : num ≤ macId s ∨ macId s = defaultMgmtMacid) :
    Owns own num (live.erase s) (Function.update macId s id) := by
  refine ⟨h.mgmt, fun j t ht => ?_, fun t ht hlt hne => ?_⟩
  · obtain ⟨hlive, hmac, hj⟩ := h.owner j t ht
    have hts : t ≠ s := by
      rintro rfl
      rcases hs with hs | hs
      · omega
      · exact h.ne_mgmt ht (hmac.symm.trans hs)
    exact ⟨Finset.mem_erase.mpr ⟨hts, hlive⟩, by rwa [Function.update_of_ne hts], hj⟩
  · obtain ⟨hts, hlive⟩ := Finset.mem_erase.mp ht
    rw [Function.update_of_ne hts] at hlt hne ⊢
    exact h.owned t hlive hlt hne

theorem revoke (h : Owns own num live macId) (hs : own (macId s) = some s) :
    Owns (Function.update own (macId s) none) num (live.erase s)
      (Function.update macId s id) := by
  refine ⟨?_, fun j t ht => ?_, fun t ht hlt hne => ?_⟩
  · rw [Function.update_of_ne (h.ne_mgmt hs).symm]
    exact h.mgmt
  · have hj : j ≠ macId s := by
      rintro rfl
      rw [Function.update_self] at ht
      cases ht
    rw [Function.update_of_ne hj] at ht
    obtain ⟨hlive, hmac, hlt⟩ := h.owner j t ht
    have hts : t ≠ s := by
      rintro rfl
      exact hj hmac.symm
    exact ⟨Finset.mem_erase.mpr ⟨hts, hlive⟩, by rwa [Function.update_of_ne hts], hlt⟩
  · obtain ⟨hts, hlive⟩ := Finset.mem_erase.mp ht
    rw [Function.update_of_ne hts] at hlt hne ⊢
    have howned := h.owned t hlive hlt hne
    have hti : macId t ≠ macId s := by
      intro heq
      rw [heq, hs] at howned
      exact hts (Option.some.inj howned).symm
    rwa [Function.update_of_ne hti]

end Owns

/-- The bitmaps and the stations of the table are those of the ledger. -/
structure MacidCtl.Records (ctl : MacidCtl ifaces σ) (padapter : σ → Fin ifaces)
    (own : ℕ → Option σ) : Prop where
  num_le : ctl.num ≤ macidNumSwLimit
  mgmt_lt : defaultMgmtMacid < ctl.num
  mgmt_used : ctl.isUsed defaultMgmtMacid = true
  used_iff : ∀ id ≠ defaultMgmtMacid, ctl.isUsed id = true ↔ ∃ s, own id = some s
  ifG_iff : ∀ id ≠ defaultMgmtMacid, ∀ i,
    (ctl.ifG i).isSet id = true ↔ ∃ s, own id = some s ∧ padapter s = i
  sta_eq : ctl.sta = own

namespace MacidCtl.Records

variable {ctl : MacidCtl ifaces σ} {padapter : σ → Fin ifaces} {own : ℕ → Option σ} {s : σ}
  {i id : ℕ} {iface : Fin ifaces}

/-- A station that owns no id may change its adapter. -/
theorem place (h : ctl.Records padapter own) (hs : ∀ id, own id ≠ some s) :
    ctl.Records (Function.update padapter s iface) own := by
  refine ⟨h.num_le, h.mgmt_lt, h.mgmt_used, h.used_iff, fun id hid i => ?_, h.sta_eq⟩
  have hsame : ∀ t, own id = some t → Function.update padapter s iface t = padapter t := by
    intro t ht
    refine Function.update_of_ne ?_ _ _
    rintro rfl
    exact hs id ht
  rw [h.ifG_iff id hid i]
  exact exists_congr fun t => and_congr_right fun ht => by rw [hsame t ht]

section

omit [DecidableEq σ]

/-- An id that is free in the table is free in the ledger. -/
theorem not_owned (h : ctl.Records padapter own) (hfree : ctl.isUsed i = false) :
    i ≠ defaultMgmtMacid ∧ own i = none := by
  have hne : i ≠ defaultMgmtMacid := by
    rintro rfl
    exact Bool.false_ne_true (hfree.symm.trans h.mgmt_used)
  refine ⟨hne, Option.eq_none_iff_forall_ne_some.mpr fun s hs => ?_⟩
  exact Bool.false_ne_true (hfree.symm.trans ((h.used_iff i hne).mpr ⟨s, hs⟩))

theorem of_eq {ctl' : MacidCtl ifaces σ} (h : ctl.Records padapter own)
    (hnum : ctl'.num = ctl.num) (hused : ctl'.used = ctl.used) (hifG : ctl'.ifG = ctl.ifG)
    (hsta : ctl'.sta = ctl.sta) : ctl'.Records padapter own := by
  have hisUsed : ctl'.isUsed = ctl.isUsed := by
    funext id
    rw [MacidCtl.isUsed, hused, MacidCtl.isUsed]
  refine ⟨hnum ▸ h.num_le, hnum ▸ h.mgmt_lt, hisUsed ▸ h.mgmt_used, hisUsed ▸ h.used_iff, ?_,
    hsta.trans h.sta_eq⟩
  rw [hifG]
  exact h.ifG_iff

/-- **The marks of an allocation record the grant.** -/
theorem take (h : ctl.Records padapter own) (hi : i < ctl.num) (hfree : ctl.isUsed i = false) :
    (ctl.take (padapter s) s i).Records padapter (Function.update own i (some s)) := by
  obtain ⟨hmgmt, hnone⟩ := h.not_owned hfree
  have hsmall : i < 32 := lt_of_lt_of_le hi h.num_le
  have hused : ∀ id, (ctl.take (padapter s) s i).isUsed id =
      (ctl.isUsed id || decide (id = i ∧ i < 32)) := fun id => Cam.Bmp.isSet_set
  refine ⟨h.num_le, h.mgmt_lt, ?_, fun id hid => ?_, fun id hid k => ?_, ?_⟩
  · rw [hused, h.mgmt_used, Bool.true_or]
  · rw [hused, Bool.or_eq_true, h.used_iff id hid, decide_eq_true_iff]
    by_cases hii : id = i
    · simp [hii, hsmall]
    · simp [hii]
  · by_cases hk : k = padapter s
    · subst hk
      show (Function.update ctl.ifG _ _ _ : Bmp).isSet id = true ↔ _
      rw [Function.update_self, Cam.Bmp.isSet_set, Bool.or_eq_true, h.ifG_iff id hid,
        decide_eq_true_iff]
      by_cases hii : id = i
      · subst hii
        simp [hsmall]
      · simp [hii]
    · show (Function.update ctl.ifG _ _ _ : Bmp).isSet id = true ↔ _
      rw [Function.update_of_ne hk, h.ifG_iff id hid]
      by_cases hii : id = i
      · subst hii
        simp [hnone, Ne.symm hk]
      · simp [hii]
  · show Function.update ctl.sta i (some s) = _
    rw [h.sta_eq]

theorem ifaceBmp (h : ctl.Records padapter own) (hid : id ≠ defaultMgmtMacid)
    (hs : own id = some s) : ctl.rtwMacidGetIfaceBmp id = {padapter s} := by
  ext k
  rw [rtwMacidGetIfaceBmp, Finset.mem_filter, h.ifG_iff id hid k, Finset.mem_singleton, hs]
  simp [eq_comm]

/-- **The marks of a release record that the id went back.** -/
theorem drop (h : ctl.Records padapter own) (hid : id ≠ defaultMgmtMacid)
    (hs : own id = some s) :
    (ctl.drop (padapter s) id).Records padapter (Function.update own id none) := by
  have honly : (ctl.rtwMacidGetIfaceBmp id).erase (padapter s) = ∅ := by
    rw [h.ifaceBmp hid hs, Finset.erase_singleton]
  rw [MacidCtl.drop, if_pos honly]
  refine ⟨h.num_le, h.mgmt_lt, ?_, fun j hj => ?_, fun j hj k => ?_, ?_⟩
  · show (ctl.used.clr id).isSet _ = true
    rw [Cam.Bmp.isSet_clr, Bool.and_eq_true, decide_eq_true_iff]
    exact ⟨h.mgmt_used, hid.symm⟩
  · show (ctl.used.clr id).isSet j = true ↔ _
    have hused : ctl.used.isSet j = true ↔ _ := h.used_iff j hj
    rw [Cam.Bmp.isSet_clr, Bool.and_eq_true, hused, decide_eq_true_iff]
    by_cases hji : j = id
    · simp [hji]
    · simp [hji]
  · show (Function.update ctl.ifG _ _ _ : Bmp).isSet j = true ↔ _
    by_cases hk : k = padapter s
    · subst hk
      rw [Function.update_self, Cam.Bmp.isSet_clr, Bool.and_eq_true, h.ifG_iff j hj,
        decide_eq_true_iff]
      by_cases hji : j = id
      · simp [hji]
      · simp [hji]
    · rw [Function.update_of_ne hk, h.ifG_iff j hj]
      by_cases hji : j = id
      · subst hji
        simp [hs, Ne.symm hk]
      · simp [hji]
  · show Function.update ctl.sta id none = _
    rw [h.sta_eq]

end

end MacidCtl.Records

/-! ## The operations on the ledger -/

structure Refines (d : Device ifaces σ) (own : ℕ → Option σ) : Prop where
  records : d.macidCtl.Records d.padapter own
  owns : Owns own d.macidCtl.num d.live d.macId
  ownAddress : ∀ s ∈ d.live, d.macAddr s = d.adapterMacAddr (d.padapter s) →
    d.macidCtl.num ≤ d.macId s

def Device.Available (d : Device ifaces σ) (isBcSta : Bool) (id : ℕ) : Prop :=
  id < d.macidCtl.num ∧ d.macidCtl.isUsed id = false ∧
    (isBcSta = true → d.camCtl.isUsed id = false)

/-- What is asked of an allocation that leaves the station without an id. -/
structure AllocLaw (d d' : Device ifaces σ) (psta : σ) (iface : Fin ifaces) (hwaddr : MacAddr) :
    Prop where
  ownAddress : hwaddr = d.adapterMacAddr iface →
    d'.macId psta = d.macidCtl.num ∧ d'.macidCtl = d.macidCtl ∧ d'.camCtl = d.camCtl
  fails : hwaddr ≠ d.adapterMacAddr iface → d'.macId psta = d.macidCtl.num →
    ∀ id, ¬ d.Available (decide (hwaddr = .bcast)) id

section Step

variable {d d' : Device ifaces σ} {own : ℕ → Option σ} {psta : σ} {isBcSta : Bool} {i : ℕ}

omit [DecidableEq σ] in
theorem freeMacid_eq_some (h : d.freeMacid isBcSta = some i) : d.Available isBcSta i := by
  obtain ⟨hfree, hlt⟩ := And.intro (List.find?_some h) (List.mem_of_find?_eq_some h)
  rw [Bool.and_eq_true, Bool.not_eq_true', Bool.not_eq_true', Bool.and_eq_false_iff] at hfree
  refine ⟨List.mem_range.mp hlt, hfree.2, fun hbc => ?_⟩
  exact hfree.1.resolve_left fun hno => Bool.false_ne_true (hno.symm.trans hbc)

omit [DecidableEq σ] in
theorem freeMacid_eq_none (h : d.freeMacid isBcSta = none) (i : ℕ) : ¬ d.Available isBcSta i := by
  rintro ⟨hlt, hfree, hcam⟩
  have hno := List.find?_eq_none.mp h i (List.mem_range.mpr hlt)
  cases isBcSta with
  | false => simp [hfree] at hno
  | true => simp [hfree, hcam rfl] at hno

/-- The device with the station that `rtw_alloc_stainfo` has set up. -/
def Device.enter (d : Device ifaces σ) (psta : σ) (iface : Fin ifaces) (hwaddr : MacAddr) :
    Device ifaces σ :=
  { d with
    padapter := Function.update d.padapter psta iface
    macAddr := Function.update d.macAddr psta hwaddr
    live := insert psta d.live }

/-- Nothing that the ledger records depends on the entries of the CAM. -/
structure SameTable (d d' : Device ifaces σ) : Prop where
  adapterMacAddr : d'.adapterMacAddr = d.adapterMacAddr
  macAddr : d'.macAddr = d.macAddr
  num : d'.macidCtl.num = d.macidCtl.num
  used : d'.macidCtl.used = d.macidCtl.used
  ifG : d'.macidCtl.ifG = d.macidCtl.ifG
  sta : d'.macidCtl.sta = d.macidCtl.sta
  padapter : d'.padapter = d.padapter
  live : d'.live = d.live
  macId : d'.macId = d.macId

section

omit [DecidableEq σ]

theorem SameTable.records {padapter : σ → Fin ifaces} (h : SameTable d d')
    (hd : d.macidCtl.Records padapter own) : d'.macidCtl.Records padapter own :=
  hd.of_eq h.num h.used h.ifG h.sta

theorem sameTable_resetBcmc {iface : Fin ifaces} : SameTable d (d.resetBcmc iface isBcSta) := by
  rw [Device.resetBcmc]
  split <;> constructor <;> rfl

theorem sameTable_dropCam {iface : Fin ifaces} : SameTable d (d.dropCam iface) := by
  constructor <;> rfl

end

/-- **What an allocation comes to**: the station of the adapter's own address gets no id, some
broadcast stations the default one, and any other the first that is available, if there is one. -/
inductive Allocated (d : Device ifaces σ) (psta : σ) : Device ifaces σ → Prop
  | ownAddress (hown : d.macAddr psta = d.adapterMacAddr (d.padapter psta)) :
      Allocated d psta (d.setMacId psta d.macidCtl.num)
  | mgmt (hother : d.macAddr psta ≠ d.adapterMacAddr (d.padapter psta)) {e : Device ifaces σ}
      (he : SameTable d e) : Allocated d psta (e.setMacId psta defaultMgmtMacid)
  | failed (hother : d.macAddr psta ≠ d.adapterMacAddr (d.padapter psta)) {e : Device ifaces σ}
      (he : SameTable d e) (hnone : ∀ id, ¬ d.Available (decide (d.macAddr psta = .bcast)) id) :
      Allocated d psta (e.setMacId psta d.macidCtl.num)
  | granted (hother : d.macAddr psta ≠ d.adapterMacAddr (d.padapter psta)) {e : Device ifaces σ}
      (he : SameTable d e) {i : ℕ} (hi : d.Available (decide (d.macAddr psta = .bcast)) i) :
      Allocated d psta
        ({ e with macidCtl := e.macidCtl.take (d.padapter psta) psta i }.setMacId psta i)

theorem allocated_rtwAllocMacid {isStaOrNull : Bool} :
    Allocated d psta (d.rtwAllocMacid psta isStaOrNull) := by
  by_cases hown : d.macAddr psta = d.adapterMacAddr (d.padapter psta)
  · rw [Device.rtwAllocMacid, if_pos hown]
    exact .ownAddress hown
  generalize hbc : decide (d.macAddr psta = .bcast) = isBcSta
  have hreset : SameTable d (d.resetBcmc (d.padapter psta) isBcSta) := sameTable_resetBcmc
  have havail : ∀ id, (d.resetBcmc (d.padapter psta) isBcSta).Available isBcSta id ↔
      d.Available isBcSta id := by
    intro id
    rw [Device.resetBcmc]
    split <;> rfl
  rw [Device.rtwAllocMacid]
  dsimp only
  rw [if_neg hown, hbc]
  by_cases hshared : isBcSta = true ∧ isStaOrNull = true
  · rw [if_pos hshared]
    exact .mgmt hown hreset
  rw [if_neg hshared]
  cases hfree : (d.resetBcmc (d.padapter psta) isBcSta).freeMacid isBcSta with
  | none =>
    dsimp only
    rw [hreset.num]
    refine .failed hown hreset fun id hid => ?_
    rw [hbc] at hid
    exact freeMacid_eq_none hfree id ((havail id).mpr hid)
  | some i =>
    have hi := (havail i).mp (freeMacid_eq_some hfree)
    cases isBcSta with
    | false => exact .granted hown hreset (hbc ▸ hi)
    | true =>
      have htake : SameTable d ((d.resetBcmc (d.padapter psta) true).takeCam (d.padapter psta) i) :=
        ⟨hreset.adapterMacAddr, hreset.macAddr, hreset.num, hreset.used, hreset.ifG, hreset.sta,
          hreset.padapter, hreset.live, hreset.macId⟩
      exact .granted hown htake (hbc ▸ hi)

/-- The stations of their adapters' addresses stay without ids. -/
theorem ownAddress_enter {iface : Fin ifaces} {hwaddr : MacAddr} {id : ℕ} (h : Refines d own)
    (hs : psta ∉ d.live) (hid : hwaddr = d.adapterMacAddr iface → d.macidCtl.num ≤ id) :
    ∀ s ∈ insert psta d.live, (d.enter psta iface hwaddr).macAddr s =
      d.adapterMacAddr ((d.enter psta iface hwaddr).padapter s) →
        d.macidCtl.num ≤ Function.update d.macId psta id s := by
  intro s hmem haddr
  change Function.update d.macAddr psta hwaddr s =
    d.adapterMacAddr (Function.update d.padapter psta iface s) at haddr
  by_cases hsp : s = psta
  · subst hsp
    rw [Function.update_self, Function.update_self] at haddr
    rw [Function.update_self]
    exact hid haddr
  · rw [Function.update_of_ne hsp, Function.update_of_ne hsp] at haddr
    rw [Function.update_of_ne hsp]
    exact h.ownAddress s (Finset.mem_of_mem_insert_of_ne hmem hsp) haddr

/-- **An allocation grants an id, or none.** -/
theorem refines_alloc {iface : Fin ifaces} {hwaddr : MacAddr} {isStaOrNull : Bool}
    (h : Refines d own) (hs : psta ∉ d.live) :
    ∃ own', Refines ((d.enter psta iface hwaddr).rtwAllocMacid psta isStaOrNull) own' := by
  have hno : ∀ id, own id ≠ some psta := fun id hid => hs (h.owns.owner id psta hid).1
  have hplaced : (d.enter psta iface hwaddr).macidCtl.Records
      (d.enter psta iface hwaddr).padapter own := h.records.place hno
  have hwithout : ∀ id, d.macidCtl.num ≤ id ∨ id = defaultMgmtMacid →
      Owns own d.macidCtl.num (insert psta d.live) (Function.update d.macId psta id) :=
    fun id hid => h.owns.join hs hid
  -- what is left to show once the table, the ids and the addresses are those of `enter`
  have hsame : ∀ e id own' ctl, SameTable (d.enter psta iface hwaddr) e →
      ctl.Records (d.enter psta iface hwaddr).padapter own' → ctl.num = d.macidCtl.num →
      Owns own' d.macidCtl.num (insert psta d.live) (Function.update d.macId psta id) →
      (hwaddr = d.adapterMacAddr iface → d.macidCtl.num ≤ id) →
      Refines ({ e with macidCtl := ctl }.setMacId psta id) own' := by
    intro e id own' ctl he hrecords hnum howns hown
    refine ⟨?_, ?_, ?_⟩
    · show ctl.Records e.padapter own'
      rwa [he.padapter]
    · show Owns own' ctl.num e.live (Function.update e.macId psta id)
      rwa [hnum, he.live, he.macId]
    · show ∀ s ∈ e.live, e.macAddr s = e.adapterMacAddr (e.padapter s) →
        ctl.num ≤ Function.update e.macId psta id s
      rw [he.live, he.macAddr, he.adapterMacAddr, he.padapter, he.macId, hnum]
      exact ownAddress_enter h hs hown
  have hcases := @allocated_rtwAllocMacid _ _ _ (d.enter psta iface hwaddr) psta isStaOrNull
  have haddr : (d.enter psta iface hwaddr).macAddr psta = hwaddr := Function.update_self ..
  have hface : (d.enter psta iface hwaddr).padapter psta = iface := Function.update_self ..
  generalize (d.enter psta iface hwaddr).rtwAllocMacid psta isStaOrNull = d' at hcases ⊢
  cases hcases with
  | ownAddress =>
    exact ⟨own, hplaced, hwithout _ (.inl le_rfl), ownAddress_enter h hs fun _ => le_rfl⟩
  | mgmt hother he =>
    rw [haddr, hface] at hother
    exact ⟨own, hsame _ _ own _ he (he.records hplaced) he.num (hwithout _ (.inr rfl))
      fun heq => absurd heq hother⟩
  | failed hother he =>
    rw [haddr, hface] at hother
    exact ⟨own, hsame _ _ own _ he (he.records hplaced) he.num (hwithout _ (.inl le_rfl))
      fun heq => absurd heq hother⟩
  | @granted hother e he i hi =>
    rw [haddr, hface] at hother
    obtain ⟨hlt, hfree, -⟩ := hi
    obtain ⟨hmgmt, hnone⟩ := hplaced.not_owned hfree
    have hfree' : e.macidCtl.isUsed i = false := by
      rw [MacidCtl.isUsed, he.used]
      exact hfree
    have htake := @MacidCtl.Records.take _ _ _ _ _ psta _ (he.records hplaced)
      (he.num ▸ hlt) hfree'
    exact ⟨_, hsame _ _ _ _ he htake he.num (h.owns.grant hs hlt hmgmt hnone)
      fun heq => absurd heq hother⟩

omit [DecidableEq σ] in
theorem not_owner_of_exit (h : Refines d own) (hs : psta ∈ d.live)
    (hexit : d.macAddr psta = d.adapterMacAddr (d.padapter psta) ∨
      d.macId psta ≥ d.macidCtl.num ∨ d.macId psta = defaultMgmtMacid ∨
      d.macidCtl.isUsed (d.macId psta) = false ∨
      d.padapter psta ∉ d.macidCtl.rtwMacidGetIfaceBmp (d.macId psta)) :
    d.macidCtl.num ≤ d.macId psta ∨ d.macId psta = defaultMgmtMacid := by
  by_contra hno
  obtain ⟨hlt, hne⟩ := not_or.mp hno
  have howned := h.owns.owned psta hs (not_le.mp hlt) hne
  rcases hexit with haddr | hge | hmgmt | hunused | hiface
  · exact hlt (h.ownAddress psta hs haddr)
  · exact hlt hge
  · exact hne hmgmt
  · exact Bool.false_ne_true (hunused.symm.trans ((h.records.used_iff _ hne).mpr ⟨psta, howned⟩))
  · rw [h.records.ifaceBmp hne howned, Finset.mem_singleton] at hiface
    exact hiface rfl

/-- **A release revokes the id of its station, if it owns one.** -/
theorem refines_release (h : Refines d own) (hs : psta ∈ d.live) :
    ∃ own', Refines { d.rtwReleaseMacid psta with live := d.live.erase psta } own' := by
  have hown : ∀ id, ∀ s ∈ d.live.erase psta, d.macAddr s = d.adapterMacAddr (d.padapter s) →
      d.macidCtl.num ≤ Function.update d.macId psta id s := by
    intro id s hmem haddr
    obtain ⟨hne, hlive⟩ := Finset.mem_erase.mp hmem
    rw [Function.update_of_ne hne]
    exact h.ownAddress s hlive haddr
  rw [Device.rtwReleaseMacid]
  dsimp only
  by_cases hexit : d.macAddr psta = d.adapterMacAddr (d.padapter psta) ∨
      d.macId psta ≥ d.macidCtl.num ∨ d.macId psta = defaultMgmtMacid ∨
      d.macidCtl.isUsed (d.macId psta) = false ∨
      d.padapter psta ∉ d.macidCtl.rtwMacidGetIfaceBmp (d.macId psta)
  · rw [if_pos hexit]
    exact ⟨own, h.records, h.owns.leave (not_owner_of_exit h hs hexit), hown _⟩
  · rw [if_neg hexit]
    simp only [not_or] at hexit
    obtain ⟨-, hlt, hne, -⟩ := hexit
    have howned := h.owns.owned psta hs (not_le.mp hlt) hne
    -- the entries of the CAM go first, if the station is a broadcast station
    have hsame :
        SameTable d (if d.macAddr psta = .bcast then d.dropCam (d.padapter psta) else d) := by
      split_ifs
      · exact sameTable_dropCam
      · constructor <;> rfl
    generalize (if d.macAddr psta = .bcast then d.dropCam (d.padapter psta) else d) = e at hsame ⊢
    have hnum : (e.macidCtl.drop (d.padapter psta) (d.macId psta)).num = d.macidCtl.num := by
      rw [MacidCtl.drop]
      split_ifs <;> exact hsame.num
    refine ⟨Function.update own (d.macId psta) none, ?_, ?_, ?_⟩
    · show (e.macidCtl.drop (d.padapter psta) (d.macId psta)).Records e.padapter _
      rw [hsame.padapter]
      exact (hsame.records h.records).drop hne howned
    · show Owns _ (e.macidCtl.drop _ _).num _ (Function.update e.macId psta e.macidCtl.num)
      rw [hnum, hsame.num, hsame.macId]
      exact h.owns.revoke howned
    · show ∀ s ∈ d.live.erase psta, e.macAddr s = e.adapterMacAddr (e.padapter s) →
        (e.macidCtl.drop _ _).num ≤ Function.update e.macId psta e.macidCtl.num s
      rw [hnum, hsame.num, hsame.macId, hsame.macAddr, hsame.adapterMacAddr, hsame.padapter]
      exact hown _

end Step

/-! ## The table over runs -/

/-- What is asked of the table. -/
structure MacidsOwned (d : Device ifaces σ) : Prop where
  distinct : ∀ s ∈ d.live, ∀ t ∈ d.live, d.macId s = d.macId t → d.macId s < d.macidCtl.num →
    d.macId s ≠ defaultMgmtMacid → s = t
  used_iff : ∀ id ≠ defaultMgmtMacid, d.macidCtl.isUsed id = true ↔
    id < d.macidCtl.num ∧ ∃ s ∈ d.live, d.macId s = id
  sta : ∀ id ≠ defaultMgmtMacid, ∀ s, d.macidCtl.sta id = some s ↔
    id < d.macidCtl.num ∧ s ∈ d.live ∧ d.macId s = id
  ifG : ∀ s ∈ d.live, d.macId s < d.macidCtl.num → d.macId s ≠ defaultMgmtMacid →
    ∀ i, (d.macidCtl.ifG i).isSet (d.macId s) = true ↔ i = d.padapter s

section Runs

variable {d d₀ d' : Device ifaces σ} {own : ℕ → Option σ} {es : List (MacidOp ifaces σ)}

omit [DecidableEq σ] in
/-- **A table that records a ledger is in order.** -/
theorem Refines.macidsOwned (h : Refines d own) : MacidsOwned d := by
  have howned_iff : ∀ id ≠ defaultMgmtMacid, ∀ s, own id = some s ↔
      id < d.macidCtl.num ∧ s ∈ d.live ∧ d.macId s = id := by
    refine fun id hid s => ⟨fun hs => ?_, ?_⟩
    · obtain ⟨hlive, hmac, hlt⟩ := h.owns.owner id s hs
      exact ⟨hlt, hlive, hmac⟩
    · rintro ⟨hlt, hlive, rfl⟩
      exact h.owns.owned s hlive hlt hid
  refine ⟨fun s hs t ht heq hlt hne => ?_, fun id hid => ?_, fun id hid s => ?_,
    fun s hs hlt hne i => ?_⟩
  · have hs' := h.owns.owned s hs hlt hne
    have ht' := h.owns.owned t ht (heq ▸ hlt) (heq ▸ hne)
    rw [← heq, hs'] at ht'
    exact Option.some.inj ht'
  · rw [h.records.used_iff id hid]
    simp only [howned_iff id hid, exists_and_left]
  · rw [h.records.sta_eq, howned_iff id hid s]
  · rw [h.records.ifG_iff _ hne i, h.owns.owned s hs hlt hne]
    simp [eq_comm]

omit [DecidableEq σ] in
/-- At the beginning nobody owns an id. -/
theorem Device.Initial.refines (h : d.Initial) : Refines d fun _ => none := by
  have hbit : ∀ id, ((0 : Bmp).set defaultMgmtMacid).isSet id = decide (id = defaultMgmtMacid) := by
    intro id
    have hzero : (0 : Bmp).isSet id = false := by simp [Cam.Bmp.isSet]
    rw [Cam.Bmp.isSet_set, hzero, Bool.false_or]
    exact decide_eq_decide.mpr (and_iff_left (by decide))
  refine ⟨?_, ⟨rfl, by simp, ?_⟩, ?_⟩
  · rw [h.macidCtl]
    refine ⟨min_le_right _ _, show 1 < min 128 32 by decide, ?_, fun id hid => ?_,
      fun id hid i => ?_, ?_⟩
    · exact (hbit _).trans (decide_eq_true rfl)
    · have hunset := (hbit id).trans (decide_eq_false hid)
      exact iff_of_false (fun hset => Bool.false_ne_true (hunset.symm.trans hset)) (by simp)
    · have hunset := (hbit id).trans (decide_eq_false hid)
      exact iff_of_false (fun hset => Bool.false_ne_true (hunset.symm.trans hset)) (by simp)
    · exact Function.update_eq_self _ _
  · simp [h.live]
  · simp [h.live]

/-- **Every step records a ledger.** -/
theorem refines_step {e : MacidOp ifaces σ} (h : ∃ own, Refines d own)
    (hstep : macidStep d e = some d') : ∃ own, Refines d' own := by
  obtain ⟨own, h⟩ := h
  cases e with
  | alloc psta iface hwaddr isStaOrNull =>
    by_cases hs : psta ∈ d.live
    · rw [macidStep, if_pos hs] at hstep
      cases hstep
    · rw [macidStep, if_neg hs] at hstep
      obtain rfl := Option.some.inj hstep
      exact refines_alloc h hs
  | release psta =>
    by_cases hs : psta ∈ d.live
    · rw [macidStep, if_pos hs] at hstep
      obtain rfl := Option.some.inj hstep
      exact refines_release h hs
    · rw [macidStep, if_neg hs] at hstep
      cases hstep
  | cam used =>
    obtain rfl := Option.some.inj hstep
    exact ⟨own, h.records, h.owns, h.ownAddress⟩

/-- An allocation fails only for want of ids. -/
theorem allocLaw_alloc {psta : σ} {iface : Fin ifaces} {hwaddr : MacAddr} {isStaOrNull : Bool}
    (h : Refines d own)
    (hstep : macidStep d (.alloc psta iface hwaddr isStaOrNull) = some d') :
    AllocLaw d d' psta iface hwaddr := by
  by_cases hs : psta ∈ d.live
  · rw [macidStep, if_pos hs] at hstep
    cases hstep
  rw [macidStep, if_neg hs] at hstep
  obtain rfl := Option.some.inj hstep
  have hcases := @allocated_rtwAllocMacid _ _ _ (d.enter psta iface hwaddr) psta isStaOrNull
  have haddr : (d.enter psta iface hwaddr).macAddr psta = hwaddr := Function.update_self ..
  have hface : (d.enter psta iface hwaddr).padapter psta = iface := Function.update_self ..
  change AllocLaw d ((d.enter psta iface hwaddr).rtwAllocMacid psta isStaOrNull) psta iface hwaddr
  generalize (d.enter psta iface hwaddr).rtwAllocMacid psta isStaOrNull = d' at hcases ⊢
  have hid : ∀ (e : Device ifaces σ) id, (e.setMacId psta id).macId psta = id :=
    fun e id => Function.update_self ..
  cases hcases with
  | ownAddress hown =>
    rw [haddr, hface] at hown
    exact ⟨fun _ => ⟨hid _ _, rfl, rfl⟩, fun hne => absurd hown hne⟩
  | mgmt hother =>
    rw [haddr, hface] at hother
    refine ⟨fun heq => absurd heq hother, fun _ hfailed => ?_⟩
    rw [hid] at hfailed
    exact absurd h.records.mgmt_lt (hfailed ▸ lt_irrefl _)
  | failed hother _ hnone =>
    rw [haddr, hface] at hother
    rw [haddr] at hnone
    exact ⟨fun heq => absurd heq hother, fun _ _ => hnone⟩
  | granted hother _ hi =>
    rw [haddr, hface] at hother
    refine ⟨fun heq => absurd heq hother, fun _ hfailed => ?_⟩
    rw [hid] at hfailed
    exact absurd hfailed hi.1.ne

/-- **The table stays in order, and an allocation fails only for want of ids**, over every run of
allocations and releases; the station of an adapter's own address gets no id. -/
theorem macids_owned (h0 : d₀.Initial) (hrun : Transition.run macidStep d₀ es = some d) :
    MacidsOwned d ∧ ∀ psta iface hwaddr isStaOrNull d',
      macidStep d (.alloc psta iface hwaddr isStaOrNull) = some d' →
        AllocLaw d d' psta iface hwaddr := by
  have hinv : ∀ (d : Device ifaces σ) e d', (∃ own, Refines d own) → macidStep d e = some d' →
      ∃ own, Refines d' own := fun _ _ _ => refines_step
  obtain ⟨own, h⟩ := Transition.run_invariant hinv ⟨_, h0.refines⟩ hrun
  exact ⟨h.macidsOwned, fun _ _ _ _ _ hstep => allocLaw_alloc h hstep⟩

def twoAdapters : Device 2 (Fin 4) where
  macidCtl := MacidCtl.rtwMacidCtlInit { num := min halMacidNum macidNumSwLimit }
  camCtl := { num := 32 }
  adapterMacAddr := fun i => ⟨2, 0, 0, 0, 0, UInt8.ofNat i⟩
  padapter := fun _ => 0
  macAddr := fun _ => .zero
  macId := fun _ => 0
  live := ∅

def fourStations : List (MacidOp 2 (Fin 4)) :=
  [.alloc 0 0 .bcast false, .alloc 1 1 .bcast true, .alloc 2 1 ⟨2, 0, 0, 0, 0, 9⟩ true,
    .alloc 3 0 ⟨2, 0, 0, 0, 0, 8⟩ false, .release 0]

theorem macids_owned_fourStations :
    ∃ d, Transition.run macidStep twoAdapters fourStations = some d ∧
      (d.macId 1, d.macId 2, d.macId 3) = (1, 2, 3) ∧ MacidsOwned d ∧
      ∀ psta iface hwaddr isStaOrNull d',
        macidStep d (.alloc psta iface hwaddr isStaOrNull) = some d' →
          AllocLaw d d' psta iface hwaddr := by
  have hids : (Transition.run macidStep twoAdapters fourStations).map
      (fun d => (d.macId 1, d.macId 2, d.macId 3)) = some (1, 2, 3) := by decide
  obtain ⟨d, hrun, hids⟩ := Option.map_eq_some_iff.mp hids
  exact ⟨d, hrun, hids, macids_owned ⟨rfl, rfl⟩ hrun⟩

def Device.FailsOnlyWhenFull (d : Device ifaces σ) (psta : σ) (iface : Fin ifaces)
    (hwaddr : MacAddr) : Prop :=
  ∀ isStaOrNull d', macidStep d (.alloc psta iface hwaddr isStaOrNull) = some d' →
    d'.macId psta = d.macidCtl.num → ∀ id < d.macidCtl.num, d.macidCtl.isUsed id = true

/-- **The station of the adapter's own address gets no id in an empty table.** -/
theorem not_failsOnlyWhenFull :
    twoAdapters.Initial ∧ ¬ twoAdapters.FailsOnlyWhenFull 0 0 ⟨2, 0, 0, 0, 0, 0⟩ := by
  refine ⟨⟨rfl, rfl⟩, fun hlaw => ?_⟩
  have hused := hlaw true _ rfl (by decide) 0 (by decide)
  exact absurd hused (by decide)

end Runs

end Rtl88x2eu.Sta
