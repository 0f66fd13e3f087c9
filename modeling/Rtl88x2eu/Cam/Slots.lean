import Mathlib.Data.Finset.Image
import Mathlib.Logic.Equiv.Basic
import Rtl88x2eu.Recv.Attrib

/-!
# The slots of the security CAM

The allocator of `rtw_wlan_util.c`: the bitmap of used slots, the driver's copy of the entries, the
search for the entry of a key, the first-fit search for one or two free slots, the swap of two
slots, and the allocator of MAC ids, which reserves slots for the broadcast station of an AP.

`rtw_camid_alloc` and the two key handlers of `rtw_mlme_ext.c` meet in `setKey`: the slots are
taken and the entry is written. `held` is no data of the driver. It records which slots a key was
given, and follows them through swaps.

The broadcast station has no key of its own in this ledger: its slots are those of `iface_bmc`.

## Main definitions

* `Dvobj`
* `rtwCamidSearch`, `rtwGetCamid`, `rtwCamidAlloc`: the allocation of slots
* `clearKeys`
* `rtwSecCamSwap`, `rtwAllocMacid`, `rtwReleaseMacid`
* `Event`, `step`: the sequences of these
-/

namespace Rtl88x2eu.Cam

/-- `struct sec_cam_bmp` and `struct macid_bmp`: one word, both limits being 32. -/
abbrev Bmp := BitVec 32

namespace Bmp

/-- `rtw_sec_camid_is_set`, `rtw_macid_is_set` -/
def isSet (map : Bmp) (id : ℕ) : Bool := if id < 32 then map.getLsbD id else false

/-- `rtw_sec_cam_map_set`, `rtw_macid_map_set` -/
def set (map : Bmp) (id : ℕ) : Bmp := if id < 32 then map ||| BitVec.twoPow 32 id else map

/-- `rtw_sec_cam_map_clr`, `rtw_macid_map_clr` -/
def clr (map : Bmp) (id : ℕ) : Bmp := if id < 32 then map &&& ~~~BitVec.twoPow 32 id else map

variable {map : Bmp} {id i : ℕ}

theorem isSet_set : (map.set id).isSet i = (map.isSet i || decide (i = id ∧ id < 32)) := by
  unfold isSet set
  by_cases hi : i < 32
  · by_cases hid : id < 32
    · rw [if_pos hi, if_pos hi, if_pos hid, BitVec.getLsbD_or, BitVec.getLsbD_twoPow]
      simp [hid, eq_comm]
    · simp [hi, hid]
  · have hne : ¬ (i = id ∧ id < 32) := by omega
    simp [hi, hne]

theorem isSet_clr : (map.clr id).isSet i = (map.isSet i && decide (i ≠ id)) := by
  unfold isSet clr
  by_cases hi : i < 32
  · by_cases hid : id < 32
    · rw [if_pos hi, if_pos hi, if_pos hid, BitVec.getLsbD_and, BitVec.getLsbD_not,
        BitVec.getLsbD_twoPow]
      simp [hi, hid, eq_comm]
    · have hne : i ≠ id := by omega
      simp [hi, hid, hne]
  · simp [hi]

end Bmp

/-! ## The state -/

structure SecCamEnt where
  ctrl : UInt16 := 0
  mac : MacAddr := .zero
  key : Bytes := []
  deriving DecidableEq

structure Key where
  addr : MacAddr
  kid : ℕ
  gk : Bool
  deriving DecidableEq

/-- The low bits of `mlmeinfo->state`. -/
inductive FwState where
  | null | station | ap | adhoc
  deriving DecidableEq

/-- What the functions read of the connection. -/
structure Mlme where
  state : FwState := .null
  assocSuccess : Bool := false
  bssid : MacAddr := .zero
  /-- `MLME_IS_STA(padapter) || MLME_IS_NULL(padapter)` -/
  isStaOrNull : Bool := true
  deriving DecidableEq

def invalidCamId : ℕ := 0xff

def defaultMgmtMacid : ℕ := 1

/-- The parts of `struct dvobj_priv` and of its one adapter that the allocators work on. -/
structure Dvobj where
  /-- `sec_cap & SEC_CAP_CHK_BMC`, which the chip has: the conflict of a group and a pairwise key
  without it is left out -/
  chkBmc : Bool := true
  /-- `sec_cap & SEC_CAP_CHK_EXTRA_SEC` -/
  chkExtraSec : Bool := true
  num : ℕ := 32
  used : Bmp := 0
  camCache : ℕ → SecCamEnt := fun _ => {}
  macidNum : ℕ := 32
  macidUsed : Bmp := 0
  macidBmc : Bmp := 0
  ifG : Bmp := 0
  ifaceBmc : ℕ := invalidCamId
  /-- `psta->cmn.mac_id`, by the station's address -/
  macId : MacAddr → ℕ := fun _ => 0
  macAddr : MacAddr := .zero
  mlme : Mlme := {}
  held : Key → Finset ℕ := fun _ => ∅

namespace Dvobj

def isUsed (s : Dvobj) (id : ℕ) : Bool := if id ≥ s.num then false else s.used.isSet id

def isGk (s : Dvobj) (camId : ℕ) : Bool :=
  if camId ≥ s.num then false
  else if s.isUsed camId = false then false
  else (s.camCache camId).ctrl &&& 0x40 != 0

/-- `cam_cache_chk`; `none` stands for the arguments -1. -/
def camCacheChk (s : Dvobj) (id : ℕ) (addr : MacAddr) (kid : Option ℕ) (gk : Option Bool) : Bool :=
  decide ((s.camCache id).mac = addr) &&
    kid.all (fun kid => decide (kid = ((s.camCache id).ctrl &&& 0x03).toNat)) &&
    gk.all fun gk => gk == s.isGk id

def rtwCamidSearch (s : Dvobj) (addr : MacAddr) (kid : Option ℕ) (gk : Option Bool) : Option ℕ :=
  (List.range s.num).find? fun i => s.camCacheChk i addr kid gk

def reused (s : Dvobj) (addr : MacAddr) (kid : ℕ) (gk : Bool) : Option ℕ :=
  s.rtwCamidSearch addr (some kid) (if s.chkBmc then some gk else none)

def rtwGetCamid (s : Dvobj) (addr : MacAddr) (kid : ℕ) (gk extSec : Bool) : Option ℕ :=
  match s.reused addr kid gk with
  | some i => some i
  | none => (List.range s.num).find? fun i =>
    !s.isUsed i && (!extSec || decide (i + 1 < s.num) && !s.isUsed (i + 1))

/-- The address that `rtw_camid_alloc` looks for. -/
def camAddr (s : Dvobj) : Option MacAddr → Option MacAddr
  | some sta => some sta
  | none =>
    if s.mlme.state = .ap ∨ s.mlme.state = .adhoc then some s.macAddr
    else if s.mlme.assocSuccess then some s.mlme.bssid else none

/-- `rtw_camid_alloc`: the slot, and whether it was in use. -/
def rtwCamidAlloc (s : Dvobj) (sta : Option MacAddr) (kid : ℕ) (gk extSec : Bool) :
    Option (ℕ × Bool) × Dvobj :=
  match (s.camAddr sta).bind fun addr => s.rtwGetCamid addr kid gk extSec with
  | none => (none, s)
  | some camId =>
    let used := s.used.set camId
    (some (camId, s.isUsed camId),
      { s with used := if extSec then used.set (camId + 1) else used })

def rtwCamidSet (s : Dvobj) (camId : ℕ) : Dvobj :=
  if camId < s.num then { s with used := s.used.set camId } else s

def rtwCamidFree (s : Dvobj) (camId : ℕ) : Dvobj :=
  if camId < s.num then { s with used := s.used.clr camId } else s

/-! ## The entries -/

def writeCamCache (s : Dvobj) (id : ℕ) (ent : SecCamEnt) : Dvobj :=
  { s with camCache := Function.update s.camCache id ent }

def clearCamEntry (s : Dvobj) (id : ℕ) : Dvobj := s.writeCamCache id {}

def writeCam (s : Dvobj) (id : ℕ) (ctrl : UInt16) (mac : MacAddr) (key : Bytes) (ext : Bool) :
    Dvobj :=
  if ext then
    (s.writeCamCache id ⟨ctrl, mac, key.take 16⟩).writeCamCache (id + 1)
      ⟨ctrl ||| 0x20, mac, (key.drop 16).take 16⟩
  else s.writeCamCache id ⟨ctrl, mac, key.take 16⟩

def extSec (algorithm : UInt8) : Bool := algorithm &&& 0x10 != 0

/-- `ctrl` in `setkey_hdl` and `set_stakey_hdl`; `spp` is `amsdu_spp_enable`. -/
def keyCtrl (kid : ℕ) (gk : Bool) (algorithm : UInt8) (spp : Bool) : UInt16 :=
  (0x8000 : UInt16) ||| (algorithm &&& 0x07).toUInt16 <<< 2 ||| UInt16.ofNat kid |||
    (if gk then 0x40 else 0) ||| (if extSec algorithm then 0x200 else 0) |||
    (if spp then 0x80 else 0)

def keySlots (camId : ℕ) (ext : Bool) : Finset ℕ := if ext then {camId, camId + 1} else {camId}

/-- The ledger after `k` got slots. Without `SEC_CAP_CHK_BMC` the pairwise and the group key of one
id share an entry, so that the new key replaces the other one. -/
def give (s : Dvobj) (k : Key) (slots : Finset ℕ) : Key → Finset ℕ := fun k' =>
  if k' = k then slots
  else if s.chkBmc = false ∧ k'.addr = k.addr ∧ k'.kid = k.kid then ∅
  else s.held k'

def setKey (s : Dvobj) (sta : Option MacAddr) (kid : ℕ) (gk : Bool) (algorithm : UInt8) (spp : Bool)
    (key : Bytes) : Dvobj :=
  match s.camAddr sta, s.rtwCamidAlloc sta kid gk (extSec algorithm) with
  | some addr, (some (camId, _), s') =>
    { s'.writeCam camId (keyCtrl kid gk algorithm spp) addr key (extSec algorithm) with
      held := s.give ⟨addr, kid, gk⟩ (keySlots camId (extSec algorithm)) }
  | _, _ => s

/-- The group key of an AP or in an IBSS, which `setkey_hdl` writes at `iface_bmc`. -/
def setBmcKey (s : Dvobj) (kid : ℕ) (algorithm : UInt8) (spp : Bool) (key : Bytes) : Dvobj :=
  s.writeCam s.ifaceBmc (keyCtrl kid true algorithm spp) s.macAddr key (extSec algorithm)

def clearLoop (addr : MacAddr) (kid : Option ℕ) (gk : Option Bool) : ℕ → Dvobj → Dvobj
  | 0, s => s
  | fuel + 1, s =>
    match s.rtwCamidSearch addr kid gk with
    | none => s
    | some camId => clearLoop addr kid gk fuel ((s.clearCamEntry camId).rtwCamidFree camId)

def Named (k : Key) (addr : MacAddr) (kid : Option ℕ) (gk : Option Bool) : Prop :=
  k.addr = addr ∧ (∀ i ∈ kid, i = k.kid) ∧ ∀ g ∈ gk, g = k.gk

instance decidableNamed (k : Key) (addr : MacAddr) (kid : Option ℕ) (gk : Option Bool) :
    Decidable (Named k addr kid gk) :=
  inferInstanceAs (Decidable (_ ∧ _ ∧ _))

/-- The slots of the keys that the arguments name are given back. An entry is cleared at most once,
so that `num` rounds are enough. -/
def clearKeys (s : Dvobj) (addr : MacAddr) (kid : Option ℕ) (gk : Option Bool) : Dvobj :=
  { clearLoop addr kid gk s.num s with
    held := fun k => if Named k addr kid gk then ∅ else s.held k }

/-- `rtw_sec_cam_swap`; `rtw_mi_update_ap_bmc_camid` is empty without `CONFIG_CONCURRENT_MODE`. -/
def rtwSecCamSwap (s : Dvobj) (a b : ℕ) : Dvobj :=
  if a = b then s
  else
    let aUsed := s.isUsed a
    let bUsed := s.isUsed b
    let cacheA := s.camCache a
    let cacheB := s.camCache b
    let s := if aUsed then (s.rtwCamidFree a).clearCamEntry a else s
    let s := if bUsed then (s.rtwCamidFree b).clearCamEntry b else s
    let s := if aUsed then (s.writeCamCache b cacheA).rtwCamidSet b else s
    let s := if bUsed then (s.writeCamCache a cacheB).rtwCamidSet a else s
    { s with held := fun k => (s.held k).image (Equiv.swap a b) }

def macidIsUsed (s : Dvobj) (id : ℕ) : Bool := s.macidUsed.isSet id

/-- The loop of `rtw_alloc_macid`. -/
def freeMacid (s : Dvobj) (isBcSta : Bool) : Option ℕ :=
  (List.range s.macidNum).find? fun i => !(isBcSta && s.isUsed i) && !s.macidIsUsed i

def rtwAllocMacid (s : Dvobj) (addr : MacAddr) : Dvobj :=
  if addr = s.macAddr then { s with macId := Function.update s.macId addr s.macidNum }
  else
    let isBcSta := decide (addr = .bcast)
    let s := if isBcSta then { s with ifaceBmc := invalidCamId } else s
    if isBcSta ∧ s.mlme.isStaOrNull then
      { s with macId := Function.update s.macId addr defaultMgmtMacid }
    else
      match s.freeMacid isBcSta with
      | none => { s with macId := Function.update s.macId addr s.macidNum }
      | some i =>
        let s := { s with
          macidUsed := s.macidUsed.set i, ifG := s.ifG.set i
          macId := Function.update s.macId addr i }
        if isBcSta then
          let used := s.used.set i
          { s with
            macidBmc := s.macidBmc.set i, ifaceBmc := i
            used := if s.chkExtraSec then used.set (i + 1) else used }
        else s

/-- `rtw_release_macid`; with one adapter the bitmap of interfaces has the one bit of `if_g[0]`. -/
def rtwReleaseMacid (s : Dvobj) (addr : MacAddr) : Dvobj :=
  let macId := s.macId addr
  let exit (s : Dvobj) : Dvobj := { s with macId := Function.update s.macId addr s.macidNum }
  if addr = s.macAddr ∨ macId ≥ s.macidNum ∨ macId = defaultMgmtMacid ∨
    s.macidIsUsed macId = false ∨ s.ifG.isSet macId = false then exit s
  else
    let s :=
      if addr = .bcast then
        let id := s.ifaceBmc
        let used := s.used.clr id
        { s with
          used :=
            if id ≠ invalidCamId ∧ id < s.num then
              if s.chkExtraSec then used.clr (id + 1) else used
            else s.used
          ifaceBmc := invalidCamId }
      else s
    exit { s with
      ifG := s.ifG.clr macId, macidUsed := s.macidUsed.clr macId
      macidBmc := s.macidBmc.clr macId }

end Dvobj

/-- The operations; `mlme` lets the connection change between them. -/
inductive Event where
  | mlme (m : Mlme)
  | setKey (sta : Option MacAddr) (kid : ℕ) (gk : Bool) (algorithm : UInt8) (spp : Bool)
      (key : Bytes)
  | setBmcKey (kid : ℕ) (algorithm : UInt8) (spp : Bool) (key : Bytes)
  | clearKeys (addr : MacAddr) (kid : Option ℕ) (gk : Option Bool)
  | swap (a b : ℕ)
  | allocMacid (addr : MacAddr)
  | releaseMacid (addr : MacAddr)

/-- One operation; none of them is refused. -/
def step (s : Dvobj) : Event → Option Dvobj
  | .mlme m => some { s with mlme := m }
  | .setKey sta kid gk algorithm spp key => some (s.setKey sta kid gk algorithm spp key)
  | .setBmcKey kid algorithm spp key => some (s.setBmcKey kid algorithm spp key)
  | .clearKeys addr kid gk => some (s.clearKeys addr kid gk)
  | .swap a b => some (s.rtwSecCamSwap a b)
  | .allocMacid addr => some (s.rtwAllocMacid addr)
  | .releaseMacid addr => some (s.rtwReleaseMacid addr)

end Rtl88x2eu.Cam
