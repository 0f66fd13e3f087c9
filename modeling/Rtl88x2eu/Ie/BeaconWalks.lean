import Rtl88x2eu.Ie.ChannelSwitch

/-!
# The element walks of a beacon

`update_beacon_info`, `is_ap_in_tkip`, `should_forbid_n_rate`, `is_ap_in_wep` and `check_assoc_AP`
of `rtw_wlan_util.c`. Like `process_csa_ie`, each takes the bytes of an element at fixed offsets
into its body, whatever the length byte says.

The addresses count from the first byte that the function is given, and are not reduced modulo
`2 ^ 32`: no buffer is so long. `memcmp` reads all bytes that it is given. What the functions do to
a station or to the hardware besides is left out.

## Main definitions

* `updateBeaconInfo`, `isApInTkip`, `shouldForbidNRate`, `isApInWep`, `checkAssocAp`
* `BeaconFits`, `TkipFits`, `NRateFits`, `WepFits`, `AssocFits`: the bytes that are taken of an
  element lie in the buffer

## Main results

* `beaconWalks_iff`: when the walks stay inside, and when a switch is scheduled as it should be
* `not_insideOf_processCsaIe`: an announcement that is cut off
-/

namespace Rtl88x2eu.Ie

def vendorSpecificIe : UInt8 := 221

def rsnIe2 : UInt8 := 48

def htExtraInfoIe : UInt8 := 61

def erpinfoIe : UInt8 := 42

def eidOpModeNotification : UInt8 := 199

/-- `sizeof(NDIS_802_11_FIXED_IEs)`, which is `_BEACON_IE_OFFSET_` too. -/
def fixedIes : ℕ := 12

def wlanHdrA3Len : ℕ := 24

/-! ## The security of an AP -/

def rtwWpaOui : Bytes := [0x00, 0x50, 0xf2, 0x01]

def wpaTkipCipher : Bytes := [0x00, 0x50, 0xf2, 0x02]

def rsnTkipCipher : Bytes := [0x00, 0x0f, 0xac, 0x02]

def wpaCipherSuiteCcmp : Bytes := [0x00, 0x50, 0xf2, 0x04]

def rsnCipherSuiteCcmp : Bytes := [0x00, 0x0f, 0xac, 0x04]

def rtwGetCapability (ies : Bytes) : ℕ := ies.le16 10

def privacy (ies : Bytes) : Bool := (rtwGetCapability ies).testBit 4

def ofPrivate (w : ElemWalk Unit Bool) (ies : Bytes) (ieLength : ℕ) : WalkOutcome Bool :=
  let o := if privacy ies then w.outcome ies ieLength () else ⟨some false, []⟩
  { o with reads := 10 :: 11 :: o.reads }

def tkipWalk : ElemWalk Unit Bool where
  start := fixedIes
  pass p q _ :=
    if p.u8 q = vendorSpecificIe then
      if dataIs p q 0 rtwWpaOui && dataIs p q 12 wpaTkipCipher then .inr true else .inl ()
    else if p.u8 q = rsnIe2 then
      if dataIs p q 8 rsnTkipCipher then .inr true else .inl ()
    else .inl ()
  log p q _ :=
    if p.u8 q = vendorSpecificIe then
      dataAt q 0 4 ++ if dataIs p q 0 rtwWpaOui then dataAt q 12 4 else []
    else if p.u8 q = rsnIe2 then dataAt q 8 4
    else []
  leave _ := false

def isApInTkip : Bytes → ℕ → WalkOutcome Bool := ofPrivate tkipWalk

def nRateWalk : ElemWalk Unit Bool where
  start := fixedIes
  pass p q _ :=
    if p.u8 q = vendorSpecificIe then
      if dataIs p q 0 rtwWpaOui &&
        (dataIs p q 12 wpaCipherSuiteCcmp || dataIs p q 16 wpaCipherSuiteCcmp) then .inr false
      else .inl ()
    else if p.u8 q = rsnIe2 then
      if dataIs p q 8 rsnCipherSuiteCcmp || dataIs p q 12 rsnCipherSuiteCcmp then .inr false
      else .inl ()
    else .inl ()
  log p q _ :=
    if p.u8 q = vendorSpecificIe then
      dataAt q 0 4 ++ if dataIs p q 0 rtwWpaOui then
        dataAt q 12 4 ++ if dataIs p q 12 wpaCipherSuiteCcmp then [] else dataAt q 16 4
      else []
    else if p.u8 q = rsnIe2 then
      dataAt q 8 4 ++ if dataIs p q 8 rsnCipherSuiteCcmp then [] else dataAt q 12 4
    else []
  leave _ := true

def shouldForbidNRate : Bytes → ℕ → WalkOutcome Bool := ofPrivate nRateWalk

def wepWalk : ElemWalk Unit Bool where
  start := fixedIes
  pass p q _ :=
    if p.u8 q = vendorSpecificIe then
      if dataIs p q 0 rtwWpaOui then .inr false else .inl ()
    else if p.u8 q = rsnIe2 then .inr false
    else .inl ()
  log p q _ := if p.u8 q = vendorSpecificIe then dataAt q 0 4 else []
  leave _ := true

def isApInWep : Bytes → ℕ → WalkOutcome Bool := ofPrivate wepWalk

/-- The vendors that `check_assoc_AP` tells apart. -/
inductive HtIotPeer
  | unknown | realtek | realtek92se | broadcom | ralink | atheros | cisco | marvell
  | realtekSoftap | airgo | realtekJaguarBcutap | realtekJaguarCcutap
  deriving DecidableEq

def ouisBeforeRealtek : List (Bytes × HtIotPeer) :=
  [([0x00, 0x03, 0x7f], .atheros), ([0x00, 0x13, 0x74], .atheros),
    ([0x00, 0x10, 0x18], .broadcom), ([0x00, 0x0a, 0xf7], .broadcom),
    ([0x00, 0x05, 0xb5], .broadcom), ([0x00, 0x50, 0x43], .marvell),
    ([0x00, 0x0c, 0x43], .ralink), ([0x00, 0x40, 0x96], .cisco)]

def realtekOui : Bytes := [0x00, 0xe0, 0x4c]

def airgocapOui : Bytes := [0x00, 0x0a, 0xf5]

def realtekVendor (p : Bytes) (q : ℕ) : HtIotPeer :=
  if 5 ≤ bodyLen p q then
    -- `RT_HT_CAP_USE_92SE`, `RT_HT_CAP_USE_SOFTAP`
    let v := if data p q 4 = 1 ∧ data p q 5 &&& 0x20 ≠ 0 then .realtek92se else .realtek
    let v := if data p q 5 &&& 0x10 ≠ 0 then .realtekSoftap else v
    if data p q 4 = 2 then
      let v := if data p q 6 &&& 0x02 ≠ 0 then .realtekJaguarBcutap else v
      if data p q 6 &&& 0x04 ≠ 0 then .realtekJaguarCcutap else v
    else v
  else .realtek

def assocWalk : ElemWalk Unit HtIotPeer where
  start := fixedIes
  pass p q _ :=
    if p.u8 q = vendorSpecificIe then
      match ouisBeforeRealtek.find? fun v => dataIs p q 0 v.1 with
      | some v => .inr v.2
      | none =>
        if dataIs p q 0 realtekOui then .inr (realtekVendor p q)
        else if dataIs p q 0 airgocapOui then .inr .airgo
        else .inl ()
    else .inl ()
  log p q _ :=
    if p.u8 q = vendorSpecificIe then
      dataAt q 0 3 ++ if dataIs p q 0 realtekOui then
        [q + 1] ++ if 5 ≤ bodyLen p q then
          dataAt q 4 2 ++ if data p q 4 = 2 then dataAt q 6 1 else []
        else []
      else []
    else []
  leave _ := .unknown

def checkAssocAp (pframe : Bytes) (len : ℕ) : WalkOutcome HtIotPeer :=
  assocWalk.outcome pframe len ()

/-! ## `update_beacon_info` -/

structure BeaconState where
  qosOption : Bool
  wmmEnable : Bool
  wmmParam : Bytes
  /-- How often `report_wmm_edca_update` was called. -/
  edcaReports : ℕ
  htOption : Bool
  vhtOption : Bool
  /-- The chip and the registry allow 40 MHz on the channel. -/
  cbw40Enable : Bool
  curBwmode : ℕ
  curChOffset : ℕ
  bwmodeUpdated : Bool
  htInfoEnable : Bool
  htInfo : Bytes
  /-- The byte that `rtw_process_vht_op_mode_notify` has got last. -/
  opMode : Option UInt8
  erpEnable : Bool
  erpIe : UInt8

def wmmParaOui : Bytes := [0x00, 0x50, 0xf2, 0x02, 0x01, 0x01]

def wlanWmmLen : ℕ := 24

def wmmParaLen : ℕ := 18

def htInfoLen : ℕ := 22

namespace BeaconState

variable (s : BeaconState) (p : Bytes) (q : ℕ)

def wmmParamHandler : BeaconState :=
  if !s.qosOption then { s with wmmEnable := false }
  else if s.wmmParam = p.read (q + 8) wmmParaLen then s
  else
    { s with
      wmmParam := p.read (q + 8) wmmParaLen
      wmmEnable := true
      edcaReports := s.edcaReports + 1 }

/-- The bandwidth and the offset that an HT information element asks for. -/
def newBwmode : ℕ × ℕ :=
  let info := data p q 1
  if info &&& 0x04 ≠ 0 ∧ s.cbw40Enable then
    if info &&& 0x03 = 1 then (1, 1) else if info &&& 0x03 = 3 then (1, 2) else (0, 0)
  else (0, 0)

/-- The element is looked at. -/
def checksBwmode : Bool := s.htOption && s.curBwmode < 2

/-- The bandwidth goes down. -/
def narrows : Bool :=
  let new := s.newBwmode p q
  (new.1 ≠ s.curBwmode || new.2 ≠ s.curChOffset) && new.1 < s.curBwmode

def htInfoHandler : BeaconState :=
  if !s.htOption then s
  else if htInfoLen < bodyLen p q then s
  else
    { s with
      htInfoEnable := true
      htInfo := p.read (q + 2) (bodyLen p q) ++ s.htInfo.drop (bodyLen p q) }

def bwmodeUpdateCheck : BeaconState :=
  if !s.checksBwmode then s
  else if htInfoLen < bodyLen p q then s
  else if s.narrows p q then
    BeaconState.htInfoHandler
      { s with
        bwmodeUpdated := true
        curBwmode := (s.newBwmode p q).1
        curChOffset := (s.newBwmode p q).2 } p q
  else { s with bwmodeUpdated := false }

def erpIeHandler : BeaconState :=
  if 1 < bodyLen p q then s
  else
    { s with
      erpEnable := true
      erpIe := if bodyLen p q = 1 then data p q 0 else s.erpIe }

end BeaconState

def beaconWalk : ElemWalk BeaconState BeaconState where
  start := fixedIes + wlanHdrA3Len
  pass p q s := .inl <|
    if p.u8 q = vendorSpecificIe then
      if dataIs p q 0 wmmParaOui && bodyLen p q = wlanWmmLen then s.wmmParamHandler p q else s
    else if p.u8 q = htExtraInfoIe then s.bwmodeUpdateCheck p q
    else if p.u8 q = eidOpModeNotification then
      if s.vhtOption then { s with opMode := some (data p q 0) } else s
    else if p.u8 q = erpinfoIe then s.erpIeHandler p q
    else s
  log p q s :=
    if p.u8 q = vendorSpecificIe then
      dataAt q 0 6 ++ if dataIs p q 0 wmmParaOui then
        [q + 1] ++ if bodyLen p q = wlanWmmLen ∧ s.qosOption then dataAt q 6 wmmParaLen else []
      else []
    else if p.u8 q = htExtraInfoIe then
      if s.checksBwmode then
        [q + 1] ++ if bodyLen p q ≤ htInfoLen then
          dataAt q 1 1 ++ if s.narrows p q then dataAt q 0 (bodyLen p q) else []
        else []
      else []
    else if p.u8 q = eidOpModeNotification then
      if s.vhtOption then dataAt q 0 1 else []
    else if p.u8 q = erpinfoIe then
      [q + 1] ++ if bodyLen p q ≤ 1 then dataAt q 0 (bodyLen p q) else []
    else []
  leave s := s

/-- Where the loop of `update_beacon_info` ends: the length of the elements is the unsigned
difference. -/
def beaconLimit (pktLen : ℕ) : ℕ :=
  fixedIes + wlanHdrA3Len + (pktLen + 2 ^ 32 - (fixedIes + wlanHdrA3Len)) % 2 ^ 32

def updateBeaconInfo (s : BeaconState) (pframe : Bytes) (pktLen : ℕ) : WalkOutcome BeaconState :=
  beaconWalk.outcome pframe (beaconLimit pktLen) s

/-! ## The bytes that are taken of an element -/

section Fits

/-- What `is_ap_in_tkip` takes of an element lies before `n`. -/
@[mk_iff]
structure TkipFits (p : Bytes) (n q : ℕ) : Prop where
  header : q + 2 ≤ n
  vendor : p.u8 q = vendorSpecificIe → q + 6 ≤ n
  wpa : p.u8 q = vendorSpecificIe → dataIs p q 0 rtwWpaOui = true → q + 18 ≤ n
  rsn : p.u8 q = rsnIe2 → q + 14 ≤ n

/-- What `should_forbid_n_rate` takes of an element lies before `n`. -/
@[mk_iff]
structure NRateFits (p : Bytes) (n q : ℕ) : Prop where
  header : q + 2 ≤ n
  vendor : p.u8 q = vendorSpecificIe → q + 6 ≤ n
  wpa : p.u8 q = vendorSpecificIe → dataIs p q 0 rtwWpaOui = true → q + 18 ≤ n
  second : p.u8 q = vendorSpecificIe → dataIs p q 0 rtwWpaOui = true →
    dataIs p q 12 wpaCipherSuiteCcmp = false → q + 22 ≤ n
  rsn : p.u8 q = rsnIe2 → q + 14 ≤ n
  pairwise : p.u8 q = rsnIe2 → dataIs p q 8 rsnCipherSuiteCcmp = false → q + 18 ≤ n

/-- What `is_ap_in_wep` takes of an element lies before `n`; of one with the RSN id it takes no
length. -/
@[mk_iff]
structure WepFits (p : Bytes) (n q : ℕ) : Prop where
  id : q < n
  header : p.u8 q ≠ rsnIe2 → q + 2 ≤ n
  vendor : p.u8 q = vendorSpecificIe → q + 6 ≤ n

/-- What `check_assoc_AP` takes of an element lies before `n`. -/
@[mk_iff]
structure AssocFits (p : Bytes) (n q : ℕ) : Prop where
  header : q + 2 ≤ n
  vendor : p.u8 q = vendorSpecificIe → q + 5 ≤ n
  realtek : p.u8 q = vendorSpecificIe → dataIs p q 0 realtekOui = true → 5 ≤ bodyLen p q → q + 8 ≤ n
  jaguar : p.u8 q = vendorSpecificIe → dataIs p q 0 realtekOui = true → 5 ≤ bodyLen p q →
    data p q 4 = 2 → q + 9 ≤ n

@[mk_iff]
structure BeaconFits (p : Bytes) (n q : ℕ) (s : BeaconState) : Prop where
  header : q + 2 ≤ n
  vendor : p.u8 q = vendorSpecificIe → q + 8 ≤ n
  wmm : p.u8 q = vendorSpecificIe → dataIs p q 0 wmmParaOui = true →
    bodyLen p q = wlanWmmLen → s.qosOption = true → q + 26 ≤ n
  htInfo : p.u8 q = htExtraInfoIe → s.checksBwmode = true → bodyLen p q ≤ htInfoLen → q + 4 ≤ n
  narrowed : p.u8 q = htExtraInfoIe → s.checksBwmode = true → bodyLen p q ≤ htInfoLen →
    s.narrows p q = true → q + 2 + bodyLen p q ≤ n
  opMode : p.u8 q = eidOpModeNotification → s.vhtOption = true → q + 3 ≤ n
  erp : p.u8 q = erpinfoIe → bodyLen p q ≤ 1 → q + 2 + bodyLen p q ≤ n

variable {p : Bytes} {n q k count : ℕ}

theorem tkipWalk_staysAt : tkipWalk.StaysAt p n q () ↔ TkipFits p n q := by
  unfold ElemWalk.StaysAt tkipWalk
  by_cases hv : p.u8 q = vendorSpecificIe
  · have hr : ¬vendorSpecificIe = rsnIe2 := by decide
    cases houi : dataIs p q 0 rtwWpaOui <;> cases hc : dataIs p q 12 wpaTkipCipher <;>
      simp [hv, hr, houi, hc, or_imp, forall_and, forall_dataAt, tkipFits_iff] <;> omega
  · by_cases hr : p.u8 q = rsnIe2
    · have hv' : ¬rsnIe2 = vendorSpecificIe := by decide
      cases hc : dataIs p q 8 rsnTkipCipher <;>
        simp [hr, hv', hc, forall_dataAt, tkipFits_iff] <;> omega
    · simp [hv, hr, tkipFits_iff]
      omega

theorem nRateWalk_staysAt : nRateWalk.StaysAt p n q () ↔ NRateFits p n q := by
  unfold ElemWalk.StaysAt nRateWalk
  by_cases hv : p.u8 q = vendorSpecificIe
  · have hr : ¬vendorSpecificIe = rsnIe2 := by decide
    cases houi : dataIs p q 0 rtwWpaOui <;> cases hc : dataIs p q 12 wpaCipherSuiteCcmp <;>
      cases hc' : dataIs p q 16 wpaCipherSuiteCcmp <;>
      simp [hv, hr, houi, hc, hc', or_imp, forall_and, forall_dataAt, nRateFits_iff] <;> omega
  · by_cases hr : p.u8 q = rsnIe2
    · have hv' : ¬rsnIe2 = vendorSpecificIe := by decide
      cases hc : dataIs p q 8 rsnCipherSuiteCcmp <;>
        cases hc' : dataIs p q 12 rsnCipherSuiteCcmp <;>
        simp [hr, hv', hc, hc', or_imp, forall_and, forall_dataAt, nRateFits_iff] <;> omega
    · simp [hv, hr, nRateFits_iff]
      omega

theorem wepWalk_staysAt : wepWalk.StaysAt p n q () ↔ WepFits p n q := by
  unfold ElemWalk.StaysAt wepWalk
  by_cases hv : p.u8 q = vendorSpecificIe
  · have hr : ¬vendorSpecificIe = rsnIe2 := by decide
    cases houi : dataIs p q 0 rtwWpaOui <;>
      simp [hv, hr, houi, forall_dataAt, wepFits_iff] <;> omega
  · by_cases hr : p.u8 q = rsnIe2
    · have hv' : ¬rsnIe2 = vendorSpecificIe := by decide
      simp [hr, hv', wepFits_iff]
    · simp [hv, hr, wepFits_iff]
      omega

theorem not_realtek {v : Bytes × HtIotPeer}
    (h : ouisBeforeRealtek.find? (fun v => dataIs p q 0 v.1) = some v) :
    dataIs p q 0 realtekOui = false := by
  have hmem := List.mem_of_find?_eq_some h
  have hhit : dataIs p q 0 v.1 = true := by simpa only using List.find?_some h
  have hdata : p.read (q + 2 + 0) v.1.length = v.1 := of_decide_eq_true hhit
  have hother : ∀ v ∈ ouisBeforeRealtek, v.1.length = 3 ∧ v.1 ≠ realtekOui := by decide
  obtain ⟨hlen, hne⟩ := hother v hmem
  rw [hlen] at hdata
  exact decide_eq_false fun heq => hne (hdata.symm.trans heq)

theorem assocWalk_staysAt : assocWalk.StaysAt p n q () ↔ AssocFits p n q := by
  unfold ElemWalk.StaysAt assocWalk
  by_cases hv : p.u8 q = vendorSpecificIe
  · cases hfound : ouisBeforeRealtek.find? fun v => dataIs p q 0 v.1 with
    | some v =>
      simp [hv, hfound, not_realtek hfound, forall_dataAt, assocFits_iff]
      omega
    | none =>
      cases houi : dataIs p q 0 realtekOui
      · cases hair : dataIs p q 0 airgocapOui <;>
          simp [hv, hfound, houi, hair, forall_dataAt, assocFits_iff] <;> omega
      · by_cases hlen : 5 ≤ bodyLen p q <;> by_cases hd : data p q 4 = 2 <;>
          simp [hv, hfound, houi, hlen, hd, or_imp, forall_and, forall_dataAt, assocFits_iff] <;>
          omega
  · simp [hv, assocFits_iff]
    omega

theorem beaconWalk_staysAt {s : BeaconState} :
    beaconWalk.StaysAt p n q s ↔ BeaconFits p n q s := by
  unfold ElemWalk.StaysAt beaconWalk
  have hne : vendorSpecificIe ≠ htExtraInfoIe ∧ vendorSpecificIe ≠ eidOpModeNotification ∧
    vendorSpecificIe ≠ erpinfoIe ∧ htExtraInfoIe ≠ eidOpModeNotification ∧
    htExtraInfoIe ≠ erpinfoIe ∧ eidOpModeNotification ≠ erpinfoIe := by decide
  obtain ⟨hvh, hvo, hve, hho, hhe, hoe⟩ := hne
  by_cases hv : p.u8 q = vendorSpecificIe
  · cases houi : dataIs p q 0 wmmParaOui <;> by_cases hlen : bodyLen p q = wlanWmmLen <;>
      cases hqos : s.qosOption <;>
      simp [hv, hvh, hvo, hve, houi, hlen, hqos, or_imp, forall_and, forall_dataAt, wmmParaLen,
        beaconFits_iff] <;> omega
  by_cases hh : p.u8 q = htExtraInfoIe
  · cases hb : s.checksBwmode <;> by_cases hlen : bodyLen p q ≤ htInfoLen <;>
      cases hn : s.narrows p q <;>
      simp [hh, hvh.symm, hho, hhe, hb, hlen, hn, or_imp, forall_and, forall_dataAt,
        beaconFits_iff] <;> omega
  by_cases ho : p.u8 q = eidOpModeNotification
  · cases hvht : s.vhtOption <;>
      simp [ho, hvo.symm, hho.symm, hoe, hvht, forall_dataAt, beaconFits_iff] <;> omega
  by_cases he : p.u8 q = erpinfoIe
  · by_cases hlen : bodyLen p q ≤ 1 <;>
      simp [he, hve.symm, hhe.symm, hoe.symm, hlen, or_imp, forall_and, forall_dataAt,
        beaconFits_iff] <;> omega
  · simp [hv, hh, ho, he, beaconFits_iff]
    omega

end Fits

section Walks

variable {p : Bytes} {n : ℕ} {L : List CsaElem} {c : CsaConfig} {rfctl : RfCtl}

theorem insideOf_ofPrivate_iff {w : ElemWalk Unit Bool} {Fits : Bytes → ℕ → ℕ → Prop}
    (hstays : ∀ q, w.StaysAt p n q () ↔ Fits p n q) :
    InsideOf (ofPrivate w p n) n ↔
      12 ≤ n ∧ (privacy p = true → ∀ q t, w.Visits p n () q t → Fits p n q) := by
  have hwalk : InsideOf (w.outcome p n ()) n ↔ ∀ q t, w.Visits p n () q t → Fits p n q :=
    ElemWalk.insideOf_outcome_iff.trans
      (forall₂_congr fun q _ => imp_congr_right fun _ => hstays q)
  unfold ofPrivate
  cases hprivate : privacy p with
  | false =>
    constructor
    · rintro ⟨-, hreads⟩
      exact ⟨hreads 11 (by simp), fun h => absurd h (by decide)⟩
    · rintro ⟨hn, -⟩
      refine ⟨rfl, fun a ha => ?_⟩
      have hcases : a = 10 ∨ a = 11 := by simpa using ha
      omega
  | true =>
    rw [if_pos rfl]
    constructor
    · rintro ⟨hends, hreads⟩
      refine ⟨hreads 11 (by simp), fun _ => hwalk.mp ⟨hends, fun a ha => ?_⟩⟩
      exact hreads a (List.mem_cons_of_mem _ (List.mem_cons_of_mem _ ha))
    · rintro ⟨hn, hfits⟩
      obtain ⟨hends, hreads⟩ := hwalk.mpr (hfits rfl)
      refine ⟨hends, fun a ha => ?_⟩
      rcases List.mem_cons.mp ha with rfl | ha
      · omega
      rcases List.mem_cons.mp ha with rfl | ha
      · omega
      · exact hreads a ha

end Walks

/-- **The walks stay inside the beacon** exactly if what is taken of each element that they come to
lies in it. A list (of whole elements, unless a switch is under way) schedules a switch as it
announces it exactly if the announcements are timely. -/
theorem beaconWalks_iff (p : Bytes) (n : ℕ) (c : CsaConfig) (rfctl : RfCtl) (s : BeaconState)
    (L : List CsaElem) (rest : Bytes) :
    (InsideOf (processCsaIe c rfctl p n) n ↔
      (c.blocks rfctl = false →
        ∀ q t, csaWalk.Visits p n (.start rfctl) q t → CsaFits p n q t)) ∧
    (InsideOf (updateBeaconInfo s p n) n ↔
      ∀ q t, beaconWalk.Visits p (beaconLimit n) s q t → BeaconFits p n q t) ∧
    (InsideOf (isApInTkip p n) n ↔
      12 ≤ n ∧ (privacy p = true → ∀ q t, tkipWalk.Visits p n () q t → TkipFits p n q)) ∧
    (InsideOf (shouldForbidNRate p n) n ↔
      12 ≤ n ∧ (privacy p = true → ∀ q t, nRateWalk.Visits p n () q t → NRateFits p n q)) ∧
    (InsideOf (isApInWep p n) n ↔
      12 ≤ n ∧ (privacy p = true → ∀ q t, wepWalk.Visits p n () q t → WepFits p n q)) ∧
    (InsideOf (checkAssocAp p n) n ↔
      ∀ q t, assocWalk.Visits p n () q t → AssocFits p n q) ∧
    ((c.blocks rfctl = false → ∀ x ∈ L, x.Whole) →
      ∃ r, (processCsaIe c rfctl (encode (L.map CsaElem.elem) ++ rest)
          (encode (L.map CsaElem.elem)).length).result = some r ∧
        (SchedulesLast L r ↔ Timely c rfctl L)) := by
  refine ⟨insideOf_processCsaIe_iff, ?_, ?_, ?_, ?_, ?_, ?_⟩
  · exact ElemWalk.insideOf_outcome_iff.trans
      (forall₂_congr fun _ _ => imp_congr_right fun _ => beaconWalk_staysAt)
  · exact insideOf_ofPrivate_iff fun q => tkipWalk_staysAt
  · exact insideOf_ofPrivate_iff fun q => nRateWalk_staysAt
  · exact insideOf_ofPrivate_iff fun q => wepWalk_staysAt
  · exact ElemWalk.insideOf_outcome_iff.trans
      (forall₂_congr fun _ _ => imp_congr_right fun _ => assocWalk_staysAt)
  · exact fun h => schedulesLast_iff c rfctl h rest

def switchTo36 : CsaElem := .plain ⟨eidChannelSwitch, [1, 36, 5], by decide⟩ (by decide)

/-- No switch is under way. -/
def idleRfCtl : RfCtl := ⟨0, 0, 0, 0, 0, 0, 0, 0, 0, 0, 0, 0⟩

def stationConfig : CsaConfig := ⟨false, false, 100⟩

def idleBeaconState : BeaconState :=
  ⟨false, false, [], 0, false, false, false, 0, 0, false, false, [], none, false, 0⟩

theorem beaconWalks_switchTo36 :
    ∃ r, (processCsaIe stationConfig idleRfCtl [37, 3, 1, 36, 5] 5).result = some r ∧
      SchedulesLast [switchTo36] r := by
  have hwhole : ∀ x ∈ [switchTo36], x.Whole := by
    intro x hx
    obtain rfl := List.mem_singleton.mp hx
    exact ⟨fun _ => by decide, fun h => absurd h (by decide), fun h => absurd h (by decide),
      fun h => absurd h (by decide)⟩
  obtain ⟨r, hr, hiff⟩ := (beaconWalks_iff [] 0 stationConfig idleRfCtl idleBeaconState
    [switchTo36] []).2.2.2.2.2.2 fun _ => hwhole
  exact ⟨r, hr, hiff.mpr ⟨fun h => absurd h (by decide), fun h => absurd h (by decide),
    fun _ v hv => absurd (congrArg Prod.fst hv) Bool.false_ne_true⟩⟩

/-- An announcement without a body: the channel and the count are read behind the buffer. -/
theorem not_insideOf_processCsaIe :
    ¬∀ (c : CsaConfig) (rfctl : RfCtl) (p : Bytes) (n : ℕ), n ≤ p.length →
      InsideOf (processCsaIe c rfctl p n) n := by
  intro h
  have hread := (h stationConfig idleRfCtl [37, 0] 2 (by decide)).reads 3 (by decide)
  exact absurd hread (by decide)

end Rtl88x2eu.Ie
