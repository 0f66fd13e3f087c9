import Rtl88x2eu.Recv.Attrib

/-!
# Scan results

`WLAN_BSSID_EX`, `struct beacon_keys` and `struct wlan_network` of `wlan_bssdef.h`, the fields that
the scan table and the beacon check use, and the predicates on them that both share.

## Main definitions

* `WlanBssidEx`, `BeaconKeys`, `WlanNetwork`: the records
* `isHiddenSsid`
* `rtwBcnKeyErrFix`, `rtwBcnKeyCompare`: what a difference of beacon keys amounts to
-/

namespace Rtl88x2eu.Scan

inductive BssType
  | undef | probReq | bcn | probRsp
deriving DecidableEq, Repr

def BssType.toNat : BssType → ℕ
  | undef => 0
  | probReq => 1
  | bcn => 2
  | probRsp => 3

/-- `NDIS_802_11_NETWORK_INFRASTRUCTURE`, the values that a scan result takes. -/
inductive NetworkInfrastructure
  | ibss | infrastructure | mesh
deriving DecidableEq, Repr

structure WlanBssidEx where
  macAddress : MacAddr := .zero
  reserved0 : BssType := .undef
  ssid : Bytes := []
  rssi : ℤ := 0
  dsConfig : ℕ := 0
  infrastructureMode : NetworkInfrastructure := .infrastructure
  signalStrength : ℕ := 0
  signalQuality : ℕ := 0
  ieLength : ℕ := 0
  /-- The whole `IEs` array. -/
  ies : Bytes := []
deriving DecidableEq, Repr

/-- `struct beacon_keys`; `ssid` and `rateSet` are the whole arrays. -/
structure BeaconKeys where
  ssid : Bytes := List.replicate 32 0
  ssidLen : ℕ := 0
  ch : ℕ := 0
  bw : ℕ := 0
  offset : ℕ := 0
  protoCap : ℕ := 0
  rateSet : Bytes := List.replicate 12 0
  rateNum : ℕ := 0
  encrypProtocol : ℕ := 0
  pairwiseCipher : ℕ := 0
  groupCipher : ℕ := 0
  gmcs : ℕ := 0
  akm : ℕ := 0
deriving DecidableEq, Repr

/-- `is_hidden_ssid`, on an array and a length. -/
def isHiddenSsid (ssid : Bytes) (len : ℕ) : Bool := len = 0 || (ssid.take len).all (· = 0)

def hiddenSsidAp (snetwork : WlanBssidEx) : Bool :=
  isHiddenSsid snetwork.ssid snetwork.ssid.length

structure WlanNetwork where
  fixed : Bool := false
  lastScanned : ℕ := 0
  lastNonHiddenSsidAp : ℕ := 0
  bcnKeys : BeaconKeys := {}
  bcnKeysValid : Bool := false
  network : WlanBssidEx := {}
deriving DecidableEq, Repr

def rtwIsChbwGrouped (chA bwA offsetA chB bwB offsetB : ℕ) : Bool :=
  -- `CHANNEL_WIDTH_40`, `CHANNEL_WIDTH_80` and `CHANNEL_WIDTH_160`
  let wide (bw : ℕ) : Bool := bw = 1 || bw = 2 || bw = 3
  if chA ≠ chB then false else !(wide bwA && wide bwB && offsetA ≠ offsetB)

def rtwBcnKeyErrFix (cur recv : BeaconKeys) : BeaconKeys :=
  if recv.ch = cur.ch ∧ recv.bw = cur.bw ∧ 0 < recv.bw then
    if recv.offset = 0 ∧ cur.offset ≠ 0 then { recv with offset := cur.offset } else recv
  else recv

/-- `rtw_bcn_key_compare`; neither the capabilities of the PHY nor the rates are verified. -/
def rtwBcnKeyCompare (cur recv : BeaconKeys) : Bool :=
  rtwIsChbwGrouped cur.ch cur.bw cur.offset recv.ch recv.bw recv.offset &&
    { cur with
      ch := recv.ch
      bw := recv.bw
      offset := recv.offset
      protoCap := recv.protoCap
      rateNum := recv.rateNum
      rateSet := recv.rateSet } = recv

@[simp] theorem rtwBcnKeyCompare_self (k : BeaconKeys) : rtwBcnKeyCompare k k = true := by
  simp [rtwBcnKeyCompare, rtwIsChbwGrouped]

end Rtl88x2eu.Scan
