import Mathlib.Data.List.Perm.Basic
import Mathlib.Data.List.Range
import Rtl88x2eu.Lib.Transition
import Rtl88x2eu.Scan.BeaconCheck

/-!
# The scan table

`rtw_update_scanned_network` looks for the network of a frame in `scanned_queue` and updates the
entry it finds; else it takes a network from `free_bss_pool`, and if there is none it overwrites the
weakest entry that is not fixed. A network whose name is not told counts as the same network as any
other of its address, so that being the same network is no equivalence, and an update may change
the name of an entry.

Times are in milliseconds and do not wrap.

## Main definitions

* `isSameNetwork`, `updateNetwork`: when two records are of one network, and how one is updated
* `ScanTable`
* `rtwUpdateScannedNetwork`, `rtwAllocNetwork`, `rtwFreeNetwork`, `rtwFreeNetworkNolock`
* `Counted`, `Unique`, `FixedKept`, `VictimLaw`: what is asked of the table and of its steps
* `KeepsUnique`

## Main results

* `search_cases`: what the search finds, and the entry it would give up
* `counted_step`, `unique_step`, `fixedKept_step`, `victimLaw_update`: the steps
* `scan_table_sound`: the runs
-/

namespace Rtl88x2eu.Scan

def isAllNull (c : Bytes) : Bool := c.all (· = 0)

def WlanBssidEx.capability (n : WlanBssidEx) : ℕ := n.ies.le16 10

def isSameNetwork (src dst : WlanBssidEx) : Bool :=
  if src.macAddress = dst.macAddress ∧
      src.capability.testBit 1 = dst.capability.testBit 1 ∧
      src.capability.testBit 0 = dst.capability.testBit 0 then
    if src.ssid.length = dst.ssid.length ∧
        (src.ssid = dst.ssid ∨ isAllNull src.ssid ∨ isAllNull dst.ssid) then true
    else decide (src.ssid.length = 0 ∨ dst.ssid.length = 0)
  else false

/-- `_rtw_memcpy(dst, src, get_WLAN_BSSID_EX_sz(src))`: what lies behind the elements stays. -/
def copyBssid (dst src : WlanBssidEx) : WlanBssidEx :=
  { src with ies := src.ies.take src.ieLength ++ dst.ies.drop src.ieLength }

/-- What `update_network` reads of the connection. -/
structure Mlme where
  /-- `WIFI_ASOC_STATE` -/
  asoc : Bool := false
  /-- `WIFI_ADHOC_STATE` or `WIFI_ADHOC_MASTER_STATE` -/
  adhoc : Bool := false
  curNetwork : WlanBssidEx := {}
  /-- `recvpriv.signal_strength` -/
  signalStrength : ℕ := 0
  /-- `recvpriv.signal_qual` -/
  signalQual : ℕ := 0

def updateNetwork (m : Mlme) (dst src : WlanBssidEx) (updateIe : Bool) : WlanBssidEx :=
  let connected := m.asoc && isSameNetwork m.curNetwork src
  let rightChannel := decide (src.signalQuality ≠ 101)
  let ssFinal :=
    if connected then m.signalStrength
    else if rightChannel then (src.signalStrength + dst.signalStrength * 4) / 5
    else dst.signalStrength
  let sqFinal :=
    if connected then m.signalQual
    else if rightChannel then (src.signalQuality + dst.signalQuality * 4) / 5
    else dst.signalQuality
  let rssiFinal := if rightChannel then (src.rssi + dst.rssi * 4).tdiv 5 else dst.rssi
  let dst := if updateIe then copyBssid dst src else dst
  { dst with signalStrength := ssFinal, signalQuality := sqFinal, rssi := rssiFinal }

/-! ## The table -/

def scanqueueLifetime : ℕ := 20000

/-- The build, and `rtw_get_bcn_keys_from_bss`: whether it succeeds, and what it leaves in the
keys. -/
structure ScanConfig where
  /-- `CONFIG_RSSI_PRIORITY` -/
  rssiPriority : Bool := true
  rtwGetBcnKeysFromBss : WlanBssidEx → BeaconKeys → Bool × BeaconKeys

/-- The scan table of `struct mlme_priv`, over the numbers of the networks in `free_bss_buf`. -/
structure ScanTable where
  freeBssPool : List ℕ
  scannedQueue : List ℕ
  numOfScanned : ℤ
  net : ℕ → WlanNetwork

namespace ScanTable

def init (maxBssCnt : ℕ) : ScanTable where
  freeBssPool := List.range maxBssCnt
  scannedQueue := []
  numOfScanned := 0
  net _ := {}

def setNet (t : ScanTable) (p : ℕ) (pnetwork : WlanNetwork) : ScanTable :=
  { t with net := Function.update t.net p pnetwork }

def rtwAllocNetwork (t : ScanTable) (now : ℕ) : ScanTable × Option ℕ :=
  match t.freeBssPool with
  | [] => (t, none)
  | p :: pool =>
    ({ t with freeBssPool := pool, numOfScanned := t.numOfScanned + 1 }.setNet p
      { t.net p with fixed := false, lastScanned := now, lastNonHiddenSsidAp := now }, some p)

def toPool (t : ScanTable) (p : ℕ) : ScanTable :=
  { t with
    freeBssPool := t.freeBssPool.erase p ++ [p]
    scannedQueue := t.scannedQueue.erase p
    numOfScanned := t.numOfScanned - 1 }

def rtwFreeNetworkNolock (t : ScanTable) (p : ℕ) : ScanTable :=
  if (t.net p).fixed then t else t.toPool p

def rtwFreeNetwork (t : ScanTable) (m : Mlme) (now p : ℕ) (isfreeall : Bool) : ScanTable :=
  let lifetime := if m.adhoc then 1 else scanqueueLifetime
  if (t.net p).fixed then t
  else if isfreeall = false ∧ now - (t.net p).lastScanned < lifetime then t
  else t.toPool p

/-- The order in which entries are given up: the first comes before the second. -/
def weaker (c : ScanConfig) (t : ScanTable) (p q : ℕ) : Bool :=
  if c.rssiPriority then (t.net p).network.signalStrength < (t.net q).network.signalStrength
  else (t.net p).lastScanned < (t.net q).lastScanned

/-- The entry to be given up behind an entry that was looked at. -/
def nextChoice (c : ScanConfig) (t : ScanTable) (p : ℕ) (choice : Option ℕ) : Option ℕ :=
  if (t.net p).fixed then choice
  else
    match choice with
    | none => some p
    | some q => if t.weaker c p q then some p else some q

/-- The loop of `rtw_update_scanned_network`: the entry of the network, or the choice. -/
def search (c : ScanConfig) (t : ScanTable) (target : WlanBssidEx) :
    List ℕ → Option ℕ → Option ℕ × Option ℕ
  | [], choice => (none, choice)
  | p :: rest, choice =>
    if isSameNetwork (t.net p).network target then (some p, choice)
    else search c t target rest (t.nextChoice c p choice)

end ScanTable

/-- A frame whose keys are looked at. -/
def WlanBssidEx.isBeacon (target : WlanBssidEx) : Bool :=
  target.reserved0 = .bcn || target.reserved0 = .probRsp

def fillNetwork (c : ScanConfig) (pnetwork : WlanNetwork) (target : WlanBssidEx) : WlanNetwork :=
  let network := copyBssid pnetwork.network target
  let got :=
    if target.isBeacon then c.rtwGetBcnKeysFromBss network pnetwork.bcnKeys
    else (false, pnetwork.bcnKeys)
  { pnetwork with
    bcnKeysValid := got.1
    bcnKeys := got.2
    network := { network with
      signalQuality := if network.signalQuality = 101 then 0 else network.signalQuality } }

/-- What a frame makes of the entry of its network, and whether its elements are taken over. -/
def foundNetwork (c : ScanConfig) (m : Mlme) (now : ℕ) (pnetwork : WlanNetwork)
    (target : WlanBssidEx) : WlanNetwork × Bool :=
  let infra := decide (target.infrastructureMode = .infrastructure)
  let lastNonHiddenSsidAp :=
    if target.isBeacon && infra && !hiddenSsidAp target then now else pnetwork.lastNonHiddenSsidAp
  let got := if target.isBeacon then c.rtwGetBcnKeysFromBss target {} else (false, {})
  let ranked := decide (target.infrastructureMode = .mesh ∨
    pnetwork.network.reserved0.toNat ≤ target.reserved0.toNat)
  let aged := infra && !pnetwork.fixed && decide (scanqueueLifetime < now - lastNonHiddenSsidAp)
  let keys := if ranked || aged then got.2 else revealed pnetwork.bcnKeys got.2
  let updateIe := ranked || aged || (got.1 && !rtwBcnKeyCompare pnetwork.bcnKeys keys)
  ({ pnetwork with
      lastScanned := now
      lastNonHiddenSsidAp := lastNonHiddenSsidAp
      bcnKeys := if got.1 then keys else pnetwork.bcnKeys
      bcnKeysValid := got.1 || (!updateIe && pnetwork.bcnKeysValid)
      network := updateNetwork m pnetwork.network target updateIe }, updateIe)

namespace ScanTable

def rtwUpdateScannedNetwork (c : ScanConfig) (t : ScanTable) (m : Mlme) (now : ℕ)
    (target : WlanBssidEx) : ScanTable × Bool :=
  match t.search c target t.scannedQueue none with
  | (some p, _) =>
    let found := foundNetwork c m now (t.net p) target
    (t.setNet p found.1, found.2)
  | (none, choice) =>
    match t.freeBssPool with
    | [] =>
      match choice with
      | none => (t, false)
      | some p =>
        (t.setNet p { fillNetwork c (t.net p) target with
          fixed := false, lastScanned := now, lastNonHiddenSsidAp := now }, false)
    | _ :: _ =>
      match t.rtwAllocNetwork now with
      | (t, none) => (t, false)
      | (t, some p) =>
        ({ t with scannedQueue := t.scannedQueue ++ [p] }.setNet p
          (fillNetwork c (t.net p) target), false)

/-- `rtw_get_oldest_wlan_network` -/
def rtwGetOldestWlanNetwork (c : ScanConfig) (t : ScanTable) : Option ℕ :=
  t.scannedQueue.foldl (fun oldest p => t.nextChoice { c with rssiPriority := false } p oldest) none

/-- `_rtw_alloc_network` as `rtw_create_ibss_post_hdl` goes on from it: a network is put at the end
of the queue, or else the oldest one taken, and gets the data of the BSS. -/
def allocInserted (c : ScanConfig) (t : ScanTable) (now : ℕ) (bss : WlanBssidEx) : ScanTable :=
  match t.rtwAllocNetwork now with
  | (t, none) =>
    match t.rtwGetOldestWlanNetwork c with
    | none => t
    | some p => t.setNet p { t.net p with
        lastScanned := now, network := copyBssid (t.net p).network bss }
  | (t, some p) =>
    { t with scannedQueue := t.scannedQueue ++ [p] }.setNet p
      { t.net p with network := copyBssid (t.net p).network bss }

end ScanTable

/-- What happens to the table. `mark` is the other code that makes an entry fixed, or no longer
fixed. -/
inductive ScanOp where
  | update (m : Mlme) (now : ℕ) (target : WlanBssidEx)
  | alloc (now : ℕ) (bss : WlanBssidEx)
  | free (m : Mlme) (now p : ℕ) (isfreeall : Bool)
  | freeNolock (p : ℕ)
  | mark (p : ℕ) (fixed : Bool)

/-- A record has the fixed fields of a beacon or a probe response, and the elements in its
array. -/
def WlanBssidEx.Framed (b : WlanBssidEx) : Prop := 12 ≤ b.ieLength ∧ b.ieLength ≤ b.ies.length

instance : DecidablePred WlanBssidEx.Framed := fun _ => inferInstanceAs (Decidable (_ ∧ _))

def scanStep (c : ScanConfig) (t : ScanTable) : ScanOp → Option ScanTable
  | .update m now target =>
    if target.Framed then some (t.rtwUpdateScannedNetwork c m now target).1 else none
  | .alloc now bss => if bss.Framed then some (t.allocInserted c now bss) else none
  | .free m now p isfreeall =>
    if p ∈ t.scannedQueue then some (t.rtwFreeNetwork m now p isfreeall) else none
  | .freeNolock p => if p ∈ t.scannedQueue then some (t.rtwFreeNetworkNolock p) else none
  | .mark p fixed => some (t.setNet p { t.net p with fixed := fixed })

/-! ## One network, one address -/

section Records

variable {src dst n : WlanBssidEx}

theorem isSameNetwork_comm : isSameNetwork src dst = isSameNetwork dst src := by
  have hhead : (src.macAddress = dst.macAddress ∧
      src.capability.testBit 1 = dst.capability.testBit 1 ∧
      src.capability.testBit 0 = dst.capability.testBit 0) ↔
      (dst.macAddress = src.macAddress ∧
      dst.capability.testBit 1 = src.capability.testBit 1 ∧
      dst.capability.testBit 0 = src.capability.testBit 0) := by
    simp only [eq_comm]
  have hname : (src.ssid.length = dst.ssid.length ∧
      (src.ssid = dst.ssid ∨ isAllNull src.ssid ∨ isAllNull dst.ssid)) ↔
      (dst.ssid.length = src.ssid.length ∧
      (dst.ssid = src.ssid ∨ isAllNull dst.ssid ∨ isAllNull src.ssid)) := by
    rw [eq_comm, @eq_comm _ src.ssid, or_comm (a := (isAllNull src.ssid : Prop))]
  rw [isSameNetwork, isSameNetwork]
  simp only [hhead, hname, or_comm]

theorem macAddress_of_isSameNetwork (h : isSameNetwork src dst = true) :
    src.macAddress = dst.macAddress := by
  by_contra hne
  rw [isSameNetwork, if_neg fun hhead => hne hhead.1] at h
  cases h

theorem isSameNetwork_congr {src' dst' : WlanBssidEx} (hmac : src'.macAddress = src.macAddress)
    (hssid : src'.ssid = src.ssid) (hcap : src'.capability = src.capability)
    (hmac' : dst'.macAddress = dst.macAddress) (hssid' : dst'.ssid = dst.ssid)
    (hcap' : dst'.capability = dst.capability) :
    isSameNetwork src' dst' = isSameNetwork src dst := by
  rw [isSameNetwork, isSameNetwork, hmac, hssid, hcap, hmac', hssid', hcap']

/-- The record `n` is of the network of `n'`, as far as networks are told apart. -/
structure SameId (n n' : WlanBssidEx) : Prop where
  macAddress : n.macAddress = n'.macAddress
  ssid : n.ssid = n'.ssid
  capability : n.capability = n'.capability

theorem SameId.isSameNetwork {n' : WlanBssidEx} (h : SameId n n') (dst : WlanBssidEx) :
    isSameNetwork n dst = isSameNetwork n' dst :=
  isSameNetwork_congr h.macAddress h.ssid h.capability rfl rfl rfl

theorem sameId_copyBssid (h : src.Framed) : SameId (copyBssid dst src) src := by
  obtain ⟨hfixed, hfits⟩ := h
  refine ⟨rfl, rfl, ?_⟩
  have hoctet : ∀ i < 12, (copyBssid dst src).ies.u8 i = src.ies.u8 i := by
    intro i hi
    have hin : i < (src.ies.take src.ieLength).length := by
      rw [List.length_take]
      omega
    have htaken : i < src.ieLength := by omega
    simp [copyBssid, Bytes.u8, List.getD_eq_getElem?_getD, List.getElem?_append_left hin, htaken]
  rw [WlanBssidEx.capability, WlanBssidEx.capability, Bytes.le16, Bytes.le16,
    hoctet 10 (by decide), hoctet 11 (by decide)]

theorem sameId_updateNetwork_true (m : Mlme) (h : src.Framed) :
    SameId (updateNetwork m dst src true) src := by
  have hsame : SameId (copyBssid dst src) src := sameId_copyBssid h
  obtain ⟨hmac, hssid, hcap⟩ := hsame
  exact ⟨hmac, hssid, hcap⟩

theorem sameId_updateNetwork_false (m : Mlme) : SameId (updateNetwork m dst src false) dst :=
  ⟨rfl, rfl, rfl⟩

theorem sameId_fillNetwork (c : ScanConfig) (pnetwork : WlanNetwork) (h : src.Framed) :
    SameId (fillNetwork c pnetwork src).network src := by
  have hsame : SameId (copyBssid pnetwork.network src) src := sameId_copyBssid h
  obtain ⟨hmac, hssid, hcap⟩ := hsame
  exact ⟨hmac, hssid, hcap⟩

end Records

structure Counted (maxBssCnt : ℕ) (t : ScanTable) : Prop where
  custody : (t.freeBssPool ++ t.scannedQueue).Perm (List.range maxBssCnt)
  count : t.numOfScanned = t.scannedQueue.length

def Unique (t : ScanTable) : Prop :=
  ∀ p ∈ t.scannedQueue, ∀ q ∈ t.scannedQueue, p ≠ q →
    isSameNetwork (t.net p).network (t.net q).network = false

def FixedKept (t t' : ScanTable) : Prop :=
  ∀ p ∈ t.scannedQueue, (t.net p).fixed = true →
    p ∈ t'.scannedQueue ∧ (t'.net p).fixed = true ∧
      (t'.net p).network.macAddress = (t.net p).network.macAddress

/-- The entry to be given up: not fixed, and none that is not fixed comes before it. -/
structure Victim (c : ScanConfig) (t : ScanTable) (entries : List ℕ) (p : ℕ) : Prop where
  mem : p ∈ entries
  free : (t.net p).fixed = false
  least : ∀ q ∈ entries, (t.net q).fixed = false → t.weaker c q p = false

def VictimLaw (c : ScanConfig) (t t' : ScanTable) (target : WlanBssidEx) : Prop :=
  t.freeBssPool = [] →
    (∀ p ∈ t.scannedQueue, isSameNetwork (t.net p).network target = false) →
    (∀ p ∈ t.scannedQueue, (t.net p).fixed = true) ∧ t' = t ∨
      ∃ p, Victim c t t.scannedQueue p ∧ t'.scannedQueue = t.scannedQueue ∧
        (t'.net p).network.macAddress = target.macAddress ∧
        ∀ q, q ≠ p → t'.net q = t.net q

section Search

variable {c : ScanConfig} {t : ScanTable} {target : WlanBssidEx} {entries rest : List ℕ}
  {choice : Option ℕ} {p q : ℕ}

theorem not_weaker_self : t.weaker c p p = false := by
  rw [ScanTable.weaker]
  split <;> simp

/-- The order is one of numbers. -/
theorem weaker_iff : ∃ f : ℕ → ℕ, ∀ p q, t.weaker c p q = decide (f p < f q) := by
  by_cases hrssi : c.rssiPriority = true
  · exact ⟨fun p => (t.net p).network.signalStrength, fun p q => by
      rw [ScanTable.weaker, if_pos hrssi]⟩
  · exact ⟨fun p => (t.net p).lastScanned, fun p q => by rw [ScanTable.weaker, if_neg hrssi]⟩

theorem nextChoice_fixed (h : (t.net p).fixed = true) : t.nextChoice c p choice = choice := by
  simp [ScanTable.nextChoice, h]

theorem nextChoice_none (h : (t.net p).fixed = false) : t.nextChoice c p none = some p := by
  simp [ScanTable.nextChoice, h]

theorem nextChoice_some (h : (t.net p).fixed = false) :
    t.nextChoice c p (some q) = if t.weaker c p q then some p else some q := by
  simp [ScanTable.nextChoice, h]

def Chosen (c : ScanConfig) (t : ScanTable) (entries : List ℕ) : Option ℕ → Prop
  | none => ∀ p ∈ entries, (t.net p).fixed = true
  | some p => Victim c t entries p

/-- One more entry is looked at. -/
theorem chosen_nextChoice (h : Chosen c t entries choice) :
    Chosen c t (entries ++ [p]) (t.nextChoice c p choice) := by
  have hmem : ∀ {q}, q ∈ entries ++ [p] ↔ q ∈ entries ∨ q = p := by simp
  by_cases hfixed : (t.net p).fixed = true
  · rw [nextChoice_fixed hfixed]
    cases choice with
    | none =>
      intro q hq
      rcases hmem.mp hq with hq | rfl
      · exact h q hq
      · exact hfixed
    | some v =>
      refine ⟨hmem.mpr (.inl h.mem), h.free, fun q hq hfree => ?_⟩
      rcases hmem.mp hq with hq | rfl
      · exact h.least q hq hfree
      · exact absurd (hfree.symm.trans hfixed) Bool.false_ne_true
  · have hfree := Bool.eq_false_iff.mpr hfixed
    cases choice with
    | none =>
      rw [nextChoice_none hfree]
      refine ⟨hmem.mpr (.inr rfl), hfree, fun q hq hq' => ?_⟩
      rcases hmem.mp hq with hq | rfl
      · exact absurd (hq'.symm.trans (h q hq)) Bool.false_ne_true
      · exact not_weaker_self
    | some v =>
      obtain ⟨f, hf⟩ := @weaker_iff c t
      have hleast : ∀ q ∈ entries, (t.net q).fixed = false → f v ≤ f q := by
        intro q hq hq'
        have hno := h.least q hq hq'
        rw [hf, decide_eq_false_iff_not] at hno
        exact not_lt.mp hno
      rw [nextChoice_some hfree]
      by_cases hweaker : f p < f v
      · rw [hf, decide_eq_true hweaker, if_pos rfl]
        refine ⟨hmem.mpr (.inr rfl), hfree, fun q hq hq' => ?_⟩
        rw [hf, decide_eq_false_iff_not, not_lt]
        rcases hmem.mp hq with hq | rfl
        · exact hweaker.le.trans (hleast q hq hq')
        · exact le_rfl
      · rw [hf, decide_eq_false hweaker, if_neg Bool.false_ne_true]
        refine ⟨hmem.mpr (.inl h.mem), h.free, fun q hq hq' => ?_⟩
        rw [hf, decide_eq_false_iff_not, not_lt]
        rcases hmem.mp hq with hq | rfl
        · exact hleast q hq hq'
        · exact not_lt.mp hweaker

/-- **The search finds an entry of the network, or looks at all entries and chooses.** -/
theorem search_cases (h : Chosen c t entries choice)
    (hnot : ∀ p ∈ entries, isSameNetwork (t.net p).network target = false) :
    (∃ p ∈ rest, isSameNetwork (t.net p).network target = true ∧
      ∃ choice', t.search c target rest choice = (some p, choice')) ∨
    (∀ p ∈ entries ++ rest, isSameNetwork (t.net p).network target = false) ∧
      ∃ choice', Chosen c t (entries ++ rest) choice' ∧
        t.search c target rest choice = (none, choice') := by
  induction rest generalizing entries choice with
  | nil => exact .inr ⟨by simpa using hnot, choice, by simpa using h, rfl⟩
  | cons p rest ih =>
    rw [ScanTable.search]
    by_cases hsame : isSameNetwork (t.net p).network target = true
    · rw [if_pos hsame]
      exact .inl ⟨p, List.mem_cons_self, hsame, choice, rfl⟩
    · rw [if_neg hsame]
      have hall : ∀ q ∈ entries ++ [p], isSameNetwork (t.net q).network target = false := by
        intro q hq
        rcases List.mem_append.mp hq with hq | hq
        · exact hnot q hq
        · rw [List.mem_singleton.mp hq]
          exact Bool.eq_false_iff.mpr hsame
      have happend : entries ++ p :: rest = (entries ++ [p]) ++ rest := by simp
      rw [happend]
      rcases ih (chosen_nextChoice h) hall with ⟨q, hq, hfound⟩ | hnone
      · exact .inl ⟨q, List.mem_cons_of_mem _ hq, hfound⟩
      · exact .inr hnone

end Search

/-! ## The steps -/

section Steps

variable {maxBssCnt : ℕ} {c : ScanConfig} {t t' : ScanTable} {m : Mlme} {now p q : ℕ}
  {target bss : WlanBssidEx} {pnetwork : WlanNetwork}

theorem rtwUpdateScannedNetwork_cases (c : ScanConfig) (t : ScanTable) (m : Mlme) (now : ℕ)
    (target : WlanBssidEx) :
    (∃ p ∈ t.scannedQueue, isSameNetwork (t.net p).network target = true ∧
      (t.search c target t.scannedQueue none).1 = some p ∧
      t.rtwUpdateScannedNetwork c m now target =
        (t.setNet p (foundNetwork c m now (t.net p) target).1,
          (foundNetwork c m now (t.net p) target).2)) ∨
    (∀ p ∈ t.scannedQueue, isSameNetwork (t.net p).network target = false) ∧
      (t.search c target t.scannedQueue none).1 = none ∧
      ((t.freeBssPool = [] ∧ (∀ p ∈ t.scannedQueue, (t.net p).fixed = true) ∧
          t.rtwUpdateScannedNetwork c m now target = (t, false)) ∨
        (∃ p, t.freeBssPool = [] ∧ Victim c t t.scannedQueue p ∧
          t.rtwUpdateScannedNetwork c m now target =
            (t.setNet p { fillNetwork c (t.net p) target with
              fixed := false, lastScanned := now, lastNonHiddenSsidAp := now }, false)) ∨
        ∃ p pool pnetwork, t.freeBssPool = p :: pool ∧
          t.rtwUpdateScannedNetwork c m now target =
            (⟨pool, t.scannedQueue ++ [p], t.numOfScanned + 1,
              Function.update t.net p (fillNetwork c pnetwork target)⟩, false)) := by
  have hnil : Chosen c t [] none := fun p hp => absurd hp List.not_mem_nil
  rw [ScanTable.rtwUpdateScannedNetwork]
  have hbefore : ∀ p ∈ ([] : List ℕ), isSameNetwork (t.net p).network target = false :=
    fun p hp => absurd hp List.not_mem_nil
  rcases @search_cases c t target [] t.scannedQueue none hnil hbefore with
    ⟨p, hp, hsame, choice, hres⟩ | ⟨hnone, choice, hchosen, hres⟩
  · rw [hres]
    exact .inl ⟨p, hp, hsame, rfl, rfl⟩
  · rw [List.nil_append] at hnone hchosen
    rw [hres]
    refine .inr ⟨hnone, rfl, ?_⟩
    cases hpool : t.freeBssPool with
    | nil =>
      cases choice with
      | none => exact .inl ⟨rfl, hchosen, rfl⟩
      | some p => exact .inr (.inl ⟨p, rfl, hchosen, rfl⟩)
    | cons p pool =>
      refine .inr (.inr ⟨p, pool, { t.net p with
        fixed := false, lastScanned := now, lastNonHiddenSsidAp := now }, rfl, ?_⟩)
      simp [ScanTable.rtwAllocNetwork, hpool, ScanTable.setNet]

theorem chosen_foldl (h : Chosen c t entries choice) :
    Chosen c t (entries ++ rest) (rest.foldl (fun choice p => t.nextChoice c p choice) choice) := by
  induction rest generalizing entries choice with
  | nil => simpa using h
  | cons p rest ih =>
    rw [show entries ++ p :: rest = entries ++ [p] ++ rest by simp]
    exact ih (chosen_nextChoice h)

theorem allocInserted_cases (c : ScanConfig) (t : ScanTable) (now : ℕ) (bss : WlanBssidEx) :
    t.allocInserted c now bss = t ∨
      (∃ p, ∃ pnetwork : WlanNetwork, (t.net p).fixed = false ∧ t.allocInserted c now bss =
        t.setNet p { pnetwork with network := copyBssid pnetwork.network bss }) ∨
      ∃ p pool, ∃ pnetwork : WlanNetwork, t.freeBssPool = p :: pool ∧
        t.allocInserted c now bss = ⟨pool, t.scannedQueue ++ [p], t.numOfScanned + 1,
          Function.update t.net p { pnetwork with network := copyBssid pnetwork.network bss }⟩ := by
  cases hpool : t.freeBssPool with
  | nil =>
    have hnil : Chosen { c with rssiPriority := false } t [] none :=
      fun p hp => absurd hp List.not_mem_nil
    have hchosen : Chosen _ t t.scannedQueue (t.rtwGetOldestWlanNetwork c) := chosen_foldl hnil
    cases hold : t.rtwGetOldestWlanNetwork c with
    | none => simp [ScanTable.allocInserted, ScanTable.rtwAllocNetwork, hpool, hold]
    | some p =>
      rw [hold] at hchosen
      refine .inr (.inl ⟨p, { t.net p with lastScanned := now }, hchosen.free, ?_⟩)
      simp [ScanTable.allocInserted, ScanTable.rtwAllocNetwork, hpool, hold]
  | cons p pool =>
    refine .inr (.inr ⟨p, pool, { t.net p with
      fixed := false, lastScanned := now, lastNonHiddenSsidAp := now }, rfl, ?_⟩)
    simp [ScanTable.allocInserted, ScanTable.rtwAllocNetwork, hpool, ScanTable.setNet]

theorem rtwFreeNetwork_cases (t : ScanTable) (m : Mlme) (now p : ℕ) (isfreeall : Bool) :
    t.rtwFreeNetwork m now p isfreeall = t ∨
      (t.net p).fixed = false ∧ t.rtwFreeNetwork m now p isfreeall = t.toPool p := by
  rw [ScanTable.rtwFreeNetwork]
  generalize (if m.adhoc then 1 else scanqueueLifetime) = lifetime
  by_cases hfixed : (t.net p).fixed = true
  · exact .inl (if_pos hfixed)
  · by_cases hyoung : isfreeall = false ∧ now - (t.net p).lastScanned < lifetime
    · exact .inl ((if_neg hfixed).trans (if_pos hyoung))
    · exact .inr ⟨Bool.eq_false_iff.mpr hfixed, (if_neg hfixed).trans (if_neg hyoung)⟩

theorem rtwFreeNetworkNolock_cases (t : ScanTable) (p : ℕ) :
    t.rtwFreeNetworkNolock p = t ∨
      (t.net p).fixed = false ∧ t.rtwFreeNetworkNolock p = t.toPool p := by
  rw [ScanTable.rtwFreeNetworkNolock]
  split_ifs with hfixed
  · exact .inl rfl
  · exact .inr ⟨Bool.eq_false_iff.mpr hfixed, rfl⟩

/-- **What a step of the table is**, its guard included. -/
theorem scanStep_cases {e : ScanOp} (hstep : scanStep c t e = some t') :
    (∃ m now target, e = .update m now target ∧ target.Framed ∧
      t' = (t.rtwUpdateScannedNetwork c m now target).1) ∨
    (∃ now bss, e = .alloc now bss ∧ bss.Framed ∧ t' = t.allocInserted c now bss) ∨
    (∃ p fixed, e = .mark p fixed ∧ t' = t.setNet p { t.net p with fixed := fixed }) ∨
    t' = t ∨ ∃ p ∈ t.scannedQueue, (t.net p).fixed = false ∧ t' = t.toPool p := by
  cases e with
  | update m now target =>
    by_cases hframed : target.Framed
    · rw [scanStep, if_pos hframed] at hstep
      exact .inl ⟨m, now, target, rfl, hframed, (Option.some.inj hstep).symm⟩
    · rw [scanStep, if_neg hframed] at hstep
      cases hstep
  | alloc now bss =>
    by_cases hframed : bss.Framed
    · rw [scanStep, if_pos hframed] at hstep
      exact .inr (.inl ⟨now, bss, rfl, hframed, (Option.some.inj hstep).symm⟩)
    · rw [scanStep, if_neg hframed] at hstep
      cases hstep
  | free m now p isfreeall =>
    by_cases hp : p ∈ t.scannedQueue
    · rw [scanStep, if_pos hp] at hstep
      obtain rfl := Option.some.inj hstep
      refine .inr (.inr (.inr ?_))
      rcases rtwFreeNetwork_cases t m now p isfreeall with hres | ⟨hfree, hres⟩
      · exact .inl hres
      · exact .inr ⟨p, hp, hfree, hres⟩
    · rw [scanStep, if_neg hp] at hstep
      cases hstep
  | freeNolock p =>
    by_cases hp : p ∈ t.scannedQueue
    · rw [scanStep, if_pos hp] at hstep
      obtain rfl := Option.some.inj hstep
      refine .inr (.inr (.inr ?_))
      rcases rtwFreeNetworkNolock_cases t p with hres | ⟨hfree, hres⟩
      · exact .inl hres
      · exact .inr ⟨p, hp, hfree, hres⟩
    · rw [scanStep, if_neg hp] at hstep
      cases hstep
  | mark p fixed => exact .inr (.inr (.inl ⟨p, fixed, rfl, (Option.some.inj hstep).symm⟩))

/-- **What a step does to the lists**: networks are written in place, one comes out of the pool, or
one that is not fixed goes back. -/
theorem scanStep_lists {e : ScanOp} (hstep : scanStep c t e = some t') :
    (t'.freeBssPool = t.freeBssPool ∧ t'.scannedQueue = t.scannedQueue ∧
      t'.numOfScanned = t.numOfScanned) ∨
    (∃ p pool, t.freeBssPool = p :: pool ∧ t'.freeBssPool = pool ∧
      t'.scannedQueue = t.scannedQueue ++ [p] ∧ t'.numOfScanned = t.numOfScanned + 1 ∧
      ∀ q, q ≠ p → t'.net q = t.net q) ∨
    ∃ p ∈ t.scannedQueue, (t.net p).fixed = false ∧ t' = t.toPool p := by
  rcases scanStep_cases hstep with ⟨m, now, target, -, -, rfl⟩ | ⟨now, bss, -, -, rfl⟩ |
    ⟨p, fixed, -, rfl⟩ | rfl | hfreed
  · rcases rtwUpdateScannedNetwork_cases c t m now target with
      ⟨p, -, -, -, hres⟩ | ⟨-, -, ⟨-, -, hres⟩ | ⟨p, -, -, hres⟩ |
        ⟨p, pool, pnetwork, hpool, hres⟩⟩
    · rw [hres]
      exact .inl ⟨rfl, rfl, rfl⟩
    · rw [hres]
      exact .inl ⟨rfl, rfl, rfl⟩
    · rw [hres]
      exact .inl ⟨rfl, rfl, rfl⟩
    · rw [hres]
      exact .inr (.inl ⟨p, pool, hpool, rfl, rfl, rfl, fun q hq => Function.update_of_ne hq ..⟩)
  · rcases allocInserted_cases c t now bss with
      hres | ⟨p, pnetwork, hfree, hres⟩ | ⟨p, pool, pnetwork, hpool, hres⟩
    · rw [hres]
      exact .inl ⟨rfl, rfl, rfl⟩
    · rw [hres]
      exact .inl ⟨rfl, rfl, rfl⟩
    · rw [hres]
      exact .inr (.inl ⟨p, pool, hpool, rfl, rfl, rfl, fun q hq => Function.update_of_ne hq ..⟩)
  · exact .inl ⟨rfl, rfl, rfl⟩
  · exact .inl ⟨rfl, rfl, rfl⟩
  · exact .inr (.inr hfreed)

theorem Counted.notMem_of_pool (h : Counted maxBssCnt t) {pool : List ℕ}
    (hpool : t.freeBssPool = p :: pool) : p ∉ t.scannedQueue := by
  have hnodup : (t.freeBssPool ++ t.scannedQueue).Nodup := h.custody.nodup_iff.mpr List.nodup_range
  rw [hpool] at hnodup
  exact fun hp => (List.nodup_append.mp hnodup).2.2 p List.mem_cons_self p hp rfl

theorem Counted.nodup (h : Counted maxBssCnt t) :
    t.freeBssPool.Nodup ∧ t.scannedQueue.Nodup ∧ ∀ p ∈ t.scannedQueue, p ∉ t.freeBssPool := by
  have hnodup : (t.freeBssPool ++ t.scannedQueue).Nodup := h.custody.nodup_iff.mpr List.nodup_range
  obtain ⟨hpool, hqueue, hne⟩ := List.nodup_append.mp hnodup
  exact ⟨hpool, hqueue, fun p hp hp' => hne p hp' p hp rfl⟩

/-- **Every step keeps the networks in one list each, and counted.** -/
theorem counted_step {e : ScanOp} (h : Counted maxBssCnt t) (hstep : scanStep c t e = some t') :
    Counted maxBssCnt t' := by
  rcases scanStep_lists hstep with ⟨hpool, hqueue, hnum⟩ |
    ⟨p, pool, hpool, hpool', hqueue, hnum, -⟩ | ⟨p, hp, -, rfl⟩
  · exact ⟨by rw [hpool, hqueue]; exact h.custody, by rw [hnum, hqueue]; exact h.count⟩
  · refine ⟨?_, ?_⟩
    · have hmoved : (pool ++ (t.scannedQueue ++ [p])).Perm (p :: pool ++ t.scannedQueue) := by
        rw [← List.append_assoc]
        exact List.perm_append_singleton p _
      rw [hpool', hqueue]
      exact hmoved.trans (hpool ▸ h.custody)
    · rw [hnum, hqueue, h.count, List.length_append, List.length_singleton]
      push_cast
      rfl
  · obtain ⟨-, -, hout⟩ := h.nodup
    refine ⟨?_, ?_⟩
    · show (t.freeBssPool.erase p ++ [p] ++ t.scannedQueue.erase p).Perm _
      rw [List.erase_of_not_mem (hout p hp), List.append_assoc]
      exact ((List.perm_cons_erase hp).symm.append_left t.freeBssPool).trans h.custody
    · show t.numOfScanned - 1 = ((t.scannedQueue.erase p).length : ℤ)
      have hpos : 0 < t.scannedQueue.length := List.length_pos_of_mem hp
      rw [h.count, List.length_erase_of_mem hp]
      omega

theorem Unique.of_sameId (h : Unique t) (hqueue : ∀ q ∈ t'.scannedQueue, q ∈ t.scannedQueue)
    (hnet : ∀ q, SameId (t'.net q).network (t.net q).network) : Unique t' := by
  intro q hq r hr hne
  rw [(hnet q).isSameNetwork, isSameNetwork_comm, (hnet r).isSameNetwork, isSameNetwork_comm]
  exact h q (hqueue q hq) r (hqueue r hr) hne

theorem Unique.of_written (h : Unique t)
    (hqueue : ∀ q ∈ t'.scannedQueue, q ≠ p → q ∈ t.scannedQueue)
    (hnet : ∀ q, q ≠ p → t'.net q = t.net q) (hid : SameId (t'.net p).network target)
    (hother : ∀ q ∈ t.scannedQueue, q ≠ p → isSameNetwork (t.net q).network target = false) :
    Unique t' := by
  intro q hq r hr hne
  by_cases hqp : q = p
  · subst hqp
    have hrq : r ≠ q := Ne.symm hne
    rw [hid.isSameNetwork, hnet r hrq, isSameNetwork_comm]
    exact hother r (hqueue r hr hrq) hrq
  · rw [hnet q hqp]
    by_cases hrp : r = p
    · subst hrp
      rw [isSameNetwork_comm, hid.isSameNetwork, isSameNetwork_comm]
      exact hother q (hqueue q hq hqp) hqp
    · rw [hnet r hrp]
      exact h q (hqueue q hq hqp) r (hqueue r hr hrp) hne

/-- The steps that leave no two entries of one network. -/
def KeepsUnique (c : ScanConfig) (t : ScanTable) : ScanOp → Prop
  | .update m now target =>
    ∀ p, (t.search c target t.scannedQueue none).1 = some p →
      (foundNetwork c m now (t.net p) target).2 = true →
        ∀ q ∈ t.scannedQueue, q ≠ p → isSameNetwork (t.net q).network target = false
  | .alloc _ bss => ∀ q ∈ t.scannedQueue, isSameNetwork (t.net q).network bss = false
  | _ => True

instance (c : ScanConfig) (t : ScanTable) : DecidablePred (KeepsUnique c t)
  | .update m now target =>
    inferInstanceAs (Decidable (∀ p ∈ (t.search c target t.scannedQueue none).1,
      (foundNetwork c m now (t.net p) target).2 = true →
        ∀ q ∈ t.scannedQueue, q ≠ p → isSameNetwork (t.net q).network target = false))
  | .alloc _ bss =>
    inferInstanceAs (Decidable (∀ q ∈ t.scannedQueue, isSameNetwork (t.net q).network bss = false))
  | .free .. | .freeNolock _ | .mark .. => isTrue trivial

theorem network_foundNetwork (c : ScanConfig) (m : Mlme) (now : ℕ) (pnetwork : WlanNetwork)
    (target : WlanBssidEx) : (foundNetwork c m now pnetwork target).1.network =
      updateNetwork m pnetwork.network target (foundNetwork c m now pnetwork target).2 := rfl

theorem Unique.of_rewritten (h : Unique t) (p : ℕ)
    (hid : SameId pnetwork.network (t.net p).network) : Unique (t.setNet p pnetwork) := by
  refine h.of_sameId (fun q hq => hq) fun q => ?_
  show SameId (Function.update t.net p pnetwork q).network _
  by_cases hq : q = p
  · subst hq
    rw [Function.update_self]
    exact hid
  · rw [Function.update_of_ne hq]
    exact ⟨rfl, rfl, rfl⟩

theorem Unique.of_joined (h : Unique t) {pool : List ℕ} {num : ℤ}
    (hid : SameId pnetwork.network target)
    (hnone : ∀ q ∈ t.scannedQueue, isSameNetwork (t.net q).network target = false) :
    Unique ⟨pool, t.scannedQueue ++ [p], num, Function.update t.net p pnetwork⟩ := by
  refine h.of_written (p := p) (fun q hq hne => ?_) (fun q hq => Function.update_of_ne hq ..)
    ?_ fun q hq _ => hnone q hq
  · exact (List.mem_append.mp hq).resolve_right fun hq' => hne (List.mem_singleton.mp hq')
  · show SameId (Function.update t.net p pnetwork p).network target
    rw [Function.update_self]
    exact hid

/-- **The steps that keep the entries of different networks.** -/
theorem unique_step {e : ScanOp} (h : Unique t) (hkeeps : KeepsUnique c t e)
    (hstep : scanStep c t e = some t') : Unique t' := by
  rcases scanStep_cases hstep with ⟨m, now, target, rfl, hframed, rfl⟩ |
    ⟨now, bss, rfl, hframed, rfl⟩ | ⟨p, fixed, -, rfl⟩ | rfl | ⟨p, -, -, rfl⟩
  · rcases rtwUpdateScannedNetwork_cases c t m now target with
      ⟨p, hp, -, hsearch, hres⟩ | ⟨hnone, -, ⟨-, -, hres⟩ | ⟨p, -, hv, hres⟩ |
        ⟨p, pool, pnetwork, hpool, hres⟩⟩
    · rw [hres]
      cases hie : (foundNetwork c m now (t.net p) target).2 with
      | true =>
        refine h.of_written (fun q hq _ => hq) (fun q hq => Function.update_of_ne hq ..) ?_
          (hkeeps p hsearch hie)
        show SameId (Function.update t.net p _ p).network target
        rw [Function.update_self, network_foundNetwork, hie]
        exact sameId_updateNetwork_true m hframed
      | false =>
        refine h.of_rewritten p ?_
        rw [network_foundNetwork, hie]
        exact sameId_updateNetwork_false m
    · rw [hres]
      exact h
    · rw [hres]
      refine h.of_written (fun q hq _ => hq) (fun q hq => Function.update_of_ne hq ..) ?_
        fun q hq _ => hnone q hq
      show SameId (Function.update t.net p _ p).network target
      rw [Function.update_self]
      exact sameId_fillNetwork c (t.net p) hframed
    · rw [hres]
      exact h.of_joined (sameId_fillNetwork c pnetwork hframed) hnone
  · rcases allocInserted_cases c t now bss with
      hres | ⟨p, pnetwork, hfree, hres⟩ | ⟨p, pool, pnetwork, hpool, hres⟩
    · rw [hres]
      exact h
    · rw [hres]
      refine h.of_written (fun q hq _ => hq) (fun q hq => Function.update_of_ne hq ..) ?_
        fun q hq _ => hkeeps q hq
      show SameId (Function.update t.net p _ p).network bss
      rw [Function.update_self]
      exact sameId_copyBssid hframed
    · rw [hres]
      exact h.of_joined (sameId_copyBssid hframed) hkeeps
  · exact h.of_rewritten p ⟨rfl, rfl, rfl⟩
  · exact h
  · exact h.of_sameId (fun q hq => List.mem_of_mem_erase hq) fun q => ⟨rfl, rfl, rfl⟩

theorem fixedKept_of_written (hqueue : ∀ q ∈ t.scannedQueue, q ∈ t'.scannedQueue)
    (hnet : ∀ q, q ≠ p → t'.net q = t.net q)
    (hp : p ∈ t.scannedQueue → (t.net p).fixed = true → (t'.net p).fixed = true ∧
      (t'.net p).network.macAddress = (t.net p).network.macAddress) : FixedKept t t' := by
  intro q hq hfixed
  refine ⟨hqueue q hq, ?_⟩
  by_cases hqp : q = p
  · subst hqp
    exact hp hq hfixed
  · rw [hnet q hqp]
    exact ⟨hfixed, rfl⟩

theorem fixedKept_refl : FixedKept t t := fun _ hp hfixed => ⟨hp, hfixed, rfl⟩

theorem fixedKept_toPool (hp : (t.net p).fixed = false) : FixedKept t (t.toPool p) := by
  intro q hq hfixed
  have hqp : q ≠ p := by
    rintro rfl
    exact Bool.false_ne_true (hp.symm.trans hfixed)
  exact ⟨(List.mem_erase_of_ne hqp).mpr hq, hfixed, rfl⟩

theorem Counted.fixedKept_joined (hc : Counted maxBssCnt t) {pool pool' : List ℕ} {num : ℤ}
    (hpool : t.freeBssPool = p :: pool) :
    FixedKept t ⟨pool', t.scannedQueue ++ [p], num, Function.update t.net p pnetwork⟩ :=
  fixedKept_of_written (fun _ hq => List.mem_append_left _ hq)
    (fun _ hq => Function.update_of_ne hq ..)
    fun hp => absurd hp (hc.notMem_of_pool hpool)

/-- **No operation of the table gives up a fixed entry.** -/
theorem fixedKept_step {e : ScanOp} (hc : Counted maxBssCnt t) (hmark : ∀ p b, e ≠ .mark p b)
    (hstep : scanStep c t e = some t') : FixedKept t t' := by
  rcases scanStep_cases hstep with ⟨m, now, target, -, hframed, rfl⟩ |
    ⟨now, bss, -, hframed, rfl⟩ | ⟨p, fixed, he, -⟩ | rfl | ⟨p, -, hfree, rfl⟩
  · rcases rtwUpdateScannedNetwork_cases c t m now target with
      ⟨p, hp, hsame, -, hres⟩ | ⟨-, -, ⟨-, -, hres⟩ | ⟨p, -, hv, hres⟩ |
        ⟨p, pool, pnetwork, hpool, hres⟩⟩
    · rw [hres]
      refine fixedKept_of_written (fun q hq => hq) (fun q hq => Function.update_of_ne hq ..)
        fun _ hfixed => ?_
      show (Function.update t.net p _ p).fixed = true ∧
        (Function.update t.net p _ p).network.macAddress = _
      rw [Function.update_self]
      refine ⟨hfixed, ?_⟩
      rw [network_foundNetwork]
      cases (foundNetwork c m now (t.net p) target).2 with
      | true =>
        exact (sameId_updateNetwork_true m hframed).macAddress.trans
          (macAddress_of_isSameNetwork hsame).symm
      | false => rfl
    · rw [hres]
      exact fixedKept_refl
    · rw [hres]
      refine fixedKept_of_written (fun q hq => hq) (fun q hq => Function.update_of_ne hq ..)
        fun _ hfixed => ?_
      exact absurd (hv.free.symm.trans hfixed) Bool.false_ne_true
    · rw [hres]
      exact hc.fixedKept_joined hpool
  · rcases allocInserted_cases c t now bss with
      hres | ⟨p, pnetwork, hfree, hres⟩ | ⟨p, pool, pnetwork, hpool, hres⟩
    · rw [hres]
      exact fixedKept_refl
    · rw [hres]
      exact fixedKept_of_written (fun q hq => hq) (fun q hq => Function.update_of_ne hq ..)
        fun _ hfixed => absurd (hfree.symm.trans hfixed) Bool.false_ne_true
    · rw [hres]
      exact hc.fixedKept_joined hpool
  · exact absurd he (hmark p fixed)
  · exact fixedKept_refl
  · exact fixedKept_toPool hfree

/-- **With an empty pool the weakest entry that is not fixed is overwritten.** -/
theorem victimLaw_update (c : ScanConfig) (t : ScanTable) (m : Mlme) (now : ℕ)
    (target : WlanBssidEx) :
    VictimLaw c t (t.rtwUpdateScannedNetwork c m now target).1 target := by
  intro hempty hnew
  rcases rtwUpdateScannedNetwork_cases c t m now target with
    ⟨p, hp, hsame, -, -⟩ | ⟨-, -, ⟨-, hall, hres⟩ | ⟨p, -, hv, hres⟩ | ⟨p, pool, -, hpool, -⟩⟩
  · exact absurd ((hnew p hp).symm.trans hsame) Bool.false_ne_true
  · rw [hres]
    exact .inl ⟨hall, rfl⟩
  · rw [hres]
    refine .inr ⟨p, hv, rfl, ?_, fun q hq => Function.update_of_ne hq ..⟩
    show (Function.update t.net p _ p).network.macAddress = _
    rw [Function.update_self]
    rfl
  · rw [hempty] at hpool
    cases hpool

end Steps

section Runs

variable {maxBssCnt : ℕ} {c : ScanConfig} {t t' : ScanTable} {es : List ScanOp}

theorem counted_init (maxBssCnt : ℕ) : Counted maxBssCnt (.init maxBssCnt) :=
  ⟨by simp [ScanTable.init], rfl⟩

theorem unique_init (maxBssCnt : ℕ) : Unique (.init maxBssCnt) :=
  fun _ hp => absurd hp List.not_mem_nil

/-- **Every run keeps the networks in one list each and counted, gives up no fixed entry and
overwrites the weakest one; where no step makes two entries of one network there are none.** -/
theorem scan_table_sound
    (hrun : Transition.run (scanStep c) (.init maxBssCnt) es = some t) :
    Counted maxBssCnt t ∧
      (∀ e t', (∀ p b, e ≠ .mark p b) → scanStep c t e = some t' → FixedKept t t') ∧
      (∀ m now target, VictimLaw c t (t.rtwUpdateScannedNetwork c m now target).1 target) ∧
      (Transition.Meets (scanStep c) (KeepsUnique c) (.init maxBssCnt) es → Unique t) := by
  have hkept : ∀ t e t', Counted maxBssCnt t → scanStep c t e = some t' → Counted maxBssCnt t' :=
    fun _ _ _ => counted_step
  have hcounted := Transition.run_invariant hkept (counted_init maxBssCnt) hrun
  refine ⟨hcounted, fun e t' hmark hstep => fixedKept_step hcounted hmark hstep,
    fun m now target => victimLaw_update c t m now target, fun hmeets => ?_⟩
  have hstep : ∀ t e t', (Counted maxBssCnt t ∧ Unique t) → KeepsUnique c t e →
      scanStep c t e = some t' → Counted maxBssCnt t' ∧ Unique t' :=
    fun t e t' h hkeeps hstep =>
      ⟨counted_step h.1 hstep, unique_step h.2 hkeeps hstep⟩
  exact (Transition.run_invariant_of_meets hstep ⟨counted_init _, unique_init _⟩ hmeets hrun).2

def noKeys : ScanConfig where
  rtwGetBcnKeysFromBss _ keys := (false, keys)

def namedBeacon (name : Bytes) : WlanBssidEx where
  macAddress := ⟨2, 0, 0, 0, 0, 1⟩
  reserved0 := .bcn
  ssid := name
  ieLength := 14 + name.length
  ies := List.replicate 12 0 ++ [0, UInt8.ofNat name.length] ++ name ++ List.replicate 8 0

def renamed : List ScanOp :=
  [.update {} 0 (namedBeacon [0x61]), .update {} 100 (namedBeacon [0x62, 0x62])]

/-- Both names are in the table, and the second is heard again. -/
theorem scan_table_sound_renamed :
    ∃ t, Transition.run (scanStep noKeys) (.init 64)
        (renamed ++ [.update {} 200 (namedBeacon [0x62, 0x62])]) = some t ∧
      (t.scannedQueue, (t.net 1).lastScanned) = ([0, 1], 200) ∧ Unique t := by
  have hend : (Transition.run (scanStep noKeys) (.init 64)
      (renamed ++ [.update {} 200 (namedBeacon [0x62, 0x62])])).map
      (fun t => (t.scannedQueue, (t.net 1).lastScanned)) = some ([0, 1], 200) := by decide +kernel
  obtain ⟨t, hrun, hend⟩ := Option.map_eq_some_iff.mp hend
  exact ⟨t, hrun, hend, (scan_table_sound hrun).2.2.2 (by decide +kernel)⟩

/-- **A beacon without a name makes the two entries one network.** -/
theorem not_unique :
    ∃ t, Transition.run (scanStep noKeys) (.init 4)
      (renamed ++ [.update {} 200 (namedBeacon [])]) = some t ∧ ¬ Unique t := by
  have hsame : (Transition.run (scanStep noKeys) (.init 4)
      (renamed ++ [.update {} 200 (namedBeacon [])])).map
      (fun t => (t.scannedQueue, isSameNetwork (t.net 0).network (t.net 1).network)) =
        some ([0, 1], true) := by decide
  obtain ⟨t, hrun, hboth⟩ := Option.map_eq_some_iff.mp hsame
  obtain ⟨hqueue, hsame⟩ := Prod.mk.inj hboth
  refine ⟨t, hrun, fun hunique => ?_⟩
  have hno := hunique 0 (by simp [hqueue]) 1 (by simp [hqueue]) (by decide)
  exact Bool.false_ne_true (hno.symm.trans hsame)

end Runs

end Rtl88x2eu.Scan
