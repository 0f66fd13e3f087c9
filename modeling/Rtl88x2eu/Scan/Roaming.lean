import Rtl88x2eu.Scan.Table

/-!
# Pointers into the scan table

A station keeps two pointers to entries of the scan table: `cur_network_scanned` to that of the
network it is in, which is fixed as long as it is, and `roam_network` to that of the network it has
chosen to roam to, which nothing protects.

There is no `roam_tgt_addr`, and neither 802.11r nor WNM is on. Times are in milliseconds and do not
wrap.

## Main definitions

* `StaMlme`
* `selectRoamingCandidate`, `selectAndJoinFromScannedQueue`, `joinbssEventPrehandle`,
  `freeAssocResources`, `joinTimeoutHandler`: the operations besides those of the table
* `PointersMeaningful`, `InOrder`

## Main results

* `best_roamingCandidate`: what is selected
* `staInv_step`: an operation in order keeps the pointers
* `pointersMeaningful_of_meets`: a run does
* `not_pointersMeaningful`: a scan overwrites the entry to roam to
-/

namespace Rtl88x2eu.Scan

/-! ## The station -/

/-- The build, the channels and what the user has set. -/
structure RoamConfig where
  scan : ScanConfig
  /-- `rtw_chset_search_ch` finds the channel, and it is not `rtw_chset_is_ch_non_ocp`. -/
  channelAllowed : ℕ → Bool
  /-- `rtw_is_desired_network` -/
  isDesiredNetwork : WlanNetwork → Bool
  /-- Where `WPS_ATTR_SELECTED_REGISTRAR` has its value in the elements. -/
  selectedRegistrar : WlanBssidEx → Option ℕ
  roamScanrExpMs : ℕ
  roamRssiDiffTh : ℤ

/-- `struct mlme_priv` of a station, as far as the pointers go. -/
structure StaMlme where
  table : ScanTable
  /-- `cur_network.network` -/
  curNetwork : WlanBssidEx := {}
  curNetworkScanned : Option ℕ := none
  roamNetwork : Option ℕ := none
  selected : Option MacAddr := none
  /-- `WIFI_ASOC_STATE` -/
  asoc : Bool := false
  /-- `WIFI_UNDER_LINKING` -/
  underLinking : Bool := false
  /-- `WIFI_UNDER_WPS` -/
  underWps : Bool := false
  wpaPhase : Bool := false
  toRoam : ℕ := 0

def isSameEss (a b : WlanBssidEx) : Bool := a.ssid = b.ssid

def ScanTable.findNetwork (t : ScanTable) (addr : MacAddr) : Option ℕ :=
  if addr = .zero then none
  else t.scannedQueue.find? fun p => (t.net p).network.macAddress = addr

def ScanTable.findSameNetwork (t : ScanTable) (network : WlanBssidEx) : Option ℕ :=
  t.scannedQueue.find? fun p => isSameNetwork network (t.net p).network

def ScanTable.setFixed (t : ScanTable) (p : ℕ) (fixed : Bool) : ScanTable :=
  t.setNet p { t.net p with fixed := fixed }

def ScanTable.freeScanqueue (t : ScanTable) : ScanTable :=
  t.scannedQueue.foldl ScanTable.toPool t

namespace StaMlme

variable (c : RoamConfig) (s : StaMlme)

def checkRoamingCandidate (needToRoam : Bool) (scanned now : ℕ) (candidate : Option ℕ)
    (competitor : ℕ) : Option ℕ :=
  let n := s.table.net competitor
  if !c.channelAllowed n.network.dsConfig then candidate
  else if !isSameEss n.network s.curNetwork then candidate
  else if !c.isDesiredNetwork n then candidate
  else if !needToRoam then candidate
  else if c.roamScanrExpMs ≤ now - n.lastScanned then candidate
  else if n.network.rssi - (s.table.net scanned).network.rssi < c.roamRssiDiffTh then candidate
  else if candidate.any fun p => n.network.rssi ≤ (s.table.net p).network.rssi then candidate
  else some competitor

def roamingCandidate (needToRoam : Bool) (now : ℕ) : Option ℕ :=
  s.curNetworkScanned.bind fun scanned =>
    s.table.scannedQueue.foldl (s.checkRoamingCandidate c needToRoam scanned now) none

def selectRoamingCandidate (needToRoam : Bool) (now : ℕ) : StaMlme :=
  match s.roamingCandidate c needToRoam now with
  | none => s
  | some p =>
    { s with
      roamNetwork := some p
      selected := some (s.table.net p).network.macAddress }

def clearRegistrar (network : WlanBssidEx) : WlanBssidEx :=
  match c.selectedRegistrar network with
  | none => network
  | some i => { network with ies := network.ies.overwrite i [0] }

/-- `rtw_indicate_disconnect`. Whether `to_roam` is zero or not, the station is out of the network
then. -/
def indicateDisconnect : StaMlme :=
  { s with
    wpaPhase := s.wpaPhase || s.underWps
    underLinking := false
    underWps := false
    asoc := false
    table :=
      match s.curNetworkScanned with
      | none => s.table
      | some p => s.table.setNet p
          { s.table.net p with network := clearRegistrar c (s.table.net p).network } }

/-- What a join depends on besides: memory for the parameters of a survey, the candidate of
`rtw_check_join_candidate`, and whether `rtw_joinbss_cmd` and a site survey succeed. -/
structure JoinOutcome where
  malloc : Bool := true
  candidate : Option ℕ := none
  joinbss : Bool := true
  survey : Bool := true

/-- `rtw_select_and_join_from_scanned_queue`: the state, the entry that is joined and whether this
succeeds. -/
def selectAndJoinFromScannedQueue (o : JoinOutcome) : StaMlme × Option ℕ × Bool :=
  match s.roamNetwork.or o.candidate with
  | none => (s, none, false)
  | some p =>
    let s := if s.asoc then s.indicateDisconnect c else s
    ({ s with underLinking := true }, some p, o.joinbss)

/-- `rtw_do_join` of a station. -/
def doJoin (o : JoinOutcome) : StaMlme × Bool :=
  if !o.malloc then (s, false)
  else
    let s := { s with underLinking := true }
    if s.table.scannedQueue = [] then ({ s with underLinking := false }, o.survey)
    else
      match s.selectAndJoinFromScannedQueue c o with
      | (s, _, true) => (s, true)
      | (s, _, false) => ({ s with underLinking := false }, o.survey)

/-- The entry of the network that was joined: the table with what becomes fixed and no longer fixed,
and `ptarget_wlan`. -/
def joinTarget (pnetwork : WlanBssidEx) : ScanTable × Option ℕ :=
  if s.asoc then
    if pnetwork.macAddress = s.curNetwork.macAddress then
      (s.table, s.table.findNetwork s.curNetwork.macAddress)
    else
      let t := match s.table.findNetwork s.curNetwork.macAddress with
        | none => s.table
        | some p => s.table.setFixed p false
      match t.findNetwork pnetwork.macAddress with
      | none => (t, none)
      | some p => (t.setFixed p true, some p)
  else
    match s.table.findSameNetwork pnetwork with
    | none => (s.table, none)
    | some p => (s.table.setFixed p true, some p)

/-- `rtw_joinbss_event_prehandle` of a successful join; `sta` says whether
`rtw_joinbss_update_stainfo` finds a station. -/
def joinbssEventPrehandle (pnetwork : WlanBssidEx) (sta : Bool) : StaMlme :=
  if !s.underLinking then s
  else
    -- s1. find ptarget_wlan
    match s.joinTarget pnetwork with
    | (t, none) => { s with table := t }
    | (t, some p) =>
      -- s2. update cur_network
      let s := { s with
        table := t
        curNetwork := { pnetwork with
          ieLength := (t.net p).network.ieLength
          ies := (t.net p).network.ies }
        asoc := false
        underLinking := false }
      -- s3. find ptarget_sta
      if !sta then s
      -- s4. indicate connect
      else { s with curNetworkScanned := some p, asoc := true, toRoam := 0 }

def freeAssocResources : StaMlme :=
  if s.underWps || s.wpaPhase then s
  else
    match s.table.findSameNetwork s.curNetwork with
    | none => s
    | some p => { s with table := (s.table.setFixed p false).rtwFreeNetworkNolock p }

/-- The loop of `rtw_join_timeout_handler` over the tries that are left. -/
def tryRoaming (o : ℕ → JoinOutcome) : ℕ → StaMlme → StaMlme
  | 0, s => s
  | n + 1, s =>
    let s := { s with toRoam := n }
    if n = 0 then s.indicateDisconnect c
    else
      match s.doJoin c (o n) with
      | (s, true) => s
      | (s, false) => tryRoaming o n s

def joinTimeoutHandler (o : ℕ → JoinOutcome) : StaMlme :=
  if 0 < s.toRoam then tryRoaming c o s.toRoam s
  else
    let s := s.indicateDisconnect c
    { s with table := s.table.freeScanqueue }

def freeNetworkQueue (now : ℕ) (isfreeall : Bool) : StaMlme :=
  { s with table :=
      s.table.scannedQueue.foldl (fun t p => t.rtwFreeNetwork {} now p isfreeall) s.table }

/-- `rtw_update_scanned_network`, in the state of the station. -/
def updateScannedNetwork (now signalStrength signalQual : ℕ) (target : WlanBssidEx) : StaMlme :=
  { s with table := (s.table.rtwUpdateScannedNetwork c.scan
      { asoc := s.asoc, curNetwork := s.curNetwork, signalStrength, signalQual } now target).1 }

end StaMlme

/-- What happens to a station. `setWps` and `setToRoam` are what other code does to the state, and
`roamed` clears `roam_network`, as the connection is reported. -/
inductive MlmeOp
  | update (now signalStrength signalQual : ℕ) (target : WlanBssidEx)
  | freeNetworkQueue (now : ℕ) (isfreeall : Bool)
  | joined (pnetwork : WlanBssidEx) (sta : Bool)
  | freeAssocResources
  | joinTimeout (o : ℕ → StaMlme.JoinOutcome)
  | selectRoaming (needToRoam : Bool) (now : ℕ)
  | selectAndJoin (o : StaMlme.JoinOutcome)
  | setWps (underWps wpaPhase : Bool)
  | setToRoam (toRoam : ℕ)
  | roamed

def mlmeStep (c : RoamConfig) (s : StaMlme) : MlmeOp → Option StaMlme
  | .update now signalStrength signalQual target =>
    if target.Framed then some (s.updateScannedNetwork c now signalStrength signalQual target)
    else none
  | .freeNetworkQueue now isfreeall => some (s.freeNetworkQueue now isfreeall)
  | .joined pnetwork sta => some (s.joinbssEventPrehandle pnetwork sta)
  | .freeAssocResources => some s.freeAssocResources
  | .joinTimeout o => some (s.joinTimeoutHandler c o)
  | .selectRoaming needToRoam now => some (s.selectRoamingCandidate c needToRoam now)
  | .selectAndJoin o => some (s.selectAndJoinFromScannedQueue c o).1
  | .setWps underWps wpaPhase => some { s with underWps, wpaPhase }
  | .setToRoam toRoam => some { s with toRoam }
  | .roamed => some { s with roamNetwork := none }

def CurrentMeaningful (s : StaMlme) : Prop :=
  s.asoc = true → ∃ p, s.curNetworkScanned = some p ∧ p ∈ s.table.scannedQueue ∧
    (s.table.net p).network.macAddress = s.curNetwork.macAddress ∧
    (s.table.net p).fixed = true ∧ ∀ q ∈ s.table.scannedQueue, (s.table.net q).fixed = true → q = p

def RoamMeaningful (s : StaMlme) : Prop :=
  ∀ p ∈ s.roamNetwork, p ∈ s.table.scannedQueue ∧
    s.selected = some (s.table.net p).network.macAddress

def Eligible (c : RoamConfig) (s : StaMlme) (scanned now q : ℕ) : Prop :=
  c.channelAllowed (s.table.net q).network.dsConfig = true ∧
    isSameEss (s.table.net q).network s.curNetwork = true ∧
    c.isDesiredNetwork (s.table.net q) = true ∧
    now - (s.table.net q).lastScanned < c.roamScanrExpMs ∧
    c.roamRssiDiffTh ≤ (s.table.net q).network.rssi - (s.table.net scanned).network.rssi

structure Best (c : RoamConfig) (s : StaMlme) (scanned now : ℕ) (entries : List ℕ) (p : ℕ) :
    Prop where
  mem : p ∈ entries
  eligible : Eligible c s scanned now p
  strongest : ∀ q ∈ entries, Eligible c s scanned now q →
    (s.table.net q).network.rssi ≤ (s.table.net p).network.rssi

/-- What is asked of the pointers. -/
structure PointersMeaningful (c : RoamConfig) (s : StaMlme) : Prop where
  current : CurrentMeaningful s
  roam : RoamMeaningful s
  selection : ∀ needToRoam now scanned p, s.curNetworkScanned = some scanned →
    s.roamingCandidate c needToRoam now = some p → Best c s scanned now s.table.scannedQueue p

/-- The condition on an operation and on the state before it. -/
def InOrder (c : RoamConfig) (s : StaMlme) : MlmeOp → Prop
  | .update _ _ _ target => ∀ p ∈ s.roamNetwork, s.table.freeBssPool = [] →
      s.table.search c.scan target s.table.scannedQueue none ≠ (none, some p)
  | .freeNetworkQueue now isfreeall => ∀ p ∈ s.roamNetwork, (s.table.net p).fixed = true ∨
      isfreeall = false ∧ now - (s.table.net p).lastScanned < scanqueueLifetime
  | .joined pnetwork sta => s.underLinking = true →
      if s.asoc then
        s.table.findNetwork s.curNetwork.macAddress = s.curNetworkScanned ∧
          (pnetwork.macAddress ≠ s.curNetwork.macAddress →
            (s.table.findNetwork pnetwork.macAddress).isSome = true)
      else ∀ p ∈ s.table.findSameNetwork pnetwork, sta = true →
        ∀ q ∈ s.table.scannedQueue, (s.table.net q).fixed = true → q = p
  | .freeAssocResources => s.underWps = true ∨ s.wpaPhase = true ∨
      ∀ p ∈ s.table.findSameNetwork s.curNetwork,
        (s.asoc = true → s.curNetworkScanned ≠ some p) ∧ s.roamNetwork ≠ some p
  | .joinTimeout _ => s.toRoam = 0 → s.roamNetwork = none
  | _ => True

instance InOrder.decidable {c : RoamConfig} {s : StaMlme} {e : MlmeOp} :
    Decidable (InOrder c s e) := by
  cases e <;> unfold InOrder <;> infer_instance

section Selection

variable {c : RoamConfig} {s : StaMlme} {needToRoam : Bool} {scanned now p q : ℕ}
  {done rest : List ℕ} {candidate : Option ℕ}

def BestOf (c : RoamConfig) (s : StaMlme) (scanned now : ℕ) (entries : List ℕ) :
    Option ℕ → Prop
  | none => ∀ q ∈ entries, ¬ Eligible c s scanned now q
  | some p => Best c s scanned now entries p

/-- An entry that is passed over changes nothing, if it is not eligible or not stronger. -/
theorem BestOf.pass (h : BestOf c s scanned now done candidate)
    (hpass : Eligible c s scanned now q →
      ∃ p, candidate = some p ∧ (s.table.net q).network.rssi ≤ (s.table.net p).network.rssi) :
    BestOf c s scanned now (done ++ [q]) candidate := by
  cases candidate with
  | none =>
    intro r hr heligible
    rcases List.mem_append.mp hr with hr | hr
    · exact h r hr heligible
    · obtain rfl := List.mem_singleton.mp hr
      obtain ⟨p, hp, -⟩ := hpass heligible
      cases hp
  | some p =>
    refine ⟨List.mem_append_left _ h.mem, h.eligible, fun r hr heligible => ?_⟩
    rcases List.mem_append.mp hr with hr | hr
    · exact h.strongest r hr heligible
    · obtain rfl := List.mem_singleton.mp hr
      obtain ⟨p', hp', hle⟩ := hpass heligible
      obtain rfl := Option.some.inj hp'
      exact hle

/-- An eligible entry that is stronger is the candidate. -/
theorem BestOf.take (h : BestOf c s scanned now done candidate)
    (heligible : Eligible c s scanned now q)
    (hstronger : ∀ p ∈ candidate, (s.table.net p).network.rssi < (s.table.net q).network.rssi) :
    BestOf c s scanned now (done ++ [q]) (some q) := by
  refine ⟨List.mem_append_right _ List.mem_cons_self, heligible, fun r hr hr' => ?_⟩
  rcases List.mem_append.mp hr with hr | hr
  · cases candidate with
    | none => exact absurd hr' (h r hr)
    | some p => exact (h.strongest r hr hr').trans (hstronger p rfl).le
  · obtain rfl := List.mem_singleton.mp hr
    exact le_rfl

/-- **What a competitor does to the candidate.** -/
theorem BestOf.check (h : BestOf c s scanned now done candidate) :
    BestOf c s scanned now (done ++ [q])
      (s.checkRoamingCandidate c true scanned now candidate q) := by
  unfold StaMlme.checkRoamingCandidate
  dsimp only
  by_cases hch : c.channelAllowed (s.table.net q).network.dsConfig = true
  case neg =>
    rw [if_pos (by simpa using hch)]
    exact h.pass fun he => absurd he.1 hch
  rw [if_neg (by simpa using hch)]
  by_cases hess : isSameEss (s.table.net q).network s.curNetwork = true
  case neg =>
    rw [if_pos (by simpa using hess)]
    exact h.pass fun he => absurd he.2.1 hess
  rw [if_neg (by simpa using hess)]
  by_cases hdesired : c.isDesiredNetwork (s.table.net q) = true
  case neg =>
    rw [if_pos (by simpa using hdesired)]
    exact h.pass fun he => absurd he.2.2.1 hdesired
  rw [if_neg (by simpa using hdesired), if_neg (by simp)]
  by_cases hold : c.roamScanrExpMs ≤ now - (s.table.net q).lastScanned
  case pos =>
    rw [if_pos hold]
    exact h.pass fun he => absurd he.2.2.2.1 hold.not_gt
  rw [if_neg hold]
  by_cases hweak : (s.table.net q).network.rssi - (s.table.net scanned).network.rssi <
      c.roamRssiDiffTh
  case pos =>
    rw [if_pos hweak]
    exact h.pass fun he => absurd he.2.2.2.2 hweak.not_ge
  rw [if_neg hweak]
  by_cases hless : (candidate.any fun p =>
      decide ((s.table.net q).network.rssi ≤ (s.table.net p).network.rssi)) = true
  · rw [if_pos hless]
    obtain ⟨p, hp, hle⟩ := (Option.any_eq_true _ _).mp hless
    exact h.pass fun _ => ⟨p, hp, of_decide_eq_true hle⟩
  · rw [if_neg hless]
    refine h.take ⟨hch, hess, hdesired, not_le.mp hold, not_lt.mp hweak⟩ fun p hp => ?_
    by_contra hle
    exact hless ((Option.any_eq_true _ _).mpr ⟨p, hp, decide_eq_true (not_lt.mp hle)⟩)

theorem checkRoamingCandidate_false :
    s.checkRoamingCandidate c false scanned now candidate q = candidate := by
  unfold StaMlme.checkRoamingCandidate
  dsimp only
  split_ifs <;> first | rfl | simp_all

/-- **The loop over the entries.** -/
theorem BestOf.foldl (h : BestOf c s scanned now done candidate) :
    BestOf c s scanned now (done ++ rest)
      (rest.foldl (s.checkRoamingCandidate c true scanned now) candidate) := by
  induction rest generalizing done candidate with
  | nil => simpa using h
  | cons q rest ih =>
    have hnext := ih (@BestOf.check _ _ _ _ q _ _ h)
    rw [List.append_assoc] at hnext
    exact hnext

/-- **What is selected is one of the strongest** of the entries that the station may roam to. -/
theorem best_roamingCandidate (hscanned : s.curNetworkScanned = some scanned)
    (h : s.roamingCandidate c needToRoam now = some p) :
    Best c s scanned now s.table.scannedQueue p := by
  unfold StaMlme.roamingCandidate at h
  rw [hscanned, Option.bind_some] at h
  cases needToRoam with
  | true =>
    have hbest : BestOf c s scanned now ([] ++ s.table.scannedQueue) _ :=
      @BestOf.foldl _ _ _ _ _ _ none fun q hq => absurd hq List.not_mem_nil
    rw [h, List.nil_append] at hbest
    exact hbest
  | false =>
    have hkept : ∀ entries : List ℕ,
        entries.foldl (s.checkRoamingCandidate c false scanned now) none = none := by
      intro entries
      induction entries with
      | nil => rfl
      | cons q entries ih =>
        rw [List.foldl_cons, checkRoamingCandidate_false]
        exact ih
    rw [hkept] at h
    cases h

end Selection

/-! ## What the operations do to the table -/

section Tables

variable {maxBssCnt : ℕ} {c : ScanConfig} {t t' : ScanTable} {m : Mlme} {now p q : ℕ}
  {target : WlanBssidEx} {fixed : Bool}

structure SameEntries (t t' : ScanTable) : Prop where
  freeBssPool : t'.freeBssPool = t.freeBssPool
  scannedQueue : t'.scannedQueue = t.scannedQueue
  numOfScanned : t'.numOfScanned = t.numOfScanned
  macAddress : ∀ q, (t'.net q).network.macAddress = (t.net q).network.macAddress

theorem SameEntries.refl (t : ScanTable) : SameEntries t t := ⟨rfl, rfl, rfl, fun _ => rfl⟩

theorem SameEntries.trans {t'' : ScanTable} (h : SameEntries t t') (h' : SameEntries t' t'') :
    SameEntries t t'' :=
  ⟨h'.freeBssPool.trans h.freeBssPool, h'.scannedQueue.trans h.scannedQueue,
    h'.numOfScanned.trans h.numOfScanned, fun q => (h'.macAddress q).trans (h.macAddress q)⟩

theorem SameEntries.counted (h : SameEntries t t') (hc : Counted maxBssCnt t) :
    Counted maxBssCnt t' := by
  refine ⟨?_, ?_⟩
  · rw [h.freeBssPool, h.scannedQueue]
    exact hc.custody
  · rw [h.numOfScanned, h.scannedQueue]
    exact hc.count

theorem sameEntries_setNet {n : WlanNetwork}
    (hn : n.network.macAddress = (t.net p).network.macAddress) :
    SameEntries t (t.setNet p n) := by
  refine ⟨rfl, rfl, rfl, fun q => ?_⟩
  show (Function.update t.net p n q).network.macAddress = _
  by_cases hq : q = p
  · rw [hq, Function.update_self]
    exact hn
  · rw [Function.update_of_ne hq]

theorem sameEntries_setFixed : SameEntries t (t.setFixed p fixed) := sameEntries_setNet rfl

theorem net_setFixed_self : (t.setFixed p fixed).net p = { t.net p with fixed := fixed } :=
  Function.update_self ..

theorem net_setFixed_of_ne (h : q ≠ p) : (t.setFixed p fixed).net q = t.net q :=
  Function.update_of_ne h ..

theorem findNetwork_setFixed (addr : MacAddr) :
    (t.setFixed p fixed).findNetwork addr = t.findNetwork addr := by
  have hsame : SameEntries t (t.setFixed p fixed) := sameEntries_setFixed
  unfold ScanTable.findNetwork
  simp only [hsame.macAddress]
  rfl

theorem findNetwork_spec {addr : MacAddr} (h : t.findNetwork addr = some p) :
    p ∈ t.scannedQueue ∧ (t.net p).network.macAddress = addr := by
  unfold ScanTable.findNetwork at h
  split at h
  case isTrue => cases h
  case isFalse => exact ⟨List.mem_of_find?_eq_some h, by simpa using List.find?_some h⟩

theorem findSameNetwork_spec {network : WlanBssidEx} (h : t.findSameNetwork network = some p) :
    p ∈ t.scannedQueue ∧ (t.net p).network.macAddress = network.macAddress := by
  unfold ScanTable.findSameNetwork at h
  have hsame : isSameNetwork network (t.net p).network = true := by
    simpa using List.find?_some h
  exact ⟨List.mem_of_find?_eq_some h, (macAddress_of_isSameNetwork hsame).symm⟩

def FixedOld (t t' : ScanTable) : Prop :=
  ∀ q ∈ t'.scannedQueue, (t'.net q).fixed = true → q ∈ t.scannedQueue ∧ (t.net q).fixed = true

/-- **The entries after an update**: nothing new is fixed, and an entry keeps its address unless it
is overwritten. -/
theorem rtwUpdateScannedNetwork_entries (c : ScanConfig) (hc : Counted maxBssCnt t) (m : Mlme)
    (now : ℕ) (target : WlanBssidEx) :
    FixedOld t (t.rtwUpdateScannedNetwork c m now target).1 ∧
      ∀ p ∈ t.scannedQueue,
        p ∈ (t.rtwUpdateScannedNetwork c m now target).1.scannedQueue ∧
        ((t.freeBssPool = [] → t.search c target t.scannedQueue none ≠ (none, some p)) →
          ((t.rtwUpdateScannedNetwork c m now target).1.net p).network.macAddress =
            (t.net p).network.macAddress) := by
  have hnil : Chosen c t [] none := fun p hp => absurd hp List.not_mem_nil
  have hbefore : ∀ p ∈ ([] : List ℕ), isSameNetwork (t.net p).network target = false :=
    fun p hp => absurd hp List.not_mem_nil
  rw [ScanTable.rtwUpdateScannedNetwork]
  rcases @search_cases c t target [] t.scannedQueue none hnil hbefore with
    ⟨p, hp, hsame, choice, hres⟩ | ⟨-, choice, -, hres⟩
  · rw [hres]
    have hmac : (foundNetwork c m now (t.net p) target).1.network.macAddress =
        (t.net p).network.macAddress := by
      rw [network_foundNetwork]
      cases (foundNetwork c m now (t.net p) target).2 with
      | true => exact (macAddress_of_isSameNetwork hsame).symm
      | false => rfl
    refine ⟨fun q hq hfixed => ⟨hq, ?_⟩, fun q hq => ⟨hq, fun _ => ?_⟩⟩
    · change (Function.update t.net p _ q).fixed = true at hfixed
      by_cases hqp : q = p
      · rw [hqp, Function.update_self] at hfixed
        rw [hqp]
        exact hfixed
      · rw [Function.update_of_ne hqp] at hfixed
        exact hfixed
    · exact (sameEntries_setNet hmac).macAddress q
  · rw [hres]
    cases hpool : t.freeBssPool with
    | nil =>
      cases choice with
      | none => exact ⟨fun q hq hfixed => ⟨hq, hfixed⟩, fun q hq => ⟨hq, fun _ => rfl⟩⟩
      | some p =>
        refine ⟨fun q hq hfixed => ⟨hq, ?_⟩, fun q hq => ⟨hq, fun hother => ?_⟩⟩
        · change (Function.update t.net p _ q).fixed = true at hfixed
          by_cases hqp : q = p
          · rw [hqp, Function.update_self] at hfixed
            cases hfixed
          · rw [Function.update_of_ne hqp] at hfixed
            exact hfixed
        · have hqp : q ≠ p := fun hqp => hother rfl (by rw [hqp])
          change (Function.update t.net p _ q).network.macAddress = _
          rw [Function.update_of_ne hqp]
    | cons p pool =>
      have hnew : p ∉ t.scannedQueue := hc.notMem_of_pool hpool
      simp only [ScanTable.rtwAllocNetwork, hpool]
      refine ⟨fun q hq hfixed => ?_, fun q hq => ⟨List.mem_append_left _ hq, fun _ => ?_⟩⟩
      · change (Function.update (Function.update t.net p _) p _ q).fixed = true at hfixed
        by_cases hqp : q = p
        · rw [hqp, Function.update_self] at hfixed
          change (Function.update t.net p _ p).fixed = true at hfixed
          rw [Function.update_self] at hfixed
          cases hfixed
        · rw [Function.update_of_ne hqp, Function.update_of_ne hqp] at hfixed
          refine ⟨(List.mem_append.mp hq).resolve_right fun hq' => ?_, hfixed⟩
          exact hqp (List.mem_singleton.mp hq')
      · have hqp : q ≠ p := fun hqp => hnew (hqp ▸ hq)
        change (Function.update (Function.update t.net p _) p _ q).network.macAddress = _
        rw [Function.update_of_ne hqp, Function.update_of_ne hqp]

theorem Counted.toPool (h : Counted maxBssCnt t) (hp : p ∈ t.scannedQueue) :
    Counted maxBssCnt (t.toPool p) := by
  obtain ⟨-, -, hout⟩ := h.nodup
  refine ⟨?_, ?_⟩
  · show (t.freeBssPool.erase p ++ [p] ++ t.scannedQueue.erase p).Perm _
    rw [List.erase_of_not_mem (hout p hp), List.append_assoc]
    exact ((List.perm_cons_erase hp).symm.append_left t.freeBssPool).trans h.custody
  · show t.numOfScanned - 1 = ((t.scannedQueue.erase p).length : ℤ)
    have hpos : 0 < t.scannedQueue.length := List.length_pos_of_mem hp
    rw [h.count, List.length_erase_of_mem hp]
    omega

/-- **A loop that sends entries back to the pool**: those that stay are the ones it passes over. -/
theorem Counted.freeLoop {f : ScanTable → ℕ → ScanTable} {stays : WlanNetwork → Prop}
    (hf : ∀ t p, f t p = t ∨ f t p = t.toPool p) (hstays : ∀ t p, stays (t.net p) → f t p = t)
    {entries : List ℕ} (h : Counted maxBssCnt t) (hnodup : entries.Nodup)
    (hin : ∀ p ∈ entries, p ∈ t.scannedQueue) :
    Counted maxBssCnt (entries.foldl f t) ∧ (entries.foldl f t).net = t.net ∧
      (∀ q ∈ (entries.foldl f t).scannedQueue, q ∈ t.scannedQueue) ∧
      ∀ q ∈ t.scannedQueue, stays (t.net q) → q ∈ (entries.foldl f t).scannedQueue := by
  induction entries generalizing t with
  | nil => exact ⟨h, rfl, fun q hq => hq, fun q hq _ => hq⟩
  | cons p entries ih =>
    obtain ⟨hp, hnodup⟩ := List.nodup_cons.mp hnodup
    have hrest : ∀ q ∈ entries, q ∈ t.scannedQueue := fun q hq => hin q (List.mem_cons_of_mem _ hq)
    rw [List.foldl_cons]
    by_cases hkept : f t p = t
    · rw [hkept]
      exact ih h hnodup hrest
    · have hfreed : f t p = t.toPool p := (hf t p).resolve_left hkept
      rw [hfreed]
      obtain ⟨hc, hnet, hsub, hstay⟩ := ih (h.toPool (hin p List.mem_cons_self)) hnodup
        fun q hq => (List.mem_erase_of_ne (ne_of_mem_of_not_mem hq hp)).mpr (hrest q hq)
      refine ⟨hc, hnet, fun q hq => List.mem_of_mem_erase (hsub q hq), fun q hq hq' => ?_⟩
      have hqp : q ≠ p := fun hqp => hkept (hstays t p (hqp ▸ hq'))
      exact hstay q ((List.mem_erase_of_ne hqp).mpr hq) hq'

end Tables

section Steps

variable {maxBssCnt : ℕ} {c : RoamConfig} {s s' : StaMlme} {t : ScanTable} {p : ℕ}
  {pnetwork : WlanBssidEx}

/-- What is kept: the lists, and the two pointers. -/
structure StaInv (maxBssCnt : ℕ) (s : StaMlme) : Prop where
  counted : Counted maxBssCnt s.table
  current : CurrentMeaningful s
  roam : RoamMeaningful s

theorem CurrentMeaningful.of_kept (h : CurrentMeaningful s) (hkept : FixedKept s.table t)
    (hold : FixedOld s.table t) : CurrentMeaningful { s with table := t } := by
  intro hasoc
  obtain ⟨p, hscanned, hp, hmac, hfixed, honly⟩ := h hasoc
  obtain ⟨hp', hfixed', hmac'⟩ := hkept p hp hfixed
  refine ⟨p, hscanned, hp', hmac'.trans hmac, hfixed', fun q hq hq' => ?_⟩
  obtain ⟨hqold, hqfixed⟩ := hold q hq hq'
  exact honly q hqold hqfixed

theorem RoamMeaningful.of_kept (h : RoamMeaningful s) (hroam : s'.roamNetwork = s.roamNetwork)
    (hselected : s'.selected = s.selected)
    (hkept : ∀ p ∈ s.roamNetwork, p ∈ s.table.scannedQueue → p ∈ s'.table.scannedQueue ∧
      (s'.table.net p).network.macAddress = (s.table.net p).network.macAddress) :
    RoamMeaningful s' := by
  intro p hp
  rw [hroam] at hp
  obtain ⟨hq, hmac⟩ := h p hp
  obtain ⟨hq', hmac'⟩ := hkept p hp hq
  exact ⟨hq', by rw [hselected, hmac, hmac']⟩

theorem RoamMeaningful.of_same (h : RoamMeaningful s) (hroam : s'.roamNetwork = s.roamNetwork)
    (hselected : s'.selected = s.selected) (hsame : SameEntries s.table s'.table) :
    RoamMeaningful s' :=
  h.of_kept hroam hselected fun p _ hp => ⟨hsame.scannedQueue ▸ hp, hsame.macAddress p⟩

theorem StaInv.of_left (h : StaInv maxBssCnt s) (hasoc : s'.asoc = false)
    (hroam : s'.roamNetwork = s.roamNetwork) (hselected : s'.selected = s.selected)
    (hsame : SameEntries s.table s'.table) : StaInv maxBssCnt s' :=
  ⟨hsame.counted h.counted, fun ht => absurd (hasoc.symm.trans ht) Bool.false_ne_true,
    h.roam.of_same hroam hselected hsame⟩

theorem StaInv.update (h : StaInv maxBssCnt s) {now signalStrength signalQual : ℕ}
    {target : WlanBssidEx} (hframed : target.Framed)
    (hok : InOrder c s (.update now signalStrength signalQual target)) :
    StaInv maxBssCnt (s.updateScannedNetwork c now signalStrength signalQual target) := by
  unfold StaMlme.updateScannedNetwork
  generalize hm : (⟨s.asoc, false, s.curNetwork, signalStrength, signalQual⟩ : Mlme) = m
  have hstep : scanStep c.scan s.table (.update m now target) =
      some (s.table.rtwUpdateScannedNetwork c.scan m now target).1 := if_pos hframed
  obtain ⟨hold, hentries⟩ := rtwUpdateScannedNetwork_entries c.scan h.counted m now target
  refine ⟨counted_step h.counted hstep, ?_, ?_⟩
  · refine h.current.of_kept (fixedKept_step h.counted (fun p b => ?_) hstep) hold
    rintro ⟨⟩
  · refine h.roam.of_kept rfl rfl fun p hp hq => ?_
    obtain ⟨hq', hmac⟩ := hentries p hq
    exact ⟨hq', hmac (hok p hp)⟩

/-- The entries that a purge leaves. -/
def Stays (now : ℕ) (isfreeall : Bool) (n : WlanNetwork) : Prop :=
  n.fixed = true ∨ isfreeall = false ∧ now - n.lastScanned < scanqueueLifetime

theorem rtwFreeNetwork_of_stays {now : ℕ} {isfreeall : Bool} (t : ScanTable) (p : ℕ)
    (h : Stays now isfreeall (t.net p)) : t.rtwFreeNetwork {} now p isfreeall = t := by
  rw [ScanTable.rtwFreeNetwork]
  rcases h with hfixed | hyoung
  · exact if_pos hfixed
  · by_cases hfixed : (t.net p).fixed = true
    · exact if_pos hfixed
    · exact (if_neg hfixed).trans (if_pos hyoung)

theorem StaInv.freeNetworkQueue (h : StaInv maxBssCnt s) {now : ℕ} {isfreeall : Bool}
    (hok : InOrder c s (.freeNetworkQueue now isfreeall)) :
    StaInv maxBssCnt (s.freeNetworkQueue now isfreeall) := by
  have hf : ∀ (t : ScanTable) p, t.rtwFreeNetwork {} now p isfreeall = t ∨
      t.rtwFreeNetwork {} now p isfreeall = t.toPool p := by
    intro t p
    rcases rtwFreeNetwork_cases t {} now p isfreeall with heq | ⟨-, heq⟩
    · exact .inl heq
    · exact .inr heq
  obtain ⟨-, hnodup, -⟩ := h.counted.nodup
  obtain ⟨hcounted, hnet, hsub, hstays⟩ :=
    h.counted.freeLoop hf (fun t p => rtwFreeNetwork_of_stays t p) hnodup fun p hp => hp
  refine ⟨hcounted, h.current.of_kept (fun p hp hfixed => ?_) (fun q hq hfixed => ?_),
    h.roam.of_kept rfl rfl fun p hp hq => ?_⟩
  · refine ⟨hstays p hp (.inl hfixed), ?_⟩
    rw [hnet]
    exact ⟨hfixed, rfl⟩
  · rw [hnet] at hfixed
    exact ⟨hsub q hq, hfixed⟩
  · exact ⟨hstays p hq (hok p hp), congrArg (fun n => WlanBssidEx.macAddress
      (WlanNetwork.network (n p))) hnet⟩

theorem sameEntries_joinTarget (s : StaMlme) (pnetwork : WlanBssidEx) :
    SameEntries s.table (s.joinTarget pnetwork).1 := by
  unfold StaMlme.joinTarget
  split
  case isTrue =>
    split
    case isTrue => exact .refl _
    case isFalse =>
      dsimp only
      have hleft : SameEntries s.table
          (match s.table.findNetwork s.curNetwork.macAddress with
            | none => s.table
            | some p => s.table.setFixed p false) := by
        split
        · exact .refl _
        · exact sameEntries_setFixed
      split
      · exact hleft
      · exact hleft.trans sameEntries_setFixed
  case isFalse =>
    split
    · exact .refl _
    · exact sameEntries_setFixed

theorem joinTarget_spec (h : (s.joinTarget pnetwork).2 = some p) :
    p ∈ s.table.scannedQueue ∧
      (s.table.net p).network.macAddress = pnetwork.macAddress := by
  unfold StaMlme.joinTarget at h
  split at h
  case isTrue =>
    split at h
    case isTrue hmac =>
      obtain ⟨hp, hp'⟩ := findNetwork_spec h
      exact ⟨hp, hp'.trans hmac.symm⟩
    case isFalse =>
      have hfound : s.table.findNetwork pnetwork.macAddress = some p := by
        dsimp only at h
        cases hcur : s.table.findNetwork s.curNetwork.macAddress with
        | none =>
          simp only [hcur] at h
          split at h
          case h_1 => cases h
          case h_2 heq => exact heq.trans h
        | some q =>
          simp only [hcur, findNetwork_setFixed] at h
          split at h
          case h_1 => cases h
          case h_2 heq => exact heq.trans h
      exact findNetwork_spec hfound
  case isFalse =>
    split at h
    case h_1 => cases h
    case h_2 heq => exact findSameNetwork_spec (heq.trans h)

/-- **The entry of the network that was joined is the fixed one.** -/
theorem fixed_joinTarget {sta : Bool} (h : CurrentMeaningful s) (hlinking : s.underLinking = true)
    (hok : InOrder c s (.joined pnetwork sta)) (hsta : sta = true)
    (htarget : (s.joinTarget pnetwork).2 = some p) :
    ((s.joinTarget pnetwork).1.net p).fixed = true ∧
      ∀ q ∈ s.table.scannedQueue, ((s.joinTarget pnetwork).1.net q).fixed = true → q = p := by
  have hok' := hok hlinking
  unfold StaMlme.joinTarget at htarget ⊢
  by_cases hasoc : s.asoc = true
  · rw [if_pos hasoc] at hok' htarget ⊢
    obtain ⟨r, hscanned, hr, hmac, hfixed, honly⟩ := h hasoc
    obtain ⟨hcur, -⟩ := hok'
    rw [hscanned] at hcur
    by_cases hsame : pnetwork.macAddress = s.curNetwork.macAddress
    · rw [if_pos hsame] at htarget ⊢
      obtain rfl := Option.some.inj (hcur.symm.trans htarget)
      exact ⟨hfixed, honly⟩
    · rw [if_neg hsame] at htarget ⊢
      simp only [hcur, findNetwork_setFixed] at htarget ⊢
      cases hfind : s.table.findNetwork pnetwork.macAddress with
      | none =>
        rw [hfind] at htarget
        cases htarget
      | some p' =>
        rw [hfind] at htarget
        obtain rfl := Option.some.inj htarget
        dsimp only
        refine ⟨by rw [net_setFixed_self], fun q hq hq' => ?_⟩
        by_contra hqp
        rw [net_setFixed_of_ne hqp] at hq'
        by_cases hqr : q = r
        · rw [hqr, net_setFixed_self] at hq'
          cases hq'
        · rw [net_setFixed_of_ne hqr] at hq'
          exact hqr (honly q hq hq')
  · rw [if_neg hasoc] at hok' htarget ⊢
    cases hfind : s.table.findSameNetwork pnetwork with
    | none =>
      rw [hfind] at htarget
      cases htarget
    | some p' =>
      rw [hfind] at htarget hok'
      obtain rfl := Option.some.inj htarget
      dsimp only
      refine ⟨by rw [net_setFixed_self], fun q hq hq' => ?_⟩
      by_contra hqp
      rw [net_setFixed_of_ne hqp] at hq'
      exact hqp (hok' _ rfl hsta q hq hq')

theorem joinTarget_none {sta : Bool} (hlinking : s.underLinking = true)
    (hok : InOrder c s (.joined pnetwork sta)) (htarget : (s.joinTarget pnetwork).2 = none) :
    (s.joinTarget pnetwork).1 = s.table := by
  have hok' := hok hlinking
  unfold StaMlme.joinTarget at htarget ⊢
  by_cases hasoc : s.asoc = true
  · rw [if_pos hasoc] at hok' htarget ⊢
    by_cases hsame : pnetwork.macAddress = s.curNetwork.macAddress
    · rw [if_pos hsame]
    · obtain ⟨p, hp⟩ := Option.isSome_iff_exists.mp (hok'.2 hsame)
      rw [if_neg hsame] at htarget
      have hfound : ∀ t : ScanTable, t.findNetwork pnetwork.macAddress = some p →
          (match t.findNetwork pnetwork.macAddress with
            | none => (t, none)
            | some p => (t.setFixed p true, some p)).2 ≠ none := by
        intro t ht
        rw [ht]
        exact Option.some_ne_none p
      refine absurd htarget (hfound _ ?_)
      split
      · exact hp
      · rw [findNetwork_setFixed]
        exact hp
  · rw [if_neg hasoc] at htarget ⊢
    cases hfind : s.table.findSameNetwork pnetwork with
    | none => rfl
    | some p =>
      rw [hfind] at htarget
      cases htarget

/-- **A join.** -/
theorem StaInv.joined (h : StaInv maxBssCnt s) {sta : Bool}
    (hok : InOrder c s (.joined pnetwork sta)) :
    StaInv maxBssCnt (s.joinbssEventPrehandle pnetwork sta) := by
  unfold StaMlme.joinbssEventPrehandle
  by_cases hlinking : s.underLinking = true
  case neg =>
    rw [if_pos (by simpa using hlinking)]
    exact h
  rw [if_neg (by simpa using hlinking)]
  have hsame := sameEntries_joinTarget s pnetwork
  rcases htarget : s.joinTarget pnetwork with ⟨t, target⟩
  rw [htarget] at hsame
  cases target with
  | none =>
    have ht : t = s.table := by
      have hnone := joinTarget_none hlinking hok (congrArg Prod.snd htarget)
      rw [htarget] at hnone
      exact hnone
    rw [ht]
    exact h
  | some p =>
    dsimp only
    have hsnd : (s.joinTarget pnetwork).2 = some p := congrArg Prod.snd htarget
    cases sta with
    | false => exact h.of_left rfl rfl rfl hsame
    | true =>
      refine ⟨hsame.counted h.counted, fun _ => ?_, h.roam.of_same rfl rfl hsame⟩
      obtain ⟨hp, hmac⟩ := joinTarget_spec hsnd
      obtain ⟨hfixed, honly⟩ := fixed_joinTarget h.current hlinking hok rfl hsnd
      rw [htarget] at hfixed honly
      refine ⟨p, rfl, hsame.scannedQueue ▸ hp, (hsame.macAddress p).trans hmac, hfixed,
        fun q hq hq' => honly q ?_ hq'⟩
      exact hsame.scannedQueue ▸ hq

theorem sameEntries_indicateDisconnect (c : RoamConfig) (s : StaMlme) :
    SameEntries s.table (s.indicateDisconnect c).table := by
  unfold StaMlme.indicateDisconnect
  cases s.curNetworkScanned with
  | none => exact .refl _
  | some p =>
    refine sameEntries_setNet ?_
    dsimp only
    unfold StaMlme.clearRegistrar
    split <;> rfl

theorem StaInv.indicateDisconnect (h : StaInv maxBssCnt s) (c : RoamConfig) :
    StaInv maxBssCnt (s.indicateDisconnect c) :=
  h.of_left rfl rfl rfl (sameEntries_indicateDisconnect c s)

theorem StaInv.linking (h : StaInv maxBssCnt s) (b : Bool) :
    StaInv maxBssCnt { s with underLinking := b } := ⟨h.counted, h.current, h.roam⟩

theorem StaInv.selectAndJoin (h : StaInv maxBssCnt s) (c : RoamConfig) (o : StaMlme.JoinOutcome) :
    StaInv maxBssCnt (s.selectAndJoinFromScannedQueue c o).1 := by
  unfold StaMlme.selectAndJoinFromScannedQueue
  split
  · exact h
  · split
    · exact (h.indicateDisconnect c).linking true
    · exact h.linking true

theorem StaInv.doJoin (h : StaInv maxBssCnt s) (c : RoamConfig) (o : StaMlme.JoinOutcome) :
    StaInv maxBssCnt (s.doJoin c o).1 := by
  unfold StaMlme.doJoin
  split
  · exact h
  dsimp only
  split
  · exact h.linking false
  · have hjoin := (h.linking true).selectAndJoin c o
    split
    case h_1 heq =>
      rw [heq] at hjoin
      exact hjoin
    case h_2 heq =>
      rw [heq] at hjoin
      exact hjoin.linking false

theorem StaInv.tryRoaming (h : StaInv maxBssCnt s) (c : RoamConfig)
    (o : ℕ → StaMlme.JoinOutcome) (n : ℕ) : StaInv maxBssCnt (StaMlme.tryRoaming c o n s) := by
  induction n generalizing s with
  | zero => exact h
  | succ n ih =>
    have hfewer : StaInv maxBssCnt { s with toRoam := n } := ⟨h.counted, h.current, h.roam⟩
    unfold StaMlme.tryRoaming
    dsimp only
    split
    · exact hfewer.indicateDisconnect c
    · have hjoin := hfewer.doJoin c (o n)
      split
      case h_1 heq =>
        rw [heq] at hjoin
        exact hjoin
      case h_2 heq =>
        rw [heq] at hjoin
        exact ih hjoin

theorem StaInv.joinTimeout (h : StaInv maxBssCnt s) {o : ℕ → StaMlme.JoinOutcome}
    (hok : InOrder c s (.joinTimeout o)) : StaInv maxBssCnt (s.joinTimeoutHandler c o) := by
  unfold StaMlme.joinTimeoutHandler
  by_cases hroam : 0 < s.toRoam
  · rw [if_pos hroam]
    exact h.tryRoaming c o s.toRoam
  · rw [if_neg hroam]
    have hleft := h.indicateDisconnect c
    obtain ⟨-, hnodup, -⟩ := hleft.counted.nodup
    obtain ⟨hcounted, -⟩ := @Counted.freeLoop maxBssCnt _ ScanTable.toPool (fun _ => False)
      (fun t p => .inr rfl) (fun t p hno => hno.elim) _ hleft.counted hnodup fun p hp => hp
    refine ⟨hcounted, fun ht => ?_, fun p hp => ?_⟩
    · cases ht
    · have hnone : s.roamNetwork = none := hok (Nat.eq_zero_of_not_pos hroam)
      exact absurd (hnone.symm.trans hp) (Option.some_ne_none p).symm

/-- **The entry of the network is given back.** -/
theorem StaInv.freeAssocResources (h : StaInv maxBssCnt s)
    (hok : InOrder c s .freeAssocResources) : StaInv maxBssCnt s.freeAssocResources := by
  unfold StaMlme.freeAssocResources
  by_cases hwps : (s.underWps || s.wpaPhase) = true
  · rw [if_pos hwps]
    exact h
  rw [if_neg hwps]
  rw [Bool.or_eq_true, not_or] at hwps
  have hother := (hok.resolve_left hwps.1).resolve_left hwps.2
  split
  case h_1 => exact h
  case h_2 p hfind =>
    obtain ⟨hp, -⟩ := findSameNetwork_spec hfind
    obtain ⟨hcurrent, hroam⟩ := hother p hfind
    have hfree : (s.table.setFixed p false).rtwFreeNetworkNolock p =
        (s.table.setFixed p false).toPool p := by
      unfold ScanTable.rtwFreeNetworkNolock
      rw [net_setFixed_self]
      exact if_neg Bool.false_ne_true
    rw [hfree]
    have hsame : SameEntries s.table (s.table.setFixed p false) := sameEntries_setFixed
    refine ⟨(hsame.counted h.counted).toPool hp, fun hasoc => ?_,
      h.roam.of_kept rfl rfl fun q hq hq' => ?_⟩
    · obtain ⟨r, hscanned, hr, hmac, hfixed, honly⟩ := h.current hasoc
      have hrp : r ≠ p := fun hrp => hcurrent hasoc (hrp ▸ hscanned)
      refine ⟨r, hscanned, (List.mem_erase_of_ne hrp).mpr hr, (hsame.macAddress r).trans hmac, ?_,
        fun q hq hq' => ?_⟩
      · exact (congrArg WlanNetwork.fixed (net_setFixed_of_ne hrp)).trans hfixed
      · change ((s.table.setFixed p false).net q).fixed = true at hq'
        by_cases hqp : q = p
        · rw [hqp, net_setFixed_self] at hq'
          cases hq'
        · rw [net_setFixed_of_ne hqp] at hq'
          exact honly q (List.mem_of_mem_erase hq) hq'
    · have hqp : q ≠ p := fun hqp => hroam (hqp ▸ hq)
      exact ⟨(List.mem_erase_of_ne hqp).mpr hq', hsame.macAddress q⟩

theorem StaInv.selectRoaming (h : StaInv maxBssCnt s) (c : RoamConfig) (needToRoam : Bool)
    (now : ℕ) : StaInv maxBssCnt (s.selectRoamingCandidate c needToRoam now) := by
  unfold StaMlme.selectRoamingCandidate
  split
  case h_1 => exact h
  case h_2 p hp =>
    refine ⟨h.counted, h.current, fun q hq => ?_⟩
    obtain rfl := Option.some.inj hq
    have hscanned : ∃ scanned, s.curNetworkScanned = some scanned := by
      cases hcur : s.curNetworkScanned with
      | none =>
        unfold StaMlme.roamingCandidate at hp
        rw [hcur] at hp
        cases hp
      | some scanned => exact ⟨scanned, rfl⟩
    obtain ⟨scanned, hscanned⟩ := hscanned
    exact ⟨(best_roamingCandidate hscanned hp).mem, rfl⟩

/-- **An operation in order keeps the pointers.** -/
theorem staInv_step {e : MlmeOp} (h : StaInv maxBssCnt s) (hok : InOrder c s e)
    (hstep : mlmeStep c s e = some s') : StaInv maxBssCnt s' := by
  cases e with
  | update now signalStrength signalQual target =>
    by_cases hframed : target.Framed
    · rw [mlmeStep, if_pos hframed] at hstep
      obtain rfl := Option.some.inj hstep
      exact h.update hframed hok
    · rw [mlmeStep, if_neg hframed] at hstep
      cases hstep
  | freeNetworkQueue now isfreeall =>
    obtain rfl := Option.some.inj hstep
    exact h.freeNetworkQueue hok
  | joined pnetwork sta =>
    obtain rfl := Option.some.inj hstep
    exact h.joined hok
  | freeAssocResources =>
    obtain rfl := Option.some.inj hstep
    exact h.freeAssocResources hok
  | joinTimeout o =>
    obtain rfl := Option.some.inj hstep
    exact h.joinTimeout hok
  | selectRoaming needToRoam now =>
    obtain rfl := Option.some.inj hstep
    exact h.selectRoaming c needToRoam now
  | selectAndJoin o =>
    obtain rfl := Option.some.inj hstep
    exact h.selectAndJoin c o
  | setWps underWps wpaPhase =>
    obtain rfl := Option.some.inj hstep
    exact ⟨h.counted, h.current, h.roam⟩
  | setToRoam toRoam =>
    obtain rfl := Option.some.inj hstep
    exact ⟨h.counted, h.current, h.roam⟩
  | roamed =>
    obtain rfl := Option.some.inj hstep
    exact ⟨h.counted, h.current, fun p hp => nomatch hp⟩

theorem staInv_init (maxBssCnt : ℕ) : StaInv maxBssCnt { table := .init maxBssCnt } :=
  ⟨counted_init maxBssCnt, fun h => (nomatch h), fun _ hp => (nomatch hp)⟩

end Steps

/-- **The pointers stay meaningful** in every run whose operations are in order. -/
theorem pointersMeaningful_of_meets (c : RoamConfig) (maxBssCnt : ℕ) (ops : List MlmeOp)
    (s : StaMlme)
    (hok : Transition.Meets (mlmeStep c) (InOrder c) { table := .init maxBssCnt } ops)
    (hrun : Transition.run (mlmeStep c) { table := .init maxBssCnt } ops = some s) :
    PointersMeaningful c s := by
  have hinv : StaInv maxBssCnt s := Transition.run_invariant_of_meets
    (fun s e s' h hok hstep => staInv_step h hok hstep) (staInv_init maxBssCnt) hok hrun
  exact ⟨hinv.current, hinv.roam, fun _ _ _ _ hscanned hp => best_roamingCandidate hscanned hp⟩

def roamAnywhere : RoamConfig where
  scan := noKeys
  channelAllowed _ := true
  isDesiredNetwork _ := true
  selectedRegistrar _ := none
  roamScanrExpMs := 5000
  roamRssiDiffTh := 10

def beaconOf (i letter : UInt8) (rssi : ℤ) : WlanBssidEx :=
  { namedBeacon [letter] with macAddress := ⟨2, 0, 0, 0, 0, i⟩, rssi }

def selecting : List MlmeOp :=
  [.update 0 50 50 (beaconOf 1 0x61 (-80)), .selectAndJoin { candidate := some 0 },
    .joined (beaconOf 1 0x61 (-80)) true, .update 100 90 90 (beaconOf 2 0x61 (-50)),
    .selectRoaming true 200]

/-- It leaves the one for the other. -/
theorem pointersMeaningful_roaming :
    ∃ s, Transition.run (mlmeStep roamAnywhere) { table := .init 64 } (selecting ++
        [.selectAndJoin {}, .freeAssocResources, .joined (beaconOf 2 0x61 (-50)) true]) = some s ∧
      s.asoc = true ∧ s.curNetworkScanned = some 1 ∧ PointersMeaningful roamAnywhere s := by
  have hend : (Transition.run (mlmeStep roamAnywhere) { table := .init 64 } (selecting ++
      [.selectAndJoin {}, .freeAssocResources, .joined (beaconOf 2 0x61 (-50)) true])).map
      (fun s => (s.asoc, s.curNetworkScanned)) = some (true, some 1) := by decide +kernel
  obtain ⟨s, hrun, hboth⟩ := Option.map_eq_some_iff.mp hend
  obtain ⟨hasoc, hscanned⟩ := Prod.mk.inj hboth
  exact ⟨s, hrun, hasoc, hscanned,
    pointersMeaningful_of_meets roamAnywhere 64 _ s (by decide +kernel) hrun⟩

/-- **A scan overwrites the entry to roam to** with another network, and the table is full. -/
theorem not_pointersMeaningful :
    ∃ s, Transition.run (mlmeStep roamAnywhere) { table := .init 2 }
        (selecting ++ [.update 300 70 70 (beaconOf 3 0x62 (-60))]) = some s ∧
      ¬ PointersMeaningful roamAnywhere s := by
  have hend : (Transition.run (mlmeStep roamAnywhere) { table := .init 2 }
      (selecting ++ [.update 300 70 70 (beaconOf 3 0x62 (-60))])).map
      (fun s => (s.roamNetwork, s.selected, (s.table.net 1).network.macAddress)) =
        some (some 1, some ⟨2, 0, 0, 0, 0, 2⟩, ⟨2, 0, 0, 0, 0, 3⟩) := by decide +kernel
  obtain ⟨s, hrun, hall⟩ := Option.map_eq_some_iff.mp hend
  obtain ⟨hroam, hall⟩ := Prod.mk.inj hall
  obtain ⟨hselected, hmac⟩ := Prod.mk.inj hall
  refine ⟨s, hrun, fun h => ?_⟩
  have hkept := (h.roam 1 hroam).2
  rw [hselected, hmac] at hkept
  exact absurd hkept (by decide)

end Rtl88x2eu.Scan
