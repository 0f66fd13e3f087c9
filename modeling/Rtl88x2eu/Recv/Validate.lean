import Rtl88x2eu.Recv.Defrag

/-!
# Validation of received frames

`validate_recv_frame` and the functions below it: the header of a data frame is parsed into the
attributes and checked against the duplicate caches, the packet numbers and the security state; a
management frame is decrypted, defragmented and dispatched here; of the control frames only the
block ack request does something to the receive path.

## Main definitions

* `recvDecache`, `recvUcastPnDecache`, `recvBcastPnDecache`
* `countRxStats`
* `rtwStaRxDataValidateHdr`, `rtwApRxDataValidateHdr`: addresses and transmitter of a data frame
* `validateRecvDataFrame`, `validateRecvCtrlFrame`, `validateRecvMgntFrame`
* `validateRecvFrame`
-/

namespace Rtl88x2eu

/-- The cached sequence control value a frame is compared with. -/
def StaInfo.prxseq (p : StaInfo) (attrib : RxPktAttrib) (t : Tid) : ℕ :=
  match attrib.qos, attrib.ra.isMcast with
  | true, true => p.bmcTidRxseq t
  | true, false => p.tidRxseq t
  | false, true => p.nonqosBmcRxseq
  | false, false => p.nonqosRxseq

def StaInfo.setPrxseq (p : StaInfo) (attrib : RxPktAttrib) (t : Tid) : StaInfo :=
  match attrib.qos, attrib.ra.isMcast with
  | true, true => { p with bmcTidRxseq := Function.update p.bmcTidRxseq t attrib.seqCtrl }
  | true, false => { p with tidRxseq := Function.update p.tidRxseq t attrib.seqCtrl }
  | false, true => { p with nonqosBmcRxseq := attrib.seqCtrl }
  | false, false => { p with nonqosRxseq := attrib.seqCtrl }

def recvDecache (a : Adapter) (s : StaId) (attrib : RxPktAttrib) : Bool × Adapter :=
  let psta := a.sta s
  let tid := Tid.clamp attrib.priority
  if 15 < attrib.priority then (false, a)
  else if attrib.seqCtrl = psta.prxseq attrib tid then
    let stats := { psta.staStats with duplicateCnt := psta.staStats.duplicateCnt + 1 }
    (false, a.setSta s { psta with staStats := stats })
  else (true, a.setSta s (psta.setPrxseq attrib tid))

/-- `recv_ucast_pn_decache`: a legal packet number is cached, an illegal one passes. -/
def recvUcastPnDecache (a : Adapter) (s : StaId) (f : RecvFrame) : Bool × Adapter :=
  let psta := a.sta s
  let tid := Tid.clamp f.attrib.priority
  let iv := f.rxData.drop f.attrib.hdrlen
  let enc := f.attrib.encrypt
  if 15 < f.attrib.priority then (false, a)
  else if enc.hasPn ∧ validPnChk (ivToPn enc iv) (ivToPn enc (psta.iv tid)) then
    (true, a.setSta s
      { psta with lastTid := tid, iv := Function.update psta.iv tid (iv.take 8) })
  else (true, a)

def recvBcastPnDecache (a : Adapter) (f : RecvFrame) : Bool × Adapter :=
  let iv := f.rxData.drop f.attrib.hdrlen
  let pktPn := ivToPn f.attrib.encrypt iv
  let keyId := ivKeyIndex iv
  let sec := a.securitypriv
  if f.attrib.encrypt.hasPn ∧ a.fwState.station then
    if validPnChk pktPn (sec.ivSeq keyId) then
      (true, { a with securitypriv :=
        { sec with ivSeq := Function.update sec.ivSeq keyId pktPn } })
    else (false, a)
  else (true, a)

def StainfoStats.count (c : StainfoStats) (p : RxPktAttrib) (sz : ℕ) : StainfoStats :=
  let c := { c with rxDataPkts := c.rxDataPkts + 1, rxBytes := c.rxBytes + sz }
  if p.ra = .bcast then
    { c with rxDataBcPkts := c.rxDataBcPkts + 1, rxBcBytes := c.rxBcBytes + sz }
  else if p.ra.isMcast then
    { c with rxDataMcPkts := c.rxDataMcPkts + 1, rxMcBytes := c.rxMcBytes + sz }
  else
    { c with
      rxratecnt := Function.update c.rxratecnt p.dataRate (c.rxratecnt p.dataRate + 1)
      rxDataQosPkts := Function.update c.rxDataQosPkts p.priority (c.rxDataQosPkts p.priority + 1) }

def countRxStats (a : Adapter) (f : RecvFrame) (sta : Option StaId) : Adapter :=
  let a := { a with rxBytes := a.rxBytes + f.len }
  match sta.or f.psta with
  | none => a
  | some s =>
    a.setSta s { a.sta s with staStats := (a.sta s).staStats.count f.attrib f.len }

/-! ## Data frame headers -/

/-- The five addresses of the attributes. -/
def RxPktAttrib.setAddrs (p : RxPktAttrib) (ra ta dst src bssid : MacAddr) : RxPktAttrib :=
  { p with ra, ta, dst, src, bssid }

/-- A parsed header: the verdict, the attributes and the transmitter. -/
abbrev HdrResult := Ret × RxPktAttrib × Option StaId

def rtwStaRxDataValidateHdr (a : Adapter) (f : RecvFrame) : HdrResult × Adapter :=
  let w := f.rxData
  let p := f.attrib
  if p.toFrDs = 0 then
    let p := p.setAddrs (getAddr1 w) (getAddr2 w) (getAddr1 w) (getAddr2 w) (getAddr3 w)
    if p.bssid ≠ p.src then ((.fail, p, none), a)
    else
      match rtwGetStainfo a (getAddr2 w) with
      | none => ((.fail, p, none), a)
      | some s => ((.success, p, some s), a)
  else if !(a.fwState.asoc || a.fwState.underLinking) then ((.fail, p, none), a)
  else
    let p := { p with ra := getAddr1 w, ta := getAddr2 w }
    if p.toFrDs ≠ 2 ∧ p.toFrDs ≠ 3 then ((.rxHandled, p, none), a)
    else
      let p := if p.toFrDs = 2 then { p with dst := getAddr1 w, src := getAddr3 w }
        else { p with dst := getAddr3 w, src := getAddr4 w }
      let p := { p with bssid := getAddr2 w }
      -- filter packets that SA is myself
      if !p.amsdu ∧ a.macAddr = p.src then ((.fail, p, none), a)
      else
        match rtwGetStainfo a p.ta with
        | none => ((.fail, p, none), a)
        | some s =>
          if subTypeNull w then
            ((.rxHandled, p, some s), countRxStats a { f with attrib := p } (some s))
          else ((.success, p, some s), a)

def rtwApRxDataValidateHdr (a : Adapter) (f : RecvFrame) : HdrResult × Adapter :=
  let w := f.rxData
  let p := f.attrib
  if !a.fwState.asoc then ((.fail, p, none), a)
  else if p.toFrDs ≠ 1 ∧ p.toFrDs ≠ 3 then ((.rxHandled, p, none), a)
  else if p.toFrDs = 1 ∧ (getAddr1 w).isMcast then ((.fail, p, none), a)
  else
    let p :=
      if p.toFrDs = 1 then
        p.setAddrs (getAddr1 w) (getAddr2 w) (getAddr3 w) (getAddr2 w) (getAddr1 w)
      else
        p.setAddrs (getAddr1 w) (getAddr2 w) (getAddr3 w) (getAddr4 w)
          (if (getAddr1 w).isMcast then p.bssid else getAddr1 w)
    match rtwGetStainfo a p.ta with
    | none => ((.rxHandled, p, none), a)
    | some s =>
      if subTypeNull w then
        ((.rxHandled, p, some s), countRxStats a { f with attrib := p } (some s))
      else ((.success, p, some s), a)

def sta2staDataFrame (a : Adapter) (w : Bytes) (p : RxPktAttrib) : HdrResult :=
  if a.fwState.adhoc ∨ a.fwState.adhocMaster then
    if a.macAddr = p.src then (.fail, p, none)
    else if a.macAddr ≠ p.dst ∧ !p.dst.isMcast then (.fail, p, none)
    else if p.bssid = .zero ∨ a.curBssid = .zero ∨ p.bssid ≠ a.curBssid then (.fail, p, none)
    else
      match rtwGetStainfo a p.ta with
      | none => (.fail, p, none)
      | some s => (.success, p, some s)
  else if a.fwState.mp then
    let p := p.setAddrs (getAddr1 w) (getAddr2 w) (getAddr1 w) (getAddr2 w) (getAddr3 w)
    match rtwGetStainfo a a.curBssid with
    | none => (.fail, p, none)
    | some s => (.success, p, some s)
  else (.fail, p, rtwGetStainfo a p.ta)

def mpDataFrame (a : Adapter) (w : Bytes) (p : RxPktAttrib) : HdrResult :=
  let p := p.setAddrs (getAddr1 w) (getAddr2 w) (getAddr1 w) (getAddr2 w) (getAddr3 w)
  match rtwGetStainfo a p.bssid with
  | none => (.fail, p, none)
  | some s => (.success, p, some s)

def ap2staDataFrame (a : Adapter) (w : Bytes) (p : RxPktAttrib) : HdrResult :=
  if a.fwState.mp ∧ a.fwState.asoc then mpDataFrame a w p else (.fail, p, none)

def sta2apDataFrame (a : Adapter) (w : Bytes) (p : RxPktAttrib) : HdrResult :=
  if a.fwState.mp ∧ a.fwState.asoc then mpDataFrame a w p else (.rxHandled, p, none)

def validateDataHdrOther (a : Adapter) (w : Bytes) (p : RxPktAttrib) : HdrResult :=
  if p.toFrDs = 0 then
    sta2staDataFrame a w
      (p.setAddrs (getAddr1 w) (getAddr2 w) (getAddr1 w) (getAddr2 w) (getAddr3 w))
  else if p.toFrDs = 1 then
    sta2apDataFrame a w
      (p.setAddrs (getAddr1 w) (getAddr2 w) (getAddr3 w) (getAddr2 w) (getAddr1 w))
  else if p.toFrDs = 2 then
    ap2staDataFrame a w
      (p.setAddrs (getAddr1 w) (getAddr2 w) (getAddr1 w) (getAddr3 w) (getAddr2 w))
  else (.fail, p, none)

def validateDataHdr (a : Adapter) (f : RecvFrame) : HdrResult × Adapter :=
  if a.fwState.ap then rtwApRxDataValidateHdr a f
  else if a.fwState.station then rtwStaRxDataValidateHdr a f
  else (validateDataHdrOther a f.rxData f.attrib, a)

/-! ## Data frames -/

/-- The QoS control field, and the header length with and without it. -/
def parseQc (w : Bytes) (p : RxPktAttrib) : RxPktAttrib :=
  let shift := a4Shift p.toFrDs
  let p :=
    if p.qos then
      { p with
        priority := getPriority w (wlanHdrA3Len + shift)
        ackPolicy := getAckpolicy w (wlanHdrA3Len + shift)
        hdrlen := wlanHdrA3QosLen + shift }
    else { p with priority := 0, ackPolicy := 0, hdrlen := wlanHdrA3Len + shift }
  -- HT-CTRL 11n
  if p.order then { p with hdrlen := p.hdrlen + 4 } else p

/-- The cipher of a protected frame, and its lengths. -/
def setEncrypt (sec : SecurityPriv) (psta : StaInfo) (p : RxPktAttrib) : RxPktAttrib :=
  let enc := if p.privacy then getEncryAlgo sec psta p.ra.isMcast else .noPrivacy
  { p with encrypt := enc, ivLen := enc.ivLen, icvLen := enc.icvLen }

def unprotectedOk (a : Adapter) (psta : StaInfo) (f : RecvFrame) : Bool :=
  let p := f.attrib
  let eapol := etherType f = ethPEapol
  if a.securitypriv.dot11PrivacyAlgrthm = .noPrivacy then true
  else if p.ra.isMcast then p.privacy
  else if a.securitypriv.dot11AuthAlgrthm = .dot8021X then
    (p.privacy || eapol) && (p.privacy || !p.amsdu) &&
      !(eapol && a.fwState.ap && psta.dot118021XPrivacy = .noPrivacy && a.macAddr ≠ p.dst)
  else p.privacy

def decacheDataFrame (a : Adapter) (s : StaId) (f : RecvFrame) : Bool × Adapter :=
  match recvDecache a s f.attrib with
  | (false, a) => (false, a)
  | (true, a) =>
    if f.attrib.ra.isMcast then recvBcastPnDecache a f else recvUcastPnDecache a s f

def Adapter.noteNonBe (a : Adapter) (p : RxPktAttrib) : Adapter :=
  if p.qos then { a with isAnyNonBePkts := p.priority ≠ 0 ∧ p.priority ≠ 3 } else a

def setReorderEncrypt (a : Adapter) (s : StaId) (f : RecvFrame) : RecvFrame :=
  { f with
    attrib := setEncrypt a.securitypriv (a.sta s) f.attrib
    preorderCtrl :=
      if f.attrib.qos ∧ !f.attrib.ra.isMcast then some (s, Tid.clamp f.attrib.priority) else none }

def validateDataBody (a : Adapter) (s : StaId) (f : RecvFrame) : Ret × RecvFrame × Adapter :=
  let f := { f with attrib := parseQc f.rxData f.attrib, psta := some s, preorderCtrl := none }
  let r := decacheDataFrame (a.noteNonBe f.attrib) s f
  if !r.1 then (.fail, f, r.2)
  else
    let g := setReorderEncrypt r.2 s f
    (if unprotectedOk r.2 (r.2.sta s) g then .success else .fail, g, r.2)

def validateRecvDataFrame (a : Adapter) (f : RecvFrame) : Ret × RecvFrame × Adapter :=
  let amsdu := f.attrib.qos && getAMsdu f.rxData (wlanHdrA3Len + a4Shift f.attrib.toFrDs)
  match validateDataHdr a { f with attrib := { f.attrib with amsdu } } with
  | ((.success, p, some s), a) =>
    if (a.sta s).amsduDisable ∧ p.amsdu then (.fail, { f with attrib := p }, a)
    else validateDataBody a s { f with attrib := p }
  | ((.success, p, none), a) => (.fail, { f with attrib := p }, a)
  | ((ret, p, _), a) => (ret, { f with attrib := p }, a)

def wifiBar : ℕ := 0x84

/-- `rtw_process_bar_frame`: the window starts at the sequence number of the request. -/
def rtwProcessBarFrame (a : Adapter) (w : Bytes) : Adapter :=
  match rtwGetStainfo a (getAddr2 w) with
  | none => a
  | some s =>
    let ctrl := (s, Tid.clamp (w.le16 16 / 4096))
    a.setReorder ctrl { a.reorder ctrl with indicateSeq := w.le16 18 / 16 }

/-- `validate_recv_ctrl_frame`; the power save poll concerns the transmit side. -/
def validateRecvCtrlFrame (a : Adapter) (f : RecvFrame) : Adapter :=
  let w := f.rxData
  if getAddr1 w ≠ a.macAddr then a
  else
    match rtwGetStainfo a (getAddr2 w) with
    | none => a
    | some s =>
      let stats := (a.sta s).staStats
      let a := a.setSta s
        { a.sta s with staStats := { stats with rxCtrlPkts := stats.rxCtrlPkts + 1 } }
      if getFrameSubType w = wifiBar then rtwProcessBarFrame a w else a

/-! ## Management frames -/

def wifiDisassoc : ℕ := 0xa0

def wifiDeauth : ℕ := 0xc0

def wifiAction : ℕ := 0xd0

def categoryIsGroupPrivacy (cat : ℕ) : Bool := cat = 13 || cat = 14

def categoryIsRobust (cat : ℕ) : Bool := !(cat ∈ [4, 7, 11, 15, 21, 0x7f])

def mgmtCategory (w : Bytes) : ℕ := (w.u8 wlanHdrA3Len).toNat

def robustMgmt (w : Bytes) : Bool :=
  let subtype := getFrameSubType w
  subtype = wifiDeauth || subtype = wifiDisassoc ||
    (subtype = wifiAction && categoryIsRobust (mgmtCategory w))

def groupPrivacyAction (w : Bytes) : Bool :=
  getFrameSubType w = wifiAction && categoryIsGroupPrivacy (mgmtCategory w)

def mmeIe : UInt8 := 76

/-- `rtw_bip_verify`: the verdict and the packet number behind it; `mem` when `rtw_zmalloc` finds
memory. -/
def rtwBipVerify (crypto : Crypto) (mem : Bool) (sec : SecurityPriv) (pktLen : ℕ) (w : Bytes) :
    Ret × ℕ :=
  let ipn := sec.dot11wBIPrxpn
  let micLen := if sec.dot11wCipher = .bipCmac128 then 8 else 16
  let mme : Bytes := w.drop (w.length - (if micLen = 8 then 18 else 26))
  let pktIpn := mme.le16 4 + 65536 * (mme.le16 6 + 65536 * mme.le16 8)
  if w.length < wlanHdrA3Len + micLen then (.rxHandled, ipn)
  else if mme.u8 0 ≠ mmeIe then (.rxHandled, ipn)
  else if mme.le16 2 ≠ sec.dot11wBIPKeyid then (.fail, ipn)
  else if pktIpn ≤ ipn then (.fail, ipn)
  else if !mem then (.fail, ipn)
  else
    let body := (w.drop wlanHdrA3Len).take (w.length - wlanHdrA3Len - micLen)
    let aad := Bytes.ofLe16 (frameCtrl w &&& 0xc7ff) ++ (w.drop 4).take 18 ++ body ++
      List.replicate micLen 0
    match crypto.calculateBipMic sec.dot11wCipher w pktLen sec.dot11wBIPKey aad with
    | none => (.fail, ipn)
    | some mic =>
      if mic.take micLen = w.drop (w.length - micLen) then (.success, pktIpn) else (.fail, ipn)

/-- What `validate_mgmt_protect` does with a frame: pass it, drop it, check the BIP element or
decrypt it. -/
inductive MgmtProtect
  | pass | drop | bipVerify | decrypt
deriving DecidableEq, Repr

/-- The case distinction of `validate_mgmt_protect`, for an installed BIP key. -/
def mgmtProtect (a : Adapter) (f : RecvFrame) : MgmtProtect :=
  let w := f.rxData
  let subtype := getFrameSubType w
  let category := if subtype = wifiAction then (w.u8 wlanHdrA3Len).toNat else 0xff
  let leave := subtype = wifiDeauth ∨ subtype = wifiDisassoc
  match f.psta with
  | none => if f.attrib.privacy then .drop else .pass
  | some s =>
    if !(a.sta s).mfp then (if f.attrib.privacy then .drop else .pass)
    else if f.attrib.privacy then .decrypt
    else if (getAddr1 w).isMcast then
      if subtype = wifiAction ∧ categoryIsGroupPrivacy category then .drop
      else if subtype = wifiAction ∧ categoryIsRobust category then .bipVerify
      else if leave then .bipVerify
      else .pass
    else if leave then .drop
    else if subtype = wifiAction ∧ categoryIsRobust category ∧ (a.sta s).bpairwiseKeyInstalled then
      .drop
    else .pass

/-- A management frame of a station, set up for decryption by `validate_mgmt_protect`. -/
def mgmtDecryptFrame (psta : StaInfo) (f : RecvFrame) : RecvFrame :=
  let enc := psta.dot118021XPrivacy
  { f with
    attrib := { f.attrib with
      bdecrypted := false
      encrypt := enc
      hdrlen := wlanHdrA3Len
      ivLen := enc.ivLen
      icvLen := enc.icvLen
      ra := getAddr1 f.rxData
      ta := getAddr2 f.rxData } }

def mgmtDecrypted (f : RecvFrame) : RecvFrame :=
  let p := f.attrib
  let dataLen := p.pktLen - p.hdrlen - p.ivLen - p.icvLen
  let body := (f.rxData.drop (p.hdrlen + p.ivLen)).take dataLen
  { f with
    rxData := f.rxData.overwrite p.hdrlen body
    attrib := { p with pktLen := p.pktLen - p.ivLen - p.icvLen } }

/-- `validate_mgmt_protect`: on a failed decryption the frame has been freed. -/
def validateMgmtProtect (env : Env) (a : Adapter) (f : RecvFrame) : Bool × RecvFrame × Adapter :=
  if !a.securitypriv.binstallBIPkey then (true, f, a)
  else
    match mgmtProtect a f with
    | .pass => (true, f, a)
    | .drop => (false, f, a)
    | .bipVerify =>
      let r := rtwBipVerify env.crypto (env.zmalloc a f) a.securitypriv f.attrib.pktLen f.rxData
      (r.1 = .success, f,
        { a with securitypriv := { a.securitypriv with dot11wBIPrxpn := r.2 } })
    | .decrypt =>
      match f.psta with
      | none => (false, f, a)
      | some s =>
        let f := mgmtDecryptFrame (a.sta s) f
        if !env.zmalloc a f then (false, f, a)
        else
          match decryptor env.crypto a f with
          | (some f, a) => (true, mgmtDecrypted f, a)
          | (none, a) => (false, f, a)

def wifiProbereq : ℕ := 0x40

def wifiProbersp : ℕ := 0x50

def wifiBeacon : ℕ := 0x80

def StainfoStats.countMgnt (c : StainfoStats) (macAddr : MacAddr) (w : Bytes) : StainfoStats :=
  let subtype := getFrameSubType w
  let c := { c with rxMgntPkts := c.rxMgntPkts + 1 }
  if subtype = wifiBeacon then { c with rxBeaconPkts := c.rxBeaconPkts + 1 }
  else if subtype = wifiProbereq then { c with rxProbereqPkts := c.rxProbereqPkts + 1 }
  else if subtype = wifiProbersp then
    if getAddr1 w = macAddr then { c with rxProberspPkts := c.rxProberspPkts + 1 }
    else if (getAddr1 w).isMcast then { c with rxProberspBmPkts := c.rxProberspBmPkts + 1 }
    else { c with rxProberspUoPkts := c.rxProberspUoPkts + 1 }
  else c

def validateRecvMgntFrame (env : Env) (a : Adapter) (f : RecvFrame) : Adapter :=
  let f := { f with psta := rtwGetStainfo a (getAddr2 f.rxData) }
  match validateMgmtProtect env a f with
  | (false, _, a) => a
  | (true, f, a) =>
    match recvframeChkDefrag env.crypto a f with
    | (none, a) => a
    | (some g, a) =>
      let a :=
        match f.psta with
        | none => a
        | some s =>
          a.setSta s
            { a.sta s with staStats := (a.sta s).staStats.countMgnt a.macAddr g.rxData }
      env.mgtDispatcher a g

/-- What `validate_recv_frame` reads from the header of every frame. -/
def parseFrameCtrl (w : Bytes) (p : RxPktAttrib) : RxPktAttrib :=
  { p with
    toFrDs := getToFrDs w
    fragNum := getFragNum w
    seqNum := getSequence w
    pwSave := getPwrMgt w
    mfrag := getMFrag w
    mdata := getMData w
    privacy := getPrivacy w
    order := getOrder w }

/-- `validate_recv_frame`: only data frames pass. -/
def validateRecvFrame (env : Env) (a : Adapter) (f : RecvFrame) : Ret × RecvFrame × Adapter :=
  let w := f.rxData
  if frameCtrl w % 4 ≠ 0 then (.fail, f, a)
  else
    let f := { f with attrib := parseFrameCtrl w f.attrib }
    match getFrameType w with
    | .mgt => (.fail, f, validateRecvMgntFrame env a f)
    | .ctrl => (.fail, f, validateRecvCtrlFrame a f)
    | .data =>
      let f := { f with attrib := { f.attrib with qos := subTypeQos w } }
      let r := validateRecvDataFrame a f
      (r.1, r.2.1,
        if r.1 = .fail then { r.2.2 with dbgRxDropCount := r.2.2.dbgRxDropCount + 1 } else r.2.2)
    | .reserved => (.fail, f, a)

end Rtl88x2eu
