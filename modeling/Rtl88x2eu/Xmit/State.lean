import Rtl88x2eu.Lib.Memory
import Rtl88x2eu.Recv.Validate

/-!
# Transmit attributes

What `update_attrib` decides about a frame before it is built: the station, the cipher, the lengths
of what goes around the data, and the packet number, which is drawn from the counter of the station
here and not where the frame is built.

## Main definitions

* `PktAttrib`, `XmitFrame`: the attributes and the frame descriptor
* `StaInfo`, `SecurityPriv`, `Adapter`: what the transmit path reads of its adapter
* `nextPn`, `aesIv`, `tkipIv`, `wepIv`: the IV macros
* `updateAttribSecInfo`, `updateAttrib`
* `Ready`

## Main results

* `ivToPn_aesIv`: the receiver reads the packet number that was written
* `updateAttrib_some`: which packet number a frame gets, and what becomes of the counter
-/

namespace Rtl88x2eu.Xmit

/-! ## Records -/

/-- `enum eap_type`, as far as the transmit path tells them apart. -/
inductive EapType
  | nonEapol | eapol24 | eapol44 | other
deriving DecidableEq, Repr

inductive KeyType
  | rightKey | wrongKey | noKey
deriving DecidableEq, Repr

structure PktAttrib where
  subtype : ℕ := 0
  bswenc : Bool := false
  etherType : ℕ := 0
  seqnum : ℕ := 0
  pktHdrlen : ℕ := 0
  hdrlen : ℕ := 0
  pktlen : ℕ := 0
  lastTxcmdsz : ℕ := 0
  nrFrags : ℕ := 0
  encrypt : SecurityType := .noPrivacy
  ivLen : ℕ := 0
  icvLen : ℕ := 0
  iv : Bytes := []
  icv : Bytes := []
  priority : ℕ := 0
  ackPolicy : ℕ := 0
  macId : ℕ := 0
  dst : MacAddr := .zero
  src : MacAddr := .zero
  ta : MacAddr := .zero
  ra : MacAddr := .zero
  keyIdx : ℕ := 0
  qosEn : Bool := false
  ampduEn : Bool := false
  mdata : Bool := false
  eosp : Bool := false
  qsel : ℕ := 0
  /-- `psta`, by its address in the station table. -/
  psta : Option MacAddr := none
  dot11tkiptxmickey : Bytes := []
  dot118021xUncstKey : Bytes := []
  keyType : KeyType := .rightKey
  /-- The signature octets of a UDP header ask for the voice queue. -/
  hipriorityPkt : Bool := false
deriving DecidableEq, Repr

structure XmitFrame where
  attrib : PktAttrib := {}
  /-- The data of the `sk_buff`. -/
  pkt : Bytes := []
  /-- `buf_addr`, from the start of the transmit buffer. -/
  bufAddr : ℕ := 0
  aggNum : ℕ := 1
  pktOffset : ℕ := 1
deriving DecidableEq, Repr

structure StaInfo where
  /-- `state & WIFI_ASOC_STATE`. -/
  asoc : Bool := true
  /-- `flags & WLAN_STA_MFP`. -/
  mfp : Bool := false
  macId : ℕ := 0
  ieee8021xBlocked : Bool := false
  /-- `rtw_get_passing_time_ms(resp_nonenc_eapol_key_starttime) <= 100`. -/
  respNonencEapol : Bool := false
  /-- `dot11txpn.val`. -/
  dot11txpn : ℕ := 0
  dot118021XPrivacy : SecurityType := .noPrivacy
  dot118021xUncstKey : Bytes := []
  dot11tkiptxmickey : Bytes := []
  bpairwiseKeyInstalled : Bool := false
  qosOption : Bool := false
  /-- `ht_option && ampdu_enable && (agg_enable_bitmap & BIT(priority))`. -/
  ampduEnable : ℕ → Bool := fun _ => false
  txseqTid : ℕ → ℕ := fun _ => 0
  baStartingSeqctrl : ℕ → ℕ := fun _ => 0

structure SecurityPriv where
  dot11AuthAlgrthm : AuthAlgrthm := .open
  dot11PrivacyAlgrthm : SecurityType := .noPrivacy
  dot11PrivacyKeyIndex : ℕ := 0
  dot11DefKey : ℕ → Bytes := fun _ => []
  dot118021XGrpPrivacy : SecurityType := .noPrivacy
  dot118021XGrpKeyid : ℕ := 0
  dot118021XGrpKey : ℕ → Bytes := fun _ => []
  dot118021XGrptxmickey : ℕ → Bytes := fun _ => []
  binstallGrpkey : Bool := false
  binstallBIPkey : Bool := false
  dot11wCipher : SecurityType := .bipCmac128
  dot11wBIPKeyid : ℕ := 0
  dot11wBIPKey : ℕ → Bytes := fun _ => []
  dot11wBIPtxpn : ℕ := 0
  busetkipkey : Bool := true
  swEncrypt : Bool := false
  hwDecrypted : Bool := true
  /-- `SEC_STATUS_STA_PK_GK_CONFLICT_DIS_BMC_SEARCH`. -/
  staPkGkConflict : Bool := false

/-- The role of the interface. -/
inductive FwState
  | station | ap | adhoc | none
deriving DecidableEq, Repr

structure Adapter where
  securitypriv : SecurityPriv := {}
  fwState : FwState := .station
  mpState : Bool := false
  macAddr : MacAddr := .zero
  bssid : MacAddr := .zero
  /-- `qospriv.qos_option`. -/
  qosOption : Bool := false
  acmMask : ℕ := 0
  /-- `xmitpriv.frag_len`, an unsigned 32-bit value. -/
  fragLen : ℕ := 2346
  /-- `sta_hash`. -/
  stations : MacAddr → Option StaInfo := fun _ => Option.none

/-- `rtw_get_stainfo`: every group address stands for the broadcast station. -/
def staKey (hwaddr : MacAddr) : MacAddr := if hwaddr.isMcast then .bcast else hwaddr

def rtwGetStainfo (a : Adapter) (hwaddr : MacAddr) : Option StaInfo := a.stations (staKey hwaddr)

/-- A station of the table is written. -/
def Adapter.setSta (a : Adapter) (addr : MacAddr) (psta : StaInfo) : Adapter :=
  { a with stations := Function.update a.stations addr (some psta) }

@[simp] theorem Adapter.setSta_securitypriv (a : Adapter) (addr : MacAddr) (psta : StaInfo) :
    (a.setSta addr psta).securitypriv = a.securitypriv := rfl

@[simp] theorem Adapter.setSta_fragLen (a : Adapter) (addr : MacAddr) (psta : StaInfo) :
    (a.setSta addr psta).fragLen = a.fragLen := rfl

@[simp] theorem Adapter.setSta_stations (a : Adapter) (addr addr' : MacAddr) (psta : StaInfo) :
    (a.setSta addr psta).stations addr' =
      if addr' = addr then some psta else a.stations addr' := by
  simp [setSta, Function.update_apply]

/-! ## Packet numbers -/

/-- `dot11txpn.val` after a TKIP, CCMP or GCMP packet number was drawn. -/
def nextPn (val : ℕ) : ℕ := if val = 0xffffffffffff then 0 else (val + 1) % 2 ^ 64

/-- `dot11txpn.val` after a WEP initialisation vector was drawn. -/
def nextWepPn (val : ℕ) : ℕ := if val = 0xffffff then 0 else (val + 1) % 2 ^ 64

def tsc (val i : ℕ) : UInt8 := UInt8.ofNat (val / 256 ^ i)

def keyIdOctet (keyidx : ℕ) : UInt8 := UInt8.ofNat (keyidx % 4 * 64)

def wepIv (val keyidx : ℕ) : Bytes := [tsc val 0, tsc val 1, tsc val 2, keyIdOctet keyidx]

def tkipIv (val keyidx : ℕ) : Bytes :=
  [tsc val 1, (tsc val 1 ||| 0x20) &&& 0x7f, tsc val 0, 0x20 ||| keyIdOctet keyidx,
    tsc val 2, tsc val 3, tsc val 4, tsc val 5]

def aesIv (val keyidx : ℕ) : Bytes :=
  [tsc val 0, tsc val 1, 0, 0x20 ||| keyIdOctet keyidx, tsc val 2, tsc val 3, tsc val 4, tsc val 5]

@[simp] theorem length_aesIv (val keyidx : ℕ) : (aesIv val keyidx).length = 8 := rfl

theorem nextPn_mod (val : ℕ) : nextPn val % 2 ^ 48 = (val + 1) % 2 ^ 48 := by
  unfold nextPn
  split <;> omega

theorem tsc_toNat (val i : ℕ) : (tsc val i).toNat = val / 256 ^ i % 256 := by
  simp [tsc]

/-- The receiver reads the packet number that was written. -/
theorem ivToPn_aesIv {enc : SecurityType} (henc : enc.isAead) (val keyidx : ℕ) :
    ivToPn enc (aesIv val keyidx) = val % 2 ^ 48 := by
  have hne : enc ≠ .tkip := by
    rintro rfl
    exact Bool.false_ne_true henc
  simp only [ivToPn, hne, henc, if_true, if_false, Bytes.le16, Bytes.u8, aesIv, List.getD_cons_zero,
    List.getD_cons_succ, tsc_toNat]
  omega

def getEncryAlgo (sec : SecurityPriv) (psta : StaInfo) (bmcst : Bool) : SecurityType :=
  match sec.dot11AuthAlgrthm with
  | .open | .shared | .auto | .wapi => sec.dot11PrivacyAlgrthm
  | .dot8021X => if bmcst then sec.dot118021XGrpPrivacy else psta.dot118021XPrivacy

def getKeyIdx (sec : SecurityPriv) (bmcst : Bool) : ℕ :=
  match sec.dot11AuthAlgrthm with
  | .open | .shared | .auto => sec.dot11PrivacyKeyIndex
  | .dot8021X => if bmcst then sec.dot118021XGrpKeyid else 0
  | .wapi => 0

/-- `encrypt` and `key_idx`, or no transmission before the port is open. -/
def chooseCipher (a : Adapter) (psta : StaInfo) (eapol : EapType) (p : PktAttrib) :
    Option PktAttrib :=
  let eapolKey := eapol = .eapol24 || eapol = .eapol44
  if psta.ieee8021xBlocked || (eapolKey && psta.respNonencEapol) then
    if p.etherType ≠ 0x888e && !a.mpState then none else some { p with encrypt := .noPrivacy }
  else
    let encrypt := getEncryAlgo a.securitypriv psta p.ra.isMcast
    let wep := encrypt = .wep40 || encrypt = .wep104
    -- EAPOL of a WPS handshake is not encrypted under WEP
    some { p with
      keyIdx := getKeyIdx a.securitypriv p.ra.isMcast
      encrypt := if wep && p.etherType = 0x888e then .noPrivacy else encrypt }

def ivKeyIdx (p : PktAttrib) : ℕ := if p.ra.isMcast then p.keyIdx else 0

/-- The lengths, the initialisation vector and the counter after it. -/
def drawIv (a : Adapter) (psta : StaInfo) (p : PktAttrib) : Option (PktAttrib × StaInfo) :=
  let keyidx := ivKeyIdx p
  let pn := nextPn psta.dot11txpn
  match p.encrypt with
  | .wep40 | .wep104 =>
    let pn := nextWepPn psta.dot11txpn
    some ({ p with ivLen := 4, icvLen := 4, iv := wepIv pn p.keyIdx },
      { psta with dot11txpn := pn })
  | .tkip =>
    if a.securitypriv.busetkipkey then
      some ({ p with
        ivLen := 8, icvLen := 4, iv := tkipIv pn keyidx
        dot11tkiptxmickey := psta.dot11tkiptxmickey }, { psta with dot11txpn := pn })
    else none
  | .aes =>
    some ({ p with ivLen := 8, icvLen := 8, iv := aesIv pn keyidx },
      { psta with dot11txpn := pn })
  | .gcmp | .gcmp256 | .ccmp256 =>
    some ({ p with ivLen := 8, icvLen := 16, iv := aesIv pn keyidx },
      { psta with dot11txpn := pn })
  | _ => some ({ p with ivLen := 0, icvLen := 0 }, psta)

def is256 (encrypt : SecurityType) : Bool :=
  encrypt = .ccmp256 || encrypt = .gcmp256 || encrypt = .bipCmac256 || encrypt = .bipGmac256

def keyBytes (encrypt : SecurityType) (key : Bytes) : Bytes :=
  key.take (if is256 encrypt then 32 else 16)

def updateAttribSecInfo (a : Adapter) (p : PktAttrib) (psta : StaInfo) (eapol : EapType) :
    Option (PktAttrib × StaInfo) :=
  let p := { p with
    dot118021xUncstKey := List.replicate 16 0
    dot11tkiptxmickey := List.replicate 16 0
    macId := psta.macId }
  (chooseCipher a psta eapol p).bind fun p =>
    (drawIv a psta p).map fun (p, psta) =>
      let encrypted := p.encrypt ≠ .noPrivacy
      let sec := a.securitypriv
      ({ p with
        dot118021xUncstKey :=
          if encrypted then keyBytes p.encrypt psta.dot118021xUncstKey else p.dot118021xUncstKey
        bswenc := encrypted && (sec.swEncrypt || !sec.hwDecrypted ||
          (p.ra.isMcast && sec.staPkGkConflict) || eapol = .eapol44) }, psta)

/-! ## The attributes of a frame -/

def wifiDataType : ℕ := 8

def wifiQosDataType : ℕ := 0x88

def qosAcm (acmMask priority : ℕ) : ℕ :=
  match priority with
  | 0 | 3 => if acmMask.testBit 1 then 1 else priority
  | 4 | 5 => if acmMask.testBit 2 then 0 else priority
  | 6 | 7 => if acmMask.testBit 3 then 5 else priority
  | _ => priority

/-- The user priority of `set_qos`: the precedence bits of an IP header. -/
def userPriority (pkt : Bytes) (etherType : ℕ) : ℕ :=
  if etherType = 0x0800 then (pkt.u8 (ethHlen + 1)).toNat / 32 else 0

def setQos (a : Adapter) (pkt : Bytes) (p : PktAttrib) : PktAttrib :=
  let up := userPriority pkt p.etherType
  let qos := { p with hdrlen := wlanHdrA3QosLen, subtype := wifiQosDataType }
  match a.fwState with
  | .ap | .adhoc => if p.qosEn then { qos with priority := up } else p
  | .station | .none =>
    if a.qosOption then { qos with priority := qosAcm a.acmMask up } else p

def doQueueSelect (p : PktAttrib) : PktAttrib :=
  if p.hipriorityPkt then { p with qsel := 7, priority := 7 } else { p with qsel := p.priority }

@[simp] theorem doQueueSelect_ra (p : PktAttrib) : (doQueueSelect p).ra = p.ra := by
  unfold doQueueSelect
  split <;> rfl

@[simp] theorem doQueueSelect_encrypt (p : PktAttrib) :
    (doQueueSelect p).encrypt = p.encrypt := by
  unfold doQueueSelect
  split <;> rfl

@[simp] theorem doQueueSelect_iv (p : PktAttrib) : (doQueueSelect p).iv = p.iv := by
  unfold doQueueSelect
  split <;> rfl

def setAddresses (a : Adapter) (pkt : Bytes) (p : PktAttrib) : PktAttrib :=
  let p' := { p with dst := pkt.mac 0, src := pkt.mac 6, ta := a.macAddr }
  match a.fwState with
  | .ap => p
  | .adhoc => { p' with ra := pkt.mac 0 }
  | .station => { p' with ra := a.bssid }
  | .none => p'

/-- The receiver address of a frame. -/
def txRa (a : Adapter) (pkt : Bytes) (p : PktAttrib) : MacAddr :=
  match a.fwState with
  | .ap | .none => p.ra
  | .adhoc => pkt.mac 0
  | .station => a.bssid

theorem setAddresses_ra (a : Adapter) (pkt : Bytes) (p : PktAttrib) :
    (setAddresses a pkt p).ra = txRa a pkt p := by
  cases hrole : a.fwState <;> simp [setAddresses, txRa, hrole]

/-- `update_attrib`: the attributes, and the station with its counter. -/
def updateAttrib (a : Adapter) (pkt : Bytes) (eapol : EapType) (p : PktAttrib) :
    Option (PktAttrib × StaInfo) :=
  let p := setAddresses a pkt { p with etherType := pkt.be16 12 }
  (rtwGetStainfo a p.ra).bind fun psta =>
    if psta.asoc then
      (updateAttribSecInfo a { p with pktlen := pkt.length - ethHlen } psta eapol).map
        fun (p, psta) =>
          let p := setQos a pkt { p with
            pktHdrlen := ethHlen, hdrlen := wlanHdrA3Len, subtype := wifiDataType, priority := 0
            qosEn := psta.qosOption, psta := some (staKey p.ra), ackPolicy := 0, mdata := false
            eosp := false }
          ({ p with ampduEn := psta.ampduEnable p.priority }, psta)
    else none

/-! ## What the attributes are like -/

/-- The ciphers that the transmit path has lengths and a software implementation for. -/
def txCipher (encrypt : SecurityType) : Bool :=
  match encrypt with
  | .wep40 | .wep104 | .tkip | .aes | .ccmp256 | .gcmp | .gcmp256 => true
  | _ => false

/-- A frame as `update_attrib` leaves it. -/
structure Ready (p : PktAttrib) (pkt : Bytes) : Prop where
  pktHdrlen : p.pktHdrlen = ethHlen
  pktlen : p.pktlen = pkt.length - ethHlen
  hdrlen : p.hdrlen = wlanHdrA3Len ∨ p.hdrlen = wlanHdrA3QosLen
  ivLen : p.ivLen = if txCipher p.encrypt then p.encrypt.ivLen else 0
  icvLen : p.icvLen = if txCipher p.encrypt then p.encrypt.icvLen else 0

def nextTxpn (encrypt : SecurityType) (val : ℕ) : ℕ :=
  if encrypt = .wep40 ∨ encrypt = .wep104 then nextWepPn val
  else if txCipher encrypt then nextPn val
  else val

section Lemmas

variable {a : Adapter} {pkt : Bytes} {eapol : EapType} {p q : PktAttrib} {psta psta' : StaInfo}

theorem txCipher_of_isAead {encrypt : SecurityType} (h : encrypt.isAead) : txCipher encrypt := by
  cases encrypt <;> first | rfl | exact absurd h Bool.false_ne_true

theorem chooseCipher_some (h : chooseCipher a psta eapol p = some q) :
    q = { p with encrypt := q.encrypt, keyIdx := q.keyIdx } ∧
      (q.encrypt = .noPrivacy ∨ q.encrypt = getEncryAlgo a.securitypriv psta p.ra.isMcast) := by
  simp only [chooseCipher] at h
  split_ifs at h <;> rw [← Option.some.inj h]
  all_goals first
    | exact ⟨rfl, .inl rfl⟩
    | exact ⟨rfl, .inr rfl⟩

theorem drawIv_some (h : drawIv a psta p = some (q, psta')) :
    psta' = { psta with dot11txpn := nextTxpn p.encrypt psta.dot11txpn } ∧
      q = { p with
        ivLen := if txCipher p.encrypt then p.encrypt.ivLen else 0
        icvLen := if txCipher p.encrypt then p.encrypt.icvLen else 0
        iv := q.iv, dot11tkiptxmickey := q.dot11tkiptxmickey } ∧
      (p.encrypt.isAead → ∃ keyidx, q.iv = aesIv psta'.dot11txpn keyidx) := by
  cases henc : p.encrypt
  all_goals simp only [drawIv, henc, Option.some.injEq, Prod.mk.injEq] at h
  case tkip =>
    split_ifs at h
    simp only [Option.some.injEq, Prod.mk.injEq] at h
    obtain ⟨rfl, rfl⟩ := h
    simp [nextTxpn, txCipher, SecurityType.ivLen, SecurityType.icvLen, SecurityType.isAead]
  all_goals
    obtain ⟨rfl, rfl⟩ := h
    simp [nextTxpn, txCipher, SecurityType.ivLen, SecurityType.icvLen, SecurityType.isAead]

theorem updateAttribSecInfo_some (h : updateAttribSecInfo a p psta eapol = some (q, psta')) :
    psta' = { psta with dot11txpn := nextTxpn q.encrypt psta.dot11txpn } ∧
      q = { p with
        encrypt := q.encrypt, keyIdx := q.keyIdx, macId := q.macId, bswenc := q.bswenc
        ivLen := if txCipher q.encrypt then q.encrypt.ivLen else 0
        icvLen := if txCipher q.encrypt then q.encrypt.icvLen else 0
        iv := q.iv, dot11tkiptxmickey := q.dot11tkiptxmickey
        dot118021xUncstKey := q.dot118021xUncstKey } ∧
      (q.encrypt = .noPrivacy ∨ q.encrypt = getEncryAlgo a.securitypriv psta p.ra.isMcast) ∧
      (q.encrypt.isAead → ∃ keyidx, q.iv = aesIv psta'.dot11txpn keyidx) := by
  obtain ⟨p₁, hchoose, h⟩ := Option.bind_eq_some_iff.mp h
  obtain ⟨⟨p₂, psta₂⟩, hdraw, h⟩ := Option.map_eq_some_iff.mp h
  obtain ⟨rfl, rfl⟩ := Prod.mk.inj h
  obtain ⟨hpsta, hp₂, hiv⟩ := drawIv_some hdraw
  have henc : p₂.encrypt = p₁.encrypt := by rw [hp₂]
  obtain ⟨hp₁, halgo⟩ := chooseCipher_some hchoose
  refine ⟨henc ▸ hpsta, ?_, henc ▸ halgo, henc ▸ hiv⟩
  rw [hp₂, hp₁]

theorem setQos_eq (a : Adapter) (pkt : Bytes) (p : PktAttrib) :
    ∃ hdrlen subtype priority,
      setQos a pkt p = { p with hdrlen := hdrlen, subtype := subtype, priority := priority } ∧
        (hdrlen = p.hdrlen ∨ hdrlen = wlanHdrA3QosLen) := by
  unfold setQos
  split <;> split <;> first
    | exact ⟨_, _, _, rfl, .inr rfl⟩
    | exact ⟨_, _, _, rfl, .inl rfl⟩

/-- **The packet number of a frame** is the next one of the station it goes to, and nothing else of
the station changes. -/
theorem updateAttrib_some (h : updateAttrib a pkt eapol p = some (q, psta')) :
    ∃ psta, rtwGetStainfo a q.ra = some psta ∧
      psta' = { psta with dot11txpn := nextTxpn q.encrypt psta.dot11txpn } ∧
      (q.encrypt = .noPrivacy ∨ q.encrypt = getEncryAlgo a.securitypriv psta q.ra.isMcast) ∧
      (q.encrypt.isAead → ∃ keyidx, q.iv = aesIv psta'.dot11txpn keyidx) ∧
      q.ra = txRa a pkt p ∧ q.psta = some (staKey q.ra) ∧ Ready q pkt := by
  obtain ⟨psta, hsta, h⟩ := Option.bind_eq_some_iff.mp h
  split_ifs at h with hasoc
  obtain ⟨⟨p₁, psta₁⟩, hsec, h⟩ := Option.map_eq_some_iff.mp h
  obtain ⟨hpsta, hp₁, halgo, hiv⟩ := updateAttribSecInfo_some hsec
  obtain ⟨hdrlen, subtype, priority, hqos, hhdrlen⟩ := setQos_eq a pkt { p₁ with
    pktHdrlen := ethHlen, hdrlen := wlanHdrA3Len, subtype := wifiDataType, priority := 0
    qosEn := psta₁.qosOption, psta := some (staKey p₁.ra), ackPolicy := 0, mdata := false
    eosp := false }
  simp only [hqos] at h
  obtain ⟨rfl, rfl⟩ := Prod.mk.inj h
  have hra : p₁.ra = (setAddresses a pkt { p with etherType := pkt.be16 12 }).ra := by rw [hp₁]
  refine ⟨psta, hra ▸ hsta, hpsta, hra ▸ halgo, hiv, hra.trans (setAddresses_ra _ _ _), rfl, rfl,
    ?_, hhdrlen, ?_, ?_⟩
  · show p₁.pktlen = _
    rw [hp₁]
  · show p₁.ivLen = _
    rw [hp₁]
  · show p₁.icvLen = _
    rw [hp₁]

theorem Ready.doQueueSelect (h : Ready p pkt) : Ready (doQueueSelect p) pkt := by
  unfold Xmit.doQueueSelect
  split <;> exact ⟨h.1, h.2, h.3, h.4, h.5⟩

theorem nextTxpn_of_not_txCipher {encrypt : SecurityType} (h : ¬ txCipher encrypt) (val : ℕ) :
    nextTxpn encrypt val = val := by
  cases encrypt <;> first | rfl | exact absurd rfl h

end Lemmas

end Rtl88x2eu.Xmit
