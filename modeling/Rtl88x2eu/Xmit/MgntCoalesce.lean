import Rtl88x2eu.Xmit.Coalesce

/-!
# Protecting management frames

`rtw_mgmt_xmitframe_coalesce` takes a management frame that stands in its buffer and protects it
there: a robust frame to a station with management frame protection, or a group privacy action
frame, is encrypted under the key that data frames use; another robust frame to a group gets a BIP
element.

## Main definitions

* `updateMgntframeAttrib`, `rtwMgmtXmitframeCoalesce`

## Main results

* `mgmtCoalesce_cases`: no packet number is drawn, or the next one stands in the frame
-/

namespace Rtl88x2eu.Xmit

open Memory

def txdescOffset : ℕ := txdescSize + packetOffsetSz

/-- The attributes of a management frame. -/
def updateMgntframeAttrib (a : Adapter) (m : Mem) (bufAddr pktlen : ℕ) (keyType : KeyType) :
    PktAttrib :=
  let hdr := read m (bufAddr + txdescOffset) wlanHdrA3Len
  let ra := getAddr1 hdr
  { hdrlen := wlanHdrA3Len
    nrFrags := 1
    priority := 7
    qsel := 0x12
    pktlen := pktlen
    lastTxcmdsz := pktlen
    subtype := getFrameSubType hdr
    ra := ra
    ta := getAddr2 hdr
    psta := (rtwGetStainfo a ra).map fun _ => staKey ra
    keyType := keyType }

/-- What `rtw_mgmt_xmitframe_coalesce` leaves; `sealed` is where the encrypted frame stands. -/
structure MgmtCoalesced where
  res : Bool
  mem : Mem
  adapter : Adapter
  attrib : PktAttrib
  sealed : Option Fragment := none

def mmeCont (sec : SecurityPriv) (pn : ℕ) : Bytes :=
  let clen := if sec.dot11wCipher = .bipCmac128 then 16 else 24
  let pnOctets := (List.range 8).map (tsc pn)
  ((UInt8.ofNat sec.dot11wBIPKeyid :: 0 :: pnOctets) ++ List.replicate 14 0).take clen

def bipFrameCtrl (m : Mem) (pframe : ℕ) : Bytes := [m pframe, m (pframe + 1) &&& 0xc7]

def bipProtect (c : TxCrypto) (a : Adapter) (m : Mem) (pframe : ℕ) (p : PktAttrib) :
    MgmtCoalesced :=
  let sec := a.securitypriv
  if sec.binstallBIPkey then
    let pn := (sec.dot11wBIPtxpn + 1) % 2 ^ 64
    let a := { a with securitypriv := { sec with dot11wBIPtxpn := pn } }
    let mme := mmeCont sec pn
    let m := write m (pframe + p.pktlen) (76 :: UInt8.ofNat mme.length :: mme)
    let pktlen := p.pktlen + mme.length + 2
    let p := { p with pktlen := pktlen, lastTxcmdsz := pktlen }
    let aad := bipFrameCtrl m pframe ++ read m (pframe + 4) 18 ++
      read m (pframe + wlanHdrA3Len) (pktlen - wlanHdrA3Len)
    match c.calculateBipMic sec.dot11wCipher (read m pframe pktlen)
      (sec.dot11wBIPKey sec.dot11wBIPKeyid) aad with
    | none => ⟨false, m, a, p, none⟩
    | some mic =>
      let miclen := if sec.dot11wCipher = .bipCmac128 then 8 else 16
      ⟨true, write m (pframe + pktlen - miclen) (octets mic miclen), a, p, none⟩
  else ⟨true, m, a, p, none⟩

def mgmtIcvLen (encrypt : SecurityType) : Option ℕ :=
  match encrypt with
  | .aes => some 8
  | .ccmp256 | .gcmp | .gcmp256 => some 16
  | _ => none

/-- The encrypting branch: the key of station `psta`, under `cipher` and key index `kid`. -/
def aeadProtect (c : TxCrypto) (a : Adapter) (m : Mem) (bufAddr : ℕ) (p : PktAttrib)
    (psta : StaInfo) (cipher : SecurityType) (kid : ℕ) : MgmtCoalesced :=
  let pframe := bufAddr + txdescOffset
  let p := if p.keyType ≠ .noKey then { p with encrypt := cipher, bswenc := true } else p
  match mgmtIcvLen p.encrypt with
  | none => ⟨false, m, a, p, none⟩
  | some icvLen =>
    let pn := nextPn psta.dot11txpn
    let a := a.setSta (staKey p.ra) { psta with dot11txpn := pn }
    let p := { p with ivLen := 8, icvLen := icvLen, iv := aesIv pn kid }
    let body := read m (pframe + p.hdrlen) (p.pktlen - p.hdrlen)
    let m := write m (pframe + p.hdrlen) (p.iv ++ body ++ octets p.icv (icvRoom p))
    let pktlen := p.pktlen + p.ivLen + p.icvLen
    let p := { p with pktlen := pktlen, lastTxcmdsz := pktlen }
    let m := write m (pframe + 1) [m (pframe + 1) ||| 0x40]
    let f : XmitFrame := { attrib := p, bufAddr := bufAddr }
    ⟨true, xmitframeSwencrypt c a m f, a, p, some ⟨pframe, pktlen⟩⟩

/-- A frame to a group; `zmalloc` says whether the scratch buffer could be had. -/
def groupProtect (c : TxCrypto) (zmalloc : Bool) (a : Adapter) (m : Mem) (bufAddr : ℕ)
    (p : PktAttrib) (groupPrivacy : Bool) : MgmtCoalesced :=
  let sec := a.securitypriv
  if !zmalloc then ⟨false, m, a, p, none⟩
  else if !groupPrivacy then bipProtect c a m (bufAddr + txdescOffset) p
  else
    match rtwGetStainfo a p.ra with
    | none => ⟨false, m, a, p, none⟩
    | some psta =>
      if sec.binstallGrpkey then
        aeadProtect c a m bufAddr p psta sec.dot118021XGrpPrivacy sec.dot118021XGrpKeyid
      else ⟨false, m, a, p, none⟩

def unicastKey (psta : StaInfo) (keyType : KeyType) : Bytes :=
  let key := keyBytes psta.dot118021XPrivacy psta.dot118021xUncstKey
  if keyType = .wrongKey then 0xff :: key.drop 1 else key

/-- A frame to one station. -/
def unicastProtect (c : TxCrypto) (zmalloc : Bool) (a : Adapter) (m : Mem) (bufAddr : ℕ)
    (p : PktAttrib) : MgmtCoalesced :=
  match rtwGetStainfo a p.ra with
  | none => ⟨false, m, a, p, none⟩
  | some psta =>
    if !psta.mfp then ⟨true, m, a, p, none⟩
    else if !psta.bpairwiseKeyInstalled || !zmalloc then ⟨false, m, a, p, none⟩
    else
      let p := { p with dot118021xUncstKey := unicastKey psta p.keyType }
      aeadProtect c a m bufAddr p psta psta.dot118021XPrivacy 0

def rtwMgmtXmitframeCoalesce (c : TxCrypto) (zmalloc : Bool) (a : Adapter) (m : Mem)
    (bufAddr : ℕ) (p : PktAttrib) : MgmtCoalesced :=
  let pframe := bufAddr + txdescOffset
  let subtype := getFrameSubType (read m pframe wlanHdrA3Len)
  let category := (m (pframe + wlanHdrA3Len)).toNat
  let action : Bool := subtype = wifiAction
  let robust := subtype = wifiDeauth || subtype = wifiDisassoc ||
    (action && categoryIsRobust category)
  if !robust then ⟨true, m, a, p, none⟩
  else if p.ra.isMcast then
    groupProtect c zmalloc a m bufAddr p (action && categoryIsGroupPrivacy category)
  else unicastProtect c zmalloc a m bufAddr p

/-! ## What becomes of the counters -/

section

variable {c : TxCrypto} {zmalloc : Bool} {a : Adapter} {m : Mem} {bufAddr : ℕ} {p : PktAttrib}

structure Sealed (a : Adapter) (bufAddr : ℕ) (p : PktAttrib) (r : MgmtCoalesced) : Prop where
  sealed : r.sealed = some ⟨bufAddr + txdescOffset, r.attrib.pktlen⟩
  encrypt : r.attrib.encrypt.isAead
  hdrlen : r.attrib.hdrlen = p.hdrlen
  pktlen : p.pktlen + 8 ≤ r.attrib.pktlen
  drawn : ∃ psta kid, rtwGetStainfo a p.ra = some psta ∧
    r.adapter = a.setSta (staKey p.ra) { psta with dot11txpn := nextPn psta.dot11txpn } ∧
    read r.mem (bufAddr + txdescOffset + p.hdrlen) 8 = aesIv (nextPn psta.dot11txpn) kid

/-- No packet number is drawn. -/
structure Unsealed (a : Adapter) (r : MgmtCoalesced) : Prop where
  sealed : r.sealed = none
  txpns : txpns r.adapter = txpns a

theorem isAead_of_mgmtIcvLen {encrypt : SecurityType} {n : ℕ} (h : mgmtIcvLen encrypt = some n) :
    encrypt.isAead := by
  cases encrypt <;> first | rfl | cases h

theorem aeadProtect_cases {psta : StaInfo} {cipher : SecurityType} {kid : ℕ}
    (hsta : rtwGetStainfo a p.ra = some psta) (hfrags : p.nrFrags = 1) (hhdrlen : 2 ≤ p.hdrlen) :
    Unsealed a (aeadProtect c a m bufAddr p psta cipher kid) ∨
      Sealed a bufAddr p (aeadProtect c a m bufAddr p psta cipher kid) := by
  -- neither the cipher nor the decision for software encryption matters to what follows
  generalize hq :
    (if p.keyType ≠ .noKey then { p with encrypt := cipher, bswenc := true } else p) = q
  have hqp : q = { p with encrypt := q.encrypt, bswenc := q.bswenc } := by
    rw [← hq]
    split <;> rfl
  simp only [aeadProtect, hq]
  split
  · exact .inl ⟨rfl, rfl⟩
  · rename_i icvLen hicv
    refine .inr ⟨rfl, isAead_of_mgmtIcvLen hicv, by rw [hqp], ?_, psta, kid, hsta, by rw [hqp], ?_⟩
    · show p.pktlen + 8 ≤ q.pktlen + 8 + icvLen
      rw [hqp]
      exact Nat.le_add_right _ _
    · have hq' : q.nrFrags = 1 ∧ q.hdrlen = p.hdrlen := by
        rw [hqp]
        exact ⟨hfrags, rfl⟩
      rw [← hq'.2] at hhdrlen ⊢
      refine (swencrypt_one hq'.1 hhdrlen).2.trans ?_
      show read
          (write (write m (bufAddr + txdescOffset + q.hdrlen) _) (bufAddr + txdescOffset + 1) _)
        (bufAddr + txdescOffset + q.hdrlen) 8 = _
      rw [read_write_of_disjoint (.inr (by simp; omega)), List.append_assoc]
      exact (read_write_part (k := 0) (by simp)).trans (List.take_left' (length_aesIv _ _))

theorem bipProtect_unsealed {pframe : ℕ} : Unsealed a (bipProtect c a m pframe p) := by
  unfold bipProtect
  dsimp only
  split
  · split <;> exact ⟨rfl, rfl⟩
  · exact ⟨rfl, rfl⟩

theorem groupProtect_cases {groupPrivacy : Bool} (hfrags : p.nrFrags = 1)
    (hhdrlen : 2 ≤ p.hdrlen) :
    Unsealed a (groupProtect c zmalloc a m bufAddr p groupPrivacy) ∨
      Sealed a bufAddr p (groupProtect c zmalloc a m bufAddr p groupPrivacy) := by
  unfold groupProtect
  dsimp only
  split_ifs with hzmalloc hprivacy hkey
  · exact .inl ⟨rfl, rfl⟩
  · exact .inl bipProtect_unsealed
  · cases hsta : rtwGetStainfo a p.ra with
    | none => exact .inl ⟨rfl, rfl⟩
    | some psta => exact aeadProtect_cases hsta hfrags hhdrlen
  · cases hsta : rtwGetStainfo a p.ra <;> exact .inl ⟨rfl, rfl⟩

theorem unicastProtect_cases (hfrags : p.nrFrags = 1) (hhdrlen : 2 ≤ p.hdrlen) :
    Unsealed a (unicastProtect c zmalloc a m bufAddr p) ∨
      Sealed a bufAddr p (unicastProtect c zmalloc a m bufAddr p) := by
  unfold unicastProtect
  cases hsta : rtwGetStainfo a p.ra with
  | none => exact .inl ⟨rfl, rfl⟩
  | some psta =>
    dsimp only
    split_ifs with hmfp hkey
    · exact .inl ⟨rfl, rfl⟩
    · exact .inl ⟨rfl, rfl⟩
    · refine (aeadProtect_cases
        (p := { p with dot118021xUncstKey := unicastKey psta p.keyType }) hsta hfrags hhdrlen).imp
        id fun h => ?_
      exact ⟨h.1, h.2, h.3, h.4, h.5⟩

/-- **No packet number is drawn, or the next one stands in the frame.** -/
theorem mgmtCoalesce_cases (hfrags : p.nrFrags = 1) (hhdrlen : 2 ≤ p.hdrlen) :
    Unsealed a (rtwMgmtXmitframeCoalesce c zmalloc a m bufAddr p) ∨
      Sealed a bufAddr p (rtwMgmtXmitframeCoalesce c zmalloc a m bufAddr p) := by
  unfold rtwMgmtXmitframeCoalesce
  dsimp only
  split
  · exact .inl ⟨rfl, rfl⟩
  · split
    · exact groupProtect_cases hfrags hhdrlen
    · exact unicastProtect_cases hfrags hhdrlen

end

theorem length_encipherNull {enc : SecurityType} {data body : Bytes}
    (h : some (data ++ List.replicate enc.icvLen 0) = some body) :
    body.length = data.length + enc.icvLen := by
  rw [← Option.some.inj h, List.length_append, List.length_replicate]

def nullCrypto : TxCrypto where
  encipher enc _ _ _ _ data := some (data ++ List.replicate enc.icvLen 0)
  length_encipher := length_encipherNull
  secmic _ _ := List.replicate 8 0
  length_secmic _ _ := rfl
  calculateBipMic _ _ _ _ := some (List.replicate 16 0)

/-- The access point of the examples. -/
def apAddr : MacAddr := ⟨2, 0, 0, 0, 0, 1⟩

def ccmpAdapter (fragLen : ℕ) : Adapter :=
  { bssid := apAddr
    fragLen := fragLen
    securitypriv := { dot11AuthAlgrthm := .dot8021X, binstallBIPkey := true }
    stations := fun addr =>
      if addr = apAddr then
        some { dot118021XPrivacy := .aes, mfp := true, bpairwiseKeyInstalled := true }
      else none }

/-- A deauthentication frame to the access point. -/
def deauthMem : Mem :=
  write (fun _ => 0) txdescOffset ([0xc0, 0, 0, 0] ++ apAddr.toBytes ++ List.replicate 16 0)

end Rtl88x2eu.Xmit
