import Rtl88x2eu.Lib.Transition
import Rtl88x2eu.Xmit.Dump
import Rtl88x2eu.Xmit.MgntCoalesce

/-!
# Sending management frames

`rtw_hal_mgnt_xmit` has a management frame protected, and then queues it for a sleeping station or
submits it. It does not look at whether the protection succeeded: a robust frame that could not be
protected goes out as it was handed over.

## Main definitions

* `rtwHalMgntXmit`, `dumpMgntframe`: what becomes of a frame that is handed over
* `MgntWorld`, `mgntStep hal c`: frames are handed over, queued frames are submitted or freed,
  transfers complete, the configuration changes
* `ProtectedAs`, `MgntProtected`, `SendOk`

## Main results

* `coalesce_protects`: what the protection leaves in the buffer if it succeeds
* `mgntProtected_of_run`: robust frames are protected in every run in which protection does not fail
* `not_mgntProtected`: a frame to a station without its pairwise key is sent in the clear
-/

namespace Rtl88x2eu.Xmit

open Memory

/-! ## The code -/

def maxXmitExtbufSz : ℕ := 4096

def actionCode (hdr : Bytes) : ℕ :=
  if mgmtCategory hdr = 0x7f then 34 else (hdr.u8 (wlanHdrA3Len + 1)).toNat

def wifiProbersp : ℕ := 0x50

/-- `pattrib->ps_dontq` as `update_mgntframe_subtype` sets it: the frame does not wait for a
sleeping station. -/
def psDontq (a : Adapter) (m : Mem) : Bool :=
  let hdr := read m txdescOffset (wlanHdrA3Len + 2)
  let subtype := getFrameSubType hdr
  -- fine timing measurement is not to be delayed
  let action := subtype = wifiAction && !(actionCode hdr = 32 || actionCode hdr = 33)
  !(action || subtype = wifiDisassoc || subtype = wifiDeauth ||
    (subtype = wifiProbersp && a.fwState = .adhoc))

/-- A management frame in its buffer, as it is handed over, and the adapter at that time. -/
structure Handed where
  adapter : Adapter
  mem : Mem
  pktlen : ℕ
  keyType : KeyType

def Handed.frame (h : Handed) : Bytes := read h.mem txdescOffset h.pktlen

def Handed.kind (h : Handed) : Bytes := read h.mem txdescOffset (wlanHdrA3Len + 1)

/-- A frame on its way, with its descriptor and its buffer. -/
structure MgntFrame where
  id : ℕ
  pxmitbuf : ℕ
  mem : Mem
  attrib : PktAttrib
  handed : Handed

structure MgntWorld where
  adapter : Adapter
  /-- The stations that sleep, with their bit in `sta_dz_bitmap`. -/
  asleep : MacAddr → Bool := fun _ => false
  freeXframeExtQueue : List ℕ := []
  freeXmitExtbufQueue : List ℕ := []
  /-- The buffers that the USB core has. -/
  submitted : List ℕ := []
  /-- The frames that wait for a station. -/
  mgmtQueue : List MgntFrame := []
  /-- What was submitted of which frame. -/
  written : List (Handed × Submission) := []
  /-- For every frame that could not be protected, whether it came back to the pools unsent. -/
  refused : List (Handed × Bool) := []

def MgntWorld.release (w : MgntWorld) (id pxmitbuf : ℕ) : MgntWorld :=
  { w with
    freeXframeExtQueue := w.freeXframeExtQueue ++ [id]
    freeXmitExtbufQueue := w.freeXmitExtbufQueue ++ [pxmitbuf] }

/-- `rtw_dump_xframe` of a management frame; `accepted` says whether the USB core takes it. -/
def MgntWorld.dump (hal : TxHal) (w : MgntWorld) (x : MgntFrame) (accepted : Bool) : MgntWorld :=
  let f : XmitFrame := { attrib := x.attrib }
  let s := (dumpFragment hal w.adapter x.pxmitbuf 0 ⟨x.mem, f, 0⟩).2
  if accepted then
    { w with
      freeXframeExtQueue := w.freeXframeExtQueue ++ [x.id]
      submitted := w.submitted ++ [x.pxmitbuf]
      written := w.written ++ [(x.handed, s)] }
  else w.release x.id x.pxmitbuf

/-- `mgmt_xmitframe_enqueue_for_sleeping_sta`: whether the frame is queued. -/
def sleepsFor (a : Adapter) (asleep : MacAddr → Bool) (p : PktAttrib) (dontq : Bool) : Bool :=
  if p.ra = .bcast || dontq then false
  else
    match p.psta.bind a.stations with
    | none => false
    | some psta => psta.asoc && asleep (staKey p.ra)

def protectMgnt (c : TxCrypto) (zmalloc : Bool) (a : Adapter) (m : Mem) (p : PktAttrib) :
    MgmtCoalesced :=
  if a.securitypriv.binstallBIPkey then rtwMgmtXmitframeCoalesce c zmalloc a m 0 p
  else ⟨true, m, a, p, none⟩

/-- `rtw_hal_mgnt_xmit`, for an access point or a station. -/
def rtwHalMgntXmit (hal : TxHal) (c : TxCrypto) (w : MgntWorld) (id pxmitbuf : ℕ) (h : Handed)
    (zmalloc accepted : Bool) : MgntWorld :=
  let p := updateMgntframeAttrib w.adapter h.mem 0 h.pktlen h.keyType
  let dontq := psDontq w.adapter h.mem
  -- the result of the protection is not looked at
  let r := protectMgnt c zmalloc w.adapter h.mem p
  let x : MgntFrame := ⟨id, pxmitbuf, r.mem, r.attrib, h⟩
  let w' := { w with adapter := r.adapter }
  let w' :=
    if r.adapter.fwState = .ap && sleepsFor r.adapter w.asleep r.attrib dontq then
      { w' with mgmtQueue := w.mgmtQueue ++ [x] }
    else w'.dump hal x accepted
  if r.res then w'
  else
    let back := w'.freeXframeExtQueue.contains id && w'.freeXmitExtbufQueue.contains pxmitbuf &&
      w'.written.length = w.written.length
    { w' with refused := w'.refused ++ [(h, back)] }

def dumpMgntframe (hal : TxHal) (c : TxCrypto) (w : MgntWorld) (id pxmitbuf : ℕ) (h : Handed)
    (cannotRun zmalloc accepted : Bool) : MgntWorld :=
  if cannotRun then w.release id pxmitbuf
  else rtwHalMgntXmit hal c w id pxmitbuf h zmalloc accepted

inductive MgntEvent
  /-- A frame is allocated, filled in and handed to `dump_mgntframe`. -/
  | send (m : Mem) (pktlen : ℕ) (keyType : KeyType) (cannotRun zmalloc accepted : Bool)
  /-- A frame that waits is submitted. -/
  | deliver (i : ℕ) (accepted : Bool)
  /-- A frame that waits is freed with its station. -/
  | free (i : ℕ)
  /-- A transfer completes. -/
  | complete (pxmitbuf : ℕ)
  /-- The configuration changes, or stations fall asleep or wake up. -/
  | configure (a : Adapter) (asleep : MacAddr → Bool)

def mgntStep (hal : TxHal) (c : TxCrypto) (w : MgntWorld) : MgntEvent → Option MgntWorld
  | .send m pktlen keyType cannotRun zmalloc accepted =>
    -- a frame has its header and stands in its buffer
    if wlanHdrA3Len ≤ pktlen ∧ txdescOffset + pktlen ≤ maxXmitExtbufSz then
      match w.freeXframeExtQueue, w.freeXmitExtbufQueue with
      | id :: frames, pxmitbuf :: bufs =>
        let w := { w with freeXframeExtQueue := frames, freeXmitExtbufQueue := bufs }
        some (dumpMgntframe hal c w id pxmitbuf ⟨w.adapter, m, pktlen, keyType⟩ cannotRun zmalloc
          accepted)
      | _, _ => some w
    else none
  | .deliver i accepted =>
    w.mgmtQueue[i]?.map fun x =>
      { w with mgmtQueue := w.mgmtQueue.eraseIdx i }.dump hal x accepted
  | .free i =>
    w.mgmtQueue[i]?.map fun x =>
      { w with mgmtQueue := w.mgmtQueue.eraseIdx i }.release x.id x.pxmitbuf
  | .complete pxmitbuf =>
    if pxmitbuf ∈ w.submitted then
      some { w with
        submitted := w.submitted.erase pxmitbuf
        freeXmitExtbufQueue := w.freeXmitExtbufQueue ++ [pxmitbuf] }
    else none
  | .configure a asleep => some { w with adapter := a, asleep := asleep }

/-! ## What protection means -/

def protectedHdr (w : Bytes) : Bytes :=
  (w.take wlanHdrA3Len).set 1 (w.u8 1 ||| 0x40)

def Encrypted (c : TxCrypto) (enc : SecurityType) (key w out : Bytes) : Prop :=
  ∃ iv body, iv.length = 8 ∧
    c.encipher enc key (getAddr2 w) (protectedHdr w) iv (w.drop wlanHdrA3Len) = some body ∧
    out = protectedHdr w ++ iv ++ body

def bipMicLen (sec : SecurityPriv) : ℕ := if sec.dot11wCipher = .bipCmac128 then 8 else 16

/-- A BIP element without its code: element, length, key, and 48 bits of the packet number. -/
def mmeHead (sec : SecurityPriv) (pn : ℕ) : Bytes :=
  [76, UInt8.ofNat (8 + bipMicLen sec), UInt8.ofNat sec.dot11wBIPKeyid, 0] ++
    (List.range 6).map (tsc pn)

def bipFrame (sec : SecurityPriv) (pn : ℕ) (w : Bytes) : Bytes :=
  w ++ mmeHead sec pn ++ List.replicate (bipMicLen sec) 0

/-- What the code is made over: the frame control field with the changing flags masked, the
addresses, and the body with the element. -/
def bipData (w : Bytes) : Bytes :=
  [w.u8 0, w.u8 1 &&& 0xc7] ++ (w.drop 4).take 18 ++ w.drop wlanHdrA3Len

def bipMic (c : TxCrypto) (sec : SecurityPriv) (pn : ℕ) (w : Bytes) : Option Bytes :=
  let zeroed := bipFrame sec pn w
  c.calculateBipMic sec.dot11wCipher zeroed (sec.dot11wBIPKey sec.dot11wBIPKeyid) (bipData zeroed)

def BipProtected (c : TxCrypto) (sec : SecurityPriv) (w out : Bytes) : Prop :=
  ∃ pn mic, pn < 2 ^ 48 ∧ bipMic c sec pn w = some mic ∧
    out = w ++ mmeHead sec pn ++ octets mic (bipMicLen sec)

def StaInfo.pairwiseKey (psta : StaInfo) : Bytes :=
  keyBytes psta.dot118021XPrivacy psta.dot118021xUncstKey

/-- **What is sent of a robust frame is protected**: to a group, by a BIP element or, for a group
privacy action frame, by the group key; to a station with management frame protection, by its
pairwise key, unless the caller asked for none. -/
def ProtectedAs (c : TxCrypto) (h : Handed) (out : Bytes) : Prop :=
  let sec := h.adapter.securitypriv
  let ra := getAddr1 h.kind
  if ra.isMcast then
    if groupPrivacyAction h.kind then
      Encrypted c sec.dot118021XGrpPrivacy (sec.dot118021XGrpKey sec.dot118021XGrpKeyid) h.frame out
    else BipProtected c sec h.frame out
  else
    ∀ psta, rtwGetStainfo h.adapter ra = some psta → psta.mfp = true → h.keyType ≠ .noKey →
      Encrypted c psta.dot118021XPrivacy psta.pairwiseKey h.frame out

/-- With a BIP key, nothing robust was sent unprotected; and what could not be
protected was not sent, and its descriptor and buffer came back. -/
structure MgntProtected (c : TxCrypto) (w : MgntWorld) : Prop where
  written : ∀ x ∈ w.written, x.1.adapter.securitypriv.binstallBIPkey = true →
    robustMgmt x.1.kind = true → ProtectedAs c x.1 x.2.packet
  refused : ∀ x ∈ w.refused, x.2 = true

def CanSeal (c : TxCrypto) (h : Handed) (enc : SecurityType) (key : Bytes) (val kid : ℕ) : Prop :=
  h.keyType ≠ .noKey ∧ (mgmtIcvLen enc).isSome ∧
    (c.encipher enc key (getAddr2 h.kind) (protectedHdr h.frame) (aesIv (nextPn val) kid)
      (h.frame.drop wlanHdrA3Len)).isSome

instance CanSeal.decidable (c : TxCrypto) (h : Handed) (enc : SecurityType) (key : Bytes)
    (val kid : ℕ) : Decidable (CanSeal c h enc key val kid) :=
  inferInstanceAs (Decidable (_ ∧ _))

def GroupOk (c : TxCrypto) (h : Handed) : Prop :=
  let sec := h.adapter.securitypriv
  if groupPrivacyAction h.kind then
    sec.binstallGrpkey = true ∧ ∃ psta ∈ rtwGetStainfo h.adapter (getAddr1 h.kind),
      CanSeal c h sec.dot118021XGrpPrivacy (sec.dot118021XGrpKey sec.dot118021XGrpKeyid)
        psta.dot11txpn sec.dot118021XGrpKeyid
  else
    sec.dot11wBIPtxpn + 1 < 2 ^ 48 ∧ (bipMic c sec (sec.dot11wBIPtxpn + 1) h.frame).isSome

def StationOk (c : TxCrypto) (h : Handed) (zmalloc : Bool) : Prop :=
  ∃ psta ∈ rtwGetStainfo h.adapter (getAddr1 h.kind), psta.mfp = true →
    psta.bpairwiseKeyInstalled = true ∧ zmalloc = true ∧ h.keyType = .rightKey ∧
      CanSeal c h psta.dot118021XPrivacy psta.pairwiseKey psta.dot11txpn 0

def ProtectOk (c : TxCrypto) (h : Handed) (zmalloc : Bool) : Prop :=
  if (getAddr1 h.kind).isMcast then zmalloc = true ∧ GroupOk c h else StationOk c h zmalloc

/-- **The condition**: a robust frame that is handed over while there is a BIP key can be
protected. -/
def SendOk (c : TxCrypto) (w : MgntWorld) : MgntEvent → Prop
  | .send m pktlen keyType cannotRun zmalloc _ =>
    let h : Handed := ⟨w.adapter, m, pktlen, keyType⟩
    cannotRun = false → w.adapter.securitypriv.binstallBIPkey = true → robustMgmt h.kind = true →
      ProtectOk c h zmalloc
  | _ => True

/-! ## What the protection leaves -/

section Protection

variable {c : TxCrypto} {a : Adapter} {m : Mem} {p : PktAttrib} {h : Handed}

theorem read_protectedHdr {pframe pktlen : ℕ} (hlen : wlanHdrA3Len ≤ pktlen)
    {m' : Mem} (hhdr : read m' pframe wlanHdrA3Len = read m pframe wlanHdrA3Len) (x : UInt8)
    (hx : x = m (pframe + 1) ||| 0x40) :
    read (write m' (pframe + 1) [x]) pframe wlanHdrA3Len =
      protectedHdr (read m pframe pktlen) := by
  have hu8 : Bytes.u8 (read m pframe pktlen) 1 = m (pframe + 1) := by
    have hlt : 1 < (read m pframe pktlen).length := by
      rw [length_read]
      exact lt_of_lt_of_le (by decide) hlen
    rw [Bytes.u8, List.getD_eq_getElem _ _ hlt, getElem_read]
  rw [read_write_singleton, hhdr, protectedHdr, take_read hlen, hu8, hx]

/-- What a software cipher leaves of a frame that stands in the buffer. -/
theorem read_sealFragment {pframe len n : ℕ} {body hdr iv : Bytes}
    (hhdr : read m pframe p.hdrlen = hdr) (hiv : read m (pframe + p.hdrlen) p.ivLen = iv)
    (hprivacy : ∀ m', read m' pframe p.hdrlen = hdr →
      read (write m' (pframe + 1) [m (pframe + 1) ||| 0x40]) pframe p.hdrlen = hdr)
    (hhdrlen : 2 ≤ p.hdrlen)
    (hbody : c.encipher p.encrypt (swKey a p) p.ta hdr iv
      (read m (pframe + p.hdrlen + p.ivLen) len) = some body)
    (hn : n = p.hdrlen + p.ivLen + body.length) :
    read (sealFragment c a p m pframe len) pframe n = hdr ++ iv ++ body := by
  unfold sealFragment
  dsimp only
  rw [hhdr, hiv, hbody, hn, read_add, read_add]
  dsimp only
  rw [Nat.add_assoc pframe, read_write, ← Nat.add_assoc,
    read_write_of_disjoint (.inl (by omega)), read_write_of_disjoint (.inl (by omega))]
  congr 2
  · split_ifs
    · exact hprivacy m hhdr
    · exact hhdr
  · split_ifs
    · rw [read_write_of_disjoint (.inr (by simp; omega)), hiv]
    · exact hiv

/-- The protection succeeds and leaves a frame in the buffer. -/
structure Leaves (p : PktAttrib) (r : MgmtCoalesced) (out : Bytes) : Prop where
  res : r.res = true
  out : read r.mem txdescOffset r.attrib.lastTxcmdsz = out
  nrFrags : r.attrib.nrFrags = 1
  qsel : r.attrib.qsel = p.qsel
  lastTxcmdsz : r.attrib.lastTxcmdsz ≤ p.pktlen + 26

theorem icvLen_of_mgmtIcvLen {enc : SecurityType} {n : ℕ} (h : mgmtIcvLen enc = some n) :
    n = enc.icvLen ∧ n ≤ 16 := by
  cases enc <;> simp only [mgmtIcvLen, reduceCtorEq, Option.some.injEq] at h <;> subst h <;>
    exact ⟨rfl, by decide⟩

theorem swKey_of_isAead (hp : p.encrypt.isAead) :
    swKey a p = if p.ra.isMcast then a.securitypriv.dot118021XGrpKey
      a.securitypriv.dot118021XGrpKeyid else p.dot118021xUncstKey := by
  have hwep : (p.encrypt = .wep40 || p.encrypt = .wep104) = false := by
    cases henc : p.encrypt <;> rw [henc] at hp <;> first | rfl | exact absurd hp Bool.false_ne_true
  unfold swKey
  simp only [hwep, Bool.false_eq_true, if_false]

theorem aeadProtect_leaves {psta : StaInfo} {enc : SecurityType} {kid : ℕ} {key body w : Bytes}
    (hhdrlen : p.hdrlen = wlanHdrA3Len) (hfrags : p.nrFrags = 1) (hlen : wlanHdrA3Len ≤ p.pktlen)
    (hw : w = read m txdescOffset p.pktlen) (hkeyType : p.keyType ≠ .noKey)
    (hicv : (mgmtIcvLen enc).isSome)
    (hkey : key = if p.ra.isMcast then a.securitypriv.dot118021XGrpKey
      a.securitypriv.dot118021XGrpKeyid else p.dot118021xUncstKey)
    (hbody : c.encipher enc key p.ta (protectedHdr w) (aesIv (nextPn psta.dot11txpn) kid)
      (w.drop wlanHdrA3Len) = some body) :
    Leaves p (aeadProtect c a m 0 p psta enc kid)
      (protectedHdr w ++ aesIv (nextPn psta.dot11txpn) kid ++ body) := by
  obtain ⟨icvLen, hicv⟩ := Option.isSome_iff_exists.mp hicv
  have haead := isAead_of_mgmtIcvLen hicv
  obtain ⟨hicvLen, hicvLe⟩ := icvLen_of_mgmtIcvLen hicv
  have hbodyLen := c.length_encipher hbody
  rw [hw, List.length_drop, length_read, ← hicvLen] at hbodyLen
  have h24 : wlanHdrA3Len = 24 := rfl
  simp only [aeadProtect, if_pos hkeyType, hicv]
  refine ⟨rfl, ?_, hfrags, rfl, ?_⟩
  swap
  · show p.pktlen + 8 + icvLen ≤ _
    omega
  have hcipher : txCipher enc := txCipher_of_isAead haead
  simp only [xmitframeSwencrypt, Bool.true_and, hcipher, if_true, hfrags, encryptLoop]
  -- the frame with its vector, and then with the Protected bit
  generalize hm₁ : write m (0 + txdescOffset + p.hdrlen) _ = m₁
  have hhdr : read m₁ txdescOffset wlanHdrA3Len = read m txdescOffset wlanHdrA3Len := by
    rw [← hm₁, Nat.zero_add, hhdrlen]
    exact read_write_of_disjoint (.inl le_rfl)
  have hprotected (x : UInt8) (hx : x = m (txdescOffset + 1) ||| 0x40) {m' : Mem}
      (hm' : read m' txdescOffset wlanHdrA3Len = read m txdescOffset wlanHdrA3Len) :
      read (write m' (txdescOffset + 1) [x]) txdescOffset wlanHdrA3Len = protectedHdr w := by
    rw [hw]
    exact read_protectedHdr hlen hm' x hx
  have hm₁fc : m₁ (txdescOffset + 1) = m (txdescOffset + 1) := by
    rw [← hm₁]
    exact write_of_lt (by omega)
  have hm₂ : read (write m₁ (txdescOffset + 1) [m₁ (txdescOffset + 1) ||| 0x40]) txdescOffset
      p.hdrlen = protectedHdr w := by
    rw [hhdrlen]
    exact hprotected _ (by rw [hm₁fc]) hhdr
  have hm₂fc : write m₁ (txdescOffset + 1) [m₁ (txdescOffset + 1) ||| 0x40] (txdescOffset + 1) =
      m (txdescOffset + 1) ||| 0x40 := by
    rw [hm₁fc]
    exact write_singleton_self
  refine read_sealFragment hm₂ ?_ ?_ ?_ ?_ ?_
  · show read (write m₁ (txdescOffset + 1) _) (txdescOffset + p.hdrlen) 8 = _
    rw [read_write_of_disjoint (.inr (by simp; omega)), ← hm₁, List.append_assoc, Nat.zero_add]
    exact (read_write_part (k := 0) (by simp)).trans (List.take_left' (length_aesIv _ _))
  · intro m' (hm' : read m' txdescOffset p.hdrlen = protectedHdr w)
    show read (write m' (txdescOffset + 1)
      [write m₁ (txdescOffset + 1) [m₁ (txdescOffset + 1) ||| 0x40] (txdescOffset + 1) ||| 0x40])
      txdescOffset p.hdrlen = _
    have htwice (x : UInt8) : x ||| 0x40 ||| 0x40 = x ||| 0x40 := by
      rw [UInt8.or_assoc, UInt8.or_self]
    have hset : protectedHdr w = (read m txdescOffset wlanHdrA3Len).set 1
        (m (txdescOffset + 1) ||| 0x40) := by
      rw [← hprotected _ rfl rfl, read_write_singleton]
    rw [hm₂fc, read_write_singleton, hm', htwice, hset, List.set_set]
  · show 2 ≤ p.hdrlen
    omega
  · show c.encipher enc _ p.ta (protectedHdr w) _
      (read (write m₁ (txdescOffset + 1) _) (txdescOffset + p.hdrlen + 8)
        (p.pktlen + 8 + icvLen - p.hdrlen - 8 - icvLen)) = _
    have hlen : p.pktlen + 8 + icvLen - p.hdrlen - 8 - icvLen = p.pktlen - p.hdrlen := by omega
    have hdata : read m₁ (txdescOffset + p.hdrlen + 8) (p.pktlen - p.hdrlen) =
        w.drop wlanHdrA3Len := by
      rw [← hm₁, Nat.zero_add, List.append_assoc, read_write_part (by simp),
        List.drop_left' (length_aesIv _ _), List.take_left' (length_read _ _ _), hw, ← hhdrlen,
        drop_read (by omega)]
    rw [hlen, read_write_of_disjoint (.inr (by simp; omega)), hdata, ← hbody, hkey]
    congr 1
    exact swKey_of_isAead haead
  · show p.pktlen + 8 + icvLen = p.hdrlen + 8 + body.length
    omega

theorem tsc_eq_zero {pn i : ℕ} (hpn : pn < 2 ^ 48) (hi : 6 ≤ i) : tsc pn i = 0 := by
  have hle : 2 ^ 48 ≤ 256 ^ i := by
    calc 2 ^ 48 = 256 ^ 6 := by norm_num
      _ ≤ 256 ^ i := Nat.pow_le_pow_right (by norm_num) hi
  rw [tsc, Nat.div_eq_of_lt (lt_of_lt_of_le hpn hle)]
  rfl

theorem length_mmeHead (sec : SecurityPriv) (pn : ℕ) : (mmeHead sec pn).length = 10 := by
  simp [mmeHead]

/-- The element that is written has no code yet. -/
theorem mmeCont_eq (sec : SecurityPriv) {pn : ℕ} (hpn : pn < 2 ^ 48) :
    76 :: UInt8.ofNat (mmeCont sec pn).length :: mmeCont sec pn =
      mmeHead sec pn ++ List.replicate (bipMicLen sec) 0 := by
  have h6 : tsc pn 6 = 0 := tsc_eq_zero hpn le_rfl
  have h7 : tsc pn 7 = 0 := tsc_eq_zero hpn (by norm_num)
  unfold mmeCont mmeHead bipMicLen
  simp only [List.range_succ, List.range_zero, List.nil_append, List.map_append, List.map_cons,
    List.map_nil, h6, h7]
  split_ifs <;> rfl

theorem length_mmeCont (sec : SecurityPriv) (pn : ℕ) :
    (mmeCont sec pn).length = 8 + bipMicLen sec := by
  unfold mmeCont bipMicLen
  split_ifs <;> simp

theorem bipData_read (m : Mem) (pframe : ℕ) {n : ℕ} (hn : wlanHdrA3Len ≤ n) :
    bipFrameCtrl m pframe ++ read m (pframe + 4) 18 ++
        read m (pframe + wlanHdrA3Len) (n - wlanHdrA3Len) =
      bipData (read m pframe n) := by
  have h24 : wlanHdrA3Len = 24 := rfl
  have hu8 (i : ℕ) (hi : i < 24) : Bytes.u8 (read m pframe n) i = m (pframe + i) := by
    rw [Bytes.u8, List.getD_eq_getElem _ _ (by rw [length_read]; omega), getElem_read]
  rw [bipData, hu8 0 (by norm_num), hu8 1 (by norm_num), drop_read (by omega), drop_read hn,
    take_read (by omega)]
  rfl

theorem bipProtect_leaves {mic w : Bytes} (hfrags : p.nrFrags = 1) (hlen : wlanHdrA3Len ≤ p.pktlen)
    (hw : w = read m txdescOffset p.pktlen) (hkey : a.securitypriv.binstallBIPkey = true)
    (hpn : a.securitypriv.dot11wBIPtxpn + 1 < 2 ^ 48)
    (hmic : bipMic c a.securitypriv (a.securitypriv.dot11wBIPtxpn + 1) w = some mic) :
    Leaves p (bipProtect c a m txdescOffset p)
      (w ++ mmeHead a.securitypriv (a.securitypriv.dot11wBIPtxpn + 1) ++
        octets mic (bipMicLen a.securitypriv)) := by
  generalize hsec : a.securitypriv = sec at *
  obtain ⟨pn, hpnEq⟩ : ∃ pn, sec.dot11wBIPtxpn + 1 = pn := ⟨_, rfl⟩
  rw [hpnEq] at hpn hmic ⊢
  have hmod : (sec.dot11wBIPtxpn + 1) % 2 ^ 64 = pn := by
    rw [hpnEq]
    exact Nat.mod_eq_of_lt (hpn.trans (by norm_num))
  have hcont := mmeCont_eq sec hpn
  have hlenCont := length_mmeCont sec pn
  rw [hlenCont] at hcont
  have hlenHead := length_mmeHead sec pn
  have hlenW : w.length = p.pktlen := by rw [hw, length_read]
  have hmicLe : bipMicLen sec ≤ 16 := by
    unfold bipMicLen
    split_ifs <;> norm_num
  -- what stands in the buffer behind the frame
  have hblock (tail : Bytes) (htail : tail.length = bipMicLen sec) :
      read (write m (txdescOffset + p.pktlen) (mmeHead sec pn ++ tail)) txdescOffset
        (p.pktlen + (8 + bipMicLen sec) + 2) = w ++ mmeHead sec pn ++ tail := by
    have hsum :
        p.pktlen + (8 + bipMicLen sec) + 2 = p.pktlen + (mmeHead sec pn ++ tail).length := by
      rw [List.length_append, hlenHead, htail]
      omega
    rw [hsum, read_add, read_write, read_write_of_disjoint (.inl le_rfl), ← hw, List.append_assoc]
  have hzeroed := hblock (List.replicate (bipMicLen sec) 0) List.length_replicate
  have hdata := bipData_read (write m (txdescOffset + p.pktlen)
    (mmeHead sec pn ++ List.replicate (bipMicLen sec) 0)) txdescOffset
    (show wlanHdrA3Len ≤ p.pktlen + (8 + bipMicLen sec) + 2 by omega)
  rw [hzeroed] at hdata
  rw [bipMic, bipFrame] at hmic
  simp only [bipProtect, hsec, hkey, if_true, hmod, hcont, hlenCont, hzeroed, hdata, hmic]
  have hsel : (if sec.dot11wCipher = .bipCmac128 then 8 else 16) = bipMicLen sec := rfl
  refine ⟨rfl, ?_, hfrags, rfl, ?_⟩
  · show read (write _ (txdescOffset + (p.pktlen + (8 + bipMicLen sec) + 2) -
      (if sec.dot11wCipher = .bipCmac128 then 8 else 16)) _) txdescOffset
        (p.pktlen + (8 + bipMicLen sec) + 2) = _
    rw [hsel, write_write_suffix (by rw [hlenHead]; omega) (by simp)]
    exact hblock _ (length_octets _ _)
  · show p.pktlen + (8 + bipMicLen sec) + 2 ≤ p.pktlen + 26
    omega

theorem header_read {start n : ℕ} (hn : wlanHdrA3Len ≤ n) :
    getFrameSubType (read m start n) = getFrameSubType (read m start wlanHdrA3Len) ∧
      getAddr1 (read m start n) = getAddr1 (read m start wlanHdrA3Len) ∧
      getAddr2 (read m start n) = getAddr2 (read m start wlanHdrA3Len) := by
  have h24 : wlanHdrA3Len = 24 := rfl
  have hu8 (i : ℕ) (hi : i < 24) :
      Bytes.u8 (read m start n) i = Bytes.u8 (read m start wlanHdrA3Len) i := by
    rw [u8_read (by omega), u8_read (by omega)]
  refine ⟨?_, ?_, ?_⟩
  · simp only [getFrameSubType, frameCtrl, Bytes.le16, hu8 0 (by norm_num), hu8 1 (by norm_num)]
  · simp only [getAddr1, Bytes.mac, hu8 4 (by norm_num), hu8 5 (by norm_num), hu8 6 (by norm_num),
      hu8 7 (by norm_num), hu8 8 (by norm_num), hu8 9 (by norm_num)]
  · simp only [getAddr2, Bytes.mac, hu8 10 (by norm_num), hu8 11 (by norm_num),
      hu8 12 (by norm_num), hu8 13 (by norm_num), hu8 14 (by norm_num), hu8 15 (by norm_num)]

theorem coalesce_of_kind (h : Handed) (zmalloc : Bool) (p : PktAttrib) :
    rtwMgmtXmitframeCoalesce c zmalloc h.adapter h.mem 0 p =
      if robustMgmt h.kind then
        if p.ra.isMcast then
          groupProtect c zmalloc h.adapter h.mem 0 p (groupPrivacyAction h.kind)
        else unicastProtect c zmalloc h.adapter h.mem 0 p
      else ⟨true, h.mem, h.adapter, p, none⟩ := by
  have hsubtype : getFrameSubType (read h.mem txdescOffset wlanHdrA3Len) =
      getFrameSubType h.kind := (header_read (Nat.le_succ _)).1.symm
  have hcategory : (h.mem (txdescOffset + wlanHdrA3Len)).toNat = mgmtCategory h.kind := by
    rw [mgmtCategory, Handed.kind, u8_read (Nat.lt_succ_self _)]
  unfold rtwMgmtXmitframeCoalesce
  simp only [Nat.zero_add, hsubtype, hcategory]
  rw [← robustMgmt, ← groupPrivacyAction]
  cases robustMgmt h.kind <;> rfl

def Handed.attrib (h : Handed) : PktAttrib :=
  updateMgntframeAttrib h.adapter h.mem 0 h.pktlen h.keyType

theorem Handed.attrib_ra (h : Handed) : h.attrib.ra = getAddr1 h.kind := by
  rw [Handed.kind, (header_read (Nat.le_succ _)).2.1]
  show getAddr1 (read h.mem (0 + txdescOffset) wlanHdrA3Len) = _
  rw [Nat.zero_add]

theorem Handed.attrib_ta (h : Handed) : h.attrib.ta = getAddr2 h.kind := by
  rw [Handed.kind, (header_read (Nat.le_succ _)).2.2]
  show getAddr2 (read h.mem (0 + txdescOffset) wlanHdrA3Len) = _
  rw [Nat.zero_add]

theorem Handed.getAddr2_frame (h : Handed) (hlen : wlanHdrA3Len ≤ h.pktlen) :
    getAddr2 h.frame = getAddr2 h.kind := by
  rw [Handed.frame, Handed.kind, (header_read hlen).2.2, (header_read (Nat.le_succ _)).2.2]

theorem CanSeal.leaves {enc : SecurityType} {key : Bytes} {psta : StaInfo} {kid : ℕ}
    {p : PktAttrib} (hseal : CanSeal c h enc key psta.dot11txpn kid)
    (hlen : wlanHdrA3Len ≤ h.pktlen)
    (hp : p = { h.attrib with dot118021xUncstKey := p.dot118021xUncstKey })
    (hkey : key = if (getAddr1 h.kind).isMcast then h.adapter.securitypriv.dot118021XGrpKey
      h.adapter.securitypriv.dot118021XGrpKeyid else p.dot118021xUncstKey) :
    ∃ out, Leaves p (aeadProtect c h.adapter h.mem 0 p psta enc kid) out ∧
      Encrypted c enc key h.frame out := by
  obtain ⟨hkeyType, hicv, hbody⟩ := hseal
  obtain ⟨body, hbody⟩ := Option.isSome_iff_exists.mp hbody
  have hra : p.ra = getAddr1 h.kind := by rw [hp, h.attrib_ra]
  have hta : p.ta = getAddr2 h.kind := by rw [hp, h.attrib_ta]
  have hpktlen : p.pktlen = h.pktlen := by rw [hp]; rfl
  refine ⟨_, aeadProtect_leaves (by rw [hp]; rfl) (by rw [hp]; rfl) (hpktlen ▸ hlen)
    (w := h.frame) (by rw [hpktlen]; rfl) (by rw [hp]; exact hkeyType) hicv (hra ▸ hkey)
    (hta ▸ hbody), _, body, length_aesIv _ _, ?_, rfl⟩
  rw [h.getAddr2_frame hlen]
  exact hbody

/-- **What the protection leaves** of a robust frame, if it can succeed. -/
theorem coalesce_protects {zmalloc : Bool} (hlen : wlanHdrA3Len ≤ h.pktlen)
    (hbip : h.adapter.securitypriv.binstallBIPkey = true) (hrobust : robustMgmt h.kind = true)
    (hok : ProtectOk c h zmalloc) :
    ∃ out, Leaves h.attrib (rtwMgmtXmitframeCoalesce c zmalloc h.adapter h.mem 0 h.attrib) out ∧
      ProtectedAs c h out := by
  rw [coalesce_of_kind, if_pos hrobust, h.attrib_ra]
  unfold ProtectedAs ProtectOk at *
  dsimp only
  split_ifs at hok ⊢ with hmcast hprivacy
  · obtain ⟨rfl, hgroup⟩ := hok
    simp only [GroupOk, hprivacy, if_true] at hgroup
    obtain ⟨hkey, psta, hsta, hseal⟩ := hgroup
    rw [Option.mem_def, ← h.attrib_ra] at hsta
    simp only [groupProtect, Bool.not_true, Bool.false_eq_true, if_false, hprivacy, hsta, hkey,
      if_true]
    exact hseal.leaves hlen rfl (if_pos hmcast).symm
  · obtain ⟨rfl, hgroup⟩ := hok
    simp only [GroupOk, hprivacy, if_false, Bool.false_eq_true] at hgroup
    obtain ⟨hpn, hmic⟩ := hgroup
    obtain ⟨mic, hmic⟩ := Option.isSome_iff_exists.mp hmic
    simp only [groupProtect, Bool.not_true, Bool.false_eq_true, if_false, hprivacy, Bool.not_false,
      if_true, Nat.zero_add]
    exact ⟨_, bipProtect_leaves rfl hlen rfl hbip hpn hmic, _, mic, hpn, hmic, rfl⟩
  · obtain ⟨psta, hsta, hmfp⟩ := hok
    rw [Option.mem_def] at hsta
    have hstaAttrib : rtwGetStainfo h.adapter h.attrib.ra = some psta := by rw [h.attrib_ra, hsta]
    simp only [unicastProtect, hstaAttrib]
    cases hpsta : psta.mfp with
    | false =>
      refine ⟨_, ⟨rfl, rfl, rfl, rfl, Nat.le_add_right _ _⟩, fun psta' hsta' hmfp' => ?_⟩
      obtain rfl := Option.some.inj (hsta.symm.trans hsta')
      rw [hpsta] at hmfp'
      exact absurd hmfp' Bool.false_ne_true
    | true =>
      obtain ⟨hinstalled, rfl, hkeyType, hseal⟩ := hmfp hpsta
      have hright : h.attrib.keyType = .rightKey := hkeyType
      have huncst : unicastKey psta h.attrib.keyType = psta.pairwiseKey := by
        rw [unicastKey, hright]
        rfl
      simp only [hinstalled, Bool.not_true, Bool.or_self, Bool.false_eq_true, if_false, huncst]
      obtain ⟨out, hleaves, hencrypted⟩ := hseal.leaves
        (p := { h.attrib with dot118021xUncstKey := psta.pairwiseKey }) hlen rfl
        (if_neg hmcast).symm
      refine ⟨out, ⟨hleaves.1, hleaves.2, hleaves.3, hleaves.4, hleaves.5⟩,
        fun psta' hsta' _ _ => ?_⟩
      obtain rfl := Option.some.inj (hsta.symm.trans hsta')
      exact hencrypted

end Protection

section Steps

variable {hal : TxHal} {c : TxCrypto} {w w' : MgntWorld} {x : MgntFrame}

structure MgntFrame.Ready (c : TxCrypto) (x : MgntFrame) : Prop where
  nrFrags : x.attrib.nrFrags = 1
  qsel : x.attrib.qsel ≠ qselH2cCmd
  len : x.attrib.lastTxcmdsz + 56 < 2 ^ 32
  protectedAs : x.handed.adapter.securitypriv.binstallBIPkey = true →
    robustMgmt x.handed.kind = true →
    ProtectedAs c x.handed (read x.mem txdescOffset x.attrib.lastTxcmdsz)

structure MgntInv (c : TxCrypto) (w : MgntWorld) : Prop where
  sent : MgntProtected c w
  waiting : ∀ x ∈ w.mgmtQueue, x.Ready c

theorem MgntInv.dump (h : MgntInv c w) (hx : x.Ready c) (accepted : Bool) :
    MgntInv c (w.dump hal x accepted) := by
  unfold MgntWorld.dump
  split_ifs
  · refine ⟨⟨fun y hy => ?_, h.sent.refused⟩, h.waiting⟩
    rcases List.mem_append.mp hy with hy | hy
    · exact h.sent.written y hy
    · obtain rfl := List.mem_singleton.mp hy
      intro hbip hrobust
      have hpacket := dumpFragment_whole hal w.adapter x.pxmitbuf
        { attrib := x.attrib } x.mem hx.qsel hx.nrFrags rfl hx.len
      rw [hpacket]
      exact hx.protectedAs hbip hrobust
  · exact ⟨⟨h.sent.written, h.sent.refused⟩, h.waiting⟩

theorem protectMgnt_ready {zmalloc : Bool} (h : Handed) (id pxmitbuf : ℕ)
    (hlen : wlanHdrA3Len ≤ h.pktlen) (hmax : txdescOffset + h.pktlen ≤ maxXmitExtbufSz)
    (hok : h.adapter.securitypriv.binstallBIPkey = true → robustMgmt h.kind = true →
      ProtectOk c h zmalloc) :
    let r := protectMgnt c zmalloc h.adapter h.mem h.attrib
    r.res = true ∧ MgntFrame.Ready c ⟨id, pxmitbuf, r.mem, r.attrib, h⟩ := by
  have hmax' : h.pktlen ≤ 4096 := le_trans (Nat.le_add_left _ _) hmax
  have hplain (hnot : ¬ (h.adapter.securitypriv.binstallBIPkey = true ∧
      robustMgmt h.kind = true)) : MgntFrame.Ready c ⟨id, pxmitbuf, h.mem, h.attrib, h⟩ := by
    refine ⟨rfl, ?_, ?_, fun hbip hrobust => absurd ⟨hbip, hrobust⟩ hnot⟩
    · show (0x12 : ℕ) ≠ 0x13
      decide
    · show h.pktlen + 56 < 2 ^ 32
      omega
  unfold protectMgnt
  dsimp only
  split_ifs with hbip
  · cases hrobust : robustMgmt h.kind with
    | false =>
      rw [coalesce_of_kind, hrobust]
      exact ⟨rfl, hplain fun hnot => Bool.false_ne_true (hrobust.symm.trans hnot.2)⟩
    | true =>
      obtain ⟨out, hleaves, hprotected⟩ := coalesce_protects hlen hbip hrobust (hok hbip hrobust)
      refine ⟨hleaves.res, hleaves.nrFrags, ?_, ?_, fun _ _ => ?_⟩
      · rw [hleaves.qsel]
        exact show (0x12 : ℕ) ≠ 0x13 by decide
      · have hle := hleaves.lastTxcmdsz
        have hpktlen : h.attrib.pktlen = h.pktlen := rfl
        show (rtwMgmtXmitframeCoalesce c zmalloc h.adapter h.mem 0 h.attrib).attrib.lastTxcmdsz +
          56 < 2 ^ 32
        omega
      · rw [hleaves.out]
        exact hprotected
  · exact ⟨rfl, hplain fun hnot => hbip hnot.1⟩

theorem MgntInv.send {m : Mem} {pktlen : ℕ} {keyType : KeyType} {cannotRun zmalloc accepted : Bool}
    (h : MgntInv c w) (hok : SendOk c w (.send m pktlen keyType cannotRun zmalloc accepted))
    (hstep : mgntStep hal c w (.send m pktlen keyType cannotRun zmalloc accepted) = some w') :
    MgntInv c w' := by
  simp only [mgntStep] at hstep
  split_ifs at hstep with henabled
  split at hstep
  swap
  · obtain rfl := Option.some.inj hstep
    exact h
  obtain rfl := Option.some.inj hstep
  unfold dumpMgntframe
  split_ifs with hrun
  · exact ⟨⟨h.sent.written, h.sent.refused⟩, h.waiting⟩
  rename_i id frames pxmitbuf bufs _ _
  obtain ⟨hres, hready⟩ := protectMgnt_ready ⟨w.adapter, m, pktlen, keyType⟩ id pxmitbuf
    henabled.1 henabled.2
    (hok (Bool.eq_false_of_not_eq_true hrun))
  unfold rtwHalMgntXmit
  dsimp only [Handed.attrib] at hres hready ⊢
  rw [if_pos hres]
  split_ifs
  · refine ⟨⟨h.sent.written, h.sent.refused⟩, fun x hx => ?_⟩
    rcases List.mem_append.mp hx with hx | hx
    · exact h.waiting x hx
    · rw [List.mem_singleton.mp hx]
      exact hready
  · refine MgntInv.dump ?_ hready accepted
    exact ⟨⟨h.sent.written, h.sent.refused⟩, h.waiting⟩

theorem MgntInv.step {e : MgntEvent} (h : MgntInv c w) (hok : SendOk c w e)
    (hstep : mgntStep hal c w e = some w') : MgntInv c w' := by
  have hrest (i : ℕ) : MgntInv c { w with mgmtQueue := w.mgmtQueue.eraseIdx i } :=
    ⟨⟨h.sent.written, h.sent.refused⟩, fun x hx => h.waiting x (List.mem_of_mem_eraseIdx hx)⟩
  cases e with
  | send m pktlen keyType cannotRun zmalloc accepted => exact h.send hok hstep
  | deliver i accepted =>
    obtain ⟨x, hx, rfl⟩ := Option.map_eq_some_iff.mp hstep
    exact (hrest i).dump (h.waiting x (List.mem_of_getElem? hx)) accepted
  | free i =>
    obtain ⟨x, -, rfl⟩ := Option.map_eq_some_iff.mp hstep
    exact ⟨⟨h.sent.written, h.sent.refused⟩, (hrest i).waiting⟩
  | complete pxmitbuf =>
    simp only [mgntStep] at hstep
    split_ifs at hstep
    obtain rfl := Option.some.inj hstep
    exact ⟨⟨h.sent.written, h.sent.refused⟩, h.waiting⟩
  | configure a asleep =>
    obtain rfl := Option.some.inj hstep
    exact ⟨⟨h.sent.written, h.sent.refused⟩, h.waiting⟩

end Steps

open Transition

/-- **Robust frames are sent protected** in every run in which the protection of what is handed over
does not fail. -/
theorem mgntProtected_of_run {hal : TxHal} {c : TxCrypto} {a : Adapter} {frames bufs : List ℕ}
    {es : List MgntEvent} {w : MgntWorld}
    (hok : Meets (mgntStep hal c) (SendOk c)
      { adapter := a, freeXframeExtQueue := frames, freeXmitExtbufQueue := bufs } es)
    (hrun : run (mgntStep hal c)
      { adapter := a, freeXframeExtQueue := frames, freeXmitExtbufQueue := bufs } es = some w) :
    MgntProtected c w := by
  have hinv : MgntInv c w :=
    run_invariant_of_meets (fun _ _ _ h hok hstep => h.step hok hstep)
      ⟨⟨by simp, by simp⟩, by simp⟩ hok hrun
  exact hinv.sent

instance GroupOk.decidable (c : TxCrypto) (h : Handed) : Decidable (GroupOk c h) :=
  inferInstanceAs (Decidable (if groupPrivacyAction h.kind then _ else _))

instance StationOk.decidable (c : TxCrypto) (h : Handed) (zmalloc : Bool) :
    Decidable (StationOk c h zmalloc) :=
  inferInstanceAs (Decidable (∃ psta ∈ rtwGetStainfo h.adapter (getAddr1 h.kind), _))

instance ProtectOk.decidable (c : TxCrypto) (h : Handed) (zmalloc : Bool) :
    Decidable (ProtectOk c h zmalloc) :=
  inferInstanceAs (Decidable (if (getAddr1 h.kind).isMcast then _ else _))

instance SendOk.decidable (c : TxCrypto) (w : MgntWorld) : ∀ e, Decidable (SendOk c w e)
  | .send _ _ _ _ _ _ => inferInstanceAs (Decidable (_ → _ → _ → _))
  | .deliver _ _ => isTrue trivial
  | .free _ => isTrue trivial
  | .complete _ => isTrue trivial
  | .configure _ _ => isTrue trivial

/-- The octet with the Protected bit. -/
theorem Encrypted.privacy {c : TxCrypto} {enc : SecurityType} {key w out : Bytes}
    (h : Encrypted c enc key w out) (hlen : wlanHdrA3Len ≤ w.length) :
    out.u8 1 = w.u8 1 ||| 0x40 := by
  obtain ⟨iv, body, -, -, rfl⟩ := h
  have hhdr : (protectedHdr w).length = wlanHdrA3Len := by
    simp only [protectedHdr, List.length_set, List.length_take]
    omega
  have hlt : 1 < (protectedHdr w).length := by
    rw [hhdr]
    decide
  rw [List.append_assoc, Bytes.u8, List.getD_append _ _ _ _ hlt, List.getD_eq_getElem _ _ hlt]
  simp [protectedHdr]

/-- A deauthentication frame to a station with its key. -/
theorem mgntProtected_deauth : ∃ w,
    run (mgntStep {} nullCrypto)
        { adapter := ccmpAdapter 2346, freeXframeExtQueue := [0], freeXmitExtbufQueue := [0] }
        [.send deauthMem 26 .rightKey false true true, .complete 0] = some w ∧
      w.written.map (·.2.packet.length) = [42] ∧ MgntProtected nullCrypto w := by
  obtain ⟨w, hrun, hlength⟩ : ∃ w,
      run (mgntStep {} nullCrypto)
          { adapter := ccmpAdapter 2346, freeXframeExtQueue := [0], freeXmitExtbufQueue := [0] }
          [.send deauthMem 26 .rightKey false true true, .complete 0] = some w ∧
        w.written.map (·.2.packet.length) = [42] :=
    exists_run_of_any (by decide +kernel)
  exact ⟨w, hrun, hlength, mgntProtected_of_run (by decide +kernel) hrun⟩

/-- An adapter whose station has management frame protection and not yet its pairwise key. -/
def keylessAdapter : Adapter :=
  { ccmpAdapter 2346 with
    stations := fun addr =>
      if addr = apAddr then some { dot118021XPrivacy := .aes, mfp := true } else none }

/-- **A robust frame is sent in the clear**: a deauthentication to a station without its pairwise
key. -/
theorem not_mgntProtected :
    ¬ ∀ (hal : TxHal) (c : TxCrypto) (a : Adapter) (frames bufs : List ℕ) (es : List MgntEvent)
        (w : MgntWorld), run (mgntStep hal c)
          { adapter := a, freeXframeExtQueue := frames, freeXmitExtbufQueue := bufs } es = some w →
      MgntProtected c w := by
  intro hclaim
  obtain ⟨w, hrun, x, hx, psta, hclear⟩ : ∃ w,
      run (mgntStep {} nullCrypto)
          { adapter := keylessAdapter, freeXframeExtQueue := [0], freeXmitExtbufQueue := [0] }
          [.send deauthMem 26 .rightKey false true true] = some w ∧
        ∃ x ∈ w.written, ∃ psta ∈ rtwGetStainfo x.1.adapter (getAddr1 x.1.kind),
          psta.mfp = true ∧ x.1.adapter.securitypriv.binstallBIPkey = true ∧
          robustMgmt x.1.kind = true ∧ ¬ (getAddr1 x.1.kind).isMcast = true ∧
          x.1.keyType ≠ .noKey ∧ wlanHdrA3Len ≤ x.1.frame.length ∧
          x.2.packet.u8 1 ≠ x.1.frame.u8 1 ||| 0x40 :=
    exists_run_of_any (by decide +kernel)
  obtain ⟨hsta, hmfp, hbip, hrobust, hmcast, hkeyType, hlen, hu8⟩ := hclear
  have hprotected := (hclaim _ _ _ _ _ _ w hrun).written x hx hbip hrobust
  simp only [ProtectedAs, if_neg hmcast] at hprotected
  exact hu8 ((hprotected psta hsta hmfp hkeyType).privacy hlen)

end Rtl88x2eu.Xmit
