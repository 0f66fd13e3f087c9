import Rtl88x2eu.Recv.Reorder
import Rtl88x2eu.Xmit.State

/-!
# Building a frame in its transmit buffer

`rtw_xmitframe_coalesce` writes the fragments of a frame into the buffer: the header, the
initialisation vector that the attributes carry, the data, and room for the tag. The software
ciphers then walk over the fragments, with strides of their own. Addresses are counted from the
start of the buffer, which is aligned to 512 octets.

## Main definitions

* `TxCrypto`
* `rtwMakeWlanhdr`, `coalesceLoop`, `xmitframeAddmic`, `xmitframeSwencrypt`
* `rtwXmitframeCoalesce`, `OneFragment`

## Main results

* `rtwXmitframeCoalesce_isSome`: the loop over the fragments ends
* `coalesce_one`: a frame that is not cut
-/

namespace Rtl88x2eu.Xmit

open Memory

/-- The octets of a transmit buffer. -/
abbrev Mem := ℕ → UInt8

/-- The ciphers. A software cipher may fail for want of memory; else it puts the ciphertext and the
tag in the place of the data. -/
structure TxCrypto where
  /-- Cipher, key, transmitter, header, initialisation vector, data. -/
  encipher : SecurityType → Bytes → MacAddr → Bytes → Bytes → Bytes → Option Bytes
  length_encipher : ∀ {enc key ta hdr iv data body}, encipher enc key ta hdr iv data = some body →
    body.length = data.length + enc.icvLen
  /-- The Michael code under a key. -/
  secmic : Bytes → Bytes → Bytes
  length_secmic : ∀ key data, (secmic key data).length = 8
  /-- `rtw_calculate_bip_mic`: cipher, frame, key, protected data. -/
  calculateBipMic : SecurityType → Bytes → Bytes → Bytes → Option Bytes

/-! ## Sizes -/

def txdescSize : ℕ := 48

def packetOffsetSz : ℕ := 8

def wlanhdrOffset : ℕ := 64

def rnd4 (x : ℕ) : ℕ := (x / 4 + if x % 4 = 0 then 0 else 1) * 4

def rnd8 (x : ℕ) : ℕ := (x / 8 + if x % 8 = 0 then 0 else 1) * 8

def hwHdrOffset (f : XmitFrame) : ℕ := txdescSize + f.pktOffset * packetOffsetSz

def octets (p : Bytes) (n : ℕ) : Bytes := read p.u8 0 n

@[simp] theorem length_octets (p : Bytes) (n : ℕ) : (octets p n).length = n := length_read _ _ _

theorem u8_read {m : Mem} {start n i : ℕ} (hi : i < n) :
    Bytes.u8 (read m start n) i = m (start + i) := by
  rw [Bytes.u8, List.getD_eq_getElem _ _ (by rwa [length_read]), getElem_read]

/-- ToDS and FromDS, the three addresses, and whether there is a QoS control field. -/
def hdrAddresses (a : Adapter) (p : PktAttrib) : Option (ℕ × Bytes × Bool) :=
  match a.fwState with
  | .station => some (0x100, a.bssid.toBytes ++ p.ta.toBytes ++ p.dst.toBytes, a.qosOption)
  | .ap => some (0x200, p.dst.toBytes ++ a.bssid.toBytes ++ p.src.toBytes, p.qosEn)
  | .adhoc => some (0, p.dst.toBytes ++ p.ta.toBytes ++ a.bssid.toBytes, p.qosEn)
  | .none => none

def numberFrame (a : Adapter) (p : PktAttrib) : Option (PktAttrib × Adapter) :=
  (rtwGetStainfo a p.ra).bind fun psta =>
    if p.psta = some (staKey p.ra) ∧ psta.asoc then
      let seqnum := (psta.txseqTid p.priority + 1) % 4096
      let psta := { psta with txseqTid := Function.update psta.txseqTid p.priority seqnum }
      let p := { p with seqnum := seqnum }
      let tid := p.priority % 16
      if p.ampduEn then
        if snLess seqnum (psta.baStartingSeqctrl tid) then
          some ({ p with ampduEn := false }, a.setSta (staKey p.ra) psta)
        else
          some (p, a.setSta (staKey p.ra) { psta with
            baStartingSeqctrl :=
              Function.update psta.baStartingSeqctrl tid ((seqnum + 1) % 4096) })
      else some (p, a.setSta (staKey p.ra) psta)
    else none

def setSeqNum (m : Mem) (hdr num : ℕ) : Mem :=
  write m (hdr + 22) [m (hdr + 22) &&& 0x0f ||| UInt8.ofNat (num % 16 * 16), UInt8.ofNat (num / 16)]

def putHdr (m : Mem) (hdr : ℕ) (p : PktAttrib) (ds : ℕ) (addresses : Bytes) (qosOption : Bool) :
    Mem :=
  let mdata := if p.mdata then 0x2000 else 0
  let privacy := if p.encrypt = .noPrivacy then 0 else 0x4000
  let m := write m hdr (Bytes.ofLe16 (p.subtype ||| ds ||| mdata ||| privacy))
  let m := write m (hdr + 4) addresses
  let qc := p.priority % 16 + 16 * p.eosp.toNat + 32 * (p.ackPolicy % 4)
  if qosOption then write m (hdr + p.hdrlen - 2) (Bytes.ofLe16 qc) else m

def rtwMakeWlanhdr (a : Adapter) (m : Mem) (hdr : ℕ) (p : PktAttrib) :
    Option (PktAttrib × Adapter) × Mem :=
  let m := write m hdr (List.replicate wlanhdrOffset 0)
  let m := write m hdr (Bytes.ofLe16 p.subtype)
  if p.subtype.testBit 3 then
    match hdrAddresses a p with
    | none => (none, m)
    | some (ds, addresses, qosOption) =>
      let m := putHdr m hdr p ds addresses qosOption
      match numberFrame a p with
      | none => (none, m)
      | some (p, a) => (some (p, a), setSeqNum m hdr p.seqnum)
  else (some (p, a), m)

/-! ## The fragments -/

structure Fragment where
  start : ℕ
  len : ℕ
deriving DecidableEq, Repr

def setMFrag (m : Mem) (a : ℕ) : Mem := write m (a + 1) [m (a + 1) ||| 0x04]

def clearMFrag (m : Mem) (a : ℕ) : Mem := write m (a + 1) [m (a + 1) &&& 0xfb]

def putSnap (hProto : ℕ) : Bytes :=
  let oui := if hProto = 0x8137 ∨ hProto = 0x80f3 then 0xf8 else 0
  [0xaa, 0xaa, 0x03, 0, 0, oui] ++ Bytes.ofBe16 hProto

@[simp] theorem length_putSnap (hProto : ℕ) : (putSnap hProto).length = 8 := rfl

def icvRoom (p : PktAttrib) : ℕ := if p.bswenc then p.icvLen else 0

/-- `mpdu_len` when the data is read, unsigned as `_rtw_pktfile_read` takes it. -/
def mpduLen (a : Adapter) (p : PktAttrib) (first : Bool) : ℕ :=
  (((a.fragLen : ℤ) - 4 - p.hdrlen - p.ivLen - (if first then 8 else 0) - icvRoom p) %
    2 ^ 32).toNat

/-- The data of the next fragment: a frame to a group is not cut. -/
def chunk (a : Adapter) (p : PktAttrib) (first : Bool) (rest : Bytes) : Bytes :=
  rest.take (if p.ra.isMcast then p.pktlen else mpduLen a p first)

/-- What the loop over the fragments leaves. -/
structure Cut where
  mem : Mem
  nrFrags : ℕ
  lastTxcmdsz : ℕ
  frags : List Fragment

/-- The loop of `rtw_xmitframe_coalesce`: `memStart` is where the next fragment goes, `rest` what is
left of the packet, `frags` the fragments so far. -/
def coalesceLoop (a : Adapter) (f : XmitFrame) :
    ℕ → Mem → ℕ → ℕ → Bytes → List Fragment → Option Cut
  | 0, _, _, _, _, _ => none
  | fuel + 1, m, memStart, frgInx, rest, frags =>
    let p := f.attrib
    let llc := if frgInx = 0 then putSnap p.etherType else []
    let data := chunk a p (frgInx = 0) rest
    let body := octets p.iv p.ivLen ++ llc ++ data ++ octets p.icv (icvRoom p)
    let m := write (setMFrag m memStart) (memStart + p.hdrlen) body
    let stop := memStart + p.hdrlen + body.length
    let frags := frags ++ [⟨memStart, stop - memStart⟩]
    let rest := rest.drop data.length
    if p.ra.isMcast || rest.isEmpty then
      let nrFrags := (frgInx + 1) % 256
      some {
        mem := clearMFrag m memStart
        nrFrags := nrFrags
        lastTxcmdsz := p.hdrlen + p.ivLen + (if nrFrags = 1 then llc.length else 0) + icvRoom p +
          data.length
        frags := frags }
    else
      let next := rnd4 stop + hwHdrOffset f
      let hdr := read m (f.bufAddr + hwHdrOffset f) p.hdrlen
      coalesceLoop a f fuel (write m next hdr) next (frgInx + 1) rest frags

def micData (a : Adapter) (p : PktAttrib) (m : Mem) : ℕ → ℕ → Bytes × ℕ
  | 0, payload => ([], payload)
  | k + 1, payload =>
    let payload := rnd4 payload + p.hdrlen + p.ivLen
    if k = 0 then
      let length := p.lastTxcmdsz - p.hdrlen - p.ivLen - icvRoom p
      (read m payload length, payload + length)
    else
      let length := a.fragLen - p.hdrlen - p.ivLen - icvRoom p
      let (data, payload') := micData a p m k (payload + length + p.icvLen)
      (read m payload length ++ data, payload')

def micHeader (p : PktAttrib) (m : Mem) (pframe : ℕ) : Bytes :=
  let toDs := m (pframe + 1) &&& 1 != 0
  let frDs := m (pframe + 1) &&& 2 != 0
  let da := if toDs then 16 else 4
  let sa := if toDs then (if frDs then 24 else 10) else (if frDs then 16 else 10)
  read m (pframe + da) 6 ++ read m (pframe + sa) 6 ++
    [if p.qosEn then UInt8.ofNat p.priority else 0, 0, 0, 0]

def micKey (a : Adapter) (p : PktAttrib) : Bytes :=
  if p.ra.isMcast then a.securitypriv.dot118021XGrptxmickey a.securitypriv.dot118021XGrpKeyid
  else p.dot11tkiptxmickey

def xmitframeAddmic (c : TxCrypto) (a : Adapter) (m : Mem) (f : XmitFrame) :
    Option (Mem × PktAttrib) :=
  let p := f.attrib
  if p.encrypt = .tkip then
    if octets (micKey a p) 16 = List.replicate 16 0 then none
    else
      let pframe := f.bufAddr + hwHdrOffset f
      let (data, payload) := micData a p m p.nrFrags pframe
      some (write m payload (c.secmic (micKey a p) (micHeader p m pframe ++ data)),
        { p with lastTxcmdsz := p.lastTxcmdsz + 8 })
  else some (m, p)

def growLast (p : PktAttrib) : List Fragment → List Fragment
  | [] => []
  | [g] => [if p.encrypt = .tkip then { g with len := g.len + 8 } else g]
  | g :: gs => g :: growLast p gs

def swKey (a : Adapter) (p : PktAttrib) : Bytes :=
  let sec := a.securitypriv
  if p.encrypt = .wep40 || p.encrypt = .wep104 then sec.dot11DefKey sec.dot11PrivacyKeyIndex
  else if p.ra.isMcast then sec.dot118021XGrpKey sec.dot118021XGrpKeyid
  else p.dot118021xUncstKey

def sealFragment (c : TxCrypto) (a : Adapter) (p : PktAttrib) (m : Mem) (pframe length : ℕ) :
    Mem :=
  let data := pframe + p.hdrlen + p.ivLen
  match c.encipher p.encrypt (swKey a p) p.ta (read m pframe p.hdrlen)
    (read m (pframe + p.hdrlen) p.ivLen) (read m data length) with
  | none => m
  | some body =>
    let m :=
      if p.encrypt = .aes || p.encrypt = .ccmp256 then
        write m (pframe + 1) [m (pframe + 1) ||| 0x40]
      else m
    write m data body

/-- The loop that `rtw_wep_encrypt`, `rtw_tkip_encrypt`, `rtw_aes_encrypt` and `rtw_gcmp_encrypt`
share. -/
def encryptLoop (c : TxCrypto) (a : Adapter) (p : PktAttrib) : ℕ → ℕ → Mem → Mem
  | 0, _, m => m
  | k + 1, pframe, m =>
    if k = 0 then
      sealFragment c a p m pframe (p.lastTxcmdsz - p.hdrlen - p.ivLen - p.icvLen)
    else
      encryptLoop c a p k (rnd4 (pframe + a.fragLen))
        (sealFragment c a p m pframe (a.fragLen - p.hdrlen - p.ivLen - p.icvLen))

def xmitframeSwencrypt (c : TxCrypto) (a : Adapter) (m : Mem) (f : XmitFrame) : Mem :=
  if f.attrib.bswenc && txCipher f.attrib.encrypt then
    encryptLoop c a f.attrib f.attrib.nrFrags (f.bufAddr + hwHdrOffset f) m
  else m

/-- What `rtw_xmitframe_coalesce` leaves; `res` is what it returns. -/
structure Coalesced where
  res : Bool
  mem : Mem
  adapter : Adapter
  frame : XmitFrame
  frags : List Fragment

def coalesceFragments (c : TxCrypto) (a : Adapter) (m : Mem) (f : XmitFrame) : Option Coalesced :=
  let payload := f.pkt.drop f.attrib.pktHdrlen
  (coalesceLoop a f (payload.length + 2) m (f.bufAddr + hwHdrOffset f) 0 payload []).map fun cut =>
    let f := { f with
      attrib := { f.attrib with nrFrags := cut.nrFrags, lastTxcmdsz := cut.lastTxcmdsz } }
    match xmitframeAddmic c a cut.mem f with
    | none => ⟨false, cut.mem, a, f, cut.frags⟩
    | some (m, p) =>
      let f := { f with attrib := p }
      ⟨true, xmitframeSwencrypt c a m f, a, f, growLast p cut.frags⟩

/-- The buffer, the frame, and where its fragments stand. -/
def rtwXmitframeCoalesce (c : TxCrypto) (a : Adapter) (m : Mem) (f : XmitFrame) :
    Option Coalesced :=
  match rtwMakeWlanhdr a m (f.bufAddr + hwHdrOffset f) f.attrib with
  | (none, m) => some ⟨false, m, a, f, []⟩
  | (some (p, a), m) => coalesceFragments c a m { f with attrib := p }

/-- `rtw_calculate_wlan_pkt_size_by_attribue`: the size that is expected before a frame is built. -/
def wlanPktSize (p : PktAttrib) : ℕ :=
  p.hdrlen + p.ivLen + 8 + p.pktlen + (if p.encrypt = .tkip then 8 else 0) + icvRoom p

section Numbering

variable {a a' : Adapter} {p p' : PktAttrib} {m m' : Mem} {hdr : ℕ}

theorem numberFrame_some (h : numberFrame a p = some (p', a')) :
    p' = { p with seqnum := p'.seqnum, ampduEn := p'.ampduEn } ∧
      ∃ psta psta', rtwGetStainfo a p.ra = some psta ∧ a' = a.setSta (staKey p.ra) psta' ∧
        psta' = { psta with
          txseqTid := psta'.txseqTid, baStartingSeqctrl := psta'.baStartingSeqctrl } := by
  obtain ⟨psta, hsta, h⟩ := Option.bind_eq_some_iff.mp h
  dsimp only at h
  split_ifs at h
  all_goals
    obtain ⟨rfl, rfl⟩ := Prod.mk.inj (Option.some.inj h)
    exact ⟨rfl, psta, _, hsta, rfl, rfl⟩

def txpns (a : Adapter) (addr : MacAddr) : Option ℕ := (a.stations addr).map (·.dot11txpn)

/-- What a frame that is numbered and built leaves alone. -/
structure SameKeys (a a' : Adapter) : Prop where
  securitypriv : a'.securitypriv = a.securitypriv
  fragLen : a'.fragLen = a.fragLen
  stations : ∀ addr, (a'.stations addr).map (fun psta => { psta with
    txseqTid := fun _ => 0, baStartingSeqctrl := fun _ => 0 }) =
    (a.stations addr).map fun psta => { psta with
      txseqTid := fun _ => 0, baStartingSeqctrl := fun _ => 0 }

theorem SameKeys.refl (a : Adapter) : SameKeys a a := ⟨rfl, rfl, fun _ => rfl⟩

theorem numberFrame_sameKeys (h : numberFrame a p = some (p', a')) : SameKeys a a' := by
  obtain ⟨-, psta, psta', hsta, rfl, hpsta⟩ := numberFrame_some h
  refine ⟨rfl, rfl, fun addr => ?_⟩
  rw [Adapter.setSta_stations]
  split_ifs with haddr
  · subst haddr
    rw [rtwGetStainfo] at hsta
    rw [hsta, Option.map_some, Option.map_some, hpsta]
  · rfl

theorem putHdr_below (hhdrlen : 2 ≤ p.hdrlen) (ds : ℕ) (addresses : Bytes) (qosOption : Bool) :
    AgreeBelow hdr m (putHdr m hdr p ds addresses qosOption) := by
  have haddr (fc : Bytes) : AgreeBelow hdr m (write (write m hdr fc) (hdr + 4) addresses) :=
    (agreeBelow_write le_rfl).trans (agreeBelow_write (by omega))
  simp only [putHdr]
  cases qosOption
  · exact haddr _
  · exact (haddr _).trans (agreeBelow_write (by omega))

theorem rtwMakeWlanhdr_below (hhdrlen : 2 ≤ p.hdrlen) :
    AgreeBelow hdr m (rtwMakeWlanhdr a m hdr p).2 := by
  have hclear : AgreeBelow hdr m
      (write (write m hdr (List.replicate wlanhdrOffset 0)) hdr (Bytes.ofLe16 p.subtype)) :=
    (agreeBelow_write le_rfl).trans (agreeBelow_write le_rfl)
  simp only [rtwMakeWlanhdr]
  split_ifs
  · split
    · exact hclear
    · rename_i ds addresses qosOption _
      have hhdr := hclear.trans (putHdr_below hhdrlen ds addresses qosOption)
      split
      · exact hhdr
      · exact hhdr.trans (agreeBelow_write (by omega))
  · exact hclear

theorem rtwMakeWlanhdr_some (h : (rtwMakeWlanhdr a m hdr p).1 = some (p', a')) :
    p' = { p with seqnum := p'.seqnum, ampduEn := p'.ampduEn } ∧ SameKeys a a' := by
  simp only [rtwMakeWlanhdr] at h
  split_ifs at h
  · split at h
    · cases h
    · split at h
      · cases h
      · rename_i hnumber
        obtain ⟨rfl, rfl⟩ := Prod.mk.inj (Option.some.inj h)
        exact ⟨(numberFrame_some hnumber).1, numberFrame_sameKeys hnumber⟩
  · obtain ⟨rfl, rfl⟩ := Prod.mk.inj (Option.some.inj h)
    exact ⟨rfl, SameKeys.refl a⟩

end Numbering

/-! ## A frame that is not cut -/

/-- Where the first header stands. -/
def XmitFrame.memStart (f : XmitFrame) : ℕ := f.bufAddr + hwHdrOffset f

def XmitFrame.payload (f : XmitFrame) : Bytes := f.pkt.drop f.attrib.pktHdrlen

theorem Ready.length_payload {f : XmitFrame} (h : Ready f.attrib f.pkt) :
    f.payload.length = f.attrib.pktlen := by
  rw [XmitFrame.payload, List.length_drop, h.pktHdrlen, h.pktlen]

/-- **The frame is not cut**: it goes to a group, or its data fits into the first fragment. -/
def OneFragment (a : Adapter) (f : XmitFrame) : Prop :=
  f.attrib.ra.isMcast ∨ f.payload.length ≤ mpduLen a f.attrib true

instance OneFragment.decidable (a : Adapter) (f : XmitFrame) : Decidable (OneFragment a f) :=
  inferInstanceAs (Decidable (_ ∨ _))

structure Whole (m : Mem) (f : XmitFrame) (r : Coalesced) : Prop where
  frags : r.frags = [⟨f.memStart, wlanPktSize f.attrib⟩]
  frame : r.frame = { f with
    attrib := { f.attrib with
      seqnum := r.frame.attrib.seqnum, ampduEn := r.frame.attrib.ampduEn, nrFrags := 1
      lastTxcmdsz := wlanPktSize f.attrib } }
  below : AgreeBelow f.memStart m r.mem
  iv : read r.mem (f.memStart + f.attrib.hdrlen) f.attrib.ivLen =
    octets f.attrib.iv f.attrib.ivLen

section One

variable {c : TxCrypto} {a : Adapter} {m : Mem} {f : XmitFrame} {p : PktAttrib}

def wholeBody (p : PktAttrib) (payload : Bytes) : Bytes :=
  octets p.iv p.ivLen ++ putSnap p.etherType ++ payload ++ octets p.icv (icvRoom p)

theorem length_wholeBody (p : PktAttrib) (payload : Bytes) :
    (wholeBody p payload).length = p.ivLen + 8 + payload.length + icvRoom p := by
  simp [wholeBody, Nat.add_assoc]

theorem coalesceLoop_one {fuel start : ℕ} (hready : Ready f.attrib f.pkt)
    (hone : OneFragment a f) :
    coalesceLoop a f (fuel + 1) m start 0 f.payload [] = some {
      mem := clearMFrag (write (setMFrag m start) (start + f.attrib.hdrlen)
        (wholeBody f.attrib f.payload)) start
      nrFrags := 1
      lastTxcmdsz := f.attrib.hdrlen + f.attrib.ivLen + 8 + icvRoom f.attrib + f.attrib.pktlen
      frags := [⟨start, f.attrib.hdrlen + (wholeBody f.attrib f.payload).length⟩] } := by
  have hpktlen := hready.length_payload
  have htake : chunk a f.attrib true f.payload = f.payload := by
    apply List.take_of_length_le
    split_ifs with hmcast
    · exact hpktlen.le
    · exact hone.resolve_left hmcast
  simp only [coalesceLoop, eq_self, decide_true, htake, List.drop_length, List.isEmpty_nil,
    Bool.or_true, if_true, List.nil_append, length_putSnap, Nat.zero_add, Nat.one_mod]
  rw [← wholeBody, Nat.add_assoc start, Nat.add_sub_cancel_left, hpktlen]

theorem addmic_one {m' : Mem} (hone : f.attrib.nrFrags = 1)
    (hmic : xmitframeAddmic c a m f = some (m', p)) :
    ∃ mic pos, m' = write m pos mic ∧
      f.memStart + f.attrib.hdrlen + f.attrib.ivLen ≤ pos ∧
      p = { f.attrib with
        lastTxcmdsz := f.attrib.lastTxcmdsz + if f.attrib.encrypt = .tkip then 8 else 0 } := by
  have hle (x : ℕ) : x ≤ rnd4 x := by
    unfold rnd4
    split <;> omega
  simp only [xmitframeAddmic] at hmic
  split_ifs at hmic with htkip
  · obtain ⟨rfl, rfl⟩ := Prod.mk.inj (Option.some.inj hmic)
    refine ⟨_, _, rfl, ?_, ?_⟩
    · rw [hone]
      simp only [micData, if_true]
      have := hle (f.bufAddr + hwHdrOffset f)
      rw [XmitFrame.memStart]
      omega
    · rw [if_pos htkip]
  · obtain ⟨rfl, rfl⟩ := Prod.mk.inj (Option.some.inj hmic)
    refine ⟨[], _, (write_nil _ _).symm, le_rfl, ?_⟩
    rw [if_neg htkip, Nat.add_zero]

theorem sealFragment_frame (start len b n : ℕ) (hhdrlen : 2 ≤ p.hdrlen)
    (h : b + n ≤ start ∨ start + p.hdrlen ≤ b ∧ b + n ≤ start + p.hdrlen + p.ivLen) :
    read (sealFragment c a p m start len) b n = read m b n := by
  unfold sealFragment
  dsimp only
  split
  · rfl
  · rw [read_write_of_disjoint (by omega)]
    split
    · rw [read_write_of_disjoint (by simp; omega)]
    · rfl

theorem sealFragment_below {start len : ℕ} (hhdrlen : 2 ≤ p.hdrlen) :
    AgreeBelow start m (sealFragment c a p m start len) := by
  intro i hi
  have hread := sealFragment_frame (c := c) (a := a) (m := m) start len i 1 hhdrlen
    (.inl (by omega))
  simpa [Memory.read] using hread

theorem swencrypt_one (hone : f.attrib.nrFrags = 1) (hhdrlen : 2 ≤ f.attrib.hdrlen) :
    AgreeBelow f.memStart m (xmitframeSwencrypt c a m f) ∧
      read (xmitframeSwencrypt c a m f) (f.memStart + f.attrib.hdrlen) f.attrib.ivLen =
        read m (f.memStart + f.attrib.hdrlen) f.attrib.ivLen := by
  unfold xmitframeSwencrypt
  split_ifs
  · simp only [hone, encryptLoop, if_true]
    exact ⟨sealFragment_below hhdrlen, sealFragment_frame _ _ _ _ hhdrlen (.inr (by
      rw [XmitFrame.memStart]
      omega))⟩
  · exact ⟨AgreeBelow.refl _ _, rfl⟩

/-- The memory of a fragment as the loop leaves it. -/
theorem cut_one (hhdrlen : 2 ≤ f.attrib.hdrlen) (start : ℕ) (body : Bytes) :
    AgreeBelow start m (clearMFrag (write (setMFrag m start) (start + f.attrib.hdrlen) body)
      start) ∧
      (f.attrib.ivLen ≤ body.length →
        read (clearMFrag (write (setMFrag m start) (start + f.attrib.hdrlen) body) start)
          (start + f.attrib.hdrlen) f.attrib.ivLen = body.take f.attrib.ivLen) := by
  constructor
  · exact ((agreeBelow_write (by omega)).trans (agreeBelow_write (by omega))).trans
      (agreeBelow_write (by omega))
  · intro hle
    rw [clearMFrag, read_write_of_disjoint (by simp; omega)]
    simpa using read_write_part (m := setMFrag m start) (a := start + f.attrib.hdrlen) (k := 0)
      (show 0 + f.attrib.ivLen ≤ body.length by omega)

theorem Ready.hdrlen_ge {pkt : Bytes} (h : Ready p pkt) : 24 ≤ p.hdrlen := by
  rcases h.hdrlen with h | h <;> rw [h] <;> decide

theorem coalesceFragments_one {r : Coalesced} (hready : Ready f.attrib f.pkt)
    (hone : OneFragment a f) (h : coalesceFragments c a m f = some r) :
    r.adapter = a ∧ AgreeBelow f.memStart m r.mem ∧ (r.res = true → Whole m f r) := by
  have hhdrlen : 2 ≤ f.attrib.hdrlen := le_trans (by decide) hready.hdrlen_ge
  unfold coalesceFragments at h
  dsimp only at h
  rw [← XmitFrame.payload, ← XmitFrame.memStart, coalesceLoop_one hready hone] at h
  simp only [Option.map_some, Option.some.injEq] at h
  obtain ⟨hcut, hiv⟩ := cut_one (m := m) hhdrlen f.memStart (wholeBody f.attrib f.payload)
  have hbody := length_wholeBody f.attrib f.payload
  split at h
  · subst h
    exact ⟨rfl, hcut, fun h => absurd h Bool.false_ne_true⟩
  rename_i m₁ p₁ hmic
  subst h
  obtain ⟨mic, pos, rfl, hpos, rfl⟩ := addmic_one rfl hmic
  have hpos : f.memStart + f.attrib.hdrlen + f.attrib.ivLen ≤ pos := hpos
  have hmic (m : Mem) : AgreeBelow f.memStart m (write m pos mic) := agreeBelow_write (by omega)
  obtain ⟨hseal, hsealIv⟩ := swencrypt_one (c := c) (a := a)
    (f := { f with attrib := { f.attrib with
      nrFrags := 1
      lastTxcmdsz := f.attrib.hdrlen + f.attrib.ivLen + 8 + icvRoom f.attrib + f.attrib.pktlen +
        if f.attrib.encrypt = .tkip then 8 else 0 } })
    (m := write (clearMFrag (write (setMFrag m f.memStart) (f.memStart + f.attrib.hdrlen)
      (wholeBody f.attrib f.payload)) f.memStart) pos mic) rfl hhdrlen
  have hbelow := (hcut.trans (hmic _)).trans hseal
  have hsize : f.attrib.hdrlen + f.attrib.ivLen + 8 + icvRoom f.attrib + f.attrib.pktlen +
      (if f.attrib.encrypt = .tkip then 8 else 0) = wlanPktSize f.attrib := by
    unfold wlanPktSize
    omega
  refine ⟨rfl, hbelow, fun _ => ⟨?_, ?_, hbelow, ?_⟩⟩
  · have hpktlen : f.payload.length = f.attrib.pktlen := hready.length_payload
    rw [← hsize, hbody, hpktlen]
    simp only [growLast]
    split_ifs
    · simp only [List.cons.injEq, Fragment.mk.injEq, true_and, and_true]
      omega
    · simp only [List.cons.injEq, Fragment.mk.injEq, true_and, and_true]
      omega
  · simp only [hsize]
  · refine hsealIv.trans ?_
    show read _ (f.memStart + f.attrib.hdrlen) f.attrib.ivLen = _
    rw [read_write_of_disjoint (.inl hpos), hiv (by omega), wholeBody, List.append_assoc,
      List.append_assoc, List.take_left' (length_octets _ _)]

/-- **A frame that is not cut** is written as one packet of the expected size, under the
initialisation vector of its attributes, and nothing before it in the buffer is touched. -/
theorem coalesce_one {r : Coalesced} (hready : Ready f.attrib f.pkt) (hone : OneFragment a f)
    (h : rtwXmitframeCoalesce c a m f = some r) :
    AgreeBelow f.memStart m r.mem ∧ (r.res = true → Whole m f r) := by
  have hhdrlen : 2 ≤ f.attrib.hdrlen := le_trans (by decide) hready.hdrlen_ge
  have hbelow : AgreeBelow f.memStart m (rtwMakeWlanhdr a m f.memStart f.attrib).2 :=
    rtwMakeWlanhdr_below hhdrlen
  unfold rtwXmitframeCoalesce at h
  rw [← XmitFrame.memStart] at h
  rcases hmake : rtwMakeWlanhdr a m f.memStart f.attrib with ⟨_ | ⟨p, a'⟩, m'⟩ <;>
    rw [hmake] at h hbelow
  · obtain rfl := Option.some.inj h
    exact ⟨hbelow, fun h => absurd h Bool.false_ne_true⟩
  obtain ⟨hp, hkeys⟩ := rtwMakeWlanhdr_some (congrArg Prod.fst hmake)
  -- the number of a frame decides nothing about what is written after the header
  generalize hseq : p.seqnum = seqnum at hp
  generalize hampdu : p.ampduEn = ampduEn at hp
  subst hp
  obtain ⟨-, hmem, hwhole⟩ := coalesceFragments_one
    (f := { f with attrib := { f.attrib with seqnum := seqnum, ampduEn := ampduEn } })
    ⟨hready.1, hready.2, hready.3, hready.4, hready.5⟩
    (by
      unfold OneFragment mpduLen
      rw [hkeys.fragLen]
      exact hone) h
  refine ⟨hbelow.trans hmem, fun hres => ?_⟩
  obtain ⟨hfrags, hframe, -, hiv⟩ := hwhole hres
  refine ⟨hfrags, ?_, hbelow.trans hmem, hiv⟩
  rw [hframe]
  rfl

end One

section Every

variable {c : TxCrypto} {a : Adapter} {m : Mem} {f : XmitFrame}

/-- Building a frame draws no packet number. -/
theorem coalesce_sameKeys {r : Coalesced} (h : rtwXmitframeCoalesce c a m f = some r) :
    SameKeys a r.adapter := by
  unfold rtwXmitframeCoalesce at h
  rcases hmake : rtwMakeWlanhdr a m (f.bufAddr + hwHdrOffset f) f.attrib with ⟨_ | ⟨p, a'⟩, m'⟩ <;>
    rw [hmake] at h
  · obtain rfl := Option.some.inj h
    exact SameKeys.refl a
  · have hkeys := (rtwMakeWlanhdr_some (congrArg Prod.fst hmake)).2
    obtain ⟨cut, -, h⟩ := Option.map_eq_some_iff.mp h
    dsimp only at h
    split at h <;> rw [← h] <;> exact hkeys

theorem mpduLen_succ (a : Adapter) (p : PktAttrib) :
    mpduLen a p false = (mpduLen a p true + 8) % 2 ^ 32 := by
  unfold mpduLen
  simp only [if_true, Bool.false_eq_true, if_false]
  omega

theorem mpduLen_lt (a : Adapter) (p : PktAttrib) (first : Bool) : mpduLen a p first < 2 ^ 32 := by
  unfold mpduLen
  omega

theorem coalesceLoop_succ {fuel frgInx start : ℕ} {rest : Bytes} {frags : List Fragment}
    (h : f.attrib.ra.isMcast = false →
      (rest.drop (chunk a f.attrib (frgInx = 0) rest).length).isEmpty = false → ∀ m start frags,
      (coalesceLoop a f fuel m start (frgInx + 1)
        (rest.drop (chunk a f.attrib (frgInx = 0) rest).length) frags).isSome) :
    (coalesceLoop a f (fuel + 1) m start frgInx rest frags).isSome := by
  by_cases hstop : (f.attrib.ra.isMcast ||
      (rest.drop (chunk a f.attrib (frgInx = 0) rest).length).isEmpty) = true
  · simp only [coalesceLoop, hstop, if_true, Option.isSome_some]
  · simp only [coalesceLoop, hstop]
    obtain ⟨hmcast, hrest⟩ := Bool.or_eq_false_iff.mp (Bool.eq_false_of_not_eq_true hstop)
    exact h hmcast hrest _ _ _

theorem coalesceLoop_isSome (hmcast : f.attrib.ra.isMcast = false)
    (hpos : 0 < mpduLen a f.attrib false) {fuel frgInx start : ℕ} {rest : Bytes}
    {frags : List Fragment} (hinx : 0 < frgInx) (hfuel : rest.length < fuel) :
    (coalesceLoop a f fuel m start frgInx rest frags).isSome := by
  induction fuel generalizing m frgInx start rest frags with
  | zero => omega
  | succ fuel ih =>
    refine coalesceLoop_succ fun _ hrest m start frags => ih (by omega) ?_
    have hinx' : decide (frgInx = 0) = false := decide_eq_false (by omega)
    simp only [chunk, hmcast, hinx', List.isEmpty_eq_false_iff, ne_eq, List.drop_eq_nil_iff,
      List.length_take, List.length_drop, Bool.false_eq_true, if_false] at hrest ⊢
    omega

/-- **The loop over the fragments ends** on packets that fit into their unsigned length. -/
theorem rtwXmitframeCoalesce_isSome (hlen : f.pkt.length < 2 ^ 32 - 8) :
    (rtwXmitframeCoalesce c a m f).isSome := by
  unfold rtwXmitframeCoalesce
  split
  · rfl
  rename_i p a' m' _
  simp only [coalesceFragments, Option.isSome_map]
  have hle : (f.pkt.drop p.pktHdrlen).length ≤ f.pkt.length := by
    rw [List.length_drop]
    omega
  refine coalesceLoop_succ fun hmcast hrest m start frags => ?_
  refine coalesceLoop_isSome hmcast ?_ Nat.one_pos (by rw [List.length_drop]; omega)
  -- a first fragment whose length wraps around takes the whole packet
  have hmcast : p.ra.isMcast = false := hmcast
  have hlt := mpduLen_lt a' p true
  have hsucc := mpduLen_succ a' p
  simp only [chunk, hmcast, decide_true, List.isEmpty_eq_false_iff, ne_eq,
    List.drop_eq_nil_iff, List.length_take, Bool.false_eq_true, if_false] at hrest
  show 0 < mpduLen a' p false
  omega

end Every

end Rtl88x2eu.Xmit
