import Rtl88x2eu.Lib.PresenceMap
import Rtl88x2eu.Mesh.Hwmp

/-!
# Forwarding of mesh frames

`rtw_mesh.c`. The header and the mesh control field of a received frame say where it comes from and
where it goes. A mesh point that is not its destination looks for the next hop and sends copies on,
with one hop less to live: one frame, and for a group address also a frame of its own to every peer.

The next hop reads a copy in the same way, so what it finds there can be compared with what the
forwarding mesh point found.

## Main definitions

* `rtwMeshRxDataValidateHdr`, `rtwMeshRxDataValidateMctrl`: the two validators, `MeshMsdu.parse`
  what they make of an MSDU
* `rtwMeshDataBmcToUc`, `rtwMeshRxMsduActCheck`: what becomes of it
* `rtwMeshTxBuildWhdr`, `rtwMeshTxBuildMctrl`: the copies
* `MeshForwarded`, `ForwardMeets`

## Main results

* `relayed_ucast`, `relayed_bmcast_iff`: what the next hop finds in a copy
* `rtwMeshRxMsduActCheck_sends`
* `meshForwarded_iff`: when forwarding keeps a frame
-/

namespace Rtl88x2eu.Mesh

/-! ## Received -/

def meshFlagsAeA4 : UInt8 := 1
def meshFlagsAeA5A6 : UInt8 := 2

/-- A station of `asoc_list`: its address, and `WIFI_ASOC_STATE`. -/
structure MeshSta where
  macAddr : MacAddr
  asocState : Bool := true
deriving DecidableEq

structure MeshNode where
  info : MeshInfo
  /-- `MLME_STATE(adapter) & WIFI_ASOC_STATE`. -/
  asoc : Bool := true
  asocList : List MeshSta := []
  /-- The other stations that `rtw_get_stainfo` finds. -/
  otherStas : List MacAddr := []
  dot11MeshTTL : UInt8 := 31
  meshSeqnum : ℕ := 0
  b2uFlagsMfwd : UInt8 := 0

namespace MeshNode

variable (n : MeshNode)

def macAddr : MacAddr := n.info.cfg.macAddr

/-- `rtw_get_stainfo` finds a station. -/
def hasSta (a : MacAddr) : Bool :=
  (n.asocList.map (·.macAddr)).contains a || n.otherStas.contains a

end MeshNode

/-- What `rtw_mesh_rx_data_validate_hdr` makes of a header. -/
structure MeshRxAttrib where
  toFrDs : ℕ
  ra : MacAddr
  ta : MacAddr
  mda : MacAddr
  msa : MacAddr
deriving DecidableEq

def getMctrlPresent (p : Bytes) (qc : ℕ) : Bool := (p.le16 qc).testBit 8

/-- `rtw_mesh_rx_data_validate_hdr`, for the frames that go on from it. The descriptor says of a
frame that it has a QoS control field if its subtype does. -/
def rtwMeshRxDataValidateHdr (n : MeshNode) (whdr : Bytes) : Option MeshRxAttrib :=
  if !n.asoc || !subTypeQos whdr then none
  else
    let attrib : Option MeshRxAttrib :=
      match getToFrDs whdr with
      | 2 =>
        if !(getAddr1 whdr).isMcast || !n.hasSta (getAddr2 whdr) then none
        else some ⟨2, getAddr1 whdr, getAddr2 whdr, getAddr1 whdr, getAddr3 whdr⟩
      | 3 =>
        if (getAddr1 whdr).isMcast || !n.hasSta (getAddr2 whdr) then none
        else some ⟨3, getAddr1 whdr, getAddr2 whdr, getAddr3 whdr, getAddr4 whdr⟩
      | _ => none
    attrib.filter fun a =>
      !subTypeNull whdr && getMctrlPresent whdr (wlanHdrA3Len + a4Shift a.toFrDs)

/-- `struct rtw_ieee80211s_hdr`, as it is read. -/
structure MeshCtrl where
  flags : UInt8
  ttl : UInt8
  seqnum : ℕ
  eaddr1 : MacAddr
  eaddr2 : MacAddr
deriving DecidableEq

def Bytes.meshCtrl (p : Bytes) : MeshCtrl :=
  ⟨p.u8 0, p.u8 1, p.le16 2 + 65536 * p.le16 4, p.mac 6, p.mac 12⟩

/-- The mode of address extension, `flags & MESH_FLAGS_AE`. -/
def MeshCtrl.ae (c : MeshCtrl) : UInt8 := c.flags &&& 3

/-- `rtw_mesh_rx_data_validate_mctrl`: the end points `da` and `sa`. -/
def rtwMeshRxDataValidateMctrl (toFrDs : ℕ) (c : MeshCtrl) (mda msa : MacAddr) :
    Option (MacAddr × MacAddr) :=
  match toFrDs with
  | 2 =>
    if c.ae = meshFlagsAeA4 then some (mda, c.eaddr1)
    else if c.ae = 0 then some (mda, msa)
    else none
  | 3 =>
    if c.ae = meshFlagsAeA5A6 then some (c.eaddr1, c.eaddr2)
    else if c.ae = 0 then some (mda, msa)
    else none
  | _ => none

structure MeshMsdu where
  whdr : Bytes
  subframe : Option (MacAddr × MacAddr) := none
  mctrl : Bytes

/-- An MSDU that passed both validators. -/
structure MeshParsed where
  attrib : MeshRxAttrib
  mda : MacAddr
  msa : MacAddr
  da : MacAddr
  sa : MacAddr
  ctrl : MeshCtrl
deriving DecidableEq

/-- The two validators, one after the other. -/
def MeshMsdu.parse (n : MeshNode) (m : MeshMsdu) : Option MeshParsed :=
  (rtwMeshRxDataValidateHdr n m.whdr).bind fun attrib =>
    let (mda, msa) := m.subframe.getD (attrib.mda, attrib.msa)
    let ctrl := Bytes.meshCtrl m.mctrl
    (rtwMeshRxDataValidateMctrl attrib.toFrDs ctrl mda msa).map fun (da, sa) =>
      ⟨attrib, mda, msa, da, sa, ctrl⟩

/-! ## Forwarded -/

inductive MeshTxMode
  | ucastData | bmcastData | ucastPxData | bmcastPxData
deriving DecidableEq

/-- `struct pkt_attrib`, what the mesh uses of it. -/
structure MeshTxAttrib where
  meshFrameMode : MeshTxMode
  mb2u : Bool
  mfwdTtl : UInt8
  mseq : ℕ
  ra : MacAddr
  ta : MacAddr
  mda : MacAddr
  msa : MacAddr
  dst : MacAddr
  src : MacAddr
deriving DecidableEq

/-- What the rest of the driver answers while an MSDU is looked at: whether `rtw_mesh_decache` knows
it, the answers of the search for the next hop, and whether there is a buffer for the frames to the
peers and for the frame itself. -/
structure ForwardEnv where
  duplicate : Bool := false
  nexthop : MeshEnv := {}
  allocB2u : ℕ → Bool := fun _ => true
  allocOri : Bool := true

def ipMcastMac (a : MacAddr) : Bool := a.b0 == 0x01 && a.b1 == 0x00 && a.b2 == 0x5e
def icmpv6McastMac (a : MacAddr) : Bool := a.b0 == 0x33 && a.b1 == 0x33 && a.b2 != 0xff

def rtwMfwdB2uPolicyChk (flags : UInt8) (mda : MacAddr) (ucst : Bool) : Bool :=
  flags &&& 1 != 0 || (flags &&& 2 != 0 && ucst) || (flags &&& 4 != 0 && mda == .bcast) ||
    (flags &&& 8 != 0 && (ipMcastMac mda || icmpv6McastMac mda))

/-- `rtw_mesh_data_bmc_to_uc` passes over a station. -/
def b2uSkips (msa oriTa : MacAddr) (sta : MeshSta) : Bool :=
  !sta.asocState || sta.macAddr == msa || sta.macAddr == oriTa || sta.macAddr == .bcast ||
    sta.macAddr == .zero

def forwardAttrib (n : MeshNode) (p : MeshParsed) (mode : MeshTxMode) (mb2u : Bool) (ra : MacAddr) :
    MeshTxAttrib where
  meshFrameMode := mode
  mb2u := mb2u
  mfwdTtl := p.ctrl.ttl - 1
  mseq := p.ctrl.seqnum
  ra := ra
  ta := n.macAddr
  mda := p.mda
  msa := p.msa
  dst := p.da
  src := p.sa

def aeNeed (p : MeshParsed) : Bool := p.da != p.mda || p.sa != p.msa

/-- The loop of `rtw_mesh_data_bmc_to_uc` on the stations that are left, with the number of buffers
taken so far: the frames, and whether the group frame is needed as well. -/
def rtwMeshDataBmcToUc (n : MeshNode) (env : ForwardEnv) (p : MeshParsed) :
    ℕ → List MeshSta → List MeshTxAttrib × Bool
  | _, [] => ([], false)
  | k, sta :: stas =>
    if b2uSkips p.msa p.attrib.ta sta then rtwMeshDataBmcToUc n env p k stas
    else if !env.allocB2u k then ([], true)
    else
      let mode : MeshTxMode := if aeNeed p then .ucastPxData else .ucastData
      let (frames, bmcNeed) := rtwMeshDataBmcToUc n env p (k + 1) stas
      (forwardAttrib n p mode true sta.macAddr :: frames, bmcNeed)

/-- What `rtw_mesh_rx_msdu_act_check` returns: the two bits of `act`, and the frames that go out
with `RTW_RX_MSDU_ACT_FORWARD`. -/
structure MsduAct where
  indicate : Bool := false
  forward : Bool := false
  frames : List MeshTxAttrib := []

/-- Frames of their own go to the peers. -/
def b2uWanted (n : MeshNode) (p : MeshParsed) : Bool :=
  p.mda.isMcast && rtwMfwdB2uPolicyChk n.b2uFlagsMfwd p.mda (p.attrib.toFrDs == 3)

/-- The frames to the peers, and `ori_need`. -/
def fwdB2u (n : MeshNode) (env : ForwardEnv) (p : MeshParsed) : List MeshTxAttrib × Bool :=
  if b2uWanted n p then rtwMeshDataBmcToUc n env p 0 n.asocList else ([], true)

/-- The frame itself, to the group address or to the next hop. -/
def fwdOri (n : MeshNode) (p : MeshParsed) (b2u : List MeshTxAttrib) (fwdRa : MacAddr) :
    MeshTxAttrib :=
  if p.mda.isMcast then
    forwardAttrib n p (if aeNeed p then .bmcastPxData else .bmcastData) (!b2u.isEmpty) p.mda
  else forwardAttrib n p (if aeNeed p then .ucastPxData else .ucastData) (!b2u.isEmpty) fwdRa

/-- The part of `rtw_mesh_rx_msdu_act_check` from `fwd_chk` on, with the next hop of a frame to one
destination. -/
def fwdChk (n : MeshNode) (env : ForwardEnv) (p : MeshParsed) (fwdRa : MacAddr) : MsduAct :=
  let indicate := p.mda.isMcast
  if n.asocList.length ≤ 1 then { indicate := indicate }
  else if p.ctrl.ttl = 1 then { indicate := indicate }
  else
    let b2u := (fwdB2u n env p).1
    if (fwdB2u n env p).2 then
      if !env.allocOri then { indicate := indicate }
      else { indicate := indicate, forward := true, frames := fwdOri n p b2u fwdRa :: b2u }
    else if b2u.isEmpty then { indicate := indicate }
    else { indicate := indicate, forward := true, frames := b2u }

/-- `rtw_mesh_rx_msdu_act_check`. The proxy table, which it updates, has no part in the answer. -/
def rtwMeshRxMsduActCheck (n : MeshNode) (env : ForwardEnv) (p : MeshParsed) : MsduAct :=
  let isMdaBmc := p.mda.isMcast
  if p.msa = n.macAddr then {}
  else if isMdaBmc && env.duplicate then {}
  else if isMdaBmc then
    if !n.info.cfg.dot11MeshForwarding then { indicate := true }
    else fwdChk n env p .zero
  else if p.mda ≠ n.macAddr then
    if !n.info.cfg.dot11MeshForwarding then {}
    else
      match (rtwMeshNexthopLookup n.info p.mda p.msa env.nexthop).1 with
      | none => {}
      | some fwdRa => fwdChk n env p fwdRa
  else { indicate := true }

/-- What `rtw_make_wlanhdr` writes besides the addresses and their two bits. -/
structure WhdrRest where
  mdata : Bool := false
  encrypt : Bool := false
  seq0 : UInt8 := 0
  seq1 : UInt8 := 0
  /-- Priority, EOSP, ack policy and A-MSDU bit. -/
  qc0 : UInt8 := 0x10

/-- The upper octet of the frame control field, with `FromDS`. -/
def WhdrRest.fctrl (x : WhdrRest) (toDs : Bool) : UInt8 :=
  UInt8.ofNat (toDs.toNat + 2 + 0x20 * x.mdata.toNat + 0x40 * x.encrypt.toNat)

/-- A QoS data header, with the bits of the DS, `mctrl_present` set and nothing else in the upper
octet of the QoS control field. -/
def qosHeader (x : WhdrRest) (toDs : Bool) (addr1 addr2 addr3 : MacAddr) (addr4 : Bytes) : Bytes :=
  [0x88, x.fctrl toDs, 0, 0] ++ addr1.toBytes ++ addr2.toBytes ++ addr3.toBytes ++
    [x.seq0, x.seq1] ++ addr4 ++ [x.qc0, 1]

def rtwMeshTxBuildWhdr (x : WhdrRest) (a : MeshTxAttrib) : Bytes :=
  match a.meshFrameMode with
  | .ucastData | .ucastPxData => qosHeader x true a.ra a.ta a.mda a.msa.toBytes
  | .bmcastData | .bmcastPxData => qosHeader x false a.ra a.ta a.msa []

/-- `rtw_mesh_tx_build_mctrl`, in the length of `rtw_mesh_tx_set_whdr_mctrl_len`. -/
def rtwMeshTxBuildMctrl (n : MeshNode) (a : MeshTxAttrib) : Bytes :=
  let (ttl, seqnum) :=
    if a.mfwdTtl ≠ 0 then (a.mfwdTtl, a.mseq)
    else if a.mb2u then (n.dot11MeshTTL, a.mseq)
    else (n.dot11MeshTTL, n.meshSeqnum)
  match a.meshFrameMode with
  | .ucastData | .bmcastData => [0, ttl] ++ PresenceMap.ofLe32 seqnum
  | .ucastPxData =>
    [meshFlagsAeA5A6, ttl] ++ PresenceMap.ofLe32 seqnum ++ a.dst.toBytes ++ a.src.toBytes
  | .bmcastPxData => [meshFlagsAeA4, ttl] ++ PresenceMap.ofLe32 seqnum ++ a.src.toBytes

/-- A copy as it is on the air. -/
def MeshTxAttrib.msdu (n : MeshNode) (x : WhdrRest) (a : MeshTxAttrib) : MeshMsdu :=
  { whdr := rtwMeshTxBuildWhdr x a, mctrl := rtwMeshTxBuildMctrl n a }

variable {n next : MeshNode} {env : ForwardEnv} {p q : MeshParsed} {a : MeshTxAttrib}
  {x : WhdrRest} {m : MeshMsdu}

structure Hears (next n : MeshNode) : Prop where
  asoc : next.asoc = true
  hasSta : next.hasSta n.macAddr = true

/-- The same frame, with one hop less to live. -/
structure OneHopOn (p q : MeshParsed) : Prop where
  da : q.da = p.da
  sa : q.sa = p.sa
  mda : q.mda = p.mda
  msa : q.msa = p.msa
  seqnum : q.ctrl.seqnum = p.ctrl.seqnum
  ttl : q.ctrl.ttl.toNat + 1 = p.ctrl.ttl.toNat

def Relayed (n : MeshNode) (p : MeshParsed) (a : MeshTxAttrib) : Prop :=
  ∀ x next, Hears next n → ∃ q, (a.msdu n x).parse next = some q ∧ OneHopOn p q

/-- **What forwarding is to do**: the frame has a hop to live, and every copy is relayed. -/
def MeshForwarded (n : MeshNode) (env : ForwardEnv) (p : MeshParsed) : Prop :=
  2 ≤ p.ctrl.ttl.toNat ∧ ∀ a ∈ (rtwMeshRxMsduActCheck n env p).frames, Relayed n p a

/-- The peers that get a frame of their own, from the `k`-th buffer on. -/
def b2uServed (env : ForwardEnv) (p : MeshParsed) (k : ℕ) (stas : List MeshSta) : List MeshSta :=
  (((stas.filter (!b2uSkips p.msa p.attrib.ta ·)).zipIdx k).takeWhile (env.allocB2u ·.2)).map (·.1)

/-- There is a buffer for every one of them. -/
def b2uComplete (env : ForwardEnv) (p : MeshParsed) (k : ℕ) (stas : List MeshSta) : Bool :=
  ((stas.filter (!b2uSkips p.msa p.attrib.ta ·)).zipIdx k).all (env.allocB2u ·.2)

def ucastReceivers (n : MeshNode) (env : ForwardEnv) (p : MeshParsed) : List MacAddr :=
  if p.mda.isMcast then
    if b2uWanted n p then (b2uServed env p 0 n.asocList).map (·.macAddr) else []
  else ((rtwMeshNexthopLookup n.info p.mda p.msa env.nexthop).1).toList

def groupFrame (n : MeshNode) (env : ForwardEnv) (p : MeshParsed) : Prop :=
  p.mda.isMcast = true ∧ (b2uWanted n p = true → b2uComplete env p 0 n.asocList = false)

/-- **When an MSDU is forwarded as it should be**: it did not arrive with no hop to live at all, the
receivers have addresses of their own, and a frame to the group address need not carry another
destination. -/
structure ForwardMeets (n : MeshNode) (env : ForwardEnv) (p : MeshParsed) : Prop where
  ttl : p.ctrl.ttl ≠ 0
  receivers : ∀ ra ∈ ucastReceivers n env p, ra.isMcast = false
  group : groupFrame n env p → p.da = p.mda

/-! ## The copies are read -/

section Header

variable {toDs : Bool} {a1 a2 a3 : MacAddr} {a4 : Bytes}

theorem frameCtrl_qosHeader :
    frameCtrl (qosHeader x toDs a1 a2 a3 a4) = 0x88 + 256 * (x.fctrl toDs).toNat := rfl

theorem getToFrDs_qosHeader : getToFrDs (qosHeader x toDs a1 a2 a3 a4) = 2 + toDs.toNat := by
  rw [getToFrDs, getFrDs, getToDs, frameCtrl_qosHeader, WhdrRest.fctrl]
  cases toDs <;> cases x.mdata <;> cases x.encrypt <;> decide

theorem subTypeQos_qosHeader : subTypeQos (qosHeader x toDs a1 a2 a3 a4) = true := by
  rw [subTypeQos, frameCtrl_qosHeader, WhdrRest.fctrl]
  cases toDs <;> cases x.mdata <;> cases x.encrypt <;> decide

theorem subTypeNull_qosHeader : subTypeNull (qosHeader x toDs a1 a2 a3 a4) = false := by
  rw [subTypeNull, frameCtrl_qosHeader, WhdrRest.fctrl]
  cases toDs <;> cases x.mdata <;> cases x.encrypt <;> decide

theorem getAddr1_qosHeader : getAddr1 (qosHeader x toDs a1 a2 a3 a4) = a1 := rfl

theorem getAddr2_qosHeader : getAddr2 (qosHeader x toDs a1 a2 a3 a4) = a2 := rfl

theorem getAddr3_qosHeader : getAddr3 (qosHeader x toDs a1 a2 a3 a4) = a3 := rfl

theorem getAddr4_qosHeader (b : MacAddr) : getAddr4 (qosHeader x toDs a1 a2 a3 b.toBytes) = b := rfl

theorem testBit_upper (b : UInt8) : (b.toNat + 256 * (1 : UInt8).toNat).testBit 8 = true := by
  have hb := b.toNat_lt
  rw [Nat.testBit_eq_decide_div_mod_eq, decide_eq_true_eq]
  change (b.toNat + 256 * 1) / 2 ^ 8 % 2 = 1
  omega

theorem getMctrlPresent_three : getMctrlPresent (qosHeader x toDs a1 a2 a3 [])
    (wlanHdrA3Len + a4Shift 2) = true := testBit_upper x.qc0

theorem getMctrlPresent_four (b : MacAddr) :
    getMctrlPresent (qosHeader x toDs a1 a2 a3 b.toBytes) (wlanHdrA3Len + a4Shift 3) = true :=
  testBit_upper x.qc0

end Header

theorem validateHdr_ucast (hn : Hears next n) {ra mda msa : MacAddr} (hra : ra.isMcast = false) :
    rtwMeshRxDataValidateHdr next (qosHeader x true ra n.macAddr mda msa.toBytes) =
      some ⟨3, ra, n.macAddr, mda, msa⟩ := by
  simp [rtwMeshRxDataValidateHdr, hn.asoc, hn.hasSta, hra, getToFrDs_qosHeader,
    subTypeQos_qosHeader, subTypeNull_qosHeader, getAddr1_qosHeader, getAddr2_qosHeader,
    getAddr3_qosHeader, getAddr4_qosHeader, getMctrlPresent_four]

theorem validateHdr_ucast_mcast {ra ta mda msa : MacAddr} (hra : ra.isMcast = true) :
    rtwMeshRxDataValidateHdr next (qosHeader x true ra ta mda msa.toBytes) = none := by
  simp [rtwMeshRxDataValidateHdr, hra, getToFrDs_qosHeader, subTypeQos_qosHeader,
    getAddr1_qosHeader]

theorem validateHdr_bmcast (hn : Hears next n) {ra msa : MacAddr} (hra : ra.isMcast = true) :
    rtwMeshRxDataValidateHdr next (qosHeader x false ra n.macAddr msa []) =
      some ⟨2, ra, n.macAddr, ra, msa⟩ := by
  simp [rtwMeshRxDataValidateHdr, hn.asoc, hn.hasSta, hra, getToFrDs_qosHeader,
    subTypeQos_qosHeader, subTypeNull_qosHeader, getAddr1_qosHeader, getAddr2_qosHeader,
    getAddr3_qosHeader, getMctrlPresent_three]

theorem seqnum_lt (mctrl : Bytes) : (Bytes.meshCtrl mctrl).seqnum < 2 ^ 32 := by
  have hlow := Bytes.le16_lt mctrl 2
  have hhigh := Bytes.le16_lt mctrl 4
  change mctrl.le16 2 + 65536 * mctrl.le16 4 < 2 ^ 32
  omega

theorem meshCtrl_head (flags ttl : UInt8) {seqnum : ℕ} (hs : seqnum < 2 ^ 32) (rest : Bytes) :
    (Bytes.meshCtrl ([flags, ttl] ++ PresenceMap.ofLe32 seqnum ++ rest)).seqnum = seqnum := by
  refine Eq.trans ?_ (PresenceMap.ofLe32_value hs)
  change (UInt8.ofNat seqnum).toNat + 256 * (UInt8.ofNat (seqnum / 256)).toNat + 65536 *
    ((UInt8.ofNat (seqnum / 65536)).toNat + 256 * (UInt8.ofNat (seqnum / 16777216)).toNat) = _
  omega

theorem validateMctrl_plain {c : MeshCtrl} (h : c.flags = 0) {toFrDs : ℕ}
    (hds : toFrDs = 2 ∨ toFrDs = 3) (mda msa : MacAddr) :
    rtwMeshRxDataValidateMctrl toFrDs c mda msa = some (mda, msa) := by
  have hae : c.ae = 0 := by rw [MeshCtrl.ae, h]; decide
  obtain rfl | rfl := hds <;>
    simp [rtwMeshRxDataValidateMctrl, hae, meshFlagsAeA4, meshFlagsAeA5A6]

theorem validateMctrl_a4 {c : MeshCtrl} (h : c.flags = meshFlagsAeA4) (mda msa : MacAddr) :
    rtwMeshRxDataValidateMctrl 2 c mda msa = some (mda, c.eaddr1) := by
  have hae : c.ae = meshFlagsAeA4 := by rw [MeshCtrl.ae, h]; decide
  simp [rtwMeshRxDataValidateMctrl, hae]

theorem validateMctrl_a5a6 {c : MeshCtrl} (h : c.flags = meshFlagsAeA5A6) (mda msa : MacAddr) :
    rtwMeshRxDataValidateMctrl 3 c mda msa = some (c.eaddr1, c.eaddr2) := by
  have hae : c.ae = meshFlagsAeA5A6 := by rw [MeshCtrl.ae, h]; decide
  simp [rtwMeshRxDataValidateMctrl, hae]

theorem parse_of_validate {attrib : MeshRxAttrib} {da sa : MacAddr} (hsub : m.subframe = none)
    (hhdr : rtwMeshRxDataValidateHdr next m.whdr = some attrib)
    (hctrl : rtwMeshRxDataValidateMctrl attrib.toFrDs (Bytes.meshCtrl m.mctrl) attrib.mda
      attrib.msa = some (da, sa)) :
    m.parse next = some ⟨attrib, attrib.mda, attrib.msa, da, sa, Bytes.meshCtrl m.mctrl⟩ := by
  simp [MeshMsdu.parse, hhdr, hsub, hctrl]

/-- A hop to live is left, so the copy does not pass for a frame of the mesh point's own. -/
theorem mfwdTtl_ne (h1 : p.ctrl.ttl ≠ 1) (mode : MeshTxMode) (mb2u : Bool) (ra : MacAddr) :
    (forwardAttrib n p mode mb2u ra).mfwdTtl ≠ 0 := by
  intro h
  apply h1
  have hsub : p.ctrl.ttl - 1 = 0 := h
  grind

theorem OneHopOn.intro {attrib : MeshRxAttrib} {da sa : MacAddr} {c : MeshCtrl}
    (h0 : p.ctrl.ttl ≠ 0) (hda : da = p.da) (hsa : sa = p.sa) (httl : c.ttl = p.ctrl.ttl - 1)
    (hseq : c.seqnum = p.ctrl.seqnum) : OneHopOn p ⟨attrib, p.mda, p.msa, da, sa, c⟩ := by
  refine ⟨hda, hsa, rfl, rfl, hseq, ?_⟩
  have hpos : p.ctrl.ttl.toNat ≠ 0 := fun h => h0 (UInt8.toNat_inj.mp h)
  have hle : (1 : UInt8) ≤ p.ctrl.ttl := by
    rw [UInt8.le_iff_toNat_le]
    change 1 ≤ _
    omega
  change c.ttl.toNat + 1 = _
  rw [httl, UInt8.toNat_sub_of_le _ _ hle]
  change _ - 1 + 1 = _
  omega

theorem aeNeed_eq_false (h : aeNeed p = false) : p.da = p.mda ∧ p.sa = p.msa := by
  simpa [aeNeed] using h

def ucastMode (p : MeshParsed) : MeshTxMode := if aeNeed p then .ucastPxData else .ucastData

def bmcastMode (p : MeshParsed) : MeshTxMode := if aeNeed p then .bmcastPxData else .bmcastData

theorem rtwMeshTxBuildMctrl_eq (h : a.mfwdTtl ≠ 0) :
    rtwMeshTxBuildMctrl n a =
      match a.meshFrameMode with
      | .ucastData | .bmcastData => [0, a.mfwdTtl] ++ PresenceMap.ofLe32 a.mseq ++ []
      | .ucastPxData => [meshFlagsAeA5A6, a.mfwdTtl] ++ PresenceMap.ofLe32 a.mseq ++
          (a.dst.toBytes ++ a.src.toBytes)
      | .bmcastPxData => [meshFlagsAeA4, a.mfwdTtl] ++ PresenceMap.ofLe32 a.mseq ++
          a.src.toBytes := by
  rw [rtwMeshTxBuildMctrl, if_pos h]
  cases a.meshFrameMode <;> simp

/-- The frames to one address carry all the addresses. -/
theorem relayed_ucast (hs : p.ctrl.seqnum < 2 ^ 32) (h0 : p.ctrl.ttl ≠ 0) (h1 : p.ctrl.ttl ≠ 1)
    {ra : MacAddr} (hra : ra.isMcast = false) (mb2u : Bool) :
    Relayed n p (forwardAttrib n p (ucastMode p) mb2u ra) := by
  intro x next hn
  have hmctrl := rtwMeshTxBuildMctrl_eq (n := n) (mfwdTtl_ne (n := n) h1 (ucastMode p) mb2u ra)
  have hhdr : rtwMeshRxDataValidateHdr next (qosHeader x true ra n.macAddr p.mda p.msa.toBytes) =
    _ := validateHdr_ucast hn hra
  rw [ucastMode] at hmctrl ⊢
  cases hae : aeNeed p with
  | true =>
    rw [hae, if_pos rfl] at hmctrl
    have hseq := meshCtrl_head meshFlagsAeA5A6 (p.ctrl.ttl - 1) hs (p.da.toBytes ++ p.sa.toBytes)
    refine ⟨_, parse_of_validate rfl hhdr (validateMctrl_a5a6 ?_ _ _), .intro h0 ?_ ?_ ?_ ?_⟩ <;>
      rw [if_pos rfl, MeshTxAttrib.msdu, hmctrl]
    · rfl
    · rfl
    · rfl
    · rfl
    · exact hseq
  | false =>
    obtain ⟨hda, hsa⟩ := aeNeed_eq_false hae
    rw [hae, if_neg Bool.false_ne_true] at hmctrl
    have hseq := meshCtrl_head 0 (p.ctrl.ttl - 1) hs []
    refine ⟨_, parse_of_validate rfl hhdr (validateMctrl_plain ?_ (.inr rfl) _ _),
      .intro h0 hda.symm hsa.symm ?_ ?_⟩ <;>
      rw [if_neg Bool.false_ne_true, MeshTxAttrib.msdu, hmctrl]
    · rfl
    · rfl
    · exact hseq

theorem parse_bmcast (hn : Hears next n) (hs : p.ctrl.seqnum < 2 ^ 32) (h1 : p.ctrl.ttl ≠ 1)
    (hmda : p.mda.isMcast = true) (mb2u : Bool) :
    ∃ attrib c, ((forwardAttrib n p (bmcastMode p) mb2u p.mda).msdu n x).parse next =
        some ⟨attrib, p.mda, p.msa, p.mda, p.sa, c⟩ ∧
      c.ttl = p.ctrl.ttl - 1 ∧ c.seqnum = p.ctrl.seqnum := by
  have hmctrl := rtwMeshTxBuildMctrl_eq (n := n)
    (mfwdTtl_ne (n := n) h1 (bmcastMode p) mb2u p.mda)
  have hhdr : rtwMeshRxDataValidateHdr next (qosHeader x false p.mda n.macAddr p.msa []) = _ :=
    validateHdr_bmcast hn hmda
  rw [bmcastMode] at hmctrl ⊢
  cases hae : aeNeed p with
  | true =>
    rw [hae, if_pos rfl] at hmctrl
    have hseq := meshCtrl_head meshFlagsAeA4 (p.ctrl.ttl - 1) hs p.sa.toBytes
    have hparse := parse_of_validate
      (m := (forwardAttrib n p .bmcastPxData mb2u p.mda).msdu n x) rfl hhdr
      (validateMctrl_a4 (by rw [MeshTxAttrib.msdu, hmctrl]; rfl) _ _)
    rw [if_pos rfl, hparse, MeshTxAttrib.msdu, hmctrl]
    exact ⟨_, _, rfl, rfl, hseq⟩
  | false =>
    obtain ⟨-, hsa⟩ := aeNeed_eq_false hae
    rw [hae, if_neg Bool.false_ne_true] at hmctrl
    have hseq := meshCtrl_head 0 (p.ctrl.ttl - 1) hs []
    have hparse := parse_of_validate
      (m := (forwardAttrib n p .bmcastData mb2u p.mda).msdu n x) rfl hhdr
      (validateMctrl_plain (by rw [MeshTxAttrib.msdu, hmctrl]; rfl) (.inl rfl) _ _)
    rw [if_neg Bool.false_ne_true, hparse, MeshTxAttrib.msdu, hmctrl, hsa]
    exact ⟨_, _, rfl, rfl, hseq⟩

def hearer (n : MeshNode) : MeshNode := { info := n.info, otherStas := [n.macAddr] }

theorem hears_hearer (n : MeshNode) : Hears (hearer n) n where
  asoc := rfl
  hasSta := by simp [hearer, MeshNode.hasSta]

theorem relayed_bmcast_iff (hs : p.ctrl.seqnum < 2 ^ 32) (h0 : p.ctrl.ttl ≠ 0)
    (h1 : p.ctrl.ttl ≠ 1) (hmda : p.mda.isMcast = true) (mb2u : Bool) :
    Relayed n p (forwardAttrib n p (bmcastMode p) mb2u p.mda) ↔ p.da = p.mda := by
  constructor
  · intro h
    obtain ⟨attrib, c, hparse, -, -⟩ :=
      parse_bmcast (x := {}) (hears_hearer n) hs h1 hmda mb2u
    obtain ⟨q, hq, hone⟩ := h {} (hearer n) (hears_hearer n)
    rw [hparse, Option.some.injEq] at hq
    rw [← hone.da, ← hq]
  · intro hda x next hn
    obtain ⟨attrib, c, hparse, httl, hseq⟩ := parse_bmcast (x := x) hn hs h1 hmda mb2u
    exact ⟨_, hparse, .intro h0 hda.symm rfl httl hseq⟩

theorem not_relayed_ucast {ra : MacAddr} (hra : ra.isMcast = true) (mb2u : Bool) :
    ¬Relayed n p (forwardAttrib n p (ucastMode p) mb2u ra) := by
  intro h
  obtain ⟨q, hq, -⟩ := h {} (hearer n) (hears_hearer n)
  have hhdr : rtwMeshRxDataValidateHdr (hearer n) (qosHeader {} true ra n.macAddr p.mda
    p.msa.toBytes) = none := validateHdr_ucast_mcast hra
  have hnone : ((forwardAttrib n p (ucastMode p) mb2u ra).msdu n {}).parse (hearer n) = none := by
    rw [MeshMsdu.parse]
    have hwhdr : ((forwardAttrib n p (ucastMode p) mb2u ra).msdu n {}).whdr =
        qosHeader {} true ra n.macAddr p.mda p.msa.toBytes := by
      unfold ucastMode
      cases aeNeed p <;> rfl
    rw [hwhdr, hhdr]
    rfl
  rw [hnone] at hq
  cases hq

/-! ## The frames -/

theorem rtwMeshDataBmcToUc_eq (stas : List MeshSta) (k : ℕ) :
    rtwMeshDataBmcToUc n env p k stas =
      ((b2uServed env p k stas).map fun sta => forwardAttrib n p (ucastMode p) true sta.macAddr,
        !b2uComplete env p k stas) := by
  induction stas generalizing k with
  | nil => rfl
  | cons sta stas ih =>
    rw [rtwMeshDataBmcToUc]
    split
    next hskip => simp [ih, b2uServed, b2uComplete, hskip]
    next hskip =>
      split
      next halloc =>
        rw [Bool.not_eq_true'] at halloc
        simp [b2uServed, b2uComplete, hskip, halloc]
      next halloc =>
        rw [Bool.not_eq_true', Bool.not_eq_false] at halloc
        simp [ih, b2uServed, b2uComplete, hskip, halloc, ucastMode]

def Sends (n : MeshNode) (env : ForwardEnv) (p : MeshParsed) (frames : List MeshTxAttrib) : Prop :=
  ∃ ori : List MeshTxAttrib, ∃ b : Bool,
    frames = ori ++ (ucastReceivers n env p).map (forwardAttrib n p (ucastMode p) b) ∧
    ((groupFrame n env p ∧ ∃ b', ori = [forwardAttrib n p (bmcastMode p) b' p.mda]) ∨
      (¬groupFrame n env p ∧ ori = []))

theorem fwdB2u_eq :
    fwdB2u n env p =
      if b2uWanted n p then
        ((b2uServed env p 0 n.asocList).map fun sta =>
          forwardAttrib n p (ucastMode p) true sta.macAddr, !b2uComplete env p 0 n.asocList)
      else ([], true) := by
  rw [fwdB2u, rtwMeshDataBmcToUc_eq]

theorem fwdChk_forward {ra : MacAddr} (h : (fwdChk n env p ra).forward = true) :
    p.ctrl.ttl ≠ 1 ∧ (fwdChk n env p ra).frames =
      (if (fwdB2u n env p).2 then [fwdOri n p (fwdB2u n env p).1 ra] else []) ++
        (fwdB2u n env p).1 := by
  rw [fwdChk] at h ⊢
  dsimp only at h ⊢
  split at h
  next => cases h
  next hcnt =>
    split at h
    next => cases h
    next httl =>
      refine ⟨httl, ?_⟩
      rw [if_neg hcnt, if_neg httl]
      split at h
      next hneed =>
        split at h
        next => cases h
        next halloc => rw [if_pos hneed, if_neg halloc, if_pos hneed]; rfl
      next hneed =>
        split at h
        next => cases h
        next hempty => rw [if_neg hneed, if_neg hempty, if_neg hneed]; rfl

theorem sends_group (hmda : p.mda.isMcast = true) {ra : MacAddr}
    (h : (fwdChk n env p ra).forward = true) : Sends n env p (fwdChk n env p ra).frames := by
  rw [(fwdChk_forward h).2, fwdB2u_eq]
  have hori (b2u : List MeshTxAttrib) : fwdOri n p b2u ra =
      forwardAttrib n p (bmcastMode p) (!b2u.isEmpty) p.mda := by rw [fwdOri, if_pos hmda]; rfl
  cases hb : b2uWanted n p with
  | false =>
    refine ⟨[forwardAttrib n p (bmcastMode p) false p.mda], true, ?_, .inl ⟨⟨hmda, ?_⟩, _, rfl⟩⟩
    · simp [ucastReceivers, hmda, hb, hori]
    · simp [hb]
  | true =>
    cases hc : b2uComplete env p 0 n.asocList with
    | false =>
      refine ⟨[fwdOri n p ((b2uServed env p 0 n.asocList).map fun sta =>
        forwardAttrib n p (ucastMode p) true sta.macAddr) ra], true, ?_,
        .inl ⟨⟨hmda, fun _ => hc⟩, _, by rw [hori]⟩⟩
      simp [ucastReceivers, hmda, hb]
    | true =>
      refine ⟨[], true, ?_, .inr ⟨fun hg => ?_, rfl⟩⟩
      · simp [ucastReceivers, hmda, hb]
      · rw [hg.2 hb] at hc
        cases hc

theorem sends_ucast (hmda : p.mda.isMcast = false) {ra : MacAddr}
    (hra : (rtwMeshNexthopLookup n.info p.mda p.msa env.nexthop).1 = some ra)
    (h : (fwdChk n env p ra).forward = true) : Sends n env p (fwdChk n env p ra).frames := by
  have hb : b2uWanted n p = false := by rw [b2uWanted, hmda, Bool.false_and]
  rw [(fwdChk_forward h).2, fwdB2u_eq]
  refine ⟨[], false, ?_, .inr ⟨fun hg => ?_, rfl⟩⟩
  · simp [ucastReceivers, hmda, hb, hra, fwdOri, ucastMode]
  · rw [hg.1] at hmda
    cases hmda

/-- Which copies are sent. -/
theorem rtwMeshRxMsduActCheck_sends (h : (rtwMeshRxMsduActCheck n env p).forward = true) :
    p.ctrl.ttl ≠ 1 ∧ Sends n env p (rtwMeshRxMsduActCheck n env p).frames := by
  rw [rtwMeshRxMsduActCheck] at h ⊢
  split at h
  next => cases h
  next hself =>
    split at h
    next => cases h
    next hdup =>
      rw [if_neg hself, if_neg hdup]
      split at h
      next hmda =>
        split at h
        next => cases h
        next hfwd =>
          rw [if_pos hmda, if_neg hfwd]
          exact ⟨(fwdChk_forward h).1, sends_group hmda h⟩
      next hmda =>
        split at h
        next hown =>
          split at h
          next => cases h
          next hfwd =>
            rw [if_neg hmda, if_pos hown, if_neg hfwd]
            split at h
            next => cases h
            next ra hra =>
              exact ⟨(fwdChk_forward h).1, sends_ucast (Bool.eq_false_iff.mpr hmda) hra h⟩
        next => cases h

/-- **Forwarding keeps a frame and takes one hop from it if and only if the frame had one left, its
receivers are individuals, and a frame to a group names no other destination.** -/
theorem meshForwarded_iff (hp : m.parse n = some p)
    (h : (rtwMeshRxMsduActCheck n env p).forward = true) :
    MeshForwarded n env p ↔ ForwardMeets n env p := by
  obtain ⟨h1, ori, b, hframes, hori⟩ := rtwMeshRxMsduActCheck_sends h
  have hs : p.ctrl.seqnum < 2 ^ 32 := by
    rw [MeshMsdu.parse, Option.bind_eq_some_iff] at hp
    obtain ⟨attrib, -, hp⟩ := hp
    rw [Option.map_eq_some_iff] at hp
    obtain ⟨-, -, rfl⟩ := hp
    exact seqnum_lt m.mctrl
  have httl : 2 ≤ p.ctrl.ttl.toNat ↔ p.ctrl.ttl ≠ 0 := by
    have h1' : p.ctrl.ttl.toNat ≠ 1 := fun h => h1 (UInt8.toNat_inj.mp h)
    constructor
    · rintro h2 h0
      rw [h0] at h2
      exact absurd h2 (by decide)
    · intro h0
      have h0' : p.ctrl.ttl.toNat ≠ 0 := fun h => h0 (UInt8.toNat_inj.mp h)
      omega
  rw [MeshForwarded, hframes]
  constructor
  · rintro ⟨h2, hall⟩
    have h0 := httl.mp h2
    refine ⟨h0, fun ra hra => ?_, fun hg => ?_⟩
    · by_contra hmc
      exact not_relayed_ucast (Bool.not_eq_false _ ▸ hmc) b
        (hall _ (List.mem_append_right _ (List.mem_map_of_mem hra)))
    · obtain ⟨-, b', rfl⟩ | ⟨hng, -⟩ := hori
      · exact (relayed_bmcast_iff hs h0 h1 hg.1 b').mp
          (hall _ (List.mem_append_left _ (List.mem_singleton_self _)))
      · exact absurd hg hng
  · rintro ⟨h0, hrecv, hgroup⟩
    refine ⟨httl.mpr h0, fun a ha => ?_⟩
    rw [List.mem_append] at ha
    obtain ha | ha := ha
    · obtain ⟨hg, b', rfl⟩ | ⟨-, rfl⟩ := hori
      · rw [List.mem_singleton.mp ha]
        exact (relayed_bmcast_iff hs h0 h1 hg.1 b').mpr (hgroup hg)
      · cases ha
    · obtain ⟨ra, hra, rfl⟩ := List.mem_map.mp ha
      exact relayed_ucast hs h0 h1 (hrecv ra hra) b

def relayNode : MeshNode where
  info := { cfg := { macAddr := ⟨2, 0, 0, 0, 0, 1⟩ } }
  asocList := [⟨⟨2, 0, 0, 0, 0, 2⟩, true⟩, ⟨⟨2, 0, 0, 0, 0, 3⟩, true⟩]

/-- A broadcast frame of one of them. -/
def relayMsdu (ttl : UInt8) : MeshMsdu where
  whdr := qosHeader {} false .bcast ⟨2, 0, 0, 0, 0, 2⟩ ⟨2, 0, 0, 0, 0, 2⟩ []
  mctrl := [0, ttl, 7, 0, 0, 0]

/-- What the validators make of it. -/
def relayParsed (ttl : UInt8) : MeshParsed where
  attrib := ⟨2, .bcast, ⟨2, 0, 0, 0, 0, 2⟩, .bcast, ⟨2, 0, 0, 0, 0, 2⟩⟩
  mda := .bcast
  msa := ⟨2, 0, 0, 0, 0, 2⟩
  da := .bcast
  sa := ⟨2, 0, 0, 0, 0, 2⟩
  ctrl := ⟨0, ttl, 7, .zero, .zero⟩

/-- With five hops to live it is forwarded as it should be. -/
theorem meshForwarded_iff_five :
    MeshForwarded relayNode {} (relayParsed 5) ↔ ForwardMeets relayNode {} (relayParsed 5) :=
  meshForwarded_iff (m := relayMsdu 5) (by decide) (by decide)

/-- With none it goes on all the same, and the copy has 255. -/
theorem not_meshForwarded :
    ¬∀ (n : MeshNode) (env : ForwardEnv) (m : MeshMsdu) (p : MeshParsed), m.parse n = some p →
      (rtwMeshRxMsduActCheck n env p).forward = true → MeshForwarded n env p := by
  intro h
  have hforwarded := h relayNode {} (relayMsdu 0) (relayParsed 0) (by decide) (by decide)
  exact absurd hforwarded.1 (by decide)

end Rtl88x2eu.Mesh
