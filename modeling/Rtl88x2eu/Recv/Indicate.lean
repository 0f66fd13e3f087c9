import Rtl88x2eu.Recv.Security
import Rtl88x2eu.Recv.Reorder

/-!
# From MPDUs to the network stack

`recv_process_mpdu` and what it calls: the conversion of the 802.11 header to an Ethernet header,
the splitting of A-MSDUs, the access point's choice between indicating and forwarding. Every
branch returns the descriptor to the pool.

## Main definitions

* `Env`
* `rtwRecvLlcParse`, `wlanhdrToEthhdr`, `amsduSubframes`
* `rtwApRxMsduActCheck`
* `recvProcessMpdu`
-/

namespace Rtl88x2eu

/-- The ciphers, the allocators and the parts of the driver behind the receive path. -/
structure Env where
  crypto : Crypto
  /-- `rtw_os_alloc_msdu_pkt` finds memory for subframe `i`. -/
  allocMsduPkt : Adapter → RecvFrame → ℕ → Bool := fun _ _ _ => true
  /-- `rtw_alloc_xmitframe` finds a frame for forwarding. -/
  allocXmitframe : Adapter → Bool := fun _ => true
  /-- `rtw_ap_data_bmc_to_uc`, when the policy calls for it and it does its work: whether it
  leaves unicast frames to send. -/
  apDataBmcToUc : Adapter → MacAddr → Option Bool := fun _ _ => none
  /-- `rtw_os_pkt_copy` finds memory. -/
  pktCopy : Adapter → RecvFrame → Bool := fun _ _ => true
  /-- `rtw_zmalloc` finds memory for the body of a protected management frame. -/
  zmalloc : Adapter → RecvFrame → Bool := fun _ _ => true
  /-- `mgt_dispatcher`: the management frame handlers. -/
  mgtDispatcher : Adapter → RecvFrame → Adapter := fun a _ => a
  /-- `rtw_fill_radiotap_hdr` and `rtw_recv_monitor` take the packet. -/
  recvMonitor : Adapter → RecvFrame → Bool := fun _ _ => true

/-- `recvframe_pull`: nothing happens when there are fewer bytes. -/
def recvframePull (f : RecvFrame) (sz : ℕ) : RecvFrame :=
  if sz ≤ f.len then { f with rxData := f.rxData.drop sz } else f

/-- `recvframe_pull_tail`: nothing happens when there are fewer bytes. -/
def recvframePullTail (f : RecvFrame) (sz : ℕ) : RecvFrame :=
  if sz ≤ f.len then
    { f with rxData := f.rxData.take (f.len - sz), tailRoom := f.tailRoom + sz }
  else f

def recvframePut (f : RecvFrame) (p : Bytes) : RecvFrame :=
  { f with rxData := f.rxData ++ p, tailRoom := f.tailRoom - p.length }

@[simp] theorem recvframePull_id (f : RecvFrame) (sz : ℕ) : (recvframePull f sz).id = f.id := by
  unfold recvframePull
  split <;> rfl

@[simp] theorem recvframePullTail_id (f : RecvFrame) (sz : ℕ) :
    (recvframePullTail f sz).id = f.id := by
  unfold recvframePullTail
  split <;> rfl

@[simp] theorem recvframePut_id (f : RecvFrame) (p : Bytes) : (recvframePut f p).id = f.id := rfl

def ethPAarp : ℕ := 0x80f3

def ethPIpx : ℕ := 0x8137

def rtwRecvLlcParse (msdu : Bytes) (msduLen : ℕ) : Bool :=
  let ethType := msdu.be16 snapSize
  8 ≤ msduLen && ((msdu.mac 0 = .rfc1042Header && ethType ≠ ethPAarp && ethType ≠ ethPIpx) ||
    msdu.mac 0 = .bridgeTunnelHeader)

/-- `wlanhdr_to_ethhdr`: the addresses, and the length unless the EtherType takes its place, end
where the payload starts. The bytes before them may lie before the frame. -/
def wlanhdrToEthhdr (f : RecvFrame) (llcRemove : Bool) : Option Bytes :=
  let p := if f.attrib.encrypt ≠ .noPrivacy then (recvframePullTail f f.attrib.icvLen).rxData
    else f.rxData
  let rmvLen := f.attrib.hdrlen + f.attrib.ivLen + (if llcRemove then snapSize else 0)
  let len := u16 ((p.length : ℤ) - rmvLen)
  let pull : ℤ := rmvLen - ethHlen + (if llcRemove then 2 else 0)
  if pull ≤ p.length then
    let ehdr := f.attrib.dst.toBytes ++ f.attrib.src.toBytes ++
      (if llcRemove then [] else Bytes.ofBe16 len)
    some ((ehdr ++ p.drop rmvLen).take ((p.length : ℤ) - pull).toNat)
  else none

structure MsduAct where
  indicate : Bool := false
  forward : Bool := false
deriving DecidableEq, Repr

/-- The label `fwd_chk` of `rtw_ap_rx_msdu_act_check`: a frame is found for the transmit side. -/
def fwdChk (env : Env) (a : Adapter) (da : MacAddr) : Bool :=
  if a.asocListCnt ≤ 1 then false
  else
    match if da.isMcast then env.apDataBmcToUc a da else none with
    | some forward => forward
    | none => env.allocXmitframe a

/-- What an access point does with an MSDU. -/
def rtwApRxMsduActCheck (env : Env) (a : Adapter) (da sa : MacAddr) : MsduAct :=
  let isDaSelf := !da.isMcast && da = a.macAddr
  -- SA is self, need no further process
  if sa = a.macAddr then {}
  else if da.isMcast then ⟨true, !a.apIsolate && fwdChk env a da⟩
  else if isDaSelf then ⟨true, false⟩
  else if (rtwGetStainfo a da).isSome then ⟨false, !a.apIsolate && fwdChk env a da⟩
  -- DA is unknown
  else ⟨true, !a.apIsolate && fwdChk env a da⟩

/-- `recv_fwd_pkt_hdl`: a packet that is indicated as well is copied first. -/
def recvFwdPktHdl (env : Env) (a : Adapter) (f : RecvFrame) (act : MsduAct) (msdu : Bytes) :
    List RxEvent :=
  if act.indicate && !env.pktCopy a f then [] else [.forward msdu]

def validateAmsduContent (a : Adapter) (p : RxPktAttrib) (da sa : MacAddr) : Bool :=
  if a.amsduMode = .nonSpp ∧ a.securitypriv.dot11PrivacyAlgrthm ≠ .noPrivacy then
    !((p.toFrDs = 2 && da ≠ p.ra) || (p.toFrDs = 1 && sa ≠ p.ta) || da = .rfc1042Header)
  else true

def maxSubframeCount : ℕ := 64

/-- The Ethernet frame of `rtw_os_alloc_msdu_pkt`. -/
def msduPkt (da sa : MacAddr) (msdu : Bytes) (llcRemove : Bool) : Bytes :=
  da.toBytes ++ sa.toBytes ++
    (if llcRemove then msdu.drop snapSize else Bytes.ofBe16 msdu.length ++ msdu)

/-- What `amsdu_to_msdu` has collected: the forwarded subframes and those to indicate. -/
structure Subframes where
  forwarded : List RxEvent := []
  subframes : List Bytes := []

/-- The loop of `amsdu_to_msdu`; `a_len` is the length of the rest. -/
def amsduSubframes (env : Env) (a : Adapter) (f : RecvFrame) : ℕ → Bytes → Subframes → Subframes
  | 0, _, acc => acc
  | fuel + 1, p, acc =>
    let n := p.be16 12
    let da := p.mac 0
    let sa := p.mac ethAlen
    if p.length ≤ ethHlen ∨ p.length < ethHlen + n then acc
    else if !validateAmsduContent a f.attrib da sa then acc
    else
      let msdu := (p.drop ethHlen).take n
      let llc := rtwRecvLlcParse (p.drop ethHlen) n
      let act := if a.fwState.ap then rtwApRxMsduActCheck env a da sa else ⟨true, false⟩
      let next := fun acc =>
        -- move the data point to data content
        let rest := p.drop (ethHlen + n)
        let padding := (4 - (n + ethHlen) % 4) % 4
        if maxSubframeCount ≤ acc.subframes.length then acc
        else if rest = [] then acc
        else if rest.length < padding then acc
        else amsduSubframes env a f fuel (rest.drop padding) acc
      if act = {} then next acc
      else if !env.allocMsduPkt a f acc.subframes.length then acc
      else
        let pkt := msduPkt da sa msdu llc
        let fwd := if act.forward then recvFwdPktHdl env a f act pkt else []
        next ⟨acc.forwarded ++ fwd,
          if act.indicate then acc.subframes ++ [pkt] else acc.subframes⟩

/-- `amsdu_to_msdu`: the subframes go to the stack behind the loop. -/
def amsduToMsdu (env : Env) (a : Adapter) (f : RecvFrame) : Ret × Adapter :=
  let g := recvframePull f f.attrib.hdrlen
  let g := if 0 < f.attrib.ivLen then recvframePull g f.attrib.ivLen else g
  let g := if f.attrib.encrypt ≠ .noPrivacy then recvframePullTail g f.attrib.icvLen else g
  let r := amsduSubframes env a f g.len g.rxData {}
  let events := r.forwarded ++ r.subframes.map (.indicate f.pkt ·)
  (.success, rtwFreeRecvframe (a.emit events) f.id)

def recvProcessMpdu (env : Env) (a : Adapter) (f : RecvFrame) : Ret × Adapter :=
  let a := a.emit [.process f]
  if f.attrib.amsdu then amsduToMsdu env a f
  else
    let start := f.attrib.hdrlen + f.attrib.ivLen
    let icv := if f.attrib.encrypt ≠ .noPrivacy then f.attrib.icvLen else 0
    let msduLen := u16 ((f.len : ℤ) - start - icv)
    let llc := rtwRecvLlcParse (f.rxData.drop start) msduLen
    let act := if a.fwState.ap then rtwApRxMsduActCheck env a f.attrib.dst f.attrib.src
      else ⟨true, false⟩
    if act = {} then (.fail, rtwFreeRecvframe a f.id)
    else
      match wlanhdrToEthhdr f llc with
      | none => (.fail, rtwFreeRecvframe a f.id)
      | some msdu =>
        let a := a.emit (if act.forward then recvFwdPktHdl env a f act msdu else [])
        if !act.indicate then (.success, rtwFreeRecvframe a f.id)
        else if a.cannotRun then (.success, rtwFreeRecvframe a f.id)
        else
          -- `rtw_recv_indicatepkt`
          match f.pkt with
          | none => (.fail, rtwFreeRecvframe a f.id)
          | some _ => (.success, rtwFreeRecvframe (a.emit [.indicate f.pkt msdu]) f.id)

end Rtl88x2eu
