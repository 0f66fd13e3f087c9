import Mathlib.Logic.Function.Basic
import Rtl88x2eu.Recv.Attrib

/-!
# The receive state of an adapter

The `recv_frame` descriptors of one adapter, the stations with their reorder windows, fragment
queues and duplicate caches, and the operations on the descriptor pool. A descriptor is a value
that carries its slot in `precv_frame_buf`; a list head of the source is the list of the
descriptors it links, and `rtw_list_delete` unlinks a slot from whatever list holds it.

## Main definitions

* `RecvFrame`, `RecvReorderCtrl`, `StaInfo`, `SecurityPriv`, `Adapter`: the records
* `RxEvent`, `rtwGetStainfo`
* `rtwAllocRecvframe`, `rtwFreeRecvframe`, `rtwEnqueueRecvframe`: the pool operations
-/

namespace Rtl88x2eu

/-- The `_SUCCESS`, `_FAIL` and `RTW_RX_HANDLED` return codes. -/
inductive Ret
  | fail | success | rxHandled
deriving DecidableEq, Repr

def nrRecvframe : ℕ := 256

def numSta : ℕ := 32

instance : NeZero numSta := ⟨by decide⟩

/-- A slot of the station array; `NULL` is `none` of an `Option StaId`. -/
abbrev StaId := Fin numSta

/-- An index of `recvreorder_ctrl` and of the per-TID caches. -/
abbrev Tid := Fin 16

/-- A priority used as an index, bounded as `tid > 15` bounds it. -/
def Tid.clamp (priority : ℕ) : Tid := if h : priority < 16 then ⟨priority, h⟩ else 0

/-- `union recv_frame`: the slot, the packet it owns, and the header fields. -/
structure RecvFrame where
  /-- The slot in `precv_frame_buf`. -/
  id : ℕ
  /-- The `sk_buff`, by identity. -/
  pkt : Option ℕ := none
  attrib : RxPktAttrib := {}
  rxData : Bytes := []
  /-- `rx_end - rx_tail`. -/
  tailRoom : ℕ := 0
  keytrack : ℕ := 0
  psta : Option StaId := none
  preorderCtrl : Option (StaId × Tid) := none
deriving DecidableEq, Repr

def RecvFrame.len (f : RecvFrame) : ℕ := f.rxData.length

structure RecvReorderCtrl where
  enable : Bool := false
  indicateSeq : ℕ := 0xFFFF
  wsizeB : ℕ := 64
  pendingRecvframeQueue : List RecvFrame := []
  bReorderWaiting : Bool := false
  /-- `RTW_RECV_ACK_OR_TIMEOUT` of `rec_abba_rsp_ack`. -/
  recvAckOrTimeout : Bool := false
  /-- `RTW_RECV_REORDER_WOW` of `rec_abba_rsp_ack`. -/
  recvReorderWow : Bool := false
deriving DecidableEq, Repr

structure StainfoStats where
  duplicateCnt : ℕ := 0
  rxCtrlPkts : ℕ := 0
  rxMgntPkts : ℕ := 0
  rxBeaconPkts : ℕ := 0
  rxProbereqPkts : ℕ := 0
  rxProberspPkts : ℕ := 0
  rxProberspBmPkts : ℕ := 0
  rxProberspUoPkts : ℕ := 0
  rxDataPkts : ℕ := 0
  rxBytes : ℕ := 0
  rxDataBcPkts : ℕ := 0
  rxBcBytes : ℕ := 0
  rxDataMcPkts : ℕ := 0
  rxMcBytes : ℕ := 0
  rxratecnt : ℕ → ℕ := fun _ => 0
  rxDataQosPkts : ℕ → ℕ := fun _ => 0

/-- `struct sta_info`, with `struct sta_recv_priv` in place. -/
structure StaInfo where
  macAddr : MacAddr := .zero
  /-- `flags & WLAN_STA_MFP`. -/
  mfp : Bool := false
  /-- `flags & WLAN_STA_AMSDU_DISABLE`. -/
  amsduDisable : Bool := false
  ieee8021xBlocked : Bool := false
  dot118021XPrivacy : SecurityType := .noPrivacy
  dot118021xUncstKey : Bytes := []
  dot11tkiprxmickey : Bytes := []
  keytrack : ℕ := 0
  bpairwiseKeyInstalled : Bool := false
  defragQ : List RecvFrame := []
  tidRxseq : Tid → ℕ := fun _ => 0xffff
  iv : Tid → Bytes := fun _ => List.replicate 8 0
  lastTid : ℕ := 0
  bmcTidRxseq : Tid → ℕ := fun _ => 0xffff
  nonqosRxseq : ℕ := 0xffff
  nonqosBmcRxseq : ℕ := 0xffff
  recvreorderCtrl : Tid → RecvReorderCtrl := fun _ => {}
  staStats : StainfoStats := {}

/-- `struct security_priv`, the fields that the receive path reads. -/
structure SecurityPriv where
  dot11AuthAlgrthm : AuthAlgrthm := .open
  dot11PrivacyAlgrthm : SecurityType := .noPrivacy
  dot118021XGrpPrivacy : SecurityType := .noPrivacy
  dot118021XGrpKeyid : ℕ := 0
  dot118021XGrpKey : Fin 4 → Bytes := fun _ => []
  dot118021XGrprxmickey : Fin 4 → Bytes := fun _ => []
  dot11DefKey : Fin 4 → Bytes := fun _ => []
  binstallGrpkey : Bool := false
  busetkipkey : Bool := false
  bcheckGrpkey : Bool := false
  binstallBIPkey : Bool := false
  ivSeq : Fin 4 → ℕ := fun _ => 0
  dot11wCipher : SecurityType := .bipCmac128
  dot11wBIPKey : Bytes := []
  dot11wBIPKeyid : ℕ := 0
  dot11wBIPrxpn : ℕ := 0
  swDecrypt : Bool := false
  hwDecrypted : Bool := true
  /-- `ndisauthtype == Ndis802_11AuthModeWPAPSK`. -/
  ndisauthtypeWpaPsk : Bool := false

inductive AmsduMode
  | nonSpp | spp | allDrop
deriving DecidableEq, Repr

structure FwState where
  asoc : Bool := false
  underLinking : Bool := false
  station : Bool := false
  ap : Bool := false
  adhoc : Bool := false
  adhocMaster : Bool := false
  mp : Bool := false
  monitor : Bool := false
deriving DecidableEq, Repr

/-- What leaves the receive path, logged in `Adapter.trace`. -/
inductive RxEvent
  /-- `rtw_os_recv_indicate_pkt` gives an Ethernet frame to the network stack. -/
  | indicate (pkt : Option ℕ) (msdu : Bytes)
  /-- `recv_fwd_pkt_hdl` gives an Ethernet frame to the transmit path. -/
  | forward (msdu : Bytes)
  /-- `rtw_recv_monitor` gives an 802.11 frame to the monitor interface. -/
  | monitor (pkt : Option ℕ)
  /-- `recv_process_mpdu` starts on an MPDU. -/
  | process (f : RecvFrame)
  /-- `recvframe_chk_defrag` queues a fragment. -/
  | defrag (f : RecvFrame)
deriving DecidableEq, Repr

/-- `_adapter`, the fields that the receive path uses, and the log of what left it. -/
structure Adapter where
  macAddr : MacAddr := .zero
  curBssid : MacAddr := .zero
  fwState : FwState := {}
  drvStopped : Bool := false
  surpriseRemoved : Bool := false
  securitypriv : SecurityPriv := {}
  staHash : List StaId := []
  sta : StaId → StaInfo := fun _ => {}
  asocListCnt : ℕ := 0
  apIsolate : Bool := false
  amsduMode : AmsduMode := .nonSpp
  mpMode : Bool := false
  bRTWSmbCfg : Bool := false
  rxBindicatePkt : Bool := false
  freeRecvQueue : List ℕ := []
  freeRecvframeCnt : ℤ := 0
  ucSwdecPendingQueue : List RecvFrame := []
  rxBytes : ℕ := 0
  dbgRxDropCount : ℕ := 0
  isAnyNonBePkts : Bool := false
  rssi : ℤ := 0
  trace : List RxEvent := []

def Adapter.cannotRun (a : Adapter) : Bool := a.surpriseRemoved || a.drvStopped

/-! ## Updates -/

def Adapter.setSta (a : Adapter) (s : StaId) (p : StaInfo) : Adapter :=
  { a with sta := Function.update a.sta s p }

def StaInfo.setReorder (p : StaInfo) (t : Tid) (c : RecvReorderCtrl) : StaInfo :=
  { p with recvreorderCtrl := Function.update p.recvreorderCtrl t c }

def Adapter.reorder (a : Adapter) (p : StaId × Tid) : RecvReorderCtrl :=
  (a.sta p.1).recvreorderCtrl p.2

def Adapter.setReorder (a : Adapter) (p : StaId × Tid) (c : RecvReorderCtrl) : Adapter :=
  a.setSta p.1 ((a.sta p.1).setReorder p.2 c)

def Adapter.emit (a : Adapter) (es : List RxEvent) : Adapter := { a with trace := a.trace ++ es }

@[simp] theorem emit_emit (a : Adapter) (es es' : List RxEvent) :
    (a.emit es).emit es' = a.emit (es ++ es') := by
  simp [Adapter.emit]

@[simp] theorem setSta_sta (a : Adapter) (s : StaId) (p : StaInfo) : (a.setSta s p).sta s = p := by
  simp [Adapter.setSta]

theorem setSta_sta_of_ne (a : Adapter) {s i : StaId} (p : StaInfo) (h : i ≠ s) :
    (a.setSta s p).sta i = a.sta i := by
  simp [Adapter.setSta, h]

@[simp] theorem setReorder_recvreorderCtrl (p : StaInfo) (t : Tid) (c : RecvReorderCtrl) :
    (p.setReorder t c).recvreorderCtrl t = c := by
  simp [StaInfo.setReorder]

theorem setReorder_recvreorderCtrl_of_ne (p : StaInfo) {t i : Tid} (c : RecvReorderCtrl)
    (h : i ≠ t) : (p.setReorder t c).recvreorderCtrl i = p.recvreorderCtrl i := by
  simp [StaInfo.setReorder, h]

@[simp] theorem reorder_setReorder (a : Adapter) (p : StaId × Tid) (c : RecvReorderCtrl) :
    (a.setReorder p c).reorder p = c := by
  simp [Adapter.reorder, Adapter.setReorder]

theorem reorder_setReorder_of_ne (a : Adapter) {p q : StaId × Tid} (c : RecvReorderCtrl)
    (h : q ≠ p) : (a.setReorder p c).reorder q = a.reorder q := by
  unfold Adapter.reorder Adapter.setReorder
  by_cases hs : q.1 = p.1
  · have ht : q.2 ≠ p.2 := fun ht => h (Prod.ext hs ht)
    rw [hs, setSta_sta, setReorder_recvreorderCtrl_of_ne _ c ht]
  · rw [setSta_sta_of_ne _ _ hs]

theorem setReorder_defragQ (a : Adapter) (p : StaId × Tid) (c : RecvReorderCtrl) (s : StaId) :
    ((a.setReorder p c).sta s).defragQ = (a.sta s).defragQ := by
  unfold Adapter.setReorder
  by_cases hs : s = p.1
  · rw [hs, setSta_sta]
    rfl
  · rw [setSta_sta_of_ne _ _ hs]

/-- `rtw_get_stainfo`: every group address stands for the broadcast station. -/
def rtwGetStainfo (a : Adapter) (hwaddr : MacAddr) : Option StaId :=
  let addr := if hwaddr.isMcast then .bcast else hwaddr
  a.staHash.find? fun s => (a.sta s).macAddr = addr

def Adapter.listDelete (a : Adapter) (id : ℕ) : Adapter :=
  let unlink (q : List RecvFrame) := q.filter (·.id ≠ id)
  { a with
    freeRecvQueue := a.freeRecvQueue.filter (· ≠ id)
    ucSwdecPendingQueue := unlink a.ucSwdecPendingQueue
    sta := fun s => { a.sta s with
      defragQ := unlink (a.sta s).defragQ
      recvreorderCtrl := fun t => { (a.sta s).recvreorderCtrl t with
        pendingRecvframeQueue := unlink ((a.sta s).recvreorderCtrl t).pendingRecvframeQueue } } }

/-- `rtw_alloc_recvframe(&precvpriv->free_recv_queue)`: the slot at the head of the free list. -/
def rtwAllocRecvframe (a : Adapter) : Option ℕ × Adapter :=
  match a.freeRecvQueue with
  | [] => (none, a)
  | id :: rest =>
    (some id, { a with freeRecvQueue := rest, freeRecvframeCnt := a.freeRecvframeCnt - 1 })

def rtwFreeRecvframe (a : Adapter) (id : ℕ) : Adapter :=
  let a := a.listDelete id
  { a with
    freeRecvQueue := a.freeRecvQueue ++ [id]
    freeRecvframeCnt := a.freeRecvframeCnt + 1 }

/-- `rtw_free_recvframe_queue`, for the descriptors linked on a queue. -/
def rtwFreeRecvframeQueue (a : Adapter) (q : List RecvFrame) : Adapter :=
  q.foldl (fun a f => rtwFreeRecvframe a f.id) a

def rtwEnqueueRecvframe (a : Adapter) (f : RecvFrame) : Adapter :=
  let a := a.listDelete f.id
  { a with ucSwdecPendingQueue := a.ucSwdecPendingQueue ++ [f] }

/-- `rtw_alloc_recvframe(&precvpriv->uc_swdec_pending_queue)`: the count of free descriptors is
not touched. -/
def dequeueUcSwdecPending (a : Adapter) : Option RecvFrame × Adapter :=
  match a.ucSwdecPendingQueue with
  | [] => (none, a)
  | f :: rest => (some f, { a with ucSwdecPendingQueue := rest })

end Rtl88x2eu
