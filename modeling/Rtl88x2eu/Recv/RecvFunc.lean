import Rtl88x2eu.Recv.Validate

/-!
# The receive path of one frame

`recv_func` and its two halves: `recv_func_prehandle` validates, `recv_func_posthandle` decrypts,
defragments, counts, reorders and indicates.

## Main definitions

* `recvIndicatepktReorder`, `recvFuncPosthandle`
* `recvFuncPrehandle`, with `mpRecvFrame` for the test mode
* `recvFrameMonitor`
* `recvFunc`, with `drainOnKey` and `handlePassed` before and behind `recv_func_prehandle`
-/

namespace Rtl88x2eu

variable (env : Env)

def processMpdus (a : Adapter) (fs : List RecvFrame) : Adapter :=
  fs.foldl (fun a f => (recvProcessMpdu env a f).2) a

/-- The reorder window of an adapter. -/
def recvIndicatepktReorder (a : Adapter) (f : RecvFrame) : Ret × Adapter :=
  match f.preorderCtrl with
  | none => (.success, a)
  | some ctrl =>
    let r := (a.reorder ctrl).recvIndicatepktReorder f
    (r.1, processMpdus env (a.setReorder ctrl r.2.1) r.2.2)

def setIseq (a : Adapter) (f : RecvFrame) (iseq : ℕ → ℕ) : Adapter :=
  match f.preorderCtrl with
  | none => a
  | some ctrl =>
    a.setReorder ctrl { a.reorder ctrl with indicateSeq := iseq (a.reorder ctrl).indicateSeq }

def Adapter.countDrop (a : Adapter) : Adapter := { a with dbgRxDropCount := a.dbgRxDropCount + 1 }

/-- `recv_func_posthandle` behind `portctrl`: `f` is the frame that came in, `g` what
defragmentation made of it. A frame that the reorder window refuses is freed as `f`. -/
def posthandleIndicate (a : Adapter) (f g : RecvFrame) : Ret × Adapter :=
  let a := countRxStats a g none
  match recvIndicatepktReorder env a g with
  | (.fail, a) => (.fail, (rtwFreeRecvframe a f.id).countDrop)
  | (.rxHandled, a) => (.rxHandled, a)
  | (.success, a) =>
    let a := setIseq a g fun _ => f.attrib.seqNum
    let r := recvProcessMpdu env a g
    let a := setIseq r.2 g fun iseq => (iseq + 1) % 4096
    (r.1, if r.1 = .fail then a.countDrop else a)

def recvFuncPosthandle (a : Adapter) (f : RecvFrame) : Ret × Adapter :=
  match decryptor env.crypto a f with
  | (none, a) => (.fail, a.countDrop)
  | (some f, a) =>
    match recvframeChkDefrag env.crypto a f with
    | (none, a) => (.success, a.countDrop)
    | (some g, a) =>
      match portctrl a g with
      | (none, a) => (.fail, a.countDrop)
      | (some g, a) => posthandleIndicate env a f g

def mpwlanhdrToEthhdr (a : Adapter) (f : RecvFrame) : Bytes :=
  let g := if f.attrib.encrypt ≠ .noPrivacy then recvframePullTail f f.attrib.icvLen else f
  let start := f.attrib.hdrlen + f.attrib.ivLen
  let llc := rtwRecvLlcParse (f.rxData.drop start) (u16 ((g.len : ℤ) - start))
  let rmvLen := start + (if llc then snapSize else 0)
  let dst := if a.bRTWSmbCfg ∧ f.attrib.bssid.b0 = 0x01 ∧ f.attrib.bssid.b1 = 0x00 ∧
    f.attrib.bssid.b2 = 0x5e then f.attrib.bssid else f.attrib.dst
  let ehdr := dst.toBytes ++ f.attrib.src.toBytes ++ Bytes.ofBe16 f.attrib.seqNum
  ehdr ++ g.rxData.drop (rmvLen + (if llc then 2 else 0))

def mpDataHdr (a : Adapter) (w : Bytes) (p : RxPktAttrib) : HdrResult :=
  let (da, sa, bssid) :=
    if p.toFrDs = 0 then (getAddr1 w, getAddr2 w, getAddr3 w)
    else if p.toFrDs = 1 then (getAddr3 w, getAddr2 w, getAddr1 w)
    else if p.toFrDs = 2 then (getAddr1 w, getAddr3 w, getAddr2 w)
    else (getAddr3 w, getAddr4 w, getAddr1 w)
  if p.toFrDs = 0 then sta2staDataFrame a w (p.setAddrs da sa da sa bssid)
  else if p.toFrDs = 1 then sta2apDataFrame a w (p.setAddrs bssid sa da sa bssid)
  else if p.toFrDs = 2 then ap2staDataFrame a w (p.setAddrs da bssid da sa bssid)
  else (.fail, p, none)

/-- The data frames of `mp_recv_frame` that are indicated: `none` when the frame is dropped. -/
def mpDataIndicate (a : Adapter) (f : RecvFrame) : Option (RecvFrame × Bytes) :=
  let r := mpDataHdr a f.rxData f.attrib
  let f := { f with attrib := r.2.1 }
  if r.1 = .success ∧ !a.cannotRun then some (f, mpwlanhdrToEthhdr a f) else none

/-- `mp_recv_frame`: every branch ends in the free at `exit`, also where the frame was freed
before. -/
def mpRecvFrame (a : Adapter) (f : RecvFrame) : Adapter :=
  let freed :=
    if !a.fwState.asoc then a
    else if !a.rxBindicatePkt then rtwFreeRecvframe a f.id
    else
      let f := { f with attrib := parseFrameCtrl f.rxData f.attrib }
      if getFrameType f.rxData ≠ .data then a
      else
        match mpDataIndicate a f with
        | none => a
        | some (f, msdu) =>
          -- `rtw_recv_indicatepkt`
          match f.pkt with
          | none => rtwFreeRecvframe a f.id
          | some _ => rtwFreeRecvframe (a.emit [.indicate f.pkt msdu]) f.id
  rtwFreeRecvframe freed f.id

def recvFuncPrehandle (a : Adapter) (f : RecvFrame) : Ret × RecvFrame × Adapter :=
  if a.mpMode ∨ a.bRTWSmbCfg then (.fail, f, mpRecvFrame a f)
  else
    let r := validateRecvFrame env a f
    (r.1, r.2.1, if r.1 = .success then r.2.2 else rtwFreeRecvframe r.2.2 f.id)

def recvFrameMonitor (a : Adapter) (f : RecvFrame) : Adapter :=
  let a := if !a.cannotRun ∧ env.recvMonitor a f then a.emit [.monitor f.pkt] else a
  rtwFreeRecvframe a f.id

def drainUcSwdec (a : Adapter) : ℕ → Adapter
  | 0 => a
  | n + 1 =>
    match dequeueUcSwdecPending a with
    | (none, a) => a
    | (some f, a) => drainUcSwdec (recvFuncPosthandle env a f).2 n

def waitsForKey (a : Adapter) (f : RecvFrame) : Bool :=
  a.fwState.station && !f.attrib.ra.isMcast && f.attrib.encrypt ≠ .noPrivacy &&
    (!f.attrib.bdecrypted || a.securitypriv.swDecrypt) && a.securitypriv.ndisauthtypeWpaPsk &&
    !a.securitypriv.busetkipkey

/-- `recv_func` before `recv_func_prehandle`: with the pairwise key installed, the waiting frames
are handled. -/
def drainOnKey (a : Adapter) : Adapter :=
  if a.fwState.station ∧ a.securitypriv.busetkipkey then
    drainUcSwdec env a a.ucSwdecPendingQueue.length
  else a

def handlePassed (a : Adapter) (f : RecvFrame) : Ret × Adapter :=
  if waitsForKey a f then
    let a := rtwEnqueueRecvframe a f
    -- to prevent from recvframe starvation
    if a.freeRecvframeCnt < nrRecvframe / 4 then
      match dequeueUcSwdecPending a with
      | (some g, a) => recvFuncPosthandle env a g
      | (none, a) => (.success, a)
    else (.success, a)
  else recvFuncPosthandle env a f

def recvFunc (a : Adapter) (f : RecvFrame) : Ret × Adapter :=
  if a.fwState.monitor then (.success, recvFrameMonitor env a f)
  else
    let r := recvFuncPrehandle env (drainOnKey env a) f
    if r.1 = .success then handlePassed env r.2.2 r.2.1 else (r.1, r.2.2)

end Rtl88x2eu
