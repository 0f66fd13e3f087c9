import Rtl88x2eu.Coop.Group

/-!
# The path of a helper frame

From the receive hook of a helper to the pending queue of the group, and from there through one
iteration of the drain, on the whole driver and with the counters.

## Main definitions

* `preRecvEntry`, `submitHelperFrame`, `drainIteration`
* `World.groupCrypto`, `World.storeCrypto`: the group's view of the kernel's transforms
-/

namespace Rtl88x2eu.Coop

def preRecvHeader (w : Bytes) (p : RxPktAttrib) : RxPktAttrib :=
  let toFrDs := getToFrDs w
  let p := { p with
    toFrDs
    seqNum := getSequence w
    fragNum := getFragNum w
    privacy := getPrivacy w }
  let p :=
    if toFrDs = 2 then
      p.setAddrs (getAddr1 w) (getAddr2 w) (getAddr1 w) (getAddr3 w) (getAddr2 w)
    else if toFrDs = 1 then
      p.setAddrs (getAddr1 w) (getAddr2 w) (getAddr3 w) (getAddr2 w) (getAddr1 w)
    else p.setAddrs (getAddr1 w) (getAddr2 w) (getAddr1 w) (getAddr2 w) (getAddr3 w)
  if isQosDataType w then
    { p with qos := true, priority := getPriority w (wlanHdrA3Len + a4Shift toFrDs) }
  else { p with qos := false, priority := 0 }

/-! ## The checks of a submit -/

def submitAddrsOk (g : Group) (a : Adapter) (p : RxPktAttrib) : Bool :=
  if p.toFrDs = 2 then p.ta = g.boundBssid && (p.ra.isMcast || p.ra = a.macAddr)
  else p.toFrDs = 1 && a.fwState.ap && p.ra = g.boundBssid

/-- The cipher of a protected frame whose descriptor has none, from the keys of the primary; the
header length is set here only. -/
def submitFixEncrypt (a : Adapter) (s : StaId) (p : RxPktAttrib) : RxPktAttrib :=
  if p.privacy ∧ p.encrypt = .noPrivacy then
    let enc := getEncryAlgo a.securitypriv (a.sta s) p.ra.isMcast
    { p with
      encrypt := enc
      ivLen := enc.ivLen
      icvLen := enc.icvLen
      bdecrypted := false
      hdrlen := (if p.qos then wlanHdrA3QosLen else wlanHdrA3Len) + a4Shift p.toFrDs }
  else p

/-- The cipher of a frame, behind `submitFixEncrypt`, is one that the primary can decrypt. -/
def submitCryptoOk (p : RxPktAttrib) : Bool :=
  if p.privacy then p.encrypt ≠ .noPrivacy else p.encrypt = .noPrivacy || p.bdecrypted

def submitLate (a : Adapter) (s : StaId) (p : RxPktAttrib) : Bool :=
  let c := a.reorder (s, Tid.clamp p.priority)
  c.enable && c.indicateSeq ≠ 0xFFFF && snLess p.seqNum c.indicateSeq

/-- `coop_nonqos_check_and_record`: whether the pair is in the cache, and the cache behind it. -/
def nonqosCheckAndRecord (c : NonqosSeqCache) (seqNum : ℕ) (ta : MacAddr) :
    Bool × NonqosSeqCache :=
  if ∃ i, c.entries i = some (seqNum, ta) then (true, c)
  else
    (false,
      { entries := Function.update c.entries c.idx (some (seqNum, ta))
        idx := c.idx + ⟨1, by decide⟩ })

def submitStalePn (a : Adapter) (s : StaId) (f : RecvFrame) : Bool :=
  let p := f.attrib
  let tid := Tid.clamp (if p.qos then p.priority else 0)
  p.encrypt ≠ .noPrivacy && !p.bdecrypted && p.encrypt.hasPn &&
    !validPnChk (ivToPn p.encrypt (f.rxData.drop p.hdrlen)) (ivToPn p.encrypt ((a.sta s).iv tid))

abbrev Checked := Except (Option Stat) (StaId × RxPktAttrib) × NonqosSeqCache

def submitDedup (g : Group) (a : Adapter) (s : StaId) (f : RecvFrame) : Checked :=
  let p := f.attrib
  if p.qos then
    if 15 < p.priority then (.error none, g.nonqosCache)
    else if submitLate a s p then (.error (some .helperRxLate), g.nonqosCache)
    else if submitStalePn a s f then (.error (some .helperRxDupDropped), g.nonqosCache)
    else (.ok (s, p), g.nonqosCache)
  else
    let r := nonqosCheckAndRecord g.nonqosCache p.seqNum p.ta
    if r.1 then (.error (some .helperRxDupDropped), r.2)
    else if submitStalePn a s f then (.error (some .helperRxDupDropped), r.2)
    else (.ok (s, p), r.2)

def submitCheck (g : Group) (a : Adapter) (f : RecvFrame) : Checked :=
  let p := f.attrib
  if !submitAddrsOk g a p then (.error (some .helperRxForeign), g.nonqosCache)
  else if p.crcErr ∨ p.icvErr then (.error (some .helperRxCryptoErr), g.nonqosCache)
  else
    match rtwGetStainfo a p.ta with
    | none => (.error (some .helperRxNoSta), g.nonqosCache)
    | some s =>
      let p := submitFixEncrypt a s p
      if !submitCryptoOk p then (.error (some .helperRxCryptoErr), g.nonqosCache)
      else submitDedup g a s { f with attrib := p }

def primaryFrame (id : ℕ) (s : StaId) (f : RecvFrame) : RecvFrame :=
  let fcs := if ieee80211FcsLen ≤ f.len then ieee80211FcsLen else 0
  { id
    pkt := f.pkt
    attrib := f.attrib
    rxData := f.rxData.take (f.len - fcs)
    tailRoom := f.tailRoom + fcs
    psta := some s
    preorderCtrl :=
      if f.attrib.qos ∧ !f.attrib.ra.isMcast then some (s, Tid.clamp f.attrib.priority) else none }

/-- The end of `rtw_coop_rx_submit_helper_frame`: the frame is pending; over the limit the frame at
the head goes, and the submitted one is counted. -/
def submitEnqueue (w : World) (g : Group) (primary : AdapterId) (f : RecvFrame) : World :=
  let q := g.pendingQueue ++ [f]
  if (coopPendingMax : ℤ) < g.pendingCount + 1 then
    let w := w.freePending q.head?.toList (some primary)
    w.setGrp (({ g with pendingQueue := q.tail } : Group).count .helperRxBackpressure)
  else
    w.setGrp (({ g with pendingQueue := q, pendingCount := g.pendingCount + 1 } : Group).count
      .helperRxDeferred)

/-- `rtw_coop_rx_submit_helper_frame`, with its checks. -/
def submitHelperFrame (w : World) (helper : AdapterId) (f : RecvFrame) : Ret × World :=
  match w.grp with
  | none => (.fail, w)
  | some g =>
    match g.primary with
    | none => (.fail, w)
    | some primary =>
      if g.state ≠ .active ∨ (w.adapter primary).drvStopped then (.fail, w)
      else
        let g := g.count .helperRxCandidates
        match submitCheck g (w.adapter primary) f with
        | (.error x, cache) =>
          let g := { g with nonqosCache := cache }
          (.fail, w.setGrp (match x with | some x => g.count x | none => g))
        | (.ok (s, p), cache) =>
          let g := { g with nonqosCache := cache }
          match rtwAllocRecvframe (w.adapter primary) with
          | (none, _) => (.fail, w.setGrp (g.count .helperRxPoolFull))
          | (some id, a) =>
            let w := w.setAdapter primary a
            -- the helper's descriptor goes back without its packet
            let w := w.setAdapter helper (rtwFreeRecvframe (w.adapter helper) f.id)
            (.rxHandled, submitEnqueue w g primary (primaryFrame id s { f with attrib := p }))

/-- `rtw_coop_rx_pre_recv_entry`: `_FAIL` leaves the frame to the caller. -/
def preRecvEntry (w : World) (adapter : AdapterId) (f : RecvFrame) : Ret × World :=
  if !isHelper w adapter then (.fail, w)
  else if getFrameType f.rxData ≠ .data then (.fail, w)
  else
    let f := { f with attrib := preRecvHeader f.rxData f.attrib }
    match submitHelperFrame w adapter f with
    | (.rxHandled, w) => (.rxHandled, w)
    | (_, w) => (.rxHandled, w.setAdapter adapter (rtwFreeRecvframe (w.adapter adapter) f.id))

def World.groupCrypto (w : World) (g : Group) : GroupCrypto where
  tfm t := (g.tfm t).map w.kernel.key
  cachedKey := g.cachedKey

/-- The transform behind a field has been given a key, or has lost it. -/
def storeTfm (g : Group) (c : GroupCrypto) (p : AeadPool) (t : Tfm) : AeadPool :=
  match g.tfm t, c.tfm t with
  | some i, some (some key) =>
    { p with
      installed := Function.update p.installed i (some key)
      needKey := Function.update p.needKey i false }
  | some i, some none => { p with needKey := Function.update p.needKey i true }
  | _, _ => p

def World.storeCrypto (w : World) (g : Group) (c : GroupCrypto) : World :=
  { w with kernel := tfms.foldl (storeTfm g c) w.kernel }.setGrp { g with cachedKey := c.cachedKey }

def drainStat (env : Env) (k : KernelCrypto) (g : GroupCrypto) (a : Adapter) (f : RecvFrame) :
    Stat :=
  match drainDecache a f with
  | (false, _) => .helperRxDupDropped
  | (true, a) =>
    if drainLate a f then .helperRxDupDropped
    else if (drainProcess env k g a f).1 = .fail then .helperRxDupDropped
    else .helperRxAccepted

/-- One iteration of `_coop_rx_drain_tasklet`: `none` when the tasklet has nothing to do. -/
def drainIteration (env : Env) (k : KernelCrypto) (w : World) : Option World :=
  match w.grp with
  | none => none
  | some g =>
    match g.primary, g.pendingQueue with
    | some primary, f :: q =>
      let a := w.adapter primary
      if a.drvStopped ∨ g.state ≠ .active then none
      else
        let g := { g with pendingQueue := q, pendingCount := g.pendingCount - 1 }
        let r := drainFrame env k (w.groupCrypto g) a f
        let g := g.count (drainStat env k (w.groupCrypto g) a f)
        some ((w.setAdapter primary r.2).storeCrypto g r.1)
    | _, _ => none

end Rtl88x2eu.Coop
