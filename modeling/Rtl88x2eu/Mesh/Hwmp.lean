import Rtl88x2eu.Lib.Transition
import Rtl88x2eu.Mesh.PathTable

/-!
# Path selection

`rtw_mesh_hwmp.c`, and the resolution of next hops of `rtw_mesh.c`. What is sent to other stations
is left out; what comes from them changes the paths. A frame without a next hop waits in the queue
of its path while a request for the path is sent and sent again.

## Main definitions

* `rtwMeshNexthopLookup`, `rtwMeshNexthopResolve`
* `rtwHwmpRouteInfoGet`, and a frame process for every element
* `rtwMeshPathStartDiscovery`, `rtwMeshPathTimer`
* `MeshEvent`, `meshStep`: one operation
* `MeshSystem`, `meshSystemStep`: operations, where the frames of an updated path go later
-/

namespace Rtl88x2eu.Mesh

open MeshInfo

def rtwSnLt (x y : UInt32) : Bool := 0x80000000 ≤ x - y

def rtwSnGt (x y : UInt32) : Bool := 0x80000000 ≤ y - x

def rtwSnDelta (x y : UInt32) : UInt32 := if y ≤ x then x - y else y - x

def rtwMaxSaneSnDelta : UInt32 := 32

def rtwMaxMetric : UInt32 := 0xffffffff

/-- What there is memory for, and whether the next hop is alive. -/
structure MeshEnv where
  mallocPath : Bool := true
  mallocPreq : Bool := true
  alive : Bool := true

def rtwMeshNexthopLookup (w : MeshInfo) (mda msa : MacAddr) (env : MeshEnv) :
    Option MacAddr × MeshInfo :=
  let (path, w) := rtwMeshPathLookup w mda
  match path with
  | none => (none, w)
  | some p =>
    if !p.flags.active then (none, w)
    else
      let dead := w.cfg.peerAliveBasedPreq && p.nextHop.isSome && !env.alive
      let refresh := dead || w.now + w.cfg.pathRefreshTime > p.expTime
      if w.cfg.macAddr = msa ∧ !p.flags.resolving ∧ !p.flags.fixed ∧ refresh then
        (p.nextHop, rtwMeshQueuePreq w mda true true env.mallocPreq)
      else (p.nextHop, w)

def startResolving (w : MeshInfo) (mda : MacAddr) (env : MeshEnv) : Bool × MeshInfo :=
  let (path, w) := rtwMeshPathLookup w mda
  let (ok, w) := if path.isSome then (true, w) else rtwMeshPathAdd w mda env.mallocPath
  if !ok then (false, w)
  else
    match w.paths mda with
    | none => (false, w)
    | some p =>
      (true, if p.flags.resolving then w else rtwMeshQueuePreq w mda true false env.mallocPreq)

def freeFirst (w : MeshInfo) (dst : MacAddr) : MeshInfo :=
  match w.paths dst with
  | none => w
  | some p =>
    { w.setPath dst (some { p with
        frameQueue := p.frameQueue.tail, frameQueueLen := p.frameQueueLen - 1 }) with
      freed := w.freed ++ p.frameQueue.head?.toList }

def enqueueFrame (w : MeshInfo) (dst : MacAddr) (x : MeshFrame) : MeshInfo :=
  let full := (w.paths dst).any fun p => rtwMeshFrameQueueLen ≤ p.frameQueueLen
  (if full then freeFirst w dst else w).mapPath dst fun p =>
    { p with frameQueue := p.frameQueue ++ [x], frameQueueLen := p.frameQueueLen + 1 }

def rtwMeshNexthopResolve (w : MeshInfo) (mda msa : MacAddr) (mode : MeshFrameMode)
    (env : MeshEnv) : MeshInfo :=
  let x : MeshFrame := { id := w.nextFrame, mda := mda, ra := mda, meshFrameMode := mode }
  let w := { w with nextFrame := w.nextFrame + 1 }
  let (nextHop, w) := rtwMeshNexthopLookup w mda msa env
  if nextHop.isSome then w
  else
    let (ok, w) := startResolving w mda env
    if !ok then { w with freed := w.freed ++ [x] }
    else { enqueueFrame w mda x with resolving := w.resolving ++ [x.id] }

/-- `rtw_mesh_rx_nexthop_resolve`: the frame that was received is dropped. -/
def rtwMeshRxNexthopResolve (w : MeshInfo) (mda msa : MacAddr) (env : MeshEnv) : MeshInfo :=
  let (nextHop, w) := rtwMeshNexthopLookup w mda msa env
  if nextHop.isSome then w else (startResolving w mda env).2

def issueAkaChkFrame (w : MeshInfo) (target : MacAddr) (env : MeshEnv) : MeshInfo :=
  let (path, w) := rtwMeshPathLookup w target
  let w := if path.isSome then w else (rtwMeshPathAdd w target env.mallocPath).2
  match w.paths target with
  | none => w
  | some p => if p.flags.active then w else rtwMeshQueuePreq w target true false env.mallocPreq

/-! ## Elements that come in -/

/-- What a PREQ or a PREP says about the station that it comes from. -/
structure RouteInfo where
  originator : MacAddr
  sn : UInt32
  metric : UInt32
  /-- When the information expires. -/
  expTime : ℕ

/-- The station that sent the frame, with the metric of the link to it. -/
structure LastHop where
  ta : MacAddr
  metric : UInt32

/-- Whether a path of the originator is replaced, and whether the element is processed. -/
def freshInfo (p : Mpath) (r : RouteInfo) (newMetric : UInt32) : Bool × Bool :=
  if p.flags.fixed then (false, true)
  else if p.flags.active then
    if p.flags.snValid ∧
      (rtwSnGt p.sn r.sn ∨ (p.sn = r.sn ∧ p.metric ≤ newMetric)) then (false, false)
    else (true, true)
  else if !p.flags.snValid ∨ rtwSnGt r.sn p.sn ∨ rtwMaxSaneSnDelta < rtwSnDelta r.sn p.sn then
    (true, true)
  else (false, false)

def updatePath (w : MeshInfo) (dst sta : MacAddr) (expTime : ℕ) (f : Mpath → Mpath) : MeshInfo :=
  w.mapPath dst fun p =>
    ({ f (p.assignNexthop sta) with expTime := max p.expTime expTime } : Mpath).activate

/-- What a part of `rtw_hwmp_route_info_get` finds: the function goes on, the element is to be
processed, and the path was updated. -/
structure RouteResult where
  ok : Bool := true
  process : Bool := true
  fresh : Bool := true

/-- The metric of the path, at most `RTW_MAX_METRIC`. -/
def newMetric (h : LastHop) (r : RouteInfo) : UInt32 :=
  let sum := r.metric + h.metric
  if sum < r.metric then rtwMaxMetric else sum

/-- `rtw_hwmp_route_info_get` on the originator, up to its frames. -/
def originatorInfo (w : MeshInfo) (h : LastHop) (r : RouteInfo) (malloc : Bool) :
    RouteResult × MeshInfo :=
  let update (w : MeshInfo) : MeshInfo :=
    updatePath w r.originator h.ta r.expTime fun p =>
      { p.mapFlags fun s => { s with snValid := true } with metric := newMetric h r, sn := r.sn }
  if r.originator = w.cfg.macAddr then ({ process := false, fresh := false }, w)
  else
    let (path, w) := rtwMeshPathLookup w r.originator
    match path with
    | some p =>
      let (fresh, process) := freshInfo p r (newMetric h r)
      ({ process, fresh }, if fresh then update w else w)
    | none =>
      let (ok, w) := rtwMeshPathAdd w r.originator malloc
      if ok then ({}, update w) else ({ ok := false, fresh := false }, w)

/-- `rtw_hwmp_route_info_get` on the transmitter, up to its frames. -/
def transmitterInfo (w : MeshInfo) (h : LastHop) (r : RouteInfo) (malloc : Bool) :
    RouteResult × MeshInfo :=
  let update (w : MeshInfo) : MeshInfo :=
    updatePath w h.ta h.ta r.expTime fun p => { p with metric := h.metric }
  if r.originator = h.ta then ({ fresh := false }, w)
  else
    let (path, w) := rtwMeshPathLookup w h.ta
    match path with
    | some p =>
      let fresh := !(p.flags.fixed || p.flags.active && p.metric < h.metric)
      ({ fresh }, if fresh then update w else w)
    | none =>
      let (ok, w) := rtwMeshPathAdd w h.ta malloc
      if ok then ({}, update w) else ({ ok := false, fresh := false }, w)

inductive Learned (w : MeshInfo) (dst : MacAddr) (malloc : Bool) (fresh : Mpath → Bool)
    (update : MeshInfo → MeshInfo) : MeshInfo → Prop
  | left : Learned w dst malloc fresh update (rtwMeshPathLookup w dst).2
  | updated (p : Mpath) (hp : (rtwMeshPathLookup w dst).2.paths dst = some p) (hfresh : fresh p) :
      Learned w dst malloc fresh update (update (rtwMeshPathLookup w dst).2)
  | refused : Learned w dst malloc fresh update
      (rtwMeshPathAdd (rtwMeshPathLookup w dst).2 dst malloc).2
  | made (hp : (rtwMeshPathLookup w dst).2.paths dst = none) :
      Learned w dst malloc fresh update
        (update (rtwMeshPathAdd (rtwMeshPathLookup w dst).2 dst malloc).2)

section Learned

variable {w : MeshInfo} {h : LastHop} {r : RouteInfo} {malloc : Bool}

theorem learned_originator (hown : r.originator ≠ w.cfg.macAddr) :
    Learned w r.originator malloc (fun p => (freshInfo p r (newMetric h r)).1)
      (fun w => updatePath w r.originator h.ta r.expTime fun p =>
        { p.mapFlags fun s => { s with snValid := true } with metric := newMetric h r, sn := r.sn })
      (originatorInfo w h r malloc).2 := by
  unfold originatorInfo
  dsimp only
  rw [if_neg hown]
  split
  next p hp =>
    dsimp only
    split
    next hfresh => exact .updated p hp hfresh
    next => exact .left
  next hp =>
    split
    · exact .made hp
    · exact .refused

theorem learned_transmitter (hta : r.originator ≠ h.ta) :
    Learned w h.ta malloc (fun p => !(p.flags.fixed || p.flags.active && p.metric < h.metric))
      (fun w => updatePath w h.ta h.ta r.expTime fun p => { p with metric := h.metric })
      (transmitterInfo w h r malloc).2 := by
  unfold transmitterInfo
  dsimp only
  rw [if_neg hta]
  split
  next p hp =>
    dsimp only
    split
    next hfresh => exact .updated p hp hfresh
    next => exact .left
  next hp =>
    split
    · exact .made hp
    · exact .refused

end Learned

def sendFresh (x : RouteResult × MeshInfo) (dst : MacAddr) : MeshInfo :=
  if x.1.fresh then rtwMeshPathTxPending x.2 dst else x.2

/-- `rtw_hwmp_route_info_get`: whether the element is processed. -/
def rtwHwmpRouteInfoGet (w : MeshInfo) (h : LastHop) (r : RouteInfo) (malloc malloc' : Bool) :
    Bool × MeshInfo :=
  let x := originatorInfo w h r malloc
  let w := sendFresh x r.originator
  if !x.1.ok then (false, w)
  else
    let y := transmitterInfo w h r malloc'
    (y.1.ok && x.1.process && newMetric h r ≠ 0, sendFresh y h.ta)

structure PreqElem where
  route : RouteInfo
  target : MacAddr
  targetSn : UInt32
  /-- `RTW_IEEE80211_PREQ_TO_FLAG`. -/
  targetOnly : Bool
  isGate : Bool
  lifetime : ℕ

def setGate (w : MeshInfo) (dst : MacAddr) (gate : Bool) (annInt : ℕ) : MeshInfo :=
  if gate then
    rtwMeshPathAddGate (w.mapPath dst fun p => { p with gateAnnInt := annInt, gateAsked := false })
      dst
  else rtwMeshGateDel w dst

def rtwHwmpPreqFrameProcess (w : MeshInfo) (e : PreqElem) : MeshInfo :=
  if e.target = w.cfg.macAddr then w
  else if e.target = .bcast ∧ e.targetOnly then
    setGate (rtwMeshPathLookup w e.route.originator).2 e.route.originator e.isGate e.lifetime
  else
    (rtwMeshPathLookup w e.target).2.mapPath e.target fun p =>
      if !p.flags.snValid ∨ rtwSnLt p.sn e.targetSn then
        { p.mapFlags fun s => { s with snValid := true } with sn := e.targetSn }
      else p

structure PrepElem where
  route : RouteInfo
  originator : MacAddr
  ttl : ℕ
  /-- Bit 7 of the flags. -/
  gateReply : Bool
  isGate : Bool

def rtwHwmpPrepFrameProcess (w : MeshInfo) (e : PrepElem) : MeshInfo :=
  if e.originator = w.cfg.macAddr then
    let (path, w) := rtwMeshPathLookup w e.route.originator
    if path.any (·.gateAsked) ∧ e.gateReply then
      let w := w.mapPath e.route.originator fun p => { p with gateAsked := false }
      if e.isGate then w else rtwMeshGateDel w e.route.originator
    else w
  else if !w.cfg.dot11MeshForwarding ∨ e.ttl ≤ 1 then w
  else (rtwMeshPathLookup w e.originator).2

structure PerrElem where
  ttl : ℕ
  target : MacAddr
  targetSn : UInt32

def rtwHwmpPerrFrameProcess (w : MeshInfo) (ta : MacAddr) (e : PerrElem) : MeshInfo :=
  if e.ttl ≤ 1 then w
  else
    (rtwMeshPathLookup w e.target).2.mapPath e.target fun p =>
      if p.flags.active ∧ p.nextHop = some ta ∧ !p.flags.fixed ∧
        (!p.flags.snValid ∨ rtwSnGt e.targetSn p.sn ∨ e.targetSn = 0) then
        { p.mapFlags fun s => { s with active := false } with
          sn := if e.targetSn ≠ 0 then e.targetSn else p.sn + 1 }
      else p

structure RannElem where
  ttl : ℕ
  addr : MacAddr
  seq : UInt32
  metric : UInt32
  interval : ℕ
  isGate : Bool

def rtwHwmpRannFrameProcess (w : MeshInfo) (h : LastHop) (e : RannElem) (env : MeshEnv) :
    MeshInfo :=
  if e.addr = w.cfg.macAddr then w
  else
    let (path, w) := rtwMeshPathLookup w e.addr
    let w := if path.isSome then w else (rtwMeshPathAdd w e.addr env.mallocPath).2
    match w.paths e.addr with
    | none => w
    | some p =>
      if !rtwSnLt p.sn e.seq ∧ !(p.sn = e.seq ∧ e.metric < p.rannMetric) then w
      else
        let idle := !p.flags.active && !p.flags.resolving
        let confirm : Bool := p.lastPreqToRoot + w.cfg.rootPathConfirmation < w.now
        let w := if (idle ∨ confirm) ∧ !p.flags.fixed ∧ e.ttl ≠ 0 then
          (rtwMeshQueuePreq w e.addr true true env.mallocPreq).mapPath e.addr fun p =>
            { p with lastPreqToRoot := w.now } else w
        let w := w.mapPath e.addr fun p =>
          { p with sn := e.seq, rannMetric := e.metric + h.metric, isRoot := true }
        setGate w e.addr e.isGate e.interval

def sendPreq (w : MeshInfo) (dst : MacAddr) : MeshInfo :=
  let w := { w with lastPreq := w.now }
  if w.cfg.elementTtl = 0 then w else w.mapPath dst fun p => { p with timer := true }

def discoverPath (w : MeshInfo) (node : PreqNode) : MeshInfo :=
  let (path, w) := rtwMeshPathLookup w node.dst
  match path with
  | none => w
  | some p =>
    if p.flags.fixed then w
    else
      let w := w.mapPath node.dst fun p => p.mapFlags fun s => { s with reqQueued := false }
      if node.start then
        if p.flags.resolving then w
        else
          sendPreq (w.mapPath node.dst fun p =>
            { p.mapFlags fun s => { s with resolved := false, resolving := true } with
              discoveryRetries := 0 }) node.dst
      else if !p.flags.resolving ∨ p.flags.resolved then
        w.mapPath node.dst fun p => p.mapFlags fun s => { s with resolving := false }
      else sendPreq w node.dst

def rtwMeshPathStartDiscovery (w : MeshInfo) : MeshInfo :=
  if w.preqQueueLen = 0 ∨ w.now < w.lastPreq + w.cfg.minPreqInt then w
  else
    match w.preqQueue with
    | [] => w
    | node :: rest =>
      discoverPath { w with preqQueue := rest, preqQueueLen := w.preqQueueLen - 1 } node

def rtwMeshPathTimer (w : MeshInfo) (dst : MacAddr) (malloc : Bool) : MeshInfo :=
  match w.paths dst with
  | none => w
  | some p =>
    let p := { p with timer := false }
    if p.flags.resolved ∨ !p.flags.resolving then
      w.setPath dst (some (p.mapFlags fun s => { s with resolving := false, resolved := false }))
    else if p.discoveryRetries < w.cfg.maxPreqRetries then
      rtwMeshQueuePreq
        (w.setPath dst (some
          { p.mapFlags fun s => { s with reqQueued := false } with
            discoveryRetries := p.discoveryRetries + 1 }))
        dst false p.gateAsked malloc
    else
      let w := w.setPath dst (some
        { p.mapFlags fun s =>
            { s with resolving := false, resolved := false, reqQueued := false } with
          expTime := w.now })
      if !p.isGate ∧ 0 < w.numGates then rtwMeshPathSendToGates w dst
      else rtwMeshPathFlushPending w dst

def mpathTxTaskletHdl (w : MeshInfo) : MeshInfo :=
  if w.mpathTxQueueLen ≠ 0 then
    { w with
      mpathTxQueue := [], mpathTxQueueLen := 0, posted := w.posted ++ w.mpathTxQueue }
  else w

/-- What can happen. A walk gives the order in which the table is gone through. -/
inductive MeshEvent
  | elapse (ticks : ℕ)
  | nexthopResolve (mda msa : MacAddr) (mode : MeshFrameMode) (env : MeshEnv)
  | rxNexthopResolve (mda msa : MacAddr) (env : MeshEnv)
  | akaChk (target : MacAddr) (env : MeshEnv)
  | preq (h : LastHop) (e : PreqElem) (malloc malloc' : Bool)
  | prep (h : LastHop) (e : PrepElem) (malloc malloc' : Bool)
  | perr (ta : MacAddr) (e : PerrElem)
  | rann (h : LastHop) (e : RannElem) (env : MeshEnv)
  | startDiscovery
  | timer (dst : MacAddr) (malloc : Bool)
  | mpathTx
  | pathDel (dst : MacAddr)
  | plinkBroken (sta : MacAddr) (walk : List MacAddr)
  | flushByNexthop (sta : MacAddr) (walk : List MacAddr)
  | flushByIface (walk : List MacAddr)
  | pathExpire (walk : List MacAddr) (malloc : MacAddr → Bool)
  /-- `cfg80211_rtw_add_mpath`. -/
  | addMpath (dst nextHop : MacAddr) (malloc : Bool)
  /-- `cfg80211_rtw_change_mpath`. -/
  | changeMpath (dst nextHop : MacAddr)

/-- One step. An armed timer runs off; the error of `rtw_mesh_path_add` is taken for a path in
`cfg80211_rtw_add_mpath`, and nothing is said about what comes after. -/
def meshStep (w : MeshInfo) : MeshEvent → Option MeshInfo
  | .elapse ticks => some { w with now := w.now + ticks }
  | .nexthopResolve mda msa mode env => some (rtwMeshNexthopResolve w mda msa mode env)
  | .rxNexthopResolve mda msa env => some (rtwMeshRxNexthopResolve w mda msa env)
  | .akaChk target env => some (issueAkaChkFrame w target env)
  | .preq h e malloc malloc' =>
    let r := rtwHwmpRouteInfoGet w h e.route malloc malloc'
    some (if r.1 then rtwHwmpPreqFrameProcess r.2 e else r.2)
  | .prep h e malloc malloc' =>
    let r := rtwHwmpRouteInfoGet w h e.route malloc malloc'
    some (if r.1 then rtwHwmpPrepFrameProcess r.2 e else r.2)
  | .perr ta e => some (rtwHwmpPerrFrameProcess w ta e)
  | .rann h e env => some (rtwHwmpRannFrameProcess w h e env)
  | .startDiscovery => some (rtwMeshPathStartDiscovery w)
  | .timer dst malloc =>
    if (w.paths dst).any (·.timer) then some (rtwMeshPathTimer w dst malloc) else none
  | .mpathTx => some (mpathTxTaskletHdl w)
  | .pathDel dst => some (rtwMeshPathDel' w dst)
  | .plinkBroken sta walk => some (rtwMeshPlinkBroken w sta walk)
  | .flushByNexthop sta walk => some (rtwMeshPathFlushByNexthop w sta walk)
  | .flushByIface walk => some (rtwMeshPathFlushByIface w walk)
  | .pathExpire walk malloc => some (rtwMeshPathTblExpire w walk malloc)
  | .addMpath dst nextHop malloc =>
    let r := rtwMeshPathAdd w dst malloc
    if r.1 then some (rtwMeshPathFixNexthop r.2 dst nextHop) else none
  | .changeMpath dst nextHop =>
    some (rtwMeshPathFixNexthop (rtwMeshPathLookup w dst).2 dst nextHop)

/-- What comes after the update of a path. -/
inductive RxStage
  | originator | txOriginator | transmitter | txTransmitter | process
deriving DecidableEq

/-- An operation under way: an element that came in, or the rest of `rtw_mesh_path_fix_nexthop`. -/
inductive MeshJob
  | preq (h : LastHop) (e : PreqElem) (stage : RxStage) (process : Bool)
  | prep (h : LastHop) (e : PrepElem) (stage : RxStage) (process : Bool)
  | fix (dst : MacAddr)

/-- A part of `rtw_hwmp_route_info_get`; `none` when it is over. -/
def rxAdvance (w : MeshInfo) (h : LastHop) (r : RouteInfo) (stage : RxStage)
    (process malloc : Bool) : MeshInfo × Option (RxStage × Bool) :=
  match stage with
  | .originator =>
    let x := originatorInfo w h r malloc
    (x.2, if !x.1.ok then none
      else some (if x.1.fresh then .txOriginator else .transmitter, x.1.process))
  | .txOriginator => (rtwMeshPathTxPending w r.originator, some (.transmitter, process))
  | .transmitter =>
    let x := transmitterInfo w h r malloc
    (x.2, if !x.1.ok then none
      else some (if x.1.fresh then .txTransmitter else .process, process))
  | .txTransmitter => (rtwMeshPathTxPending w h.ta, some (.process, process))
  | .process => (w, none)

/-- A part of an operation, and what is left of it. -/
def MeshJob.advance (w : MeshInfo) (malloc : Bool) : MeshJob → MeshInfo × List MeshJob
  | .preq h e stage process =>
    let (w', next) := rxAdvance w h e.route stage process malloc
    match next with
    | some (stage, process) => (w', [.preq h e stage process])
    | none =>
      (if stage = .process ∧ process ∧ newMetric h e.route ≠ 0 then rtwHwmpPreqFrameProcess w' e
        else w', [])
  | .prep h e stage process =>
    let (w', next) := rxAdvance w h e.route stage process malloc
    match next with
    | some (stage, process) => (w', [.prep h e stage process])
    | none =>
      (if stage = .process ∧ process ∧ newMetric h e.route ≠ 0 then rtwHwmpPrepFrameProcess w' e
        else w', [])
  | .fix dst => (rtwMeshPathTxPending w dst, [])

/-- The table, and the operations under way. -/
structure MeshSystem where
  info : MeshInfo
  jobs : List MeshJob := []

inductive MeshSystemEvent
  /-- A whole operation. -/
  | op (e : MeshEvent)
  | preq (h : LastHop) (e : PreqElem)
  | prep (h : LastHop) (e : PrepElem)
  | addMpath (dst nextHop : MacAddr) (malloc : Bool)
  | changeMpath (dst nextHop : MacAddr)
  /-- An operation goes on. -/
  | job (k : ℕ) (malloc : Bool)

def meshSystemStep (s : MeshSystem) : MeshSystemEvent → Option MeshSystem
  | .op e => (meshStep s.info e).map fun w => { s with info := w }
  | .preq h e => some { s with jobs := s.jobs ++ [.preq h e .originator false] }
  | .prep h e => some { s with jobs := s.jobs ++ [.prep h e .originator false] }
  | .addMpath dst nextHop malloc =>
    let r := rtwMeshPathAdd s.info dst malloc
    if r.1 then some { info := fixPath r.2 dst nextHop, jobs := s.jobs ++ [.fix dst] } else none
  | .changeMpath dst nextHop =>
    let (path, w) := rtwMeshPathLookup s.info dst
    some (if path.isNone then { s with info := w }
      else { info := fixPath w dst nextHop, jobs := s.jobs ++ [.fix dst] })
  | .job k malloc =>
    s.jobs[k]?.map fun j =>
      let (w, rest) := j.advance s.info malloc
      { info := w, jobs := s.jobs.eraseIdx k ++ rest }

end Rtl88x2eu.Mesh
