import Mathlib.Data.List.Basic
import Rtl88x2eu.Recv.Attrib

/-!
# The mesh path table

`rtw_mesh_pathtbl.c`. Every destination has a path at most, with the frames that wait for it, its
flags and its discovery timer. Some paths lead to gates; the frames of a path that could not be
found are handed to the gates.

Frames have numbers, and a record is kept of the frames that `rtw_xmit_posthandle` got and of those
that were freed.

## Main definitions

* `Mpath`, `MeshInfo`
* `rtwMeshPathAdd`, `rtwMeshPathDel'`: paths come and go
* `rtwMeshPathMoveToQueue`, `rtwMeshPathSendToGates`, `rtwMeshPathTxPending`,
  `rtwMeshPathFlushPending`: frames move on
* `rtwMeshQueuePreq`, `rtwMeshPathTblExpire`
-/

namespace Rtl88x2eu.Mesh

/-! ## Paths -/

/-- `mesh_frame_mode`, as far as the gates change it. -/
inductive MeshFrameMode
  | ucastData | ucastPxData | other
deriving DecidableEq

structure MeshFrame where
  id : ℕ
  mda : MacAddr
  ra : MacAddr
  meshFrameMode : MeshFrameMode := .ucastData
deriving DecidableEq

/-- `enum rtw_mesh_path_flags`. -/
structure MpathFlags where
  active : Bool := false
  resolving : Bool := false
  snValid : Bool := false
  fixed : Bool := false
  resolved : Bool := false
  reqQueued : Bool := false
deriving DecidableEq

/-- `struct rtw_mesh_path`. -/
structure Mpath where
  dst : MacAddr
  nextHop : Option MacAddr := none
  flags : MpathFlags := {}
  timer : Bool := false
  frameQueue : List MeshFrame := []
  frameQueueLen : ℕ := 0
  sn : UInt32 := 0
  metric : UInt32 := 0
  expTime : ℕ
  gateTimeout : ℕ := 0
  gateAnnInt : ℕ := 0
  discoveryRetries : ℕ := 0
  rannMetric : UInt32 := 0
  lastPreqToRoot : ℕ := 0
  isRoot : Bool := false
  isGate : Bool := false
  gateAsked : Bool := false
deriving DecidableEq

/-- `struct rtw_mesh_preq_queue`, with two of its flags. -/
structure PreqNode where
  dst : MacAddr
  start : Bool
  refresh : Bool
deriving DecidableEq

/-- What `struct rtw_mesh_cfg` says, in ticks of the clock. -/
structure MeshCfg where
  macAddr : MacAddr
  elementTtl : ℕ := 31
  maxPreqRetries : ℕ := 4
  minPreqInt : ℕ := 10
  pathRefreshTime : ℕ := 1000
  pathGateTimeoutFactor : ℕ := 3
  rootPathConfirmation : ℕ := 2000
  pathExpire : ℕ := 600000
  peerAliveBasedPreq : Bool := false
  dot11MeshForwarding : Bool := true

/-- The table, the queue of requests and the queue of the transmit tasklet. -/
structure MeshInfo where
  cfg : MeshCfg
  now : ℕ := 0
  paths : MacAddr → Option Mpath := fun _ => none
  /-- `mesh_paths->known_gates`. -/
  knownGates : List MacAddr := []
  numGates : ℕ := 0
  /-- The number of paths, as it is counted. -/
  mpaths : ℤ := 0
  preqQueue : List PreqNode := []
  preqQueueLen : ℕ := 0
  lastPreq : ℕ := 0
  mpathTxQueue : List MeshFrame := []
  mpathTxQueueLen : ℕ := 0
  nextFrame : ℕ := 0
  /-- The frames for which `rtw_mesh_nexthop_resolve` returned `RTW_RA_RESOLVING`. -/
  resolving : List ℕ := []
  /-- The frames that `rtw_xmit_posthandle` got. -/
  posted : List MeshFrame := []
  /-- The frames that `rtw_free_xmitframe` got. -/
  freed : List MeshFrame := []

def rtwMeshFrameQueueLen : ℕ := 10

def rtwMaxPreqQueueLen : ℕ := 64

def rtwMeshMaxMpaths : ℤ := 1024

namespace MeshInfo

variable (w : MeshInfo) (dst : MacAddr)

def setPath (p : Option Mpath) : MeshInfo := { w with paths := Function.update w.paths dst p }

def mapPath (f : Mpath → Mpath) : MeshInfo := w.setPath dst ((w.paths dst).map f)

end MeshInfo

namespace Mpath

variable (p : Mpath)

def mapFlags (f : MpathFlags → MpathFlags) : Mpath := { p with flags := f p.flags }

def expired (now : ℕ) : Bool := p.flags.active && p.expTime < now && !p.flags.fixed

def assignNexthop (sta : MacAddr) : Mpath :=
  { p with nextHop := some sta, frameQueue := p.frameQueue.map fun x => { x with ra := sta } }

def activate : Mpath := p.mapFlags fun s => { s with active := true, resolved := true }

end Mpath

open MeshInfo

def rtwMeshPathLookup (w : MeshInfo) (dst : MacAddr) : Option Mpath × MeshInfo :=
  let w := w.mapPath dst fun p =>
    if p.expired w.now then p.mapFlags fun s => { s with active := false } else p
  (w.paths dst, w)

def rtwMeshPathAdd (w : MeshInfo) (dst : MacAddr) (malloc : Bool) : Bool × MeshInfo :=
  if dst = w.cfg.macAddr ∨ dst.isMcast then (false, w)
  else if w.mpaths = rtwMeshMaxMpaths then (false, w)
  else
    let w := { w with mpaths := w.mpaths + 1 }
    if !malloc then (false, w)
    else
      match w.paths dst with
      | some _ => (true, w)
      | none => (true, w.setPath dst (some { dst := dst, expTime := w.now }))

def rtwMeshPathAddGate (w : MeshInfo) (dst : MacAddr) : MeshInfo :=
  match w.paths dst with
  | none => w
  | some p =>
    let p := { p with gateTimeout := w.now + w.cfg.pathGateTimeoutFactor * p.gateAnnInt }
    if p.isGate then w.setPath dst (some p)
    else
      { w.setPath dst (some { p with isGate := true }) with
        numGates := w.numGates + 1, knownGates := dst :: w.knownGates }

def rtwMeshGateDel (w : MeshInfo) (dst : MacAddr) : MeshInfo :=
  match w.paths dst with
  | none => w
  | some p =>
    if p.isGate then
      { w.setPath dst (some { p with isGate := false }) with
        numGates := w.numGates - 1, knownGates := w.knownGates.erase dst }
    else w

/-! ## Frames -/

def rtwPrepareForGate (x : MeshFrame) (gate : Mpath) : MeshFrame :=
  { x with
    meshFrameMode := if x.meshFrameMode = .ucastData then .ucastPxData else x.meshFrameMode
    ra := gate.nextHop.getD x.ra
    mda := gate.dst }

def moveLoop (gate : Mpath) : List MeshFrame → Mpath × List MeshFrame
  | [] => (gate, [])
  | x :: failq =>
    if rtwMeshFrameQueueLen ≤ gate.frameQueueLen then (gate, x :: failq)
    else
      moveLoop
        { gate with
          frameQueue := gate.frameQueue ++ [rtwPrepareForGate x gate]
          frameQueueLen := gate.frameQueueLen + 1 } failq

def rtwMeshPathMoveToQueue (w : MeshInfo) (gate from_ : MacAddr) (copy : Bool) : MeshInfo :=
  match w.paths gate, w.paths from_ with
  | some g, some p =>
    if gate = from_ ∨ g.nextHop.isNone then w
    else
      let (g', failq) := moveLoop g p.frameQueue
      let failqLen := p.frameQueueLen - (p.frameQueue.length - failq.length)
      let p := { p with frameQueue := [], frameQueueLen := 0 }
      (w.setPath gate (some g')).setPath from_
        (some (if copy then { p with frameQueue := failq, frameQueueLen := failqLen } else p))
  | _, _ => w

def rtwMeshPathTxPending (w : MeshInfo) (dst : MacAddr) : MeshInfo :=
  match w.paths dst with
  | none => w
  | some p =>
    if p.flags.active && p.frameQueueLen ≠ 0 then
      { w.setPath dst (some { p with frameQueue := [], frameQueueLen := 0 }) with
        mpathTxQueue := w.mpathTxQueue ++ p.frameQueue
        mpathTxQueueLen := w.mpathTxQueueLen + p.frameQueueLen }
    else w

/-- A round of the loop of `rtw_mesh_path_send_to_gates`, with `from_mpath` and `copy`. -/
def sendToGate (s : MeshInfo × MacAddr × Bool) (gate : MacAddr) : MeshInfo × MacAddr × Bool :=
  let (w, from_, copy) := s
  if (w.paths gate).any (·.flags.active) then
    (rtwMeshPathMoveToQueue w gate from_ copy, gate, true)
  else s

def rtwMeshPathSendToGates (w : MeshInfo) (dst : MacAddr) : MeshInfo :=
  let w' := (w.knownGates.foldl sendToGate (w, dst, false)).1
  w.knownGates.foldl rtwMeshPathTxPending w'

def rtwMeshPathFlushPending (w : MeshInfo) (dst : MacAddr) : MeshInfo :=
  match w.paths dst with
  | none => w
  | some p =>
    { w.setPath dst (some { p with frameQueue := [], frameQueueLen := 0 }) with
      freed := w.freed ++ p.frameQueue }

def rtwMeshPathDel' (w : MeshInfo) (dst : MacAddr) : MeshInfo :=
  match w.paths dst with
  | none => w
  | some _ =>
    let w := rtwMeshPathFlushPending (rtwMeshGateDel w dst) dst
    { w.setPath dst none with mpaths := w.mpaths - 1 }

def rtwMeshQueuePreq (w : MeshInfo) (dst : MacAddr) (start refresh malloc : Bool) : MeshInfo :=
  if !malloc ∨ w.preqQueueLen = rtwMaxPreqQueueLen then w
  else
    match w.paths dst with
    | none => w
    | some p =>
      if p.flags.reqQueued then w
      else
        { w.setPath dst (some (p.mapFlags fun s => { s with reqQueued := true })) with
          preqQueue := w.preqQueue ++ [⟨dst, start, refresh⟩]
          preqQueueLen := w.preqQueueLen + 1 }

/-! ## Walks over the table -/

def plinkBrokenPath (sta : MacAddr) (w : MeshInfo) (dst : MacAddr) : MeshInfo :=
  w.mapPath dst fun p =>
    if p.nextHop = some sta ∧ p.flags.active ∧ !p.flags.fixed then
      { p.mapFlags fun s => { s with active := false } with sn := p.sn + 1 }
    else p

def rtwMeshPlinkBroken (w : MeshInfo) (sta : MacAddr) (walk : List MacAddr) : MeshInfo :=
  walk.foldl (plinkBrokenPath sta) w

def deleteWhere (p : Mpath → Bool) (w : MeshInfo) (walk : List MacAddr) : MeshInfo :=
  walk.foldl (fun w dst => if (w.paths dst).any p then rtwMeshPathDel' w dst else w) w

def rtwMeshPathFlushByNexthop (w : MeshInfo) (sta : MacAddr) (walk : List MacAddr) : MeshInfo :=
  deleteWhere (fun p => p.nextHop = some sta) w walk

def rtwMeshPathFlushByIface (w : MeshInfo) (walk : List MacAddr) : MeshInfo :=
  deleteWhere (fun _ => true) w walk

def expirePath (malloc : MacAddr → Bool) (w : MeshInfo) (dst : MacAddr) : MeshInfo :=
  match w.paths dst with
  | none => w
  | some p =>
    if !p.flags.resolving && !p.flags.fixed && p.expTime + w.cfg.pathExpire < w.now then
      rtwMeshPathDel' w dst
    else if p.isGate && p.gateTimeout < w.now then
      if p.gateAsked then rtwMeshGateDel w dst
      else
        rtwMeshQueuePreq
          (w.setPath dst (some { p with gateAsked := true, gateTimeout := w.now + p.gateAnnInt }))
          dst true true (malloc dst)
    else w

def rtwMeshPathTblExpire (w : MeshInfo) (walk : List MacAddr) (malloc : MacAddr → Bool) :
    MeshInfo :=
  walk.foldl (expirePath malloc) w

/-- `rtw_mesh_path_fix_nexthop`, up to the frames. -/
def fixPath (w : MeshInfo) (dst nextHop : MacAddr) : MeshInfo :=
  w.mapPath dst fun p =>
    ({ p.assignNexthop nextHop with
      sn := 0xffff, metric := 0, expTime := 0
      flags := { fixed := true, snValid := true } } : Mpath).activate

def rtwMeshPathFixNexthop (w : MeshInfo) (dst nextHop : MacAddr) : MeshInfo :=
  rtwMeshPathTxPending (fixPath w dst nextHop) dst

end Rtl88x2eu.Mesh
