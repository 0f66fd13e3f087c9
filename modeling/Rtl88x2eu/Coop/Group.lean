import Rtl88x2eu.Coop.Session
import Rtl88x2eu.Coop.Drain

/-!
# The cooperative group and its control operations

`struct cooperative_rx_group` with the operations that pair adapters, bind and unbind a session and
follow the primary's channel, and the sysfs files that call them. Each operation is one function on
the whole driver: the group, the adapters with their radios, and the kernel's AEAD transforms. The
steps inside an operation that another CPU can see are those of `Coop.Session`.

## Main definitions

* `Group`, `Radio`, `AeadPool`, `World`: the records
* `setPrimary`, `addHelper`, `removeHelper`, `removeAdapter`: pairing
* `bindSession`, `unbindSession`, `notifyChannelSwitch`, `deinit`
* `storePair`, `storeUnpair`, `storeAutoPair`, `storeResetStats`: sysfs
* `isHelper`
-/

namespace Rtl88x2eu.Coop

/-! ## The group -/

/-- The counters of `struct coop_rx_stats`, without those of packets' sizes and signal strengths. -/
inductive Stat
  | helperRxCandidates | helperRxAccepted | helperRxDupDropped | helperRxPoolFull
  | helperRxForeign | helperRxCryptoErr | helperRxLate | helperRxNoSta | helperRxDeferred
  | helperRxBackpressure | fallbackEvents | pairEvents | unpairEvents
deriving DecidableEq, Repr

def coopNonqosSeqCacheSz : ℕ := 32

theorem coopNonqosSeqCacheSz_pos : 0 < coopNonqosSeqCacheSz := by decide

/-- `struct coop_nonqos_seq_cache`: a slot that is not valid is `none`. -/
structure NonqosSeqCache where
  entries : Fin coopNonqosSeqCacheSz → Option (ℕ × MacAddr) := fun _ => none
  idx : Fin coopNonqosSeqCacheSz := ⟨0, coopNonqosSeqCacheSz_pos⟩

/-- A `struct crypto_aead`, by the number of its allocation. -/
abbrev TfmId := ℕ

/-- `struct cooperative_rx_group`. -/
structure Group where
  state : CoopState := .idle
  primary : Option AdapterId := none
  helpers : List AdapterId := []
  boundBssid : MacAddr := .zero
  boundChannel : ℕ := 0
  boundBw : ℕ := 0
  nonqosCache : NonqosSeqCache := {}
  /-- `tfm_ccm`, `tfm_ccm_256` and `tfm_gcm`. -/
  tfm : Tfm → Option TfmId := fun _ => none
  cachedKey : Bytes := []
  pendingQueue : List RecvFrame := []
  pendingCount : ℤ := 0
  stats : Stat → BitVec 32 := fun _ => 0

def Group.count (g : Group) (x : Stat) : Group :=
  { g with stats := Function.update g.stats x (g.stats x + 1) }

structure ChannelDef where
  channel : ℕ := 0
  offset : ℕ := 0
  bw : ℕ := 0
deriving DecidableEq, Repr

/-- The radio of an adapter: what `mlmeextpriv` has as current, the `IFF_UP` flag of the interface,
and the last `set_channel_bwmode`. -/
structure Radio where
  cur : ChannelDef := {}
  ifUp : Bool := false
  tuned : Option ChannelDef := none
deriving DecidableEq, Repr

/-- The kernel's AEAD transforms: those that are allocated, the key that the last successful
`crypto_aead_setkey` installed on each, and whether a later one failed. -/
structure AeadPool where
  live : List TfmId := []
  next : TfmId := 0
  installed : TfmId → Option Bytes := fun _ => none
  needKey : TfmId → Bool := fun _ => true
  /-- A transform was freed that was not live. -/
  doubleFree : Bool := false

/-- `crypto_alloc_aead`, which may fail. -/
def AeadPool.alloc (p : AeadPool) (ok : Bool) : Option TfmId × AeadPool :=
  if ok then
    (some p.next, { p with
      live := p.next :: p.live
      next := p.next + 1
      installed := Function.update p.installed p.next none
      needKey := Function.update p.needKey p.next true })
  else (none, p)

def AeadPool.free (p : AeadPool) (i : TfmId) : AeadPool :=
  { p with live := p.live.erase i, doubleFree := p.doubleFree || !p.live.elem i }

def AeadPool.key (p : AeadPool) (i : TfmId) : Option Bytes :=
  if p.needKey i then none else p.installed i

/-- The three transforms, in the order in which they are allocated and freed. -/
def tfms : List Tfm := [.ccm, .ccm256, .gcm]

/-- One allocation of `coop_rx_crypto_init`: the field is overwritten. -/
def cryptoInitTfm (ok : Tfm → Bool) (s : (Tfm → Option TfmId) × AeadPool) (t : Tfm) :
    (Tfm → Option TfmId) × AeadPool :=
  let r := s.2.alloc (ok t)
  (Function.update s.1 t r.1, r.2)

def cryptoDeinitTfm (s : (Tfm → Option TfmId) × AeadPool) (t : Tfm) :
    (Tfm → Option TfmId) × AeadPool :=
  match s.1 t with
  | none => s
  | some i => (Function.update s.1 t none, s.2.free i)

/-! ## The driver -/

/-- The driver: `rtw_coop_rx_group`, the adapters and their radios, and the kernel's transforms.
The module parameter `rtw_cooperative_rx` is read-only, and without it there is no group. -/
structure World where
  grp : Option Group := some {}
  adapter : AdapterId → Adapter
  radio : AdapterId → Radio
  kernel : AeadPool := {}

/-- The error codes of the control operations. -/
inductive Errno
  | enodev | ebusy | einval | enospc | enoent | enotconn
deriving DecidableEq, Repr

/-- The return code of an operation, `none` for 0, and the state behind it. -/
abbrev Outcome := Option Errno × World

def World.setGrp (w : World) (g : Group) : World := { w with grp := some g }

def World.setAdapter (w : World) (i : AdapterId) (a : Adapter) : World :=
  { w with adapter := Function.update w.adapter i a }

def World.setRadio (w : World) (i : AdapterId) (r : Radio) : World :=
  { w with radio := Function.update w.radio i r }

@[simp] theorem setGrp_grp (w : World) (g : Group) : (w.setGrp g).grp = some g := rfl

@[simp] theorem setGrp_radio (w : World) (g : Group) : (w.setGrp g).radio = w.radio := rfl

@[simp] theorem setGrp_adapter (w : World) (g : Group) : (w.setGrp g).adapter = w.adapter := rfl

@[simp] theorem setGrp_kernel (w : World) (g : Group) : (w.setGrp g).kernel = w.kernel := rfl

@[simp] theorem setAdapter_grp (w : World) (i : AdapterId) (a : Adapter) :
    (w.setAdapter i a).grp = w.grp := rfl

@[simp] theorem setAdapter_radio (w : World) (i : AdapterId) (a : Adapter) :
    (w.setAdapter i a).radio = w.radio := rfl

@[simp] theorem setAdapter_kernel (w : World) (i : AdapterId) (a : Adapter) :
    (w.setAdapter i a).kernel = w.kernel := rfl

@[simp] theorem setRadio_grp (w : World) (i : AdapterId) (r : Radio) :
    (w.setRadio i r).grp = w.grp := rfl

@[simp] theorem setRadio_kernel (w : World) (i : AdapterId) (r : Radio) :
    (w.setRadio i r).kernel = w.kernel := rfl

@[simp] theorem setRadio_adapter (w : World) (i : AdapterId) (r : Radio) :
    (w.setRadio i r).adapter = w.adapter := rfl

/-- The frames of `pending_queue` go back to the free queue of an adapter, or only lose their packet
when there is none. -/
def World.freePending (w : World) (frames : List RecvFrame) : Option AdapterId → World
  | none => w
  | some i => w.setAdapter i (rtwFreeRecvframeQueue (w.adapter i) frames)

@[simp] theorem freePending_grp (w : World) (frames : List RecvFrame) (i : Option AdapterId) :
    (w.freePending frames i).grp = w.grp := by
  cases i <;> rfl

@[simp] theorem freePending_radio (w : World) (frames : List RecvFrame) (i : Option AdapterId) :
    (w.freePending frames i).radio = w.radio := by
  cases i <;> rfl

@[simp] theorem freePending_kernel (w : World) (frames : List RecvFrame) (i : Option AdapterId) :
    (w.freePending frames i).kernel = w.kernel := by
  cases i <;> rfl

def Group.purge (g : Group) : Group :=
  { g with pendingQueue := [], pendingCount := g.pendingCount - g.pendingQueue.length }

def cryptoDeinit (w : World) (g : Group) : World × Group :=
  let r := tfms.foldl cryptoDeinitTfm (g.tfm, w.kernel)
  ({ w with kernel := r.2 }, { g with tfm := r.1 })

def cryptoInit (ok : Tfm → Bool) (w : World) (g : Group) : World × Group :=
  let r := tfms.foldl (cryptoInitTfm ok) (g.tfm, w.kernel)
  ({ w with kernel := r.2 }, { g with tfm := r.1 })

def setPrimary (w : World) (adapter : AdapterId) : Outcome :=
  match w.grp with
  | none => (some .enodev, w)
  | some g =>
    if g.primary ≠ none ∧ g.primary ≠ some adapter then (some .ebusy, w)
    else
      (none, w.setGrp { g with
        primary := some adapter
        state := if g.state = .disabled then .idle else g.state })

def addHelper (w : World) (adapter : AdapterId) : Outcome :=
  match w.grp with
  | none => (some .enodev, w)
  | some g =>
    if g.primary = none then (some .einval, w)
    else if coopMaxHelpers ≤ g.helpers.length then (some .enospc, w)
    else if adapter ∈ g.helpers then (none, w)
    else
      let g : Group := { g with
        helpers := g.helpers ++ [adapter]
        state := if g.state = .idle then .binding else g.state }
      (none, w.setGrp (g.count .pairEvents))

/-- The locked section of `rtw_coop_rx_remove_helper` on a helper. -/
def Group.dropHelper (g : Group) (adapter : AdapterId) : Group :=
  let g := ({ g with helpers := g.helpers.erase adapter } : Group).count .unpairEvents
  if g.helpers = [] ∧ g.state = .active then
    ({ g with state := .idle } : Group).count .fallbackEvents
  else g

def removeHelper (w : World) (adapter : AdapterId) : Outcome :=
  match w.grp with
  | none => (some .enodev, w)
  | some g =>
    if adapter ∈ g.helpers then (none, w.setGrp (g.dropHelper adapter))
    else (some .enoent, w)

/-- The second part of `rtw_coop_rx_remove_adapter`: the primary goes. -/
def dropPrimary (w : World) (adapter : AdapterId) : World :=
  match w.grp with
  | none => w
  | some g =>
    if g.primary = some adapter then
      let w := w.freePending g.pendingQueue (some adapter)
      let g : Group := { g.purge with primary := none, helpers := [], state := .idle }
      w.setGrp (g.count .fallbackEvents)
    else w

def removeAdapter (w : World) (adapter : AdapterId) : World :=
  dropPrimary (removeHelper w adapter).2 adapter

/-- The locked section of `rtw_coop_rx_bind_session`: the BSS of the primary. -/
def Group.bind (g : Group) (a : Adapter) (r : Radio) : Group :=
  { g with
    boundBssid := if a.fwState.ap then a.macAddr else a.curBssid
    boundChannel := r.cur.channel
    boundBw := r.cur.bw
    nonqosCache := {}
    state := if g.helpers ≠ [] then .active else g.state }

/-- `rtw_coop_rx_enable_helper_monitor`: the interface comes up if `dev_open` succeeds, the adapter
goes to monitor mode and is tuned with the bandwidth and offset of the primary. -/
def enableHelperMonitor (opens : AdapterId → Bool) (channel : ℕ) (w : World) (helper : AdapterId) :
    World :=
  let r := w.radio helper
  let a := w.adapter helper
  let cur := match w.grp.bind Group.primary with
    | some p => (w.radio p).cur
    | none => {}
  let w := w.setAdapter helper
    { a with fwState := if a.fwState.monitor then a.fwState else { monitor := true } }
  w.setRadio helper { r with
    ifUp := r.ifUp || opens helper
    tuned := some ⟨channel, cur.offset, cur.bw⟩ }

/-- The primary can be bound: an access point that has started or a station that is associated. -/
def bindable (a : Adapter) : Bool := (a.fwState.ap || a.fwState.station) && a.fwState.asoc

/-- `rtw_coop_rx_bind_session`. The allocations of the transforms and `dev_open` may fail. -/
def bindSession (ok : Tfm → Bool) (opens : AdapterId → Bool) (w : World) (primary : AdapterId) :
    Outcome :=
  match w.grp with
  | none => (some .enodev, w)
  | some g =>
    if g.primary ≠ some primary then (some .enodev, w)
    else if !bindable (w.adapter primary) then (some .enotconn, w)
    else
      let g := g.bind (w.adapter primary) (w.radio primary)
      let r := cryptoInit ok w g
      let w := r.1.setGrp r.2
      (none, g.helpers.foldl (enableHelperMonitor opens g.boundChannel) w)

def unbindSession (w : World) : World :=
  match w.grp with
  | none => w
  | some g =>
    let r := cryptoDeinit w g
    let g := r.2
    let g : Group := if g.state = .active ∨ g.state = .binding then
        { g with
          state := if g.primary.isSome then .idle else .disabled
          boundBssid := .zero
          boundChannel := 0 }
      else g
    (r.1.freePending g.pendingQueue g.primary).setGrp g.purge

/-- The loop of `rtw_coop_rx_notify_channel_switch`: a helper that is down is skipped. -/
def retuneHelper (new : ChannelDef) (w : World) (helper : AdapterId) : World :=
  let r := w.radio helper
  if r.ifUp then w.setRadio helper { r with tuned := some new } else w

def notifyChannelSwitch (w : World) (adapter : AdapterId) : World :=
  match w.grp with
  | none => w
  | some g =>
    if g.state ≠ .active ∨ g.primary ≠ some adapter then w
    else
      let new := (w.radio adapter).cur
      if new.channel = 0 ∨ (new.channel = g.boundChannel ∧ new.bw = g.boundBw) then w
      else
        let w := w.setGrp { g with boundChannel := new.channel, boundBw := new.bw }
        g.helpers.foldl (retuneHelper new) w

def deinit (w : World) : World :=
  match w.grp with
  | none => w
  | some g =>
    let r := cryptoDeinit w g
    { r.1.freePending g.pendingQueue g.primary with grp := none }

/-! ## The sysfs files -/

/-- A network device of the namespace: one of this driver with the adapter it belongs to, or one of
another driver. -/
inductive NetDev
  | rtw (priv : Option AdapterId)
  | foreign
deriving DecidableEq, Repr

/-- `rtw_coop_rx_auto_discover_helpers`: the other interfaces of this driver. -/
def autoDiscoverHelpers (w : World) (primary : AdapterId) (devs : List NetDev) : World :=
  devs.foldl (fun w d =>
    match d with
    | .rtw (some candidate) => if candidate = primary then w else (addHelper w candidate).2
    | _ => w) w

/-- What `coop_rx_store_pair` and `coop_rx_store_unpair` read from their file: no name, a name that
no device has, or a device. -/
inductive IfName
  | malformed
  | notFound
  | dev (d : NetDev)
deriving DecidableEq, Repr

def storePair (w : World) (adapter : AdapterId) (ifname : IfName) : Outcome :=
  match ifname with
  | .malformed => (some .einval, w)
  | name =>
    match setPrimary w adapter with
    | (some e, w) => (some e, w)
    | (none, w) =>
      match name with
      | .dev (.rtw (some helper)) => addHelper w helper
      | .dev _ => (some .einval, w)
      | _ => (some .enodev, w)

def storeUnpair (w : World) (ifname : IfName) : Outcome :=
  match ifname with
  | .malformed => (some .einval, w)
  | .notFound => (some .enodev, w)
  | .dev (.rtw (some helper)) => removeHelper w helper
  -- no helper is `NULL`
  | .dev (.rtw none) => (some (if w.grp.isSome then .enoent else .enodev), w)
  | .dev .foreign => (some .einval, w)

/-- `coop_rx_store_auto_pair`, on a number or something else. -/
def storeAutoPair (w : World) (adapter : AdapterId) (val : Option ℤ) (devs : List NetDev) :
    Outcome :=
  if val ≠ some 1 then (some .einval, w)
  else
    match setPrimary w adapter with
    | (some e, w) => (some e, w)
    | (none, w) => (none, autoDiscoverHelpers w adapter devs)

def storeResetStats (w : World) : Outcome :=
  match w.grp with
  | none => (some .enodev, w)
  | some g => (none, w.setGrp { g with stats := fun _ => 0 })

/-- `rtw_coop_rx_is_helper`. -/
def isHelper (w : World) (adapter : AdapterId) : Bool :=
  match w.grp with
  | none => false
  | some g =>
    if g.state = .disabled ∨ g.state = .idle then false
    else (g.helpers.take coopMaxHelpers).elem adapter

end Rtl88x2eu.Coop
