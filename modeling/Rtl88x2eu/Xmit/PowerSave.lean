import Rtl88x2eu.Xmit.TxQueues
import Mathlib.Algebra.Order.BigOperators.Group.Finset

/-!
# Frames for sleeping stations

An access point keeps the frames of a sleeping station in its `sleep_q`. They leave when the station
wakes up, one by one when it polls, or in a service period, which brings the frames of the access
categories that are enabled for U-APSD and ends with a frame marked EOSP. The length of the queue
and the number of its frames of enabled categories are counted by hand.

## Main definitions

* `PsPriv`
* `xmitframeEnqueueForSleepingSta`, `stopStaXmit`, `wakeupStaToXmit`, `xmitDeliveryEnabledFrames`,
  `psPoll`
* `PsBalanced`

## Main results

* `psBalanced_iff_meets`: they are right after every step exactly if no poll releases a frame of an
  enabled category
* `not_psBalanced`: a poll may do so
-/

namespace Rtl88x2eu.Xmit

open Transition


variable {S F σ : Type*}

/-- The transmit queues of an access point with its sleeping stations. The last three fields record
which frames came into a `sleep_q`, which were handed to `rtw_hal_xmitframe_enqueue` from there, and
the EOSP marks of the frames of every service period. -/
structure PsPriv (S F : Type*) where
  tx : TxPriv S F
  /-- `sta_dz_bitmap`. -/
  staDz : Finset ℕ
  /-- `tim_bitmap`. -/
  tim : Finset ℕ
  /-- `registrypriv.hiq_filter`. -/
  hiqFilter : ℕ
  slept : S → Multiset F
  released : S → Multiset F
  periods : List (S × List Bool)

def StaXmit.uapsd (psta : StaXmit F) (priority : ℕ) : ℕ :=
  match priority with
  | 1 | 2 => psta.uapsdBk
  | 4 | 5 => psta.uapsdVi
  | 6 | 7 => psta.uapsdVo
  | _ => psta.uapsdBe

def TxPriv.priority (w : TxPriv S F) (x : F) : ℕ := (w.frames x).xmit.attrib.priority

/-- `wmmps_ac` of a frame, by one of the two bits of a setting. -/
def TxPriv.wmmpsAc (w : TxPriv S F) (s : S) (bit : ℕ) (x : F) : Bool :=
  ((w.sta s).uapsd (w.priority x)).testBit bit

/-- An `unsigned int` counts down. The counters stay far below its range when counting up. -/
def decU32 (n : ℕ) : ℕ := if n = 0 then 2 ^ 32 - 1 else n - 1

variable [DecidableEq S] [DecidableEq F]

/-- `rtw_list_delete` of a frame, from the queue that it is in. -/
def TxPriv.listDelete (w : TxPriv S F) (x : F) : TxPriv S F :=
  { w with
    backlog := { w.backlog with pending := fun i => (w.backlog.pending i).filter (· ≠ x) }
    sta := fun s => { w.sta s with
      sleepQ := (w.sta s).sleepQ.filter (· ≠ x)
      mgmtSleepQ := (w.sta s).mgmtSleepQ.filter (· ≠ x) } }

def TxPriv.setAttrib (w : TxPriv S F) (x : F) (triggered : Bool) (p : PktAttrib) : TxPriv S F :=
  let f := w.frames x
  w.setFrame x { f with triggered := triggered, xmit := { f.xmit with attrib := p } }

def PsPriv.xmitframeHiqFilter (w : PsPriv S F) (f : TxFrame S) : Bool :=
  let etherType := f.xmit.attrib.etherType
  if w.tx.wifiSpec then true
  else if w.hiqFilter = 1 then etherType = 0x0806 || etherType = 0x888e || f.dhcpPkt
  else w.hiqFilter = 0

/-! ## Frames fall asleep -/

def StaXmit.putSleep (psta : StaXmit F) (x : F) (wmmpsAc : Bool) : StaXmit F :=
  { psta with
    sleepQ := psta.sleepQ ++ [x]
    sleepqLen := psta.sleepqLen + 1
    sleepqAcLen := psta.sleepqAcLen + if wmmpsAc then 1 else 0 }

/-- A frame goes from where it is to the end of the `sleep_q` of a station. -/
def PsPriv.putSleep (w : PsPriv S F) (s : S) (x : F) (wmmpsAc : Bool) : PsPriv S F :=
  let tx := w.tx.listDelete x
  { w with
    tx := tx.setSta s ((tx.sta s).putSleep x wmmpsAc)
    slept := Function.update w.slept s (x ::ₘ w.slept s) }

def xmitframeEnqueueForSleepingSta (w : PsPriv S F) (x : F) : Bool × PsPriv S F :=
  let f := w.tx.frames x
  let bmcst := f.xmit.attrib.ra.isMcast
  if !w.tx.ap then (false, w)
  else
    match w.tx.enqueueSta f with
    | none => (false, w)
    | some s =>
      let psta := w.tx.sta s
      if f.triggered then
        if bmcst && w.xmitframeHiqFilter f then
          (false, { w with tx := w.tx.setAttrib x true { f.xmit.attrib with qsel := qsltHigh } })
        else (false, w)
      else if bmcst then
        if w.staDz.Nonempty then
          (true, { w.putSleep s x false with tim := insert 0 w.tim, staDz := insert 0 w.staDz })
        else (false, w)
      else if psta.sleep && psta.aid ∈ w.staDz then
        let wmmpsAc := w.tx.wmmpsAc s 0 x
        let w' := w.putSleep s x wmmpsAc
        (true, if psta.hasLegacyAc != wmmpsAc then { w' with tim := insert psta.aid w.tim } else w')
      else (false, w)

def StaXmit.putMgmtSleep (psta : StaXmit F) (x : F) : StaXmit F :=
  { psta with mgmtSleepQ := psta.mgmtSleepQ ++ [x], mgmtSleepqLen := psta.mgmtSleepqLen + 1 }

def mgmtXmitframeEnqueueForSleepingSta (w : PsPriv S F) (x : F) : Bool × PsPriv S F :=
  let f := w.tx.frames x
  if f.xmit.attrib.ra = .bcast || f.psDontq then (false, w)
  else
    match f.psta with
    | none => (false, w)
    | some s =>
      let psta := w.tx.sta s
      if psta.asoc && psta.sleep && psta.aid ∈ w.staDz then
        let tx := w.tx.listDelete x
        (true, { w with
          tx := tx.setSta s ((tx.sta s).putMgmtSleep x), tim := insert psta.aid w.tim })
      else (false, w)

def TxPriv.uncount (w : TxPriv S F) (k : Fin 5) (i : S × TxServq) : TxPriv S F :=
  let b := w.backlog
  { w with backlog :=
      Backlog.charge { b with count := Function.update b.count i (b.count i - 1) } k (-1) }

def dequeueMgmtXmitframeToSleepq (s : S) : List F → PsPriv S F → PsPriv S F
  | [], w => w
  | x :: xs, w =>
    let w := { w with tx := w.tx.setAttrib x false (w.tx.frames x).xmit.attrib }
    match mgmtXmitframeEnqueueForSleepingSta w x with
    | (true, w) =>
      dequeueMgmtXmitframeToSleepq s xs { w with tx := w.tx.uncount mgmtIdx (s, .mgmt) }
    | (false, w) => dequeueMgmtXmitframeToSleepq s xs w

def dequeueXmitframesToSleepingQueue (s : S) : List F → PsPriv S F → PsPriv S F
  | [], w => w
  | x :: xs, w =>
    let w := { w with tx := w.tx.setAttrib x false (w.tx.frames x).xmit.attrib }
    match xmitframeEnqueueForSleepingSta w x with
    | (true, w) =>
      let (ptxservq, acIndex) := rtwGetStaPending (w.tx.priority x)
      dequeueXmitframesToSleepingQueue s xs { w with tx := w.tx.uncount acIndex (s, ptxservq) }
    | (false, w) => dequeueXmitframesToSleepingQueue s xs w

def PsPriv.stopServq (w : PsPriv S F) (i : S × TxServq) : PsPriv S F :=
  let w := dequeueXmitframesToSleepingQueue i.1 (w.tx.backlog.pending i) w
  { w with tx := { w.tx with backlog := w.tx.backlog.unlink i } }

/-- The four access category queues of a station. -/
def PsPriv.stopAcs (w : PsPriv S F) (s : S) : PsPriv S F :=
  (((w.stopServq (s, .vo)).stopServq (s, .vi)).stopServq (s, .be)).stopServq (s, .bk)

/-- The management queue of a station. -/
def PsPriv.stopMgmt (w : PsPriv S F) (s : S) : PsPriv S F :=
  let w := dequeueMgmtXmitframeToSleepq s (w.tx.backlog.pending (s, .mgmt)) w
  { w with tx := { w.tx with backlog := w.tx.backlog.unlink (s, .mgmt) } }

def PsPriv.markSleep (w : PsPriv S F) (s : S) : PsPriv S F :=
  { w with
    tx := w.tx.setSta s { w.tx.sta s with sleep := true }
    staDz := insert (w.tx.sta s).aid w.staDz }

def stopStaXmit (w : PsPriv S F) (s : S) : PsPriv S F :=
  let bmc := w.tx.rtwGetStainfo .bcast
  let w := ((w.markSleep s).stopMgmt s).stopAcs s
  bmc.elim w w.stopAcs

/-! ## Frames wake up -/

/-- `rtl8822eu_hal_xmitframe_enqueue`: a frame that cannot be enqueued is freed. -/
def PsPriv.halXmitframeEnqueue (w : PsPriv S F) (x : F) : PsPriv S F :=
  { w with tx := (rtwXmitClassifier w.tx x).getD w.tx }

def PsPriv.halMgmtXmitframeEnqueue (w : PsPriv S F) (x : F) : PsPriv S F :=
  let freed := { w.tx with freedBufs := w.tx.freedBufs ++ [(w.tx.frames x).pxmitbuf] }
  { w with tx := (rtwMgmtXmitframeEnqueue w.tx x).getD freed }

/-- More Data and EOSP of a frame that leaves a `sleep_q`, from what the queue still counts. -/
def markReleased (wmmpsAc : Bool) (len acLen : ℕ) (p : PktAttrib) : PktAttrib :=
  if wmmpsAc then { p with mdata := 0 < acLen, eosp := acLen = 0 } else { p with mdata := 0 < len }

def StaXmit.countReleased (psta : StaXmit F) (wmmpsAc : Bool) : StaXmit F :=
  { psta with
    sleepqLen := decU32 psta.sleepqLen
    sleepqAcLen := if wmmpsAc then decU32 psta.sleepqAcLen else psta.sleepqAcLen }

/-- A frame leaves the `sleep_q` of a station. -/
def PsPriv.release (w : PsPriv S F) (s : S) (x : F) (wmmpsAc : Bool) : PsPriv S F :=
  let tx := w.tx.listDelete x
  let psta := (tx.sta s).countReleased wmmpsAc
  let p := markReleased wmmpsAc psta.sleepqLen psta.sleepqAcLen (tx.frames x).xmit.attrib
  PsPriv.halXmitframeEnqueue
    { w with
      tx := (tx.setSta s psta).setAttrib x true p
      released := Function.update w.released s (x ::ₘ w.released s) } x

def StaXmit.countMgmtReleased (psta : StaXmit F) : StaXmit F :=
  { psta with mgmtSleepqLen := decU32 psta.mgmtSleepqLen }

/-- A frame leaves the `mgmt_sleep_q` of a station. -/
def PsPriv.releaseMgmt (w : PsPriv S F) (s : S) (x : F) : PsPriv S F :=
  let tx := w.tx.listDelete x
  let psta := (tx.sta s).countMgmtReleased
  let p := { (tx.frames x).xmit.attrib with mdata := 0 < psta.mgmtSleepqLen }
  PsPriv.halMgmtXmitframeEnqueue { w with tx := (tx.setSta s psta).setAttrib x true p } x

/-- What `wakeup_sta_to_xmit` takes. -/
inductive DequeueType
  | uniBmcData | uniMgmt | allFrame
deriving DecidableEq, Repr

def wakeMgmt (s : S) (xs : List F) (w : PsPriv S F) : PsPriv S F :=
  xs.foldl (fun w x => w.releaseMgmt s x) w

/-- The frames of the `sleep_q`, each counted by its category. -/
def wakeFrames (s : S) (xs : List F) (w : PsPriv S F) : PsPriv S F :=
  xs.foldl (fun w x => w.release s x (w.tx.wmmpsAc s 1 x)) w

/-- The frames of the broadcast station. -/
def wakeBmc (bmc : S) (xs : List F) (w : PsPriv S F) : PsPriv S F :=
  xs.foldl (fun w x => w.release bmc x false) w

/-- Nothing waits for the station any more. -/
def PsPriv.noneAsleep (w : PsPriv S F) (s : S) : Bool :=
  (w.tx.sta s).sleepqLen = 0 && (w.tx.sta s).mgmtSleepqLen = 0

def PsPriv.wakeupBmc (w : PsPriv S F) (bmc : S) : PsPriv S F :=
  if (w.staDz.erase 0).Nonempty then w
  else
    let w := wakeBmc bmc (w.tx.sta bmc).sleepQ w
    if (w.tx.sta bmc).sleepqLen = 0 then { w with tim := w.tim.erase 0, staDz := w.staDz.erase 0 }
    else w

def wakeupStaToXmit (w : PsPriv S F) (s : S) (dequeueType : DequeueType) : PsPriv S F :=
  let w := if dequeueType = .uniBmcData then w else wakeMgmt s (w.tx.sta s).mgmtSleepQ w
  let w := if dequeueType = .uniMgmt then w else wakeFrames s (w.tx.sta s).sleepQ w
  let w :=
    if w.noneAsleep s then
      let aid := (w.tx.sta s).aid
      { w with
        tx := w.tx.setSta s { w.tx.sta s with sleep := false }
        tim := w.tim.erase aid, staDz := w.staDz.erase aid }
    else w
  if dequeueType = .uniMgmt then w else (w.tx.rtwGetStainfo .bcast).elim w w.wakeupBmc

/-- The loop of `xmit_delivery_enabled_frames`, with the EOSP marks of the frames it sends. -/
def deliverLoop (s : S) : List F → List Bool × PsPriv S F → List Bool × PsPriv S F
  | [], r => r
  | x :: xs, (marks, w) =>
    if w.tx.wmmpsAc s 1 x then
      let w := w.release s x true
      let psta := w.tx.sta s
      let w :=
        if psta.sleepqAcLen = 0 && !psta.hasLegacyAc then { w with tim := w.tim.erase psta.aid }
        else w
      deliverLoop s xs (marks ++ [(w.tx.frames x).xmit.attrib.eosp], w)
    else deliverLoop s xs (marks, w)

def xmitDeliveryEnabledFrames (w : PsPriv S F) (s : S) : PsPriv S F :=
  let (marks, w) := deliverLoop s (w.tx.sta s).sleepQ ([], w)
  { w with periods := w.periods ++ [(s, marks)] }

def processWmmpsData (w : PsPriv S F) (s : S) (priority : ℕ) : PsPriv S F :=
  let psta := w.tx.sta s
  if psta.qosOption && psta.qosInfo % 16 ≠ 0 && psta.sleep && (psta.uapsd priority).testBit 1 &&
      0 < psta.sleepqAcLen then
    xmitDeliveryEnabledFrames w s
  else w

def PsPriv.PollServed (w : PsPriv S F) (s : S) (priority : ℕ) : Prop :=
  ((w.tx.sta s).uapsd priority).testBit 0 = false ∧ (w.tx.sta s).sleep = true ∧
    (w.tx.sta s).aid ∈ w.staDz

instance PsPriv.PollServed.decidable (w : PsPriv S F) (s : S) (priority : ℕ) :
    Decidable (w.PollServed s priority) := inferInstanceAs (Decidable (_ ∧ _))

def PsPriv.pollMgmt (w : PsPriv S F) (s : S) : PsPriv S F :=
  (w.tx.sta s).mgmtSleepQ.head?.elim w (w.releaseMgmt s)

def PsPriv.pollData (w : PsPriv S F) (s : S) : PsPriv S F :=
  (w.tx.sta s).sleepQ.head?.elim w fun x => w.release s x false

/-- The counts of a station with empty queues. -/
def StaXmit.zeroLens (psta : StaXmit F) : StaXmit F :=
  { psta with sleepqLen := 0, mgmtSleepqLen := 0 }

/-- The PS-Poll branch of `validate_recv_ctrl_frame`, for a station whose id is right. -/
def psPoll (w : PsPriv S F) (s : S) (priority : ℕ) : PsPriv S F :=
  if w.PollServed s priority then
    let mgmtqNull := (w.tx.sta s).mgmtSleepQ.isEmpty
    let dataqNull := (w.tx.sta s).sleepQ.isEmpty
    let aid := (w.tx.sta s).aid
    let w := (w.pollMgmt s).pollData s
    -- the counts are put right when both queues are empty
    let w :=
      if dataqNull && mgmtqNull && aid ∈ w.tim then
        { w with tx := w.tx.setSta s (w.tx.sta s).zeroLens }
      else w
    if w.noneAsleep s then { w with tim := w.tim.erase aid } else w
  else w

/-! ## Runs -/

/-- What may happen. Frames that are enqueued come with their attributes, and are frames that their
caller holds. -/
inductive PsEvent (S F σ : Type*)
  | classify (x : F) (f : TxFrame S)
  | mgmtEnqueue (x : F) (f : TxFrame S)
  | dequeue
  | dequeueMgmt
  | aggregate (first : TxFrame S) (built : σ)
  | enqueueForSleeping (x : F) (f : TxFrame S)
  | mgmtEnqueueForSleeping (x : F) (f : TxFrame S)
  | stop (s : S)
  | wakeup (s : S) (dequeueType : DequeueType)
  | trigger (s : S) (priority : ℕ)
  | poll (s : S) (priority : ℕ)

/-- The frame is in no queue. -/
def PsPriv.Held [Fintype S] (w : PsPriv S F) (x : F) : Prop :=
  w.tx.Held x ∧ ∀ s, x ∉ (w.tx.sta s).sleepQ ∧ x ∉ (w.tx.sta s).mgmtSleepQ

instance PsPriv.Held.decidable [Fintype S] (w : PsPriv S F) (x : F) : Decidable (w.Held x) :=
  inferInstanceAs (Decidable (_ ∧ _))

/-- A step on the transmit queues alone. -/
def PsPriv.onTx (w : PsPriv S F) (tx : TxPriv S F) : PsPriv S F := { w with tx := tx }

def psStep [Fintype S] (B : TxBuilder σ) (w : PsPriv S F) : PsEvent S F σ → Option (PsPriv S F)
  | .classify x f =>
    if w.Held x then
      let tx := w.tx.setFrame x f
      some (w.onTx ((rtwXmitClassifier tx x).getD tx))
    else none
  | .mgmtEnqueue x f =>
    if w.Held x then
      let tx := w.tx.setFrame x f
      some (w.onTx ((rtwMgmtXmitframeEnqueue tx x).getD tx))
    else none
  | .dequeue => some (w.onTx ((rtwDequeueXframe w.tx).elim w.tx Prod.snd))
  | .dequeueMgmt => some (w.onTx ((rtwDequeueMgmtXframe w.tx).elim w.tx Prod.snd))
  | .aggregate first built =>
    first.psta.map fun psta => w.onTx (aggregate B w.tx psta first.xmit built).2
  | .enqueueForSleeping x f =>
    if w.Held x then some (xmitframeEnqueueForSleepingSta (w.onTx (w.tx.setFrame x f)) x).2
    else none
  | .mgmtEnqueueForSleeping x f =>
    if w.Held x then some (mgmtXmitframeEnqueueForSleepingSta (w.onTx (w.tx.setFrame x f)) x).2
    else none
  | .stop s => some (stopStaXmit w s)
  | .wakeup s dequeueType => some (wakeupStaToXmit w s dequeueType)
  | .trigger s priority => some (processWmmpsData w s priority)
  | .poll s priority => some (psPoll w s priority)

def BothBits (v : ℕ) : Prop := v.testBit 0 = v.testBit 1

/-- Both bits of every U-APSD setting are equal, and the broadcast station has none set. -/
structure UapsdSettings (psta : StaXmit F) : Prop where
  both : ∀ priority, BothBits (psta.uapsd priority)
  bcast : psta.macAddr = .bcast → ∀ priority, (psta.uapsd priority).testBit 0 = false

/-- How often a frame stands in the queues. -/
def TxPriv.occ [Fintype S] (w : TxPriv S F) (x : F) : ℕ :=
  ∑ i, (w.backlog.pending i).count x +
    ∑ s, ((w.sta s).sleepQ.count x + (w.sta s).mgmtSleepQ.count x)

/-- The counts of station `s` are right, each frame that slept still sleeps or was released once, no
frame is in two queues, and each service period ended with its only frame marked EOSP. -/
structure PsBalanced [Fintype S] (w : PsPriv S F) (s : S) : Prop where
  sleepqLen : (w.tx.sta s).sleepqLen = (w.tx.sta s).sleepQ.length
  sleepqAcLen : (w.tx.sta s).sleepqAcLen = (w.tx.sta s).sleepQ.countP (w.tx.wmmpsAc s 0)
  ledger : w.slept s = (w.tx.sta s).sleepQ + w.released s
  once : ∀ x, w.tx.occ x ≤ 1
  period : ∀ p ∈ w.periods, p.1 = s → p.2.count true = 1 ∧ p.2.getLast? = some true

/-- No frame has slept yet, and no frame is in two queues. -/
structure PsPriv.Fresh [Fintype S] (w : PsPriv S F) : Prop where
  tx : w.tx.backlog = .empty
  sta : ∀ s, (w.tx.sta s).sleepQ = [] ∧ (w.tx.sta s).sleepqLen = 0 ∧
    (w.tx.sta s).sleepqAcLen = 0 ∧ (w.tx.sta s).mgmtSleepQ = []
  slept : w.slept = 0
  released : w.released = 0
  periods : w.periods = []

def PollOk (s : S) (w : PsPriv S F) : PsEvent S F σ → Prop
  | .poll t priority => t = s → w.PollServed s priority →
      ∀ x ∈ (w.tx.sta s).sleepQ.head?, w.tx.wmmpsAc s 0 x = false
  | _ => True

/-! ## Places -/

section Places

variable [Fintype S] {w w' : TxPriv S F} {x y : F} {s t : S} {i : S × TxServq}

theorem sum_add_of_eq_off {ι : Type*} [Fintype ι] [DecidableEq ι] {f g : ι → ℕ} (i : ι)
    (h : ∀ j ≠ i, g j = f j) : ∑ j, g j + f i = ∑ j, f j + g i := by
  have hrest : ∑ j ∈ Finset.univ.erase i, g j = ∑ j ∈ Finset.univ.erase i, f j :=
    Finset.sum_congr rfl fun j hj => h j (Finset.ne_of_mem_erase hj)
  rw [← Finset.add_sum_erase _ g (Finset.mem_univ i), hrest,
    ← Finset.add_sum_erase _ f (Finset.mem_univ i)]
  omega

omit [DecidableEq F] [Fintype S] in
theorem TxPriv.setSta_sta (w : TxPriv S F) (s : S) (p : StaXmit F) (t : S) :
    (w.setSta s p).sta t = if t = s then p else w.sta t := Function.update_apply ..

omit [DecidableEq S] in
theorem TxPriv.occ_listDelete (w : TxPriv S F) (x y : F) :
    (w.listDelete x).occ y = if y = x then 0 else w.occ y := by
  have hcount (l : List F) : (l.filter (· ≠ x)).count y = if y = x then 0 else l.count y := by
    split_ifs with hyx
    · subst hyx
      exact List.count_eq_zero_of_not_mem (by simp)
    · exact List.count_filter (by simpa using hyx)
  unfold occ listDelete
  simp only [hcount]
  split_ifs <;> simp

theorem TxPriv.occ_enqueue (w : TxPriv S F) (k : Fin 5) (i : S × TxServq) (x y : F) :
    (w.enqueue k i x).occ y = w.occ y + if x = y then 1 else 0 := by
  have h := sum_add_of_eq_off (f := fun j => (w.backlog.pending j).count y)
    (g := fun j => ((w.enqueue k i x).backlog.pending j).count y) i fun j hj => by
      show ((w.backlog.enqueue k i x).pending j).count y = _
      rw [Backlog.pending_enqueue, Function.update_of_ne hj]
  have hi : ((w.enqueue k i x).backlog.pending i).count y =
      (w.backlog.pending i).count y + if x = y then 1 else 0 := by
    show ((w.backlog.enqueue k i x).pending i).count y = _
    rw [Backlog.pending_enqueue, Function.update_self, List.count_append, List.count_singleton]
    simp [beq_iff_eq]
  rw [hi] at h
  unfold occ
  have hsta : (w.enqueue k i x).sta = w.sta := rfl
  rw [hsta]
  omega

theorem TxPriv.occ_setSta (w : TxPriv S F) (s : S) (p : StaXmit F) (y : F) :
    (w.setSta s p).occ y + ((w.sta s).sleepQ.count y + (w.sta s).mgmtSleepQ.count y) =
      w.occ y + (p.sleepQ.count y + p.mgmtSleepQ.count y) := by
  have h := sum_add_of_eq_off
    (f := fun t => (w.sta t).sleepQ.count y + (w.sta t).mgmtSleepQ.count y)
    (g := fun t =>
      ((w.setSta s p).sta t).sleepQ.count y + ((w.setSta s p).sta t).mgmtSleepQ.count y)
    s fun t ht => by simp only [setSta_sta, if_neg ht]
  simp only [setSta_sta, if_true] at h
  unfold occ
  have hpending : (w.setSta s p).backlog = w.backlog := rfl
  simp only [setSta_sta, hpending]
  omega

theorem TxPriv.occ_setSta_same {p : StaXmit F} (hsleep : p.sleepQ = (w.sta s).sleepQ)
    (hmgmt : p.mgmtSleepQ = (w.sta s).mgmtSleepQ) (y : F) : (w.setSta s p).occ y = w.occ y := by
  have h := w.occ_setSta s p y
  rw [hsleep, hmgmt] at h
  exact Nat.add_right_cancel h

/-- A station is written that has one frame more. -/
theorem TxPriv.occ_setSta_append {p : StaXmit F}
    (hqueues : p.sleepQ = (w.sta s).sleepQ ++ [x] ∧ p.mgmtSleepQ = (w.sta s).mgmtSleepQ ∨
      p.sleepQ = (w.sta s).sleepQ ∧ p.mgmtSleepQ = (w.sta s).mgmtSleepQ ++ [x]) (y : F) :
    (w.setSta s p).occ y = w.occ y + if x = y then 1 else 0 := by
  have h := w.occ_setSta s p y
  rcases hqueues with ⟨hsleep, hmgmt⟩ | ⟨hsleep, hmgmt⟩ <;>
    rw [hsleep, hmgmt, List.count_append, List.count_singleton] at h <;>
    simp only [beq_iff_eq] at h <;> omega

/-- Every frame is in one queue at most. -/
def TxPriv.Once (w : TxPriv S F) : Prop := ∀ x, w.occ x ≤ 1

section

omit [DecidableEq S]

/-- A frame that was put in one queue. -/
theorem TxPriv.Once.moved {tx : TxPriv S F} (h : w.Once)
    (htx : ∀ y, tx.occ y ≤ (w.listDelete x).occ y + if x = y then 1 else 0) : tx.Once := by
  intro y
  have hone := h y
  have hy := htx y
  rw [occ_listDelete] at hy
  rcases eq_or_ne y x with rfl | hyx
  · simpa using hy
  · simp only [hyx, hyx.symm, if_false] at hy
    omega

theorem TxPriv.count_pending_le (w : TxPriv S F) (i : S × TxServq) (x : F) :
    (w.backlog.pending i).count x ≤ ∑ j, (w.backlog.pending j).count x :=
  Finset.single_le_sum (f := fun j => (w.backlog.pending j).count x) (fun _ _ => Nat.zero_le _)
    (Finset.mem_univ i)

theorem TxPriv.count_sleep_le (w : TxPriv S F) (s : S) (x : F) :
    (w.sta s).sleepQ.count x + (w.sta s).mgmtSleepQ.count x ≤
      ∑ t, ((w.sta t).sleepQ.count x + (w.sta t).mgmtSleepQ.count x) :=
  Finset.single_le_sum (f := fun t => (w.sta t).sleepQ.count x + (w.sta t).mgmtSleepQ.count x)
    (fun _ _ => Nat.zero_le _) (Finset.mem_univ s)

theorem TxPriv.Once.notMem_of_pending (h : w.Once) (hx : x ∈ w.backlog.pending i) (s : S) :
    x ∉ (w.sta s).sleepQ ∧ x ∉ (w.sta s).mgmtSleepQ := by
  have hone := h x
  have hpos := List.count_pos_iff.mpr hx
  have hpending := w.count_pending_le i x
  have hsleep := w.count_sleep_le s x
  unfold occ at hone
  constructor <;> exact fun hmem => by
    have := List.count_pos_iff.mpr hmem
    omega

theorem TxPriv.Once.notMem_mgmt (h : w.Once) (hx : x ∈ (w.sta s).sleepQ) :
    x ∉ (w.sta s).mgmtSleepQ := by
  have hone := h x
  have hpos := List.count_pos_iff.mpr hx
  have hsleep := w.count_sleep_le s x
  unfold occ at hone
  intro hmem
  have := List.count_pos_iff.mpr hmem
  omega

end

theorem TxPriv.Once.notMem_of_sta (h : w.Once) (hts : t ≠ s)
    (hx : x ∈ (w.sta s).sleepQ ∨ x ∈ (w.sta s).mgmtSleepQ) :
    x ∉ (w.sta t).sleepQ ∧ x ∉ (w.sta t).mgmtSleepQ := by
  have hone := h x
  have hpair : ((w.sta s).sleepQ.count x + (w.sta s).mgmtSleepQ.count x) +
      ((w.sta t).sleepQ.count x + (w.sta t).mgmtSleepQ.count x) ≤
      ∑ r, ((w.sta r).sleepQ.count x + (w.sta r).mgmtSleepQ.count x) := by
    rw [← Finset.sum_pair hts.symm
      (f := fun r => (w.sta r).sleepQ.count x + (w.sta r).mgmtSleepQ.count x)]
    exact Finset.sum_le_sum_of_subset (Finset.subset_univ _)
  have hpos : 0 < (w.sta s).sleepQ.count x + (w.sta s).mgmtSleepQ.count x := by
    rcases hx with hx | hx <;> have := List.count_pos_iff.mpr hx <;> omega
  unfold occ at hone
  constructor <;> exact fun hmem => by
    have := List.count_pos_iff.mpr hmem
    omega

section

omit [DecidableEq S]

theorem TxPriv.Once.nodup_sleepQ (h : w.Once) (s : S) : (w.sta s).sleepQ.Nodup := by
  refine List.nodup_iff_count_le_one.mpr fun x => ?_
  have hone := h x
  have hsleep := w.count_sleep_le s x
  unfold occ at hone
  omega

theorem TxPriv.Once.nodup_mgmtSleepQ (h : w.Once) (s : S) : (w.sta s).mgmtSleepQ.Nodup := by
  refine List.nodup_iff_count_le_one.mpr fun x => ?_
  have hone := h x
  have hsleep := w.count_sleep_le s x
  unfold occ at hone
  omega

theorem TxPriv.Once.nodup_pending (h : w.Once) (i : S × TxServq) : (w.backlog.pending i).Nodup := by
  refine List.nodup_iff_count_le_one.mpr fun x => ?_
  have hone := h x
  have hpending := w.count_pending_le i x
  unfold occ at hone
  omega

/-- A frame that is on no queue stands nowhere. -/
theorem PsPriv.Held.occ_eq_zero {w : PsPriv S F} (h : w.Held x) : w.tx.occ x = 0 := by
  have hpending (i : S × TxServq) : (w.tx.backlog.pending i).count x = 0 :=
    List.count_eq_zero_of_not_mem (h.1 i)
  have hsleep (s : S) : (w.tx.sta s).sleepQ.count x + (w.tx.sta s).mgmtSleepQ.count x = 0 := by
    rw [List.count_eq_zero_of_not_mem (h.2 s).1, List.count_eq_zero_of_not_mem (h.2 s).2]
  simp [TxPriv.occ, hpending, hsleep]

end

omit [DecidableEq S] [Fintype S] in
theorem TxPriv.listDelete_sta (h : x ∉ (w.sta s).sleepQ ∧ x ∉ (w.sta s).mgmtSleepQ) :
    (w.listDelete x).sta s = w.sta s := by
  have hsleep : (w.sta s).sleepQ.filter (· ≠ x) = (w.sta s).sleepQ :=
    List.filter_eq_self.mpr fun y hy => decide_eq_true fun hyx => h.1 (hyx ▸ hy)
  have hmgmt : (w.sta s).mgmtSleepQ.filter (· ≠ x) = (w.sta s).mgmtSleepQ :=
    List.filter_eq_self.mpr fun y hy => decide_eq_true fun hyx => h.2 (hyx ▸ hy)
  have hsta : (w.listDelete x).sta s = { w.sta s with
      sleepQ := (w.sta s).sleepQ.filter (· ≠ x)
      mgmtSleepQ := (w.sta s).mgmtSleepQ.filter (· ≠ x) } := rfl
  rw [hsta, hsleep, hmgmt]

end Places

/-! ## The view of one station -/

section View

variable [Fintype S] {w w' w'' : PsPriv S F} {x : F} {s t : S} {ac : Bool}

/-- What is balanced at one station. -/
structure StaBalance (w : PsPriv S F) (s : S) : Prop where
  settings : UapsdSettings (w.tx.sta s)
  sleepqLen : (w.tx.sta s).sleepqLen = (w.tx.sta s).sleepQ.length
  sleepqAcLen : (w.tx.sta s).sleepqAcLen = (w.tx.sta s).sleepQ.countP (w.tx.wmmpsAc s 0)
  ledger : w.slept s = (w.tx.sta s).sleepQ + w.released s
  period : ∀ p ∈ w.periods, p.1 = s → p.2.count true = 1 ∧ p.2.getLast? = some true

/-- The invariant. -/
structure PsInv (w : PsPriv S F) (s : S) : Prop extends StaBalance w s where
  once : w.tx.Once

omit [DecidableEq S] in
theorem PsInv.psBalanced (h : PsInv w s) : PsBalanced w s :=
  ⟨h.sleepqLen, h.sleepqAcLen, h.ledger, h.once, h.period⟩

/-- Station `s` sees no difference. -/
structure Quiet (s : S) (w w' : PsPriv S F) : Prop where
  sleepQ : (w'.tx.sta s).sleepQ = (w.tx.sta s).sleepQ
  sleepqLen : (w'.tx.sta s).sleepqLen = (w.tx.sta s).sleepqLen
  sleepqAcLen : (w'.tx.sta s).sleepqAcLen = (w.tx.sta s).sleepqAcLen
  uapsd : (w'.tx.sta s).uapsd = (w.tx.sta s).uapsd
  macAddr : (w'.tx.sta s).macAddr = (w.tx.sta s).macAddr
  priority : ∀ x ∈ (w.tx.sta s).sleepQ, w'.tx.priority x = w.tx.priority x
  slept : w'.slept s = w.slept s
  released : w'.released s = w.released s
  periods : w'.periods = w.periods

omit [DecidableEq S] [DecidableEq F] [Fintype S] in
/-- A change that leaves the record of the station, the priorities and the ledgers. -/
theorem Quiet.of_eq (hsta : w'.tx.sta s = w.tx.sta s)
    (hpriority : ∀ x ∈ (w.tx.sta s).sleepQ, w'.tx.priority x = w.tx.priority x)
    (hslept : w'.slept s = w.slept s) (hreleased : w'.released s = w.released s)
    (hperiods : w'.periods = w.periods) : Quiet s w w' := by
  refine ⟨?_, ?_, ?_, ?_, ?_, hpriority, hslept, hreleased, hperiods⟩ <;> rw [hsta]

omit [DecidableEq S] [DecidableEq F] [Fintype S] in
theorem Quiet.refl (w : PsPriv S F) (s : S) : Quiet s w w :=
  .of_eq rfl (fun _ _ => rfl) rfl rfl rfl

omit [DecidableEq F] in
theorem UapsdSettings.congr {p p' : StaXmit F} (h : UapsdSettings p) (huapsd : p'.uapsd = p.uapsd)
    (hmac : p'.macAddr = p.macAddr) : UapsdSettings p' :=
  ⟨by rw [huapsd]; exact h.both, by rw [huapsd, hmac]; exact h.bcast⟩

section

omit [DecidableEq S] [DecidableEq F] [Fintype S]

theorem Quiet.wmmpsAc (h : Quiet s w w') (hx : x ∈ (w.tx.sta s).sleepQ) (bit : ℕ) :
    w'.tx.wmmpsAc s bit x = w.tx.wmmpsAc s bit x := by
  rw [TxPriv.wmmpsAc, TxPriv.wmmpsAc, h.uapsd, h.priority x hx]

theorem StaBalance.quiet (h : StaBalance w s) (hq : Quiet s w w') : StaBalance w' s where
  settings := h.settings.congr hq.uapsd hq.macAddr
  sleepqLen := by
    rw [hq.sleepqLen, hq.sleepQ]
    exact h.sleepqLen
  sleepqAcLen := by
    rw [hq.sleepqAcLen, hq.sleepQ, h.sleepqAcLen]
    exact List.countP_congr fun x hx => by rw [hq.wmmpsAc hx]
  ledger := by
    rw [hq.slept, hq.sleepQ, hq.released]
    exact h.ledger
  period := by
    rw [hq.periods]
    exact h.period

theorem StaBalance.wmmpsAc_bit (h : StaBalance w s) (x : F) :
    w.tx.wmmpsAc s 1 x = w.tx.wmmpsAc s 0 x := (h.settings.both _).symm

end

omit [Fintype S] in
theorem putSleep_sta (hx : ∀ t, x ∉ (w.tx.sta t).sleepQ ∧ x ∉ (w.tx.sta t).mgmtSleepQ)
    (ac : Bool) (t : S) :
    (w.putSleep s x ac).tx.sta t = if t = s then (w.tx.sta s).putSleep x ac else w.tx.sta t := by
  unfold PsPriv.putSleep
  dsimp only
  rw [TxPriv.setSta_sta, TxPriv.listDelete_sta (hx s), TxPriv.listDelete_sta (hx t)]

omit [Fintype S] in
theorem putSleep_slept (w : PsPriv S F) (s : S) (x : F) (ac : Bool) :
    (w.putSleep s x ac).slept = Function.update w.slept s (x ::ₘ w.slept s) := rfl

theorem putSleep_once (h : w.tx.Once) : (w.putSleep s x ac).tx.Once := by
  refine h.moved (x := x) fun y => le_of_eq ?_
  exact TxPriv.occ_setSta_append (p := ((w.tx.listDelete x).sta s).putSleep x ac)
    (.inl ⟨rfl, rfl⟩) y

omit [Fintype S] in
theorem StaBalance.putSleep (h : StaBalance w s)
    (hx : ∀ t, x ∉ (w.tx.sta t).sleepQ ∧ x ∉ (w.tx.sta t).mgmtSleepQ)
    (hac : t = s → ac = w.tx.wmmpsAc s 0 x) : StaBalance (w.putSleep t x ac) s := by
  rcases eq_or_ne t s with rfl | hts
  swap
  · refine h.quiet (.of_eq ?_ (fun _ _ => rfl) ?_ rfl rfl)
    · rw [putSleep_sta hx ac, if_neg hts.symm]
    · rw [putSleep_slept, Function.update_of_ne hts.symm]
  have hsta := putSleep_sta (s := t) hx ac t
  rw [if_pos rfl] at hsta
  have hwmmps : (w.putSleep t x ac).tx.wmmpsAc t 0 = w.tx.wmmpsAc t 0 := by
    funext y
    rw [TxPriv.wmmpsAc, TxPriv.wmmpsAc, hsta]
    rfl
  refine ⟨?_, ?_, ?_, ?_, h.period⟩ <;> rw [hsta]
  · exact h.settings.congr rfl rfl
  · show (w.tx.sta t).sleepqLen + 1 = ((w.tx.sta t).sleepQ ++ [x]).length
    rw [h.sleepqLen, List.length_append, List.length_singleton]
  · show _ + _ = ((w.tx.sta t).sleepQ ++ [x]).countP _
    rw [hwmmps, h.sleepqAcLen, hac rfl, List.countP_append, List.countP_singleton]
  · rw [putSleep_slept, Function.update_self, h.ledger]
    show _ = (((w.tx.sta t).sleepQ ++ [x] : List F) : Multiset F) + w.released t
    rw [← Multiset.coe_add, Multiset.coe_singleton, add_right_comm, ← Multiset.singleton_add,
      add_comm]

/-! ### A frame is released -/

theorem classifier_getD (w : TxPriv S F) (x : F) :
    ((rtwXmitClassifier w x).getD w).sta = w.sta ∧
      ((rtwXmitClassifier w x).getD w).frames = w.frames ∧
      ∀ y, ((rtwXmitClassifier w x).getD w).occ y ≤ w.occ y + if x = y then 1 else 0 := by
  rcases hw : rtwXmitClassifier w x with _ | w'
  · exact ⟨rfl, rfl, fun y => Nat.le_add_right _ _⟩
  · obtain ⟨s, -, rfl⟩ := Option.map_eq_some_iff.mp hw
    exact ⟨rfl, rfl, fun y => (w.occ_enqueue _ _ x y).le⟩

omit [Fintype S] in
theorem release_tx (w : PsPriv S F) (s : S) (x : F) (ac : Bool) :
    ∃ p : PktAttrib, p = markReleased ac ((w.tx.sta s).countReleased ac).sleepqLen
        ((w.tx.sta s).countReleased ac).sleepqAcLen (w.tx.frames x).xmit.attrib ∧
      let tx := ((w.tx.listDelete x).setSta s
        (((w.tx.listDelete x).sta s).countReleased ac)).setAttrib x true p
      (w.release s x ac).tx = (rtwXmitClassifier tx x).getD tx := ⟨_, rfl, rfl⟩

theorem release_sta (w : PsPriv S F) (s : S) (x : F) (ac : Bool) (t : S) :
    (w.release s x ac).tx.sta t =
      if t = s then ((w.tx.listDelete x).sta s).countReleased ac
      else (w.tx.listDelete x).sta t := by
  obtain ⟨p, -, htx⟩ := release_tx w s x ac
  rw [htx, (classifier_getD _ x).1]
  exact TxPriv.setSta_sta _ _ _ _

theorem release_sleepQ (w : PsPriv S F) (s : S) (x : F) (ac : Bool) (t : S) :
    ((w.release s x ac).tx.sta t).sleepQ = (w.tx.sta t).sleepQ.filter (· ≠ x) := by
  rw [release_sta]
  rcases eq_or_ne t s with rfl | hts
  · rw [if_pos rfl]
    rfl
  · rw [if_neg hts]
    rfl

theorem release_attrib (w : PsPriv S F) (s : S) (x : F) (ac : Bool) (y : F) :
    ((w.release s x ac).tx.frames y).xmit.attrib =
      if y = x then markReleased ac ((w.tx.sta s).countReleased ac).sleepqLen
        ((w.tx.sta s).countReleased ac).sleepqAcLen (w.tx.frames x).xmit.attrib
      else (w.tx.frames y).xmit.attrib := by
  obtain ⟨p, rfl, htx⟩ := release_tx w s x ac
  rw [htx, (classifier_getD _ x).2.1]
  unfold TxPriv.setAttrib TxPriv.setFrame
  dsimp only
  rw [Function.update_apply]
  split_ifs <;> rfl

theorem markReleased_priority (ac : Bool) (len acLen : ℕ) (p : PktAttrib) :
    (markReleased ac len acLen p).priority = p.priority := by
  unfold markReleased
  split_ifs <;> rfl

theorem release_priority (w : PsPriv S F) (s : S) (x : F) (ac : Bool) (y : F) :
    (w.release s x ac).tx.priority y = w.tx.priority y := by
  rw [TxPriv.priority, release_attrib]
  rcases eq_or_ne y x with rfl | hyx
  · rw [if_pos rfl]
    exact markReleased_priority ..
  · rw [if_neg hyx]
    rfl

theorem release_once (h : w.tx.Once) : (w.release s x ac).tx.Once := by
  obtain ⟨p, -, htx⟩ := release_tx w s x ac
  rw [htx]
  refine h.moved (x := x) fun y => ((classifier_getD _ x).2.2 y).trans ?_
  refine Nat.add_le_add_right (le_of_eq ?_) _
  exact TxPriv.occ_setSta_same (p := ((w.tx.listDelete x).sta s).countReleased ac) rfl rfl y

end View

section Moves

variable [Fintype S] {w w' : PsPriv S F} {x : F} {s t : S} {ac : Bool}

theorem perm_cons_filter_ne {l : List F} (hl : l.Nodup) (hx : x ∈ l) :
    l.Perm (x :: l.filter (· ≠ x)) := by
  have hne : (fun y => y != x) = fun y => decide (y ≠ x) := by
    funext y
    by_cases hyx : y = x <;> simp [hyx]
  rw [← hne, ← hl.erase_eq_filter]
  exact List.perm_cons_erase hx

theorem decU32_of_pos {n : ℕ} (h : 0 < n) : decU32 n = n - 1 := if_neg h.ne'

theorem StaBalance.release (h : StaBalance w s) (honce : w.tx.Once)
    (hx : x ∈ (w.tx.sta t).sleepQ) (hac : t = s → ac = w.tx.wmmpsAc s 0 x) :
    StaBalance (w.release t x ac) s := by
  rcases eq_or_ne t s with rfl | hts
  swap
  · refine h.quiet (.of_eq ?_ (fun y _ => release_priority w t x ac y) rfl ?_ rfl)
    · rw [release_sta, if_neg hts.symm, TxPriv.listDelete_sta]
      exact honce.notMem_of_sta hts.symm (.inl hx)
    · exact Function.update_of_ne hts.symm _ _
  have hperm := perm_cons_filter_ne (honce.nodup_sleepQ t) hx
  have hsta := release_sta w t x ac t
  rw [if_pos rfl] at hsta
  have hsleepQ := release_sleepQ w t x ac t
  have hwmmps : (w.release t x ac).tx.wmmpsAc t 0 = w.tx.wmmpsAc t 0 := by
    funext y
    rw [TxPriv.wmmpsAc, TxPriv.wmmpsAc, hsta, release_priority]
    rfl
  refine ⟨?_, ?_, ?_, ?_, h.period⟩
  · rw [hsta]
    exact h.settings.congr rfl rfl
  · rw [hsleepQ, hsta]
    show decU32 (w.tx.sta t).sleepqLen = _
    have hlength := hperm.length_eq
    rw [List.length_cons] at hlength
    rw [h.sleepqLen, decU32_of_pos (by omega)]
    omega
  · rw [hsleepQ, hwmmps, hsta]
    show (if ac then decU32 (w.tx.sta t).sleepqAcLen else (w.tx.sta t).sleepqAcLen) = _
    have hcount := hperm.countP_eq (w.tx.wmmpsAc t 0)
    rw [List.countP_cons, ← hac rfl] at hcount
    rw [h.sleepqAcLen]
    split_ifs at hcount ⊢ with htrue
    · rw [decU32_of_pos (by omega)]
      omega
    · omega
  · rw [hsleepQ]
    show w.slept t = _ + Function.update w.released t (x ::ₘ w.released t) t
    rw [Function.update_self, h.ledger, Multiset.coe_eq_coe.mpr hperm, ← Multiset.cons_coe,
      Multiset.cons_add, Multiset.add_cons]

theorem PsInv.release (h : PsInv w s) (hx : x ∈ (w.tx.sta t).sleepQ)
    (hac : t = s → ac = w.tx.wmmpsAc s 0 x) : PsInv (w.release t x ac) s :=
  ⟨h.toStaBalance.release h.once hx hac, release_once h.once⟩

omit [DecidableEq S] in
theorem PsInv.quiet (h : PsInv w s) (hq : Quiet s w w') (honce : w'.tx.Once) : PsInv w' s :=
  ⟨h.toStaBalance.quiet hq, honce⟩

theorem mgmtEnqueue_getD (w : TxPriv S F) (x : F) (bufs : List ℕ) :
    let w' := (rtwMgmtXmitframeEnqueue w x).getD { w with freedBufs := bufs }
    w'.sta = w.sta ∧ w'.frames = w.frames ∧ ∀ y, w'.occ y ≤ w.occ y + if x = y then 1 else 0 := by
  rcases hw : rtwMgmtXmitframeEnqueue w x with _ | w'
  · exact ⟨rfl, rfl, fun y => Nat.le_add_right _ _⟩
  · obtain ⟨s, -, rfl⟩ := Option.map_eq_some_iff.mp hw
    exact ⟨rfl, rfl, fun y => (w.occ_enqueue _ _ x y).le⟩

omit [Fintype S] in
theorem releaseMgmt_tx (w : PsPriv S F) (s : S) (x : F) :
    ∃ (p : PktAttrib) (bufs : List ℕ), p.priority = (w.tx.frames x).xmit.attrib.priority ∧
      let tx := ((w.tx.listDelete x).setSta s
        ((w.tx.listDelete x).sta s).countMgmtReleased).setAttrib x true p
      (w.releaseMgmt s x).tx =
        (rtwMgmtXmitframeEnqueue tx x).getD { tx with freedBufs := bufs } :=
  ⟨{ (w.tx.frames x).xmit.attrib with
      mdata := 0 < ((w.tx.listDelete x).sta s).countMgmtReleased.mgmtSleepqLen }, _, rfl, rfl⟩

omit [DecidableEq S] [Fintype S] in
theorem setAttrib_priority {w : TxPriv S F} {p : PktAttrib} {triggered : Bool}
    (hp : p.priority = (w.frames x).xmit.attrib.priority) (y : F) :
    (w.setAttrib x triggered p).priority y = w.priority y := by
  unfold TxPriv.priority TxPriv.setAttrib TxPriv.setFrame
  dsimp only
  rcases eq_or_ne y x with rfl | hyx
  · rw [Function.update_self]
    exact hp
  · rw [Function.update_of_ne hyx]

theorem PsInv.releaseMgmt (h : PsInv w s) (hx : x ∈ (w.tx.sta t).mgmtSleepQ) :
    PsInv (w.releaseMgmt t x) s ∧ Quiet s w (w.releaseMgmt t x) := by
  obtain ⟨p, bufs, hp, htx⟩ := releaseMgmt_tx w t x
  obtain ⟨hsta, hframes, hocc⟩ := mgmtEnqueue_getD (((w.tx.listDelete x).setSta t
    ((w.tx.listDelete x).sta t).countMgmtReleased).setAttrib x true p) x bufs
  have hs : ((w.releaseMgmt t x).tx.sta s) =
      if s = t then ((w.tx.listDelete x).sta t).countMgmtReleased
      else (w.tx.listDelete x).sta s := by
    rw [htx, hsta]
    exact TxPriv.setSta_sta _ _ _ _
  have hpriority (y : F) : (w.releaseMgmt t x).tx.priority y = w.tx.priority y := by
    rw [TxPriv.priority, htx, hframes]
    exact setAttrib_priority (w := (w.tx.listDelete x).setSta t _) hp y
  have hnot : x ∉ (w.tx.sta s).sleepQ := by
    rcases eq_or_ne s t with rfl | hst
    · exact fun hmem => h.once.notMem_mgmt hmem hx
    · exact (h.once.notMem_of_sta hst (.inr hx)).1
  have hsleepQ : (w.tx.sta s).sleepQ.filter (· ≠ x) = (w.tx.sta s).sleepQ :=
    List.filter_eq_self.mpr fun y hy => decide_eq_true fun hyx => hnot (hyx ▸ hy)
  have hquiet : Quiet s w (w.releaseMgmt t x) := by
    refine ⟨?_, ?_, ?_, ?_, ?_, fun y _ => hpriority y, rfl, rfl, rfl⟩ <;> rw [hs] <;>
      rcases eq_or_ne s t with rfl | hst <;> first | rw [if_pos rfl] | rw [if_neg hst]
    all_goals first | exact hsleepQ | rfl
  refine ⟨h.quiet hquiet ?_, hquiet⟩
  rw [htx]
  refine h.once.moved (x := x) fun y => (hocc y).trans ?_
  refine Nat.add_le_add_right (le_of_eq ?_) _
  exact TxPriv.occ_setSta_same (p := ((w.tx.listDelete x).sta t).countMgmtReleased) rfl rfl y

end Moves

section Routines

variable [Fintype S] {w w' : PsPriv S F} {x : F} {xs : List F} {s t : S} {ac : Bool}

omit [DecidableEq S] in
/-- What the invariant does not read. -/
theorem PsInv.maps (h : PsInv w s) (staDz tim : Finset ℕ) :
    PsInv { w with staDz := staDz, tim := tim } s :=
  h.quiet (.of_eq rfl (fun _ _ => rfl) rfl rfl rfl) h.once

theorem PsInv.setSleep (h : PsInv w s) (t : S) (sleep : Bool) :
    PsInv { w with tx := w.tx.setSta t { w.tx.sta t with sleep := sleep } } s := by
  refine h.quiet ?_ fun y => ?_
  · have hs : (w.tx.setSta t { w.tx.sta t with sleep := sleep }).sta s =
        if s = t then { w.tx.sta t with sleep := sleep } else w.tx.sta s := TxPriv.setSta_sta ..
    refine ⟨?_, ?_, ?_, ?_, ?_, fun _ _ => rfl, rfl, rfl, rfl⟩ <;> dsimp only <;> rw [hs] <;>
      rcases eq_or_ne s t with rfl | hst <;> first | rw [if_pos rfl] | rw [if_neg hst]
    all_goals rfl
  · exact (TxPriv.occ_setSta_same (p := { w.tx.sta t with sleep := sleep }) rfl rfl y).le.trans
      (h.once y)

omit [DecidableEq S] in
theorem PsInv.setAttrib {p : PktAttrib} {triggered : Bool} (h : PsInv w s)
    (hp : p.priority = (w.tx.frames x).xmit.attrib.priority) :
    PsInv { w with tx := w.tx.setAttrib x triggered p } s :=
  h.quiet (.of_eq rfl (fun y _ => setAttrib_priority hp y) rfl rfl rfl) h.once

/-- Frames of one station are released one after the other. -/
theorem PsInv.foldl_release {count : PsPriv S F → F → Bool} {mac : MacAddr}
    (hcount : ∀ w : PsPriv S F, PsInv w s → (w.tx.sta t).macAddr = mac → ∀ x, t = s →
      count w x = w.tx.wmmpsAc s 0 x)
    (h : PsInv w s) (hmac : (w.tx.sta t).macAddr = mac) (hnodup : xs.Nodup)
    (hxs : ∀ x ∈ xs, x ∈ (w.tx.sta t).sleepQ) :
    PsInv (xs.foldl (fun w x => w.release t x (count w x)) w) s := by
  induction xs generalizing w with
  | nil => exact h
  | cons x xs ih =>
    have hnotMem := (List.nodup_cons.mp hnodup).1
    refine ih (h.release (hxs x List.mem_cons_self) (hcount w h hmac x)) ?_
      (List.nodup_cons.mp hnodup).2 fun y hy => ?_
    · rw [release_sta, if_pos rfl]
      exact hmac
    · rw [release_sleepQ]
      exact List.mem_filter.mpr ⟨hxs y (List.mem_cons_of_mem x hy),
        decide_eq_true fun hyx => hnotMem (hyx ▸ hy)⟩

theorem PsInv.wakeFrames (h : PsInv w s) (t : S) :
    PsInv (wakeFrames t (w.tx.sta t).sleepQ w) s := by
  refine PsInv.foldl_release (fun w h _ x hts => ?_) h rfl (h.once.nodup_sleepQ t) fun _ => id
  subst hts
  exact h.wmmpsAc_bit x

omit [DecidableEq S] [DecidableEq F] [Fintype S] in
theorem StaBalance.wmmpsAc_bcast (h : StaBalance w s) (hmac : (w.tx.sta s).macAddr = .bcast)
    (x : F) : w.tx.wmmpsAc s 0 x = false := h.settings.bcast hmac _

theorem PsInv.wakeBmc (h : PsInv w s) (hmac : (w.tx.sta t).macAddr = .bcast) :
    PsInv (wakeBmc t (w.tx.sta t).sleepQ w) s := by
  refine PsInv.foldl_release (fun w h hmac x hts => ?_) h hmac (h.once.nodup_sleepQ t) fun _ => id
  subst hts
  exact (h.wmmpsAc_bcast hmac x).symm

theorem releaseMgmt_mgmtSleepQ (w : PsPriv S F) (t : S) (x : F) :
    ((w.releaseMgmt t x).tx.sta t).mgmtSleepQ = (w.tx.sta t).mgmtSleepQ.filter (· ≠ x) := by
  obtain ⟨p, bufs, -, htx⟩ := releaseMgmt_tx w t x
  rw [htx, (mgmtEnqueue_getD _ x bufs).1]
  unfold TxPriv.setAttrib TxPriv.setFrame
  dsimp only
  rw [TxPriv.setSta_sta, if_pos rfl]
  rfl

theorem PsInv.foldl_releaseMgmt (h : PsInv w s) (hnodup : xs.Nodup)
    (hxs : ∀ x ∈ xs, x ∈ (w.tx.sta t).mgmtSleepQ) : PsInv (wakeMgmt t xs w) s := by
  induction xs generalizing w with
  | nil => exact h
  | cons x xs ih =>
    have hnotMem := (List.nodup_cons.mp hnodup).1
    refine ih (h.releaseMgmt (hxs x List.mem_cons_self)).1 (List.nodup_cons.mp hnodup).2
      fun y hy => ?_
    rw [releaseMgmt_mgmtSleepQ]
    exact List.mem_filter.mpr ⟨hxs y (List.mem_cons_of_mem x hy),
      decide_eq_true fun hyx => hnotMem (hyx ▸ hy)⟩

theorem PsInv.wakeMgmt (h : PsInv w s) (t : S) : PsInv (wakeMgmt t (w.tx.sta t).mgmtSleepQ w) s :=
  h.foldl_releaseMgmt (h.once.nodup_mgmtSleepQ t) fun _ => id

omit [DecidableEq S] [DecidableEq F] [Fintype S] in
theorem rtwGetStainfo_macAddr {w : TxPriv S F} {hwaddr : MacAddr}
    (h : w.rtwGetStainfo hwaddr = some s) : (w.sta s).macAddr = staKey hwaddr := by
  have hfound := List.find?_some (p := fun s => decide ((w.sta s).macAddr = staKey hwaddr)) h
  exact of_decide_eq_true hfound

theorem PsInv.wakeupBmc (h : PsInv w s) (hmac : (w.tx.sta t).macAddr = .bcast) :
    PsInv (w.wakeupBmc t) s := by
  unfold PsPriv.wakeupBmc
  dsimp only
  split_ifs
  · exact h
  · exact (h.wakeBmc hmac).maps _ _
  · exact h.wakeBmc hmac

theorem PsInv.wakeupStaToXmit (h : PsInv w s) (t : S) (dequeueType : DequeueType) :
    PsInv (wakeupStaToXmit w t dequeueType) s := by
  unfold Xmit.wakeupStaToXmit
  have hmgmt : PsInv (if dequeueType = .uniBmcData then w
      else Xmit.wakeMgmt t (w.tx.sta t).mgmtSleepQ w) s := by
    split_ifs
    · exact h
    · exact h.wakeMgmt t
  revert hmgmt
  generalize (if dequeueType = .uniBmcData then w
    else Xmit.wakeMgmt t (w.tx.sta t).mgmtSleepQ w) = w₁
  intro hmgmt
  have hdata : PsInv (if dequeueType = .uniMgmt then w₁
      else Xmit.wakeFrames t (w₁.tx.sta t).sleepQ w₁) s := by
    split_ifs
    · exact hmgmt
    · exact hmgmt.wakeFrames t
  revert hdata
  dsimp only
  generalize (if dequeueType = .uniMgmt then w₁
    else Xmit.wakeFrames t (w₁.tx.sta t).sleepQ w₁) = w₂
  intro hdata
  have hawake : PsInv (if w₂.noneAsleep t then { w₂ with
      tx := w₂.tx.setSta t { w₂.tx.sta t with sleep := false }
      tim := w₂.tim.erase (w₂.tx.sta t).aid, staDz := w₂.staDz.erase (w₂.tx.sta t).aid }
      else w₂) s := by
    split_ifs
    · exact (hdata.setSleep t false).maps _ _
    · exact hdata
  revert hawake
  generalize (if w₂.noneAsleep t then _ else w₂) = w₃
  intro hawake
  split_ifs
  · exact hawake
  · rcases hbmc : w₃.tx.rtwGetStainfo .bcast with _ | bmc
    · exact hawake
    · exact hawake.wakeupBmc (rtwGetStainfo_macAddr hbmc)

/-! ### Frames fall asleep -/

omit [DecidableEq F] [Fintype S] in
theorem enqueueSta_some {w : TxPriv S F} {f : TxFrame S} (h : w.enqueueSta f = some s) :
    (w.sta s).macAddr = staKey f.xmit.attrib.ra := by
  obtain ⟨t, ht, h⟩ := Option.bind_eq_some_iff.mp h
  split_ifs at h
  obtain rfl := Option.some.inj h
  exact rtwGetStainfo_macAddr ht

/-- What `xmitframe_enqueue_for_sleeping_sta` does to the frame and the queues. -/
structure Slept (s : S) (x : F) (w w' : PsPriv S F) : Prop where
  inv : PsInv w' s
  pending : ∀ i, ∀ y ≠ x, y ∈ w.tx.backlog.pending i → y ∈ w'.tx.backlog.pending i

theorem PsInv.putSleep (h : PsInv w s)
    (hx : ∀ t, x ∉ (w.tx.sta t).sleepQ ∧ x ∉ (w.tx.sta t).mgmtSleepQ)
    (hac : t = s → ac = w.tx.wmmpsAc s 0 x) : PsInv (w.putSleep t x ac) s :=
  ⟨h.toStaBalance.putSleep hx hac, putSleep_once h.once⟩

omit [Fintype S] in
theorem pending_putSleep {y : F} {i : S × TxServq} (hyx : y ≠ x)
    (hy : y ∈ w.tx.backlog.pending i) : y ∈ (w.putSleep t x ac).tx.backlog.pending i :=
  List.mem_filter.mpr ⟨hy, decide_eq_true hyx⟩

theorem PsInv.enqueueForSleeping (h : PsInv w s)
    (hx : ∀ t, x ∉ (w.tx.sta t).sleepQ ∧ x ∉ (w.tx.sta t).mgmtSleepQ) :
    Slept s x w (xmitframeEnqueueForSleepingSta w x).2 := by
  have hsame : Slept s x w w := ⟨h, fun _ _ _ => id⟩
  unfold xmitframeEnqueueForSleepingSta
  dsimp only
  split
  · exact hsame
  rcases hsta : w.tx.enqueueSta (w.tx.frames x) with _ | t
  · exact hsame
  dsimp only
  have hmac := enqueueSta_some hsta
  split_ifs with _ _ hbmc
  · exact ⟨h.setAttrib rfl, fun _ _ _ => id⟩
  · exact hsame
  · refine ⟨(h.putSleep hx fun hts => ?_).maps _ _, fun _ _ => pending_putSleep⟩
    subst hts
    rw [staKey, if_pos hbmc] at hmac
    exact (h.wmmpsAc_bcast hmac x).symm
  · exact hsame
  · exact ⟨(h.putSleep hx fun hts => hts ▸ rfl).maps _ _, fun _ _ => pending_putSleep⟩
  · exact ⟨h.putSleep hx fun hts => hts ▸ rfl, fun _ _ => pending_putSleep⟩
  · exact hsame

theorem PsInv.mgmtEnqueueForSleeping (h : PsInv w s)
    (hx : ∀ t, x ∉ (w.tx.sta t).sleepQ ∧ x ∉ (w.tx.sta t).mgmtSleepQ) :
    Slept s x w (mgmtXmitframeEnqueueForSleepingSta w x).2 := by
  have hsame : Slept s x w w := ⟨h, fun _ _ _ => id⟩
  unfold mgmtXmitframeEnqueueForSleepingSta
  dsimp only
  split
  · exact hsame
  rcases (w.tx.frames x).psta with _ | t
  · exact hsame
  dsimp only
  split
  swap
  · exact hsame
  refine ⟨(h.quiet ?_ ?_), fun i y hyx hy => List.mem_filter.mpr ⟨hy, decide_eq_true hyx⟩⟩
  · have hs : ((w.tx.listDelete x).setSta t (((w.tx.listDelete x).sta t).putMgmtSleep x)).sta s =
        if s = t then (w.tx.sta t).putMgmtSleep x else w.tx.sta s := by
      rw [TxPriv.setSta_sta, TxPriv.listDelete_sta (hx t), TxPriv.listDelete_sta (hx s)]
    refine ⟨?_, ?_, ?_, ?_, ?_, fun _ _ => rfl, rfl, rfl, rfl⟩ <;> dsimp only <;> rw [hs] <;>
      rcases eq_or_ne s t with rfl | hst <;> first | rw [if_pos rfl] | rw [if_neg hst]
    all_goals rfl
  · refine h.once.moved (x := x) fun y => le_of_eq ?_
    exact TxPriv.occ_setSta_append (p := ((w.tx.listDelete x).sta t).putMgmtSleep x)
      (.inr ⟨rfl, rfl⟩) y

theorem PsInv.uncount (h : PsInv w s) (k : Fin 5) (i : S × TxServq) :
    PsInv { w with tx := w.tx.uncount k i } s :=
  h.quiet (.of_eq rfl (fun _ _ => rfl) rfl rfl rfl) h.once

theorem PsInv.unlink (h : PsInv w s) (i : S × TxServq) :
    PsInv { w with tx := { w.tx with backlog := w.tx.backlog.unlink i } } s :=
  h.quiet (.of_eq rfl (fun _ _ => rfl) rfl rfl rfl) h.once

omit [DecidableEq S] in
/-- A frame of a queue is put to sleep; the frames still to be looked at stay in the queue. -/
theorem Slept.rest {i : S × TxServq} (h : Slept s x w w') (hnotMem : x ∉ xs)
    (hxs : ∀ y ∈ x :: xs, y ∈ w.tx.backlog.pending i) :
    ∀ y ∈ xs, y ∈ w'.tx.backlog.pending i :=
  fun y hy => h.pending i y (fun hyx => hnotMem (hyx ▸ hy)) (hxs y (List.mem_cons_of_mem x hy))

theorem PsInv.dequeueToSleeping {i : S × TxServq} (h : PsInv w s) (hnodup : xs.Nodup)
    (hxs : ∀ x ∈ xs, x ∈ w.tx.backlog.pending i) :
    PsInv (dequeueXmitframesToSleepingQueue t xs w) s := by
  induction xs generalizing w with
  | nil => exact h
  | cons x xs ih =>
    obtain ⟨hnotMem, hnodup⟩ := List.nodup_cons.mp hnodup
    have hset : PsInv { w with tx := w.tx.setAttrib x false (w.tx.frames x).xmit.attrib } s :=
      h.setAttrib rfl
    have hslept := hset.enqueueForSleeping (x := x)
      (h.once.notMem_of_pending (hxs x List.mem_cons_self))
    have hrest := hslept.rest hnotMem hxs
    rw [dequeueXmitframesToSleepingQueue]
    revert hslept hrest
    generalize xmitframeEnqueueForSleepingSta
      { w with tx := w.tx.setAttrib x false (w.tx.frames x).xmit.attrib } x = r
    rcases r with ⟨_ | _, w'⟩ <;> intro hslept hrest
    · exact ih hslept.inv hnodup hrest
    · exact ih (hslept.inv.uncount _ _) hnodup hrest

theorem PsInv.dequeueMgmtToSleepq {i : S × TxServq} (h : PsInv w s) (hnodup : xs.Nodup)
    (hxs : ∀ x ∈ xs, x ∈ w.tx.backlog.pending i) :
    PsInv (dequeueMgmtXmitframeToSleepq t xs w) s := by
  induction xs generalizing w with
  | nil => exact h
  | cons x xs ih =>
    obtain ⟨hnotMem, hnodup⟩ := List.nodup_cons.mp hnodup
    have hset : PsInv { w with tx := w.tx.setAttrib x false (w.tx.frames x).xmit.attrib } s :=
      h.setAttrib rfl
    have hslept := hset.mgmtEnqueueForSleeping (x := x)
      (h.once.notMem_of_pending (hxs x List.mem_cons_self))
    have hrest := hslept.rest hnotMem hxs
    rw [dequeueMgmtXmitframeToSleepq]
    revert hslept hrest
    generalize mgmtXmitframeEnqueueForSleepingSta
      { w with tx := w.tx.setAttrib x false (w.tx.frames x).xmit.attrib } x = r
    rcases r with ⟨_ | _, w'⟩ <;> intro hslept hrest
    · exact ih hslept.inv hnodup hrest
    · exact ih (hslept.inv.uncount _ _) hnodup hrest

theorem PsInv.stopServq (h : PsInv w s) (i : S × TxServq) : PsInv (w.stopServq i) s :=
  (h.dequeueToSleeping (i := i) (h.once.nodup_pending i) fun _ => id).unlink i

theorem PsInv.stopAcs (h : PsInv w s) (t : S) : PsInv (w.stopAcs t) s :=
  (((h.stopServq (t, .vo)).stopServq (t, .vi)).stopServq (t, .be)).stopServq (t, .bk)

theorem PsInv.stopMgmt (h : PsInv w s) (t : S) : PsInv (w.stopMgmt t) s :=
  (h.dequeueMgmtToSleepq (i := (t, .mgmt)) (h.once.nodup_pending _) fun _ => id).unlink (t, .mgmt)

theorem PsInv.markSleep (h : PsInv w s) (t : S) : PsInv (w.markSleep t) s :=
  (h.setSleep t true).maps _ _

theorem PsInv.stopStaXmit (h : PsInv w s) (t : S) : PsInv (stopStaXmit w t) s := by
  have hstop := ((h.markSleep t).stopMgmt t).stopAcs t
  unfold Xmit.stopStaXmit
  rcases w.tx.rtwGetStainfo .bcast with _ | bmc
  · exact hstop
  · exact hstop.stopAcs bmc

end Routines

section Periods

variable [Fintype S] {w w' : PsPriv S F} {x : F} {xs : List F} {s t : S} {ac : Bool}

def eospMarks : ℕ → List Bool
  | 0 => []
  | n + 1 => decide (n = 0) :: eospMarks n

theorem count_eospMarks (n : ℕ) : (eospMarks (n + 1)).count true = 1 := by
  induction n with
  | zero => rfl
  | succ n ih =>
    rw [eospMarks, List.count_cons, ih]
    simp

theorem getLast?_eospMarks (n : ℕ) : (eospMarks (n + 1)).getLast? = some true := by
  induction n with
  | zero => rfl
  | succ n ih =>
    rw [eospMarks, List.getLast?_cons, ih]
    rfl

theorem release_wmmpsAc (w : PsPriv S F) (t : S) (x : F) (ac : Bool) (s : S) (bit : ℕ) :
    (w.release t x ac).tx.wmmpsAc s bit = w.tx.wmmpsAc s bit := by
  funext y
  rw [TxPriv.wmmpsAc, TxPriv.wmmpsAc, release_priority, release_sta]
  rcases eq_or_ne s t with rfl | hst
  · rw [if_pos rfl]
    rfl
  · rw [if_neg hst]
    rfl

theorem PsInv.deliverLoop (kept : List F) (marks : List Bool) (h : PsInv w s)
    (hsleepQ : (w.tx.sta t).sleepQ = kept ++ xs)
    (hkept : t = s → ∀ y ∈ kept, w.tx.wmmpsAc s 0 y = false) :
    PsInv (deliverLoop t xs (marks, w)).2 s ∧
      (t = s → (deliverLoop t xs (marks, w)).1 =
        marks ++ eospMarks (xs.countP (w.tx.wmmpsAc s 0))) := by
  induction xs generalizing w marks kept with
  | nil => exact ⟨h, fun _ => (List.append_nil marks).symm⟩
  | cons x xs ih =>
    rw [Xmit.deliverLoop]
    split_ifs with hac
    · have hx : x ∈ (w.tx.sta t).sleepQ := by
        rw [hsleepQ]
        exact List.mem_append_right _ List.mem_cons_self
      have hrelease : PsInv (w.release t x true) s := h.release hx fun hts => by
        subst hts
        rw [← h.wmmpsAc_bit, hac]
      have hrest : ((w.release t x true).tx.sta t).sleepQ = kept ++ xs := by
        have hnodup := h.once.nodup_sleepQ t
        rw [hsleepQ] at hnodup
        obtain ⟨-, hcons, hdisjoint⟩ := List.nodup_append.mp hnodup
        have hkeep (l : List F) (hl : ∀ y ∈ l, y ≠ x) : l.filter (· ≠ x) = l :=
          List.filter_eq_self.mpr fun y hy => decide_eq_true (hl y hy)
        rw [release_sleepQ, hsleepQ, List.filter_append,
          hkeep kept fun y hy => hdisjoint y hy x List.mem_cons_self,
          List.filter_cons_of_neg (by simp),
          hkeep xs fun y hy hyx => (List.nodup_cons.mp hcons).1 (hyx ▸ hy)]
      have hmark : ((w.release t x true).tx.frames x).xmit.attrib.eosp =
          decide (((w.release t x true).tx.sta t).sleepqAcLen = 0) := by
        rw [release_attrib, if_pos rfl, release_sta, if_pos rfl]
        rfl
      have hcount : t = s → ((w.release t x true).tx.sta t).sleepqAcLen =
          xs.countP (w.tx.wmmpsAc s 0) := by
        intro hts
        subst hts
        rw [hrelease.sleepqAcLen, hrest, release_wmmpsAc, List.countP_append,
          List.countP_eq_zero.mpr fun y hy => by rw [hkept rfl y hy]; exact Bool.false_ne_true,
          Nat.zero_add]
      have hmarks (w' : PsPriv S F) (hw' : PsInv w' s)
          (hsta : w'.tx = (w.release t x true).tx) :
          PsInv (Xmit.deliverLoop t xs (marks ++
              [((w.release t x true).tx.frames x).xmit.attrib.eosp], w')).2 s ∧
            (t = s → (Xmit.deliverLoop t xs (marks ++
              [((w.release t x true).tx.frames x).xmit.attrib.eosp], w')).1 =
              marks ++ eospMarks ((x :: xs).countP (w.tx.wmmpsAc s 0))) := by
        obtain ⟨hinv, hloop⟩ := ih kept (marks ++
          [((w.release t x true).tx.frames x).xmit.attrib.eosp]) hw' (hsta ▸ hrest) fun hts => by
            rw [hsta, release_wmmpsAc]
            exact hkept hts
        refine ⟨hinv, fun hts => ?_⟩
        have hcons : (x :: xs).countP (w.tx.wmmpsAc s 0) = xs.countP (w.tx.wmmpsAc s 0) + 1 := by
          subst hts
          rw [List.countP_cons_of_pos (by rw [← h.wmmpsAc_bit, hac])]
        rw [hloop hts, hsta, release_wmmpsAc, hcons, eospMarks, hmark, hcount hts,
          List.append_assoc]
        rfl
      dsimp only
      split_ifs
      · exact hmarks _ (hrelease.maps _ _) rfl
      · exact hmarks _ hrelease rfl
    · have hskip : t = s → w.tx.wmmpsAc s 0 x = false := by
        intro hts
        subst hts
        rw [← h.wmmpsAc_bit]
        exact Bool.eq_false_of_not_eq_true hac
      obtain ⟨hinv, hloop⟩ := ih (kept ++ [x]) marks h
        (by rw [hsleepQ, List.append_assoc]; rfl) fun hts y hy => by
          rcases List.mem_append.mp hy with hy | hy
          · exact hkept hts y hy
          · rw [List.mem_singleton.mp hy]
            exact hskip hts
      refine ⟨hinv, fun hts => ?_⟩
      rw [hloop hts, List.countP_cons_of_neg (by rw [hskip hts]; exact Bool.false_ne_true)]

theorem PsInv.xmitDeliveryEnabledFrames (h : PsInv w s)
    (hlen : t = s → 0 < (w.tx.sta s).sleepqAcLen) : PsInv (xmitDeliveryEnabledFrames w t) s := by
  obtain ⟨hinv, hmarks⟩ := PsInv.deliverLoop (t := t) [] [] h rfl (by simp)
  refine ⟨⟨hinv.settings, hinv.sleepqLen, hinv.sleepqAcLen, hinv.ledger, fun p hp hps => ?_⟩,
    hinv.once⟩
  rcases List.mem_append.mp hp with hp | hp
  · exact hinv.period p hp hps
  obtain rfl := List.mem_singleton.mp hp
  obtain rfl : t = s := hps
  have hpos := hlen rfl
  rw [h.sleepqAcLen] at hpos
  obtain ⟨n, hn⟩ := Nat.exists_eq_add_of_lt hpos
  dsimp only
  rw [hmarks rfl, hn, List.nil_append, Nat.zero_add]
  exact ⟨count_eospMarks n, getLast?_eospMarks n⟩

theorem PsInv.processWmmpsData (h : PsInv w s) (t : S) (priority : ℕ) :
    PsInv (processWmmpsData w t priority) s := by
  unfold Xmit.processWmmpsData
  dsimp only
  split_ifs with htrigger
  · refine h.xmitDeliveryEnabledFrames fun hts => ?_
    subst hts
    simp only [Bool.and_eq_true, decide_eq_true_eq] at htrigger
    exact htrigger.2
  · exact h

end Periods

section Polls

variable [Fintype S] {w w' : PsPriv S F} {x : F} {s t : S} {priority : ℕ}

theorem PsInv.pollMgmt (h : PsInv w s) (t : S) :
    PsInv (w.pollMgmt t) s ∧ Quiet s w (w.pollMgmt t) := by
  unfold PsPriv.pollMgmt
  rcases hhead : (w.tx.sta t).mgmtSleepQ.head? with _ | x
  · exact ⟨h, .refl w s⟩
  · exact h.releaseMgmt (List.mem_of_mem_head? hhead)

theorem PsInv.pollData (h : PsInv w s) (hok : t = s →
    ∀ x ∈ (w.tx.sta s).sleepQ.head?, w.tx.wmmpsAc s 0 x = false) : PsInv (w.pollData t) s := by
  unfold PsPriv.pollData
  rcases hhead : (w.tx.sta t).sleepQ.head? with _ | x
  · exact h
  refine h.release (List.mem_of_mem_head? hhead) fun hts => ?_
  subst hts
  exact (hok rfl x hhead).symm

omit [Fintype S] in
theorem pollData_sleepQ (w : PsPriv S F) (s : S) (h : (w.tx.sta s).sleepQ = []) :
    ((w.pollData s).tx.sta s).sleepQ = [] := by
  unfold PsPriv.pollData
  rw [h]
  exact h

theorem PsInv.zeroLens (h : PsInv w s) (hempty : t = s → (w.tx.sta s).sleepQ = []) :
    PsInv { w with tx := w.tx.setSta t (w.tx.sta t).zeroLens } s := by
  refine h.quiet ?_ fun y => ?_
  · have hs := TxPriv.setSta_sta w.tx t (w.tx.sta t).zeroLens s
    rcases eq_or_ne s t with rfl | hst
    · rw [if_pos rfl] at hs
      refine ⟨?_, ?_, ?_, ?_, ?_, fun _ _ => rfl, rfl, rfl, rfl⟩ <;> dsimp only <;> rw [hs]
      · rfl
      · rw [h.sleepqLen, hempty rfl]
        rfl
      · rfl
      · rfl
      · rfl
    · rw [if_neg hst] at hs
      exact .of_eq hs (fun _ _ => rfl) rfl rfl rfl
  · exact (TxPriv.occ_setSta_same (p := (w.tx.sta t).zeroLens) rfl rfl y).le.trans (h.once y)

theorem PsInv.psPoll (h : PsInv w s)
    (hok : t = s → w.PollServed t priority → ∀ x ∈ (w.tx.sta t).sleepQ.head?,
      w.tx.wmmpsAc t 0 x = false) : PsInv (psPoll w t priority) s := by
  unfold Xmit.psPoll
  dsimp only
  split
  swap
  · exact h
  rename_i hserved
  obtain ⟨hmgmt, hquiet⟩ := h.pollMgmt t
  have hdata : PsInv ((w.pollMgmt t).pollData t) s := by
    refine hmgmt.pollData fun hts x hhead => ?_
    subst hts
    rw [hquiet.sleepQ] at hhead
    rw [hquiet.wmmpsAc (List.mem_of_mem_head? hhead)]
    exact hok rfl hserved x hhead
  have hlens : PsInv (if (w.tx.sta t).sleepQ.isEmpty && (w.tx.sta t).mgmtSleepQ.isEmpty &&
      decide ((w.tx.sta t).aid ∈ ((w.pollMgmt t).pollData t).tim) then
        { (w.pollMgmt t).pollData t with
          tx := ((w.pollMgmt t).pollData t).tx.setSta t
            (((w.pollMgmt t).pollData t).tx.sta t).zeroLens }
      else (w.pollMgmt t).pollData t) s := by
    split_ifs with hempty
    · refine hdata.zeroLens fun hts => ?_
      subst hts
      simp only [Bool.and_eq_true, List.isEmpty_iff] at hempty
      exact pollData_sleepQ _ _ (hquiet.sleepQ.trans hempty.1.1)
    · exact hdata
  revert hlens
  generalize (if (w.tx.sta t).sleepQ.isEmpty && (w.tx.sta t).mgmtSleepQ.isEmpty &&
      decide ((w.tx.sta t).aid ∈ ((w.pollMgmt t).pollData t).tim) then
        { (w.pollMgmt t).pollData t with
          tx := ((w.pollMgmt t).pollData t).tx.setSta t
            (((w.pollMgmt t).pollData t).tx.sta t).zeroLens }
      else (w.pollMgmt t).pollData t) = w₁
  intro hlens
  split_ifs
  · exact hlens.maps _ _
  · exact hlens

theorem PsInv.psPoll_unbalanced (h : PsInv w s) (hserved : w.PollServed s priority)
    (hhead : x ∈ (w.tx.sta s).sleepQ.head?) (hac : w.tx.wmmpsAc s 0 x = true) :
    ¬PsBalanced (Xmit.psPoll w s priority) s := by
  obtain ⟨hmgmt, hquiet⟩ := h.pollMgmt s
  have hmem := List.mem_of_mem_head? hhead
  have hdataq : (w.tx.sta s).sleepQ.isEmpty = false := by
    rw [List.isEmpty_eq_false_iff_exists_mem]
    exact ⟨x, hmem⟩
  have hac' : (w.pollMgmt s).tx.wmmpsAc s 0 x = true := (hquiet.wmmpsAc hmem 0).trans hac
  rw [← hquiet.sleepQ] at hhead hmem
  have htx : (Xmit.psPoll w s priority).tx = ((w.pollMgmt s).release s x false).tx := by
    have hpoll : (w.pollMgmt s).pollData s = (w.pollMgmt s).release s x false := by
      rw [PsPriv.pollData, hhead]
      rfl
    unfold Xmit.psPoll
    rw [if_pos hserved, hdataq, hpoll]
    simp only [Bool.false_and, Bool.false_eq_true, if_false]
    split_ifs <;> rfl
  intro hbalanced
  have hlen := hbalanced.sleepqAcLen
  have hperm := perm_cons_filter_ne (hmgmt.once.nodup_sleepQ s) hmem
  have hcount := hperm.countP_eq ((w.pollMgmt s).tx.wmmpsAc s 0)
  rw [List.countP_cons_of_pos hac', ← hmgmt.sleepqAcLen] at hcount
  rw [htx, release_wmmpsAc, release_sleepQ, release_sta, if_pos rfl] at hlen
  have hsame : ((((w.pollMgmt s).tx.listDelete x).sta s).countReleased false).sleepqAcLen =
      ((w.pollMgmt s).tx.sta s).sleepqAcLen := rfl
  rw [hsame, hcount] at hlen
  omega

end Polls

section Drains

variable [Fintype S] {B : TxBuilder σ} {w w' w'' : TxPriv S F} {x : F} {xs : List F} {s : S}
  {i : S × TxServq} {k : Fin 5}

/-! ### Frames leave the transmit queues -/

/-- The access category queues get shorter, and only descriptors of their frames are written. -/
structure Drains (w w' : TxPriv S F) : Prop where
  sta : w'.sta = w.sta
  frames : ∀ x, (∀ i, x ∉ w.backlog.pending i) → w'.frames x = w.frames x
  pending : ∀ i, (w'.backlog.pending i).Sublist (w.backlog.pending i)

section

omit [DecidableEq S] [DecidableEq F] [Fintype S]

theorem Drains.refl (w : TxPriv S F) : Drains w w := ⟨rfl, fun _ _ => rfl, fun _ => .refl _⟩

theorem Drains.trans (h : Drains w w') (h' : Drains w' w'') : Drains w w'' where
  sta := h'.sta.trans h.sta
  frames x hx :=
    (h'.frames x fun i hi => hx i ((h.pending i).subset hi)).trans (h.frames x hx)
  pending i := (h'.pending i).trans (h.pending i)

theorem Drains.of_pending (hsta : w'.sta = w.sta) (hframes : w'.frames = w.frames)
    (hpending : w'.backlog.pending = w.backlog.pending) : Drains w w' :=
  ⟨hsta, fun _ _ => by rw [hframes], fun i => by rw [hpending]⟩

end

omit [DecidableEq F] [Fintype S] in
theorem Drains.update_tail (hsta : w'.sta = w.sta) (hframes : w'.frames = w.frames)
    (hpending : w'.backlog.pending =
      Function.update w.backlog.pending i (w.backlog.pending i).tail) : Drains w w' := by
  refine ⟨hsta, fun _ _ => by rw [hframes], fun j => ?_⟩
  rw [hpending]
  rcases eq_or_ne j i with rfl | hji
  · rw [Function.update_self]
    exact List.tail_sublist _
  · rw [Function.update_of_ne hji]

omit [DecidableEq S] [Fintype S] in
theorem Drains.setFrame (hx : x ∈ w.backlog.pending i) (f : TxFrame S) :
    Drains w (w.setFrame x f) := by
  refine ⟨rfl, fun y hy => ?_, fun _ => .refl _⟩
  have hyx : y ≠ x := fun hyx => hy i (hyx ▸ hx)
  exact Function.update_of_ne hyx _ _

section

omit [DecidableEq F] [Fintype S]

theorem pending_settle (b : Backlog (S × TxServq) (Fin 5) F) (i : S × TxServq) :
    (b.settle i).pending = b.pending := by
  unfold Backlog.settle
  split_ifs <;> rfl

theorem drains_dequeueStas {is : List (S × TxServq)} (h : dequeueStas w k is = some (x, w')) :
    Drains w w' := by
  induction is with
  | nil => exact nomatch h
  | cons i is ih =>
    rw [dequeueStas, dequeueOneXmitframe] at h
    rcases hpending : w.backlog.pending i with _ | ⟨y, ys⟩ <;> rw [hpending] at h
    · exact ih h
    · obtain ⟨rfl, rfl⟩ := Prod.mk.inj (Option.some.inj h)
      exact .update_tail (i := i) rfl rfl (pending_settle ..)

theorem drains_dequeue (h : rtwDequeueXframe w = some (x, w')) : Drains w w' := by
  obtain ⟨_, k, _, _, h, _⟩ := List.findSome?_eq_some_iff.mp h
  exact drains_dequeueStas h

end

omit [Fintype S] in
theorem drains_take (hpending : w.backlog.pending i = x :: xs) (k : Fin 5) (f : TxFrame S) :
    Drains w ((w.take k i x).setFrame x f) := by
  have hx : x ∈ w.backlog.pending i := by
    rw [hpending]
    exact List.mem_cons_self
  have htake : Drains w (w.take k i x) := .update_tail (i := i) rfl rfl rfl
  refine ⟨rfl, fun y hy => ?_, htake.pending⟩
  have hyx : y ≠ x := fun hyx => hy i (hyx ▸ hx)
  exact Function.update_of_ne hyx _ _

omit [Fintype S] in
theorem drains_aggregateLoop (preQsel : ℕ) (v : AggVars σ) (hxs : w.backlog.pending i = xs) :
    Drains w (aggregateLoop B preQsel k i xs v w).2 := by
  induction xs generalizing v w with
  | nil => exact .refl w
  | cons x xs ih =>
    have hx : x ∈ w.backlog.pending i := by
      rw [hxs]
      exact List.mem_cons_self
    have htail (f : TxFrame S) : ((w.take k i x).setFrame x f).backlog.pending i = xs := by
      show Function.update w.backlog.pending i (w.backlog.pending i).tail i = xs
      rw [Function.update_self, hxs]
      rfl
    rw [aggregateLoop]
    dsimp only
    split
    swap
    · exact .refl w
    split
    · exact .setFrame hx _
    split
    · exact (drains_take hxs k _).trans (ih _ (htail _))
    · split
      · exact drains_take hxs k _
      · split
        · exact drains_take hxs k _
        · exact (drains_take hxs k _).trans (ih _ (htail _))

omit [Fintype S] in
theorem drains_aggregate (psta : S) (first : XmitFrame) (built : σ) :
    Drains w (aggregate B w psta first built).2 := by
  unfold aggregate
  dsimp only
  split
  · exact .refl w
  · refine (drains_aggregateLoop (B := B) (k := (aggServq first.attrib.priority).2)
      first.attrib.qsel _ rfl).trans (.of_pending rfl rfl ?_)
    dsimp only
    split_ifs <;> rfl

omit [DecidableEq S] in
theorem Drains.once (h : Drains w w') (honce : w.Once) : w'.Once := by
  intro x
  refine le_trans ?_ (honce x)
  unfold TxPriv.occ
  rw [h.sta]
  exact Nat.add_le_add_right (Finset.sum_le_sum fun i _ => (h.pending i).count_le x) _

omit [DecidableEq S] in
theorem PsInv.drains {w : PsPriv S F} {tx : TxPriv S F} (h : PsInv w s) (hd : Drains w.tx tx) :
    PsInv (w.onTx tx) s := by
  refine h.quiet (.of_eq (congrFun hd.sta s) (fun x hx => ?_) rfl rfl rfl) (hd.once h.once)
  have hx : tx.frames x = w.tx.frames x :=
    hd.frames x fun i hi => (h.once.notMem_of_pending hi s).1 hx
  show (tx.frames x).xmit.attrib.priority = _
  rw [hx]
  rfl

end Drains

section Steps

variable [Fintype S] {B : TxBuilder σ} {w w' : PsPriv S F} {x : F} {s : S}
  {e : PsEvent S F σ}

/-! ### Steps -/

omit [DecidableEq S] in
theorem PsInv.setFrame (h : PsInv w s) (hx : w.Held x) (f : TxFrame S) :
    PsInv (w.onTx (w.tx.setFrame x f)) s := by
  refine h.quiet (.of_eq rfl (fun y hy => ?_) rfl rfl rfl) h.once
  have hyx : y ≠ x := fun hyx => (hx.2 s).1 (hyx ▸ hy)
  show (Function.update w.tx.frames x f y).xmit.attrib.priority = _
  rw [Function.update_of_ne hyx]
  rfl

omit [DecidableEq S] in
/-- A held frame is written and put in one queue at most. -/
theorem PsInv.enqueue {f : TxFrame S} {tx : TxPriv S F} (h : PsInv w s) (hx : w.Held x)
    (hsta : tx.sta = w.tx.sta) (hframes : tx.frames = (w.tx.setFrame x f).frames)
    (hocc : ∀ y, tx.occ y ≤ (w.tx.setFrame x f).occ y + if x = y then 1 else 0) :
    PsInv (w.onTx tx) s := by
  refine (h.setFrame hx f).quiet (.of_eq (congrFun hsta s) (fun y _ => ?_) rfl rfl rfl)
    fun y => (hocc y).trans ?_
  · show (tx.frames y).xmit.attrib.priority = _
    rw [hframes]
    rfl
  · show w.tx.occ y + _ ≤ 1
    rcases eq_or_ne x y with rfl | hxy
    · rw [hx.occ_eq_zero, if_pos rfl]
    · rw [if_neg hxy]
      exact h.once y

/-- Every step but a poll keeps the invariant, and a poll does under its condition. -/
theorem PsInv.step (h : PsInv w s) (hok : PollOk s w e) (hstep : psStep B w e = some w') :
    PsInv w' s := by
  cases e with
  | classify x f =>
    dsimp only [psStep] at hstep
    split_ifs at hstep with hheld
    obtain rfl := Option.some.inj hstep
    obtain ⟨hsta, hframes, hocc⟩ := classifier_getD (w.tx.setFrame x f) x
    exact h.enqueue hheld hsta hframes hocc
  | mgmtEnqueue x f =>
    dsimp only [psStep] at hstep
    split_ifs at hstep with hheld
    obtain rfl := Option.some.inj hstep
    obtain ⟨hsta, hframes, hocc⟩ :=
      mgmtEnqueue_getD (w.tx.setFrame x f) x (w.tx.setFrame x f).freedBufs
    exact h.enqueue hheld hsta hframes hocc
  | dequeue =>
    obtain rfl := Option.some.inj hstep
    rcases hw : rtwDequeueXframe w.tx with _ | ⟨x, tx⟩
    · exact h.drains (.refl _)
    · exact h.drains (drains_dequeue hw)
  | dequeueMgmt =>
    obtain rfl := Option.some.inj hstep
    rcases hw : rtwDequeueMgmtXframe w.tx with _ | ⟨x, tx⟩
    · exact h.drains (.refl _)
    · exact h.drains (drains_dequeueStas hw)
  | aggregate first built =>
    obtain ⟨psta, -, rfl⟩ := Option.map_eq_some_iff.mp hstep
    exact h.drains (drains_aggregate psta first.xmit built)
  | enqueueForSleeping x f =>
    dsimp only [psStep] at hstep
    split_ifs at hstep with hheld
    obtain rfl := Option.some.inj hstep
    exact ((h.setFrame hheld f).enqueueForSleeping hheld.2).inv
  | mgmtEnqueueForSleeping x f =>
    dsimp only [psStep] at hstep
    split_ifs at hstep with hheld
    obtain rfl := Option.some.inj hstep
    exact ((h.setFrame hheld f).mgmtEnqueueForSleeping hheld.2).inv
  | stop t =>
    obtain rfl := Option.some.inj hstep
    exact h.stopStaXmit t
  | wakeup t dequeueType =>
    obtain rfl := Option.some.inj hstep
    exact h.wakeupStaToXmit t dequeueType
  | trigger t priority =>
    obtain rfl := Option.some.inj hstep
    exact h.processWmmpsData t priority
  | poll t priority =>
    obtain rfl := Option.some.inj hstep
    refine h.psPoll fun hts hserved x hx => ?_
    subst hts
    exact hok rfl hserved x hx

theorem PsInv.balanced_iff (h : PsInv w s) (hstep : psStep B w e = some w') :
    PsBalanced w' s ↔ PollOk s w e := by
  refine ⟨fun hbalanced => ?_, fun hok => (h.step hok hstep).psBalanced⟩
  cases e with
  | poll t priority =>
    rintro rfl hserved x hx
    obtain rfl := Option.some.inj hstep
    by_contra hac
    exact h.psPoll_unbalanced hserved hx (Bool.eq_true_of_not_eq_false hac) hbalanced
  | _ => trivial

omit [DecidableEq S] in
theorem PsPriv.Fresh.psInv (h : w.Fresh) (hs : UapsdSettings (w.tx.sta s)) : PsInv w s := by
  obtain ⟨hsleepQ, hlen, hacLen, -⟩ := h.sta s
  refine ⟨⟨hs, ?_, ?_, ?_, ?_⟩, fun x => ?_⟩
  · rw [hlen, hsleepQ]
    rfl
  · rw [hacLen, hsleepQ]
    rfl
  · rw [h.slept, h.released, hsleepQ]
    rfl
  · rw [h.periods]
    exact fun p hp => absurd hp List.not_mem_nil
  · have hzero : w.tx.occ x = 0 := by
      have hsta (t : S) : (w.tx.sta t).sleepQ.count x + (w.tx.sta t).mgmtSleepQ.count x = 0 := by
        rw [(h.sta t).1, (h.sta t).2.2.2]
        rfl
      unfold TxPriv.occ
      rw [h.tx]
      simp [hsta, Backlog.empty]
    rw [hzero]
    exact Nat.zero_le 1

/-- **A station's frames stay balanced in every state of a run exactly if no poll of the station
releases a frame of an enabled category.** -/
theorem psBalanced_iff_meets {es : List (PsEvent S F σ)} (hfresh : w.Fresh)
    (hs : UapsdSettings (w.tx.sta s)) (hrun : run (psStep B) w es = some w') :
    (∀ es' t, es' <+: es → run (psStep B) w es' = some t → PsBalanced t s) ↔
      Meets (psStep B) (PollOk s) w es :=
  forall_prefix_iff_meets (fun _ => PsInv.psBalanced)
    (fun _ _ _ h hstep => ⟨PsInv.balanced_iff h hstep, fun hok => PsInv.step h hok hstep⟩)
    (hfresh.psInv hs) hrun

end Steps

section Mixed

def mixedStation : PsPriv Bool ℕ where
  tx := twoStas.setSta false
    { twoStas.sta false with
      sleep := true, aid := 1, qosOption := true, qosInfo := 1, uapsdVo := 3, hasLegacyAc := true }
  staDz := {1}
  tim := ∅
  hiqFilter := 0
  slept := 0
  released := 0
  periods := []

theorem mixedStation_fresh : mixedStation.Fresh := by
  refine ⟨rfl, fun s => ?_, rfl, rfl, rfl⟩
  cases s <;> exact ⟨rfl, rfl, rfl, rfl⟩

theorem mixedStation_settings : UapsdSettings (mixedStation.tx.sta false) := by
  refine ⟨fun priority => ?_, fun hmac => absurd hmac (by decide)⟩
  unfold StaXmit.uapsd
  split <;> rfl

/-- A voice frame goes out in a service period. -/
theorem psBalanced_trigger :
    ∃ w', run (psStep plainBuilder) mixedStation
        [.enqueueForSleeping 0 (frameTo false 6), .trigger false 6] = some w' ∧
      w'.periods = [(false, [true])] ∧ PsBalanced w' false := by
  obtain ⟨w', hrun, hperiods⟩ : ∃ w', run (psStep plainBuilder) mixedStation
      [.enqueueForSleeping 0 (frameTo false 6), .trigger false 6] = some w' ∧
        w'.periods = [(false, [true])] := exists_run_of_any (by decide +kernel)
  have hmeets : Meets (psStep plainBuilder) (PollOk false) mixedStation
      [.enqueueForSleeping 0 (frameTo false 6), .trigger false 6] :=
    ⟨trivial, fun _ _ => ⟨trivial, fun _ _ => trivial⟩⟩
  exact ⟨w', hrun, hperiods, (psBalanced_iff_meets mixedStation_fresh mixedStation_settings
    hrun).mpr hmeets _ w' List.prefix_rfl hrun⟩

/-- **A poll takes the voice frame, which stays counted, and the next trigger starts a service
period that brings nothing and has no end.** -/
theorem not_psBalanced :
    mixedStation.Fresh ∧ UapsdSettings (mixedStation.tx.sta false) ∧
      ∃ w', run (psStep plainBuilder) mixedStation
          [.enqueueForSleeping 0 (frameTo false 6), .poll false 0, .trigger false 6] = some w' ∧
        (w'.tx.sta false).sleepQ = [] ∧ (w'.tx.sta false).sleepqAcLen = 1 ∧
        w'.periods = [(false, [])] ∧ ¬PsBalanced w' false := by
  obtain ⟨w', hrun, hsleepQ, hlen, hperiods⟩ : ∃ w', run (psStep plainBuilder) mixedStation
      [.enqueueForSleeping 0 (frameTo false 6), .poll false 0, .trigger false 6] = some w' ∧
        (w'.tx.sta false).sleepQ = [] ∧ (w'.tx.sta false).sleepqAcLen = 1 ∧
        w'.periods = [(false, [])] := exists_run_of_any (by decide +kernel)
  refine ⟨mixedStation_fresh, mixedStation_settings, w', hrun, hsleepQ, hlen, hperiods, ?_⟩
  intro hbalanced
  have hcount := hbalanced.sleepqAcLen
  rw [hlen, hsleepQ] at hcount
  exact absurd hcount one_ne_zero

end Mixed

end Rtl88x2eu.Xmit
