import Rtl88x2eu.Lib.Backlog
import Rtl88x2eu.Lib.Transition
import Rtl88x2eu.Xmit.Coalesce
import Mathlib.Data.Fintype.Prod

/-!
# The transmit queues

A data frame waits in one of the four access category queues of its station, a management frame in
the fifth. A station with frames in a queue is linked on the list of the category, from where frames
are taken station by station; the aggregation then takes more frames of one station and category,
and links the station itself. Frames also leave with their station. The category is found from the
priority in several places, and the counts are kept by hand in all of them.

## Main definitions

* `TxPriv`
* `rtwXmitClassifier`, `rtwMgmtXmitframeEnqueue`, `rtwDequeueXframe`, `rtwDequeueMgmtXframe`
* `aggregateLoop`, `aggregate`: the loop of `rtl8822eu_xmitframe_complete`
* `rtwFreeStainfo`, `TxAccounted`

## Main results

* `txAccounted_of_run`: so they do after every run
-/

namespace Rtl88x2eu.Xmit

open Transition


/-! ## Queues -/

inductive TxServq
  | vo | vi | be | bk | mgmt
deriving DecidableEq, Repr

def txServqs : Finset TxServq := {.vo, .vi, .be, .bk, .mgmt}

theorem mem_txServqs (q : TxServq) : q ∈ txServqs := by cases q <;> decide

instance TxServq.fintype : Fintype TxServq := ⟨txServqs, mem_txServqs⟩

/-- `hwxmits[]` of a queue: the list of the stations with frames in it. -/
def hwxmit : TxServq → Fin 5
  | .vo => 0
  | .vi => 1
  | .be => 2
  | .bk => 3
  | .mgmt => 4

/-- `rtw_get_sta_pending`: the queue and the index. -/
def rtwGetStaPending (up : ℕ) : TxServq × Fin 5 :=
  match up with
  | 1 | 2 => (.bk, 3)
  | 4 | 5 => (.vi, 1)
  | 6 | 7 => (.vo, 0)
  | _ => (.be, 2)

/-- The queue and the index of the aggregation. -/
def aggServq (priority : ℕ) : TxServq × Fin 5 :=
  match priority with
  | 1 | 2 => (.bk, 3)
  | 4 | 5 => (.vi, 1)
  | 6 | 7 => (.vo, 0)
  | _ => (.be, 2)

/-- The management queue is the last one. -/
def mgmtIdx : Fin 5 := 4

theorem rtwGetStaPending_snd (up : ℕ) :
    (rtwGetStaPending up).2 = hwxmit (rtwGetStaPending up).1 := by
  unfold rtwGetStaPending
  split <;> rfl

theorem aggServq_snd (priority : ℕ) : (aggServq priority).2 = hwxmit (aggServq priority).1 := by
  unfold aggServq
  split <;> rfl

theorem hwxmit_injective : Function.Injective hwxmit := by
  intro q q' h
  cases q <;> cases q' <;> first | rfl | cases h

/-! ## State -/

variable {S F σ : Type*}

structure TxFrame (S : Type*) where
  /-- `pattrib->psta`, by its place in the station table. -/
  psta : Option S := none
  pxmitbuf : ℕ := 0
  /-- `pattrib->triggered`. -/
  triggered : Bool := false
  /-- `pattrib->ps_dontq`. -/
  psDontq : Bool := false
  /-- `pattrib->dhcp_pkt`. -/
  dhcpPkt : Bool := false
  xmit : XmitFrame := {}

/-- `struct sta_info`, as far as its queues go. -/
structure StaXmit (F : Type*) where
  macAddr : MacAddr
  /-- `state & WIFI_ASOC_STATE`. -/
  asoc : Bool := false
  /-- `state & WIFI_SLEEP_STATE`. -/
  sleep : Bool := false
  aid : ℕ := 0
  qosOption : Bool := false
  qosInfo : ℕ := 0
  uapsdVo : ℕ := 0
  uapsdVi : ℕ := 0
  uapsdBe : ℕ := 0
  uapsdBk : ℕ := 0
  hasLegacyAc : Bool := false
  sleepQ : List F := []
  sleepqLen : ℕ := 0
  sleepqAcLen : ℕ := 0
  mgmtSleepQ : List F := []
  mgmtSleepqLen : ℕ := 0

/-- `struct xmit_priv`, with the station table and the frame descriptors. The last three fields
record what came into the queues, what was taken from them, and what was freed with its station. -/
structure TxPriv (S F : Type*) where
  /-- `sta_hash`: the stations of the table, oldest first. -/
  hash : List S
  sta : S → StaXmit F
  frames : F → TxFrame S
  backlog : Backlog (S × TxServq) (Fin 5) F
  /-- `MLME_IS_AP` or `MLME_IS_MESH`. -/
  ap : Bool
  /-- `registrypriv.wifi_spec == 1`. -/
  wifiSpec : Bool
  wmmParaSeq : Fin 4 → Fin 5
  usbBulkOutSize : ℕ
  usbTxAggDescNum : ℕ
  freedBufs : List ℕ
  enqueued : Multiset ((S × TxServq) × F)
  dequeued : Multiset ((S × TxServq) × F)
  freed : Multiset ((S × TxServq) × F)

structure TxBuilder (σ : Type*) where
  /-- `rtw_xmitframe_coalesce`. -/
  coalesce : σ → XmitFrame → Bool × σ × XmitFrame
  /-- `update_txdesc` with its size and `bagg_pkt`. -/
  updateTxdesc : σ → XmitFrame → ℕ → Bool → σ × XmitFrame

variable [DecidableEq S] [DecidableEq F]

def TxPriv.rtwGetStainfo (w : TxPriv S F) (hwaddr : MacAddr) : Option S :=
  w.hash.find? fun s => (w.sta s).macAddr = staKey hwaddr

def TxPriv.setFrame (w : TxPriv S F) (x : F) (f : TxFrame S) : TxPriv S F :=
  { w with frames := Function.update w.frames x f }

/-- A station is written. -/
def TxPriv.setSta (w : TxPriv S F) (s : S) (psta : StaXmit F) : TxPriv S F :=
  { w with sta := Function.update w.sta s psta }

def TxPriv.enqueueSta (w : TxPriv S F) (f : TxFrame S) : Option S :=
  (w.rtwGetStainfo f.xmit.attrib.ra).bind fun psta =>
    if f.psta = some psta ∧ (w.sta psta).asoc then some psta else none

/-- A frame goes to the end of a queue. -/
def TxPriv.enqueue (w : TxPriv S F) (k : Fin 5) (i : S × TxServq) (x : F) : TxPriv S F :=
  { w with backlog := w.backlog.enqueue k i x, enqueued := (i, x) ::ₘ w.enqueued }

/-- `rtw_xmit_classifier`: none is `_FAIL`. -/
def rtwXmitClassifier (w : TxPriv S F) (x : F) : Option (TxPriv S F) :=
  (w.enqueueSta (w.frames x)).map fun psta =>
    let (ptxservq, acIndex) := rtwGetStaPending (w.frames x).xmit.attrib.priority
    w.enqueue acIndex (psta, ptxservq) x

def rtwMgmtXmitframeEnqueue (w : TxPriv S F) (x : F) : Option (TxPriv S F) :=
  (w.enqueueSta (w.frames x)).map fun psta => w.enqueue mgmtIdx (psta, .mgmt) x

def dequeueOneXmitframe (w : TxPriv S F) (i : S × TxServq) : Option (F × TxPriv S F) :=
  match w.backlog.pending i with
  | [] => none
  | x :: _ =>
    some (x, { w with backlog := w.backlog.pop i, dequeued := (i, x) ::ₘ w.dequeued })

/-- The walk over the stations of a list, which `rtw_dequeue_xframe` and `rtw_dequeue_mgmt_xframe`
share: the first frame of the first station that has one. -/
def dequeueStas (w : TxPriv S F) (k : Fin 5) : List (S × TxServq) → Option (F × TxPriv S F)
  | [] => none
  | i :: is =>
    match dequeueOneXmitframe w i with
    | some (x, w) => some (x, { w with backlog := (w.backlog.charge k (-1)).settle i })
    | none => dequeueStas w k is

def rtwDequeueMgmtXframe (w : TxPriv S F) : Option (F × TxPriv S F) :=
  dequeueStas w mgmtIdx (w.backlog.ready mgmtIdx)

/-- The order in which the access categories are served. -/
def TxPriv.inx (w : TxPriv S F) : List (Fin 5) :=
  if w.wifiSpec then List.ofFn w.wmmParaSeq else [0, 1, 2, 3]

def rtwDequeueXframe (w : TxPriv S F) : Option (F × TxPriv S F) :=
  w.inx.findSome? fun k => dequeueStas w k (w.backlog.ready k)

/-! ## Aggregation -/

def maxXmitbufSz : ℕ := 20480

def maxTxAggPacketNumber : ℕ := 0xff

def qsltHigh : ℕ := 0x11

def rtwHalBusaggQselCheck (ap : Bool) (preQsel nextQsel : ℕ) : Bool :=
  if ap then !((preQsel = qsltHigh || nextQsel = qsltHigh) && preQsel ≠ nextQsel) else true

/-- The variables of the aggregation. -/
structure AggVars (σ : Type*) where
  built : σ
  /-- `agg_num` of the first frame. -/
  aggNum : ℕ
  pbuf : ℕ
  pbufTail : ℕ
  descCount : ℕ := 0
  bulkPtr : ℕ

def AggVars.countDesc (v : AggVars σ) (bulkSize descNum : ℕ) : AggVars σ × Bool :=
  if v.pbuf < v.bulkPtr then
    let v := { v with descCount := (v.descCount + 1) % 256 }
    (v, v.descCount = descNum)
  else ({ v with descCount := 0, bulkPtr := (v.pbuf / bulkSize + 1) * bulkSize }, false)

/-- A frame of a queue is taken for the aggregation. -/
def TxPriv.take (w : TxPriv S F) (k : Fin 5) (i : S × TxServq) (x : F) : TxPriv S F :=
  { w with backlog := w.backlog.take k i, dequeued := (i, x) ::ₘ w.dequeued }

def aggregateLoop (B : TxBuilder σ) (preQsel : ℕ) (k : Fin 5) (i : S × TxServq) :
    List F → AggVars σ → TxPriv S F → AggVars σ × TxPriv S F
  | [], v, w => (v, w)
  | x :: xs, v, w =>
    let f := (w.frames x).xmit
    if rtwHalBusaggQselCheck w.ap preQsel f.attrib.qsel then
      let f := { f with aggNum := 0, pktOffset := 0 }
      let len := wlanPktSize f.attrib + hwHdrOffset f
      if maxXmitbufSz < rnd8 (v.pbuf + len) then
        (v, w.setFrame x { w.frames x with xmit := { f with aggNum := 1, pktOffset := 1 } })
      else
        let w := w.take k i x
        match B.coalesce v.built { f with bufAddr := v.pbuf } with
        | (false, built, f) =>
          aggregateLoop B preQsel k i xs { v with built := built }
            (w.setFrame x { w.frames x with xmit := f })
        | (true, built, f) =>
          let (built, f) := B.updateTxdesc built f f.attrib.lastTxcmdsz true
          let w := w.setFrame x { w.frames x with xmit := f }
          let v := { v with
            built := built, pbufTail := v.pbuf + len, pbuf := rnd8 (v.pbuf + len)
            aggNum := v.aggNum + 1 }
          if v.aggNum = maxTxAggPacketNumber then (v, w)
          else
            match v.countDesc w.usbBulkOutSize w.usbTxAggDescNum with
            | (v, true) => (v, w)
            | (v, false) => aggregateLoop B preQsel k i xs v w
    else (v, w)

def aggregate (B : TxBuilder σ) (w : TxPriv S F) (psta : S) (first : XmitFrame) (built : σ) :
    AggVars σ × TxPriv S F :=
  let len := wlanPktSize first.attrib + hwHdrOffset first
  let v : AggVars σ := ⟨built, first.aggNum, rnd8 len, len, 0, w.usbBulkOutSize⟩
  match v.countDesc w.usbBulkOutSize w.usbTxAggDescNum with
  | (v, true) => (v, w)
  | (v, false) =>
    let (ptxservq, k) := aggServq first.attrib.priority
    let i := (psta, ptxservq)
    let singleStaInQueue := (w.backlog.ready k).length ≤ 1
    let (v, w) := aggregateLoop B first.attrib.qsel k i (w.backlog.pending i) v w
    let b := w.backlog
    (v, { w with
      backlog :=
        if (b.pending i).isEmpty then b.unlink i
        else if singleStaInQueue then b
        else (b.unlink i).link k i })

/-- One block of `rtw_free_stainfo`: the frames of a queue are freed. -/
def TxPriv.freeServq (w : TxPriv S F) (k : Fin 5) (i : S × TxServq) : TxPriv S F :=
  { w with
    backlog := w.backlog.clear k i
    freed := w.freed + ((w.backlog.pending i).map (Prod.mk i) : Multiset ((S × TxServq) × F)) }

def rtwFreeStainfo (w : TxPriv S F) (psta : S) : TxPriv S F :=
  let mgmt := (w.sta psta).mgmtSleepQ ++ w.backlog.pending (psta, .mgmt)
  let w := { w with
    hash := w.hash.erase psta
    freedBufs := w.freedBufs ++ mgmt.map fun x => (w.frames x).pxmitbuf }
  let w := w.setSta psta { w.sta psta with
    asoc := false
    sleepQ := [], sleepqLen := 0, mgmtSleepQ := [], mgmtSleepqLen := 0, sleepqAcLen := 0
    qosInfo := 0, uapsdBk := 0, uapsdBe := 0, uapsdVi := 0, uapsdVo := 0, hasLegacyAc := false }
  let w := w.freeServq 0 (psta, .vo)
  let w := w.freeServq 1 (psta, .vi)
  let w := w.freeServq 2 (psta, .be)
  let w := w.freeServq 3 (psta, .bk)
  w.freeServq 4 (psta, .mgmt)

/-- `rtw_alloc_stainfo` of a free entry: the queues are set up anew. -/
def rtwAllocStainfo (w : TxPriv S F) (psta : S) (hwaddr : MacAddr) : TxPriv S F :=
  { w.setSta psta { macAddr := hwaddr } with
    hash := w.hash ++ [psta]
    backlog := { w.backlog with
      pending := fun i => if i.1 = psta then [] else w.backlog.pending i
      count := fun i => if i.1 = psta then 0 else w.backlog.count i } }

/-- What may happen to the queues. A frame that is enqueued comes with its attributes, and is a
frame that its caller holds. -/
inductive QueueEvent (S F σ : Type*)
  | alloc (psta : S) (hwaddr : MacAddr)
  | associate (psta : S) (asoc : Bool)
  | classify (x : F) (f : TxFrame S)
  | mgmtEnqueue (x : F) (f : TxFrame S)
  | dequeue
  | dequeueMgmt
  | aggregate (first : TxFrame S) (built : σ)
  | free (psta : S)

/-- The frame is in no queue. -/
def TxPriv.Held [Fintype S] (w : TxPriv S F) (x : F) : Prop := ∀ i, x ∉ w.backlog.pending i

instance TxPriv.Held.decidable [Fintype S] (w : TxPriv S F) (x : F) : Decidable (w.Held x) :=
  inferInstanceAs (Decidable (∀ _, _))

def txStep [Fintype S] (B : TxBuilder σ) (w : TxPriv S F) : QueueEvent S F σ → Option (TxPriv S F)
  | .alloc psta hwaddr => if psta ∈ w.hash then none else some (rtwAllocStainfo w psta hwaddr)
  | .associate psta asoc => some (w.setSta psta { w.sta psta with asoc := asoc })
  | .classify x f =>
    if w.Held x then some ((rtwXmitClassifier (w.setFrame x f) x).getD (w.setFrame x f)) else none
  | .mgmtEnqueue x f =>
    if w.Held x then some ((rtwMgmtXmitframeEnqueue (w.setFrame x f) x).getD (w.setFrame x f))
    else none
  | .dequeue => some ((rtwDequeueXframe w).elim w Prod.snd)
  | .dequeueMgmt => some ((rtwDequeueMgmtXframe w).elim w Prod.snd)
  | .aggregate first built =>
    first.psta.map fun psta => (aggregate B w psta first.xmit built).2
  | .free psta => some (rtwFreeStainfo w psta)

/-- Nothing has been enqueued yet. -/
structure TxPriv.Fresh (w : TxPriv S F) : Prop where
  backlog : w.backlog = .empty
  enqueued : w.enqueued = 0
  dequeued : w.dequeued = 0
  freed : w.freed = 0

/-- Each queue counts its frames and is on the list of its category exactly if it has any, each
category counts the frames of its stations, and each frame that came waits in one place, was taken
once, or was freed once with its station. -/
structure TxAccounted [Fintype S] (w : TxPriv S F) : Prop where
  qcnt : ∀ s q, w.backlog.count (s, q) = (w.backlog.pending (s, q)).length
  linked : ∀ k s q, (s, q) ∈ w.backlog.ready k ↔ k = hwxmit q ∧ w.backlog.pending (s, q) ≠ []
  accnt : ∀ q, w.backlog.total (hwxmit q) = ∑ s, w.backlog.count (s, q)
  ledger : w.enqueued = w.backlog.contents + w.dequeued + w.freed
  once : (w.backlog.contents.map Prod.snd).Nodup

section Invariant

variable [Fintype S]

/-- The class of a queue. -/
abbrev txCls (i : S × TxServq) : Fin 5 := hwxmit i.2

/-- The frames that came are accounted for, each is in one place, and a station that is not in the
table has none. -/
structure TxLedger (w : TxPriv S F) : Prop where
  ledger : w.enqueued = w.backlog.contents + w.dequeued + w.freed
  once : (w.backlog.contents.map Prod.snd).Nodup
  unhashed : ∀ s ∉ w.hash, ∀ q, w.backlog.pending (s, q) = []

/-- The invariant. -/
structure TxInv (w : TxPriv S F) : Prop extends TxLedger w where
  balanced : Backlog.Balanced txCls w.backlog

variable {B : TxBuilder σ} {w w' : TxPriv S F} {i : S × TxServq} {x : F} {k : Fin 5}

section

omit [DecidableEq S] [DecidableEq F]

/-- What the invariant reads. -/
theorem TxLedger.congr (h : TxLedger w) (hpending : w'.backlog.pending = w.backlog.pending)
    (henqueued : w'.enqueued = w.enqueued) (hdequeued : w'.dequeued = w.dequeued)
    (hfreed : w'.freed = w.freed) (hhash : ∀ s ∈ w.hash, s ∈ w'.hash) : TxLedger w' where
  ledger := by
    rw [henqueued, hdequeued, hfreed, Backlog.contents_congr hpending]
    exact h.ledger
  once := by
    rw [Backlog.contents_congr hpending]
    exact h.once
  unhashed s hs q := by
    rw [hpending]
    exact h.unhashed s (fun hmem => hs (hhash s hmem)) q

theorem TxInv.txAccounted (h : TxInv w) : TxAccounted w where
  qcnt s q := h.balanced.count (s, q)
  linked k s q := by
    rw [h.balanced.ready, eq_comm]
  accnt q := by
    rw [h.balanced.total]
    -- a category has one queue of each station
    refine Finset.sum_bij' (fun i _ => i.1) (fun s _ => (s, q)) ?_ ?_ ?_ ?_ ?_
    · exact fun _ _ => Finset.mem_univ _
    · exact fun s _ => Finset.mem_filter.mpr ⟨Finset.mem_univ _, rfl⟩
    · intro i hi
      exact Prod.ext rfl (hwxmit_injective (Finset.mem_filter.mp hi).2.symm)
    · exact fun s _ => rfl
    · intro i hi
      rw [← hwxmit_injective (Finset.mem_filter.mp hi).2]
  ledger := h.ledger
  once := h.once

theorem TxPriv.Fresh.txInv (h : w.Fresh) : TxInv w where
  ledger := by
    rw [h.enqueued, h.dequeued, h.freed, h.backlog, Backlog.contents_empty]
    rfl
  once := by
    rw [h.backlog, Backlog.contents_empty]
    exact Multiset.nodup_zero
  unhashed s _ q := by
    rw [h.backlog]
    rfl
  balanced := by
    rw [h.backlog]
    exact Backlog.balanced_empty

end

omit [DecidableEq F] [Fintype S] in
theorem TxPriv.enqueueSta_mem {f : TxFrame S} {s : S} (h : w.enqueueSta f = some s) :
    s ∈ w.hash := by
  obtain ⟨s', hs', h⟩ := Option.bind_eq_some_iff.mp h
  split_ifs at h
  obtain rfl := Option.some.inj h
  exact List.mem_of_find?_eq_some hs'

section

omit [DecidableEq F]

theorem TxInv.enqueue (h : TxInv w) (hheld : w.Held x) (hi : i.1 ∈ w.hash) :
    TxInv (w.enqueue (txCls i) i x) where
  ledger := by
    show (i, x) ::ₘ w.enqueued = (w.backlog.enqueue _ i x).contents + w.dequeued + w.freed
    rw [Backlog.contents_enqueue, h.ledger, Multiset.cons_add, Multiset.cons_add]
  once := by
    show ((w.backlog.enqueue _ i x).contents.map Prod.snd).Nodup
    rw [Backlog.contents_enqueue, Multiset.map_cons, Multiset.nodup_cons]
    refine ⟨fun hx => ?_, h.once⟩
    obtain ⟨⟨j, y⟩, hmem, rfl⟩ := Multiset.mem_map.mp hx
    exact hheld j (Backlog.mem_contents.mp hmem)
  unhashed s hs q := by
    have hne : (s, q) ≠ i := by
      rintro rfl
      exact hs hi
    show (w.backlog.enqueue _ i x).pending (s, q) = []
    rw [Backlog.pending_enqueue, Function.update_of_ne hne]
    exact h.unhashed s hs q
  balanced := h.balanced.enqueue i x

theorem TxInv.classify (h : TxInv w) (hheld : w.Held x) (hw : rtwXmitClassifier w x = some w') :
    TxInv w' := by
  obtain ⟨psta, hpsta, rfl⟩ := Option.map_eq_some_iff.mp hw
  dsimp only
  rw [rtwGetStaPending_snd]
  exact h.enqueue hheld (TxPriv.enqueueSta_mem hpsta)

theorem TxInv.mgmtEnqueue (h : TxInv w) (hheld : w.Held x)
    (hw : rtwMgmtXmitframeEnqueue w x = some w') : TxInv w' := by
  obtain ⟨psta, hpsta, rfl⟩ := Option.map_eq_some_iff.mp hw
  exact h.enqueue (i := (psta, .mgmt)) hheld (TxPriv.enqueueSta_mem hpsta)

theorem TxLedger.take {xs : List F} (h : TxLedger w) (hi : w.backlog.pending i = x :: xs) :
    TxLedger (w.take k i x) := by
  have hcontents := Backlog.contents_take (k := k) hi
  refine ⟨?_, ?_, fun s hs q => ?_⟩
  · show w.enqueued = (w.backlog.take k i).contents + (i, x) ::ₘ w.dequeued + w.freed
    rw [h.ledger, hcontents, Multiset.cons_add, Multiset.add_cons]
  · have honce := h.once
    rw [hcontents, Multiset.map_cons] at honce
    exact (Multiset.nodup_cons.mp honce).2
  · show Function.update w.backlog.pending i _ (s, q) = []
    have hne : (s, q) ≠ i := by
      rintro rfl
      rw [h.unhashed s hs q] at hi
      cases hi
    rw [Function.update_of_ne hne]
    exact h.unhashed s hs q

theorem TxInv.dequeueStas (h : TxInv w) {is : List (S × TxServq)} (his : ∀ i ∈ is, txCls i = k)
    (hw : dequeueStas w k is = some (x, w')) : TxInv w' := by
  induction is with
  | nil => cases hw
  | cons i is ih =>
    rw [Xmit.dequeueStas] at hw
    rcases hi : w.backlog.pending i with _ | ⟨y, ys⟩
    · have hnone : dequeueOneXmitframe w i = none := by rw [dequeueOneXmitframe, hi]
      rw [hnone] at hw
      exact ih (fun j hj => his j (List.mem_cons_of_mem i hj)) hw
    · have hsome : dequeueOneXmitframe w i =
          some (y, { w with backlog := w.backlog.pop i, dequeued := (i, y) ::ₘ w.dequeued }) := by
        rw [dequeueOneXmitframe, hi]
      rw [hsome] at hw
      obtain ⟨rfl, rfl⟩ := Prod.mk.inj (Option.some.inj hw)
      obtain rfl := his i List.mem_cons_self
      have hne : w.backlog.pending i ≠ [] := by
        rw [hi]
        exact List.cons_ne_nil y ys
      refine ⟨(h.take (k := txCls i) hi).congr ?_ rfl rfl rfl fun _ => id,
        ((h.balanced.loose i).take hne).settle⟩
      show ((w.backlog.take (txCls i) i).settle i).pending = _
      unfold Backlog.settle
      split_ifs <;> rfl

end

omit [DecidableEq S] [DecidableEq F] in
theorem TxInv.cls_of_mem_ready (h : TxInv w) (hi : i ∈ w.backlog.ready k) : txCls i = k :=
  ((h.balanced.ready k i).mp hi).1

omit [DecidableEq F] in
theorem TxInv.dequeue (h : TxInv w) (hw : rtwDequeueXframe w = some (x, w')) : TxInv w' := by
  obtain ⟨k, -, hk⟩ := List.exists_of_findSome?_eq_some hw
  exact h.dequeueStas (fun _ => h.cls_of_mem_ready) hk

omit [DecidableEq F] in
theorem TxInv.dequeueMgmt (h : TxInv w) (hw : rtwDequeueMgmtXframe w = some (x, w')) : TxInv w' :=
  h.dequeueStas (fun _ => h.cls_of_mem_ready) hw

/-- The queue that is aggregated may have run empty on its list. -/
structure TxAggInv (i : S × TxServq) (w : TxPriv S F) : Prop extends TxLedger w where
  loose : Backlog.Loose txCls i w.backlog

omit [DecidableEq S] in
theorem TxAggInv.setFrame (h : TxAggInv i w) (f : TxFrame S) : TxAggInv i (w.setFrame x f) :=
  ⟨⟨h.ledger, h.once, h.unhashed⟩, h.loose⟩

omit [DecidableEq F] in
theorem TxAggInv.take {xs : List F} (h : TxAggInv i w) (hi : w.backlog.pending i = x :: xs) :
    TxAggInv i (w.take (txCls i) i x) :=
  ⟨h.toTxLedger.take hi, h.loose.take (by rw [hi]; exact List.cons_ne_nil x xs)⟩

theorem TxAggInv.aggregateLoop {qsel : ℕ} {xs : List F} {v : AggVars σ} (h : TxAggInv i w)
    (hi : w.backlog.pending i = xs) :
    TxAggInv i (aggregateLoop B qsel (txCls i) i xs v w).2 := by
  -- the frames still to be looked at are those still in the queue
  induction xs generalizing v w with
  | nil => exact h
  | cons x xs ih =>
    have htaken : (w.take (txCls i) i x).backlog.pending i = xs := by
      show Function.update w.backlog.pending i (w.backlog.pending i).tail i = xs
      rw [Function.update_self, hi, List.tail_cons]
    rw [Xmit.aggregateLoop]
    dsimp only
    split
    swap
    · exact h
    split
    · exact h.setFrame _
    rcases B.coalesce v.built _ with ⟨_ | _, built, f⟩
    · exact ih ((h.take hi).setFrame _) htaken
    dsimp only
    split
    · exact (h.take hi).setFrame _
    rcases AggVars.countDesc _ _ _ with ⟨v', _ | _⟩
    · exact ih ((h.take hi).setFrame _) htaken
    · exact (h.take hi).setFrame _

theorem TxInv.aggregate (h : TxInv w) (psta : S) (first : XmitFrame) (built : σ) :
    TxInv (aggregate B w psta first built).2 := by
  unfold Xmit.aggregate
  dsimp only
  rcases AggVars.countDesc _ _ _ with ⟨v, _ | _⟩
  swap
  · exact h
  dsimp only
  rw [aggServq_snd]
  generalize hi : (psta, (aggServq first.attrib.priority).1) = i
  have hcls : hwxmit (aggServq first.attrib.priority).1 = txCls i := by rw [← hi]
  rw [hcls]
  have hloop : TxAggInv i (Xmit.aggregateLoop B first.attrib.qsel (txCls i) i
      (w.backlog.pending i) v w).2 :=
    TxAggInv.aggregateLoop ⟨h.toTxLedger, h.balanced.loose i⟩ rfl
  revert hloop
  generalize (Xmit.aggregateLoop B first.attrib.qsel (txCls i) i
      (w.backlog.pending i) v w).2 = w'
  intro hloop
  have hbalanced := hloop.loose.settle
  unfold Backlog.settle at hbalanced
  refine ⟨hloop.toTxLedger.congr ?_ rfl rfl rfl fun _ => id, ?_⟩
  · split_ifs <;> rfl
  · split_ifs at hbalanced ⊢ with hempty
    · exact hbalanced
    · exact hbalanced
    · refine hloop.loose.rotate fun hnil => hempty ?_
      rw [hnil]
      rfl

/-! ### Stations -/

omit [DecidableEq F] in
theorem TxInv.freeServq (h : TxInv w) (i : S × TxServq) : TxInv (w.freeServq (txCls i) i) where
  ledger := by
    show w.enqueued = (w.backlog.clear (txCls i) i).contents + w.dequeued +
      (w.freed + ((w.backlog.pending i).map (Prod.mk i) : Multiset ((S × TxServq) × F)))
    rw [h.ledger, Backlog.contents_clear (b := w.backlog) (k := txCls i) (i := i)]
    abel
  once := by
    have honce := h.once
    rw [Backlog.contents_clear (k := txCls i) (i := i), Multiset.map_add] at honce
    exact (Multiset.nodup_add.mp honce).1
  unhashed s hs q := by
    show Function.update w.backlog.pending i [] (s, q) = []
    rcases eq_or_ne (s, q) i with rfl | hne
    · exact Function.update_self ..
    · rw [Function.update_of_ne hne]
      exact h.unhashed s hs q
  balanced := h.balanced.clear i

omit [DecidableEq F] [Fintype S] in
@[simp] theorem TxPriv.freeServq_hash (w : TxPriv S F) (k : Fin 5) (i : S × TxServq) :
    (w.freeServq k i).hash = w.hash := rfl

omit [DecidableEq F] [Fintype S] in
theorem TxPriv.freeServq_pending (w : TxPriv S F) (k : Fin 5) (i : S × TxServq) :
    (w.freeServq k i).backlog.pending = Function.update w.backlog.pending i [] := rfl

/-- The five queues of a station are freed. -/
def TxPriv.freeServqs (w : TxPriv S F) (psta : S) : TxPriv S F :=
  ((((w.freeServq 0 (psta, .vo)).freeServq 1 (psta, .vi)).freeServq 2 (psta, .be)).freeServq 3
    (psta, .bk)).freeServq 4 (psta, .mgmt)

omit [DecidableEq F] in
theorem TxInv.freeServqs (h : TxInv w) (psta : S) : TxInv (w.freeServqs psta) :=
  ((((h.freeServq (psta, .vo)).freeServq (psta, .vi)).freeServq (psta, .be)).freeServq
    (psta, .bk)).freeServq (psta, .mgmt)

omit [DecidableEq F] [Fintype S] in
theorem TxPriv.freeServqs_pending (w : TxPriv S F) (psta : S) (i : S × TxServq) :
    (w.freeServqs psta).backlog.pending i = if i.1 = psta then [] else w.backlog.pending i := by
  obtain ⟨s, q⟩ := i
  simp only [freeServqs, freeServq_pending, Function.update_apply, Prod.mk.injEq]
  split_ifs <;> cases q <;> simp_all

omit [DecidableEq F] in
/-- The order in which a station is taken off the table and its queues are freed does not matter. -/
theorem TxInv.rtwFreeStainfo (h : TxInv w) (psta : S) : TxInv (rtwFreeStainfo w psta) := by
  have hfree := h.freeServqs psta
  refine ⟨⟨hfree.ledger, hfree.once, fun s hs q => ?_⟩, hfree.balanced⟩
  show (w.freeServqs psta).backlog.pending (s, q) = []
  rw [TxPriv.freeServqs_pending]
  split_ifs with hne
  · rfl
  · exact h.unhashed s (fun hmem => hs ((List.mem_erase_of_ne hne).mpr hmem)) q

omit [DecidableEq F] in
theorem TxInv.rtwAllocStainfo (h : TxInv w) {psta : S} (hpsta : psta ∉ w.hash) (hwaddr : MacAddr) :
    TxInv (Xmit.rtwAllocStainfo w psta hwaddr) := by
  have hpending : (Xmit.rtwAllocStainfo w psta hwaddr).backlog.pending = w.backlog.pending := by
    funext ⟨s, q⟩
    show (if s = psta then [] else w.backlog.pending (s, q)) = _
    split_ifs with hs
    · rw [hs, h.unhashed psta hpsta]
    · rfl
  have hcount : (Xmit.rtwAllocStainfo w psta hwaddr).backlog.count = w.backlog.count := by
    funext ⟨s, q⟩
    show (if s = psta then 0 else w.backlog.count (s, q)) = _
    split_ifs with hs
    · rw [hs, h.balanced.count, h.unhashed psta hpsta]
      rfl
    · rfl
  have hbacklog : (Xmit.rtwAllocStainfo w psta hwaddr).backlog =
      { w.backlog with pending := w.backlog.pending, count := w.backlog.count } := by
    rw [← hpending, ← hcount]
    rfl
  refine ⟨h.toTxLedger.congr hpending rfl rfl rfl fun s hs => List.mem_append_left _ hs, ?_⟩
  rw [hbacklog]
  exact h.balanced

omit [DecidableEq S] in
theorem TxInv.setFrame (h : TxInv w) (f : TxFrame S) : TxInv (w.setFrame x f) :=
  ⟨⟨h.ledger, h.once, h.unhashed⟩, h.balanced⟩

/-- Every step keeps the invariant. -/
theorem TxInv.step {e : QueueEvent S F σ} (h : TxInv w) (hstep : txStep B w e = some w') :
    TxInv w' := by
  cases e with
  | alloc psta hwaddr =>
    dsimp only [txStep] at hstep
    split_ifs at hstep with hpsta
    obtain rfl := Option.some.inj hstep
    exact h.rtwAllocStainfo hpsta hwaddr
  | associate psta asoc =>
    obtain rfl := Option.some.inj hstep
    exact ⟨⟨h.ledger, h.once, h.unhashed⟩, h.balanced⟩
  | classify x f =>
    dsimp only [txStep] at hstep
    split_ifs at hstep with hheld
    obtain rfl := Option.some.inj hstep
    rcases hw : rtwXmitClassifier (w.setFrame x f) x with _ | w'
    · exact h.setFrame f
    · exact (h.setFrame f).classify hheld hw
  | mgmtEnqueue x f =>
    dsimp only [txStep] at hstep
    split_ifs at hstep with hheld
    obtain rfl := Option.some.inj hstep
    rcases hw : rtwMgmtXmitframeEnqueue (w.setFrame x f) x with _ | w'
    · exact h.setFrame f
    · exact (h.setFrame f).mgmtEnqueue hheld hw
  | dequeue =>
    obtain rfl := Option.some.inj hstep
    rcases hw : rtwDequeueXframe w with _ | ⟨x, w'⟩
    · exact h
    · exact h.dequeue hw
  | dequeueMgmt =>
    obtain rfl := Option.some.inj hstep
    rcases hw : rtwDequeueMgmtXframe w with _ | ⟨x, w'⟩
    · exact h
    · exact h.dequeueMgmt hw
  | aggregate first built =>
    obtain ⟨psta, -, rfl⟩ := Option.map_eq_some_iff.mp hstep
    exact h.aggregate psta first.xmit built
  | free psta =>
    obtain rfl := Option.some.inj hstep
    exact h.rtwFreeStainfo psta

/-- **The transmit queues are accounted for after every run**: each queue counts its frames and is
linked exactly while it has any, each category counts the frames of its stations, and every frame
that was enqueued waits once, or was taken or freed once. -/
theorem txAccounted_of_run {es : List (QueueEvent S F σ)} (hfresh : w.Fresh)
    (hrun : run (txStep B) w es = some w') : TxAccounted w' :=
  (run_invariant (fun _ _ _ h hstep => h.step hstep) hfresh.txInv hrun).txAccounted

def staAddr (s : Bool) : MacAddr := ⟨2, 0, 0, 0, 0, if s then 2 else 1⟩

def frameTo (psta : Bool) (priority : ℕ) : TxFrame Bool :=
  { psta := some psta, xmit := { attrib := { ra := staAddr psta, priority := priority } } }

def twoStas : TxPriv Bool ℕ where
  hash := [false, true]
  sta s := { macAddr := staAddr s, asoc := true }
  frames _ := {}
  backlog := .empty
  ap := true
  wifiSpec := false
  wmmParaSeq i := i.castSucc
  usbBulkOutSize := 512
  usbTxAggDescNum := 2
  freedBufs := []
  enqueued := 0
  dequeued := 0
  freed := 0

/-- Every frame can be built. -/
def plainBuilder : TxBuilder Unit := ⟨fun u f => (true, u, f), fun u f _ _ => (u, f)⟩

/-- Two frames of a station go out together, the other station is removed with its two frames. -/
theorem txAccounted_twoStas :
    ∃ w', run (txStep plainBuilder) twoStas
        [.classify 0 (frameTo false 3), .classify 1 (frameTo true 0),
          .classify 2 (frameTo false 0), .mgmtEnqueue 3 (frameTo true 0), .dequeue,
          .aggregate (frameTo false 3) (), .free true] = some w' ∧
      (w'.dequeued.card = 2 ∧ w'.freed.card = 2) ∧ TxAccounted w' := by
  obtain ⟨w', hrun, hcard⟩ : ∃ w', run (txStep plainBuilder) twoStas
      [.classify 0 (frameTo false 3), .classify 1 (frameTo true 0),
        .classify 2 (frameTo false 0), .mgmtEnqueue 3 (frameTo true 0), .dequeue,
        .aggregate (frameTo false 3) (), .free true] = some w' ∧
        w'.dequeued.card = 2 ∧ w'.freed.card = 2 := exists_run_of_any (by decide +kernel)
  exact ⟨w', hrun, hcard, txAccounted_of_run ⟨rfl, rfl, rfl, rfl⟩ hrun⟩

end Invariant

end Rtl88x2eu.Xmit
