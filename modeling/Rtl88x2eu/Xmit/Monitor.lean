import Rtl88x2eu.Lib.Lending
import Rtl88x2eu.Lib.Transition
import Rtl88x2eu.Xmit.MgntXmit
import Rtl88x2eu.Xmit.Radiotap

/-!
# Injecting frames on a monitor interface

`rtw_monitor_xmit_entry` copies a packet behind its radiotap header into an extended buffer and
hands it to the USB core. The copy is as long as the packet, whatever the size of the buffer, and
the frame is counted as sent also if its submission was refused.

## Main definitions

* `MonPriv`, `monStep hal c`: any number of calls, step by step, USB completions, and changes of the
  configuration
* `MonConservative`, `MonOk`

## Main results

* `monConservative_of_run`: injection is conservative in every run whose steps meet `MonOk`, and
  every call can return
* `not_monConservative`: a packet of 5000 octets, and one whose submission is refused
-/

namespace Rtl88x2eu.Xmit

open Memory Transition

variable {ι : Type*}

/-! ## State -/

inductive NetdevTx
  | ok | busy
deriving DecidableEq, Repr

/-- Where a call of `rtw_monitor_xmit_entry` stands. -/
inductive MonPc
  | idle
  /-- Before a try of `alloc_mgtxmitframe`. -/
  | trying (tries : ℕ)
  /-- In `_alloc_mgtxmitframe`, with a frame. -/
  | framed (tries : ℕ)
  /-- Before `dump_mgntframe`, with the packet in the buffer. -/
  | ready
  /-- In `rtw_dump_xframe`, behind `rtw_write_port`. -/
  | dumped
  | done (ret : NetdevTx)
deriving DecidableEq, Repr

/-- A call. The fields from `took` on record what it did: whether it took anything from a pool, how
often it freed its packet, which offsets of the packet it read, how far into the buffer it wrote,
and what it submitted. -/
structure MonCall where
  pc : MonPc := .idle
  skb : Skb := ⟨fun _ => 0, 0⟩
  /-- What the stack holds where the iterator will be. -/
  stale : ℕ := 0
  pmgntframe : Option ℕ := none
  /-- The buffer, until it is freed. -/
  pxmitbuf : Option ℕ := none
  args : TxArgs := {}
  took : Bool := false
  skbFreed : ℕ := 0
  reads : List ℕ := []
  copied : Option ℕ := none
  sent : Option Submission := none

/-- A pool of extended frames or buffers, with its count. -/
structure ExtPool where
  queue : List ℕ
  cnt : ℤ

structure MonPriv (ι : Type*) where
  /-- `free_xframe_ext_queue`, `free_xframe_ext_cnt`. -/
  frames : ExtPool
  /-- `free_xmit_extbuf_queue`, `free_xmit_extbuf_cnt`. -/
  bufs : ExtPool
  bufMem : ℕ → Mem
  call : ι → MonCall
  adapter : Adapter
  maxTxBufLen : ℕ
  mgntSeq : ℕ
  txPkts : ℕ
  txBytes : ℕ
  txDrop : ℕ
  /-- The calls that counted their frame in `tx_pkts`. -/
  counted : List ι

def nrXmitExtbuff : ℕ := 64

/-- The packet behind its radiotap header, after `skb_pull`. -/
def Skb.frame (skb : Skb) : Bytes :=
  read skb.mem (ieee80211GetRadiotapLen skb) (skb.len - ieee80211GetRadiotapLen skb)

@[simp] theorem Skb.length_frame (skb : Skb) :
    skb.frame.length = skb.len - ieee80211GetRadiotapLen skb := length_read ..

def ExtPool.get (p : ExtPool) : Option (ℕ × ExtPool) :=
  match p.queue with
  | [] => none
  | x :: rest => some (x, ⟨rest, p.cnt - 1⟩)

def ExtPool.put (p : ExtPool) (x : ℕ) : ExtPool := ⟨p.queue ++ [x], p.cnt + 1⟩

variable [DecidableEq ι]

def MonPriv.setCall (w : MonPriv ι) (i : ι) (c : MonCall) : MonPriv ι :=
  { w with call := Function.update w.call i c }

/-! ## The code -/

/-- The checks of a packet, up to the test whether the pools are about to run dry. -/
def MonPriv.enter (w : MonPriv ι) (i : ι) (skb : Skb) (stale : ℕ) : MonPriv ι :=
  let c : MonCall := { skb := skb, stale := stale }
  if skb.len < radiotapHdrLen then w.setCall i { c with pc := .done .ok, skbFreed := 1 }
  else if skb.mem 0 ≠ 0 then w.setCall i { c with pc := .done .ok, skbFreed := 1, reads := [0] }
  else
    let c := { c with reads := [0, 2, 3] }
    if skb.len < ieee80211GetRadiotapLen skb then
      w.setCall i { c with pc := .done .ok, skbFreed := 1 }
    else if 0 < w.maxTxBufLen ∧ (w.frames.cnt ≤ nrXmitExtbuff - w.maxTxBufLen ∨
        w.bufs.cnt ≤ nrXmitExtbuff - w.maxTxBufLen) then
      w.setCall i { c with pc := .done .busy }
    else w.setCall i { c with pc := .trying 0 }

/-- A try of `monitor_alloc_mgtxmitframe` has failed. -/
def MonPriv.retry (w : MonPriv ι) (i : ι) (tries : ℕ) : MonPriv ι :=
  let c := w.call i
  if tries + 1 < 4 then w.setCall i { c with pc := .trying (tries + 1) }
  else
    { w.setCall i { c with pc := .done .ok, skbFreed := c.skbFreed + 1 } with
      txDrop := w.txDrop + 1 }

def MonPriv.allocFrame (w : MonPriv ι) (i : ι) (tries : ℕ) : MonPriv ι :=
  match w.frames.get with
  | none => w.retry i tries
  | some (x, frames) =>
    { w.setCall i { w.call i with pc := .framed tries, pmgntframe := some x, took := true } with
      frames := frames }

def MonPriv.freeFrame (w : MonPriv ι) (i : ι) (x : ℕ) : MonPriv ι :=
  { w.setCall i { w.call i with pmgntframe := none } with frames := w.frames.put x }

/-- `rtw_free_xmitbuf` of an extended buffer. -/
def MonPriv.freeBuf (w : MonPriv ι) (i : ι) (b : ℕ) : MonPriv ι :=
  { w.setCall i { w.call i with pxmitbuf := none } with bufs := w.bufs.put b }

def wlanHdrOffset : ℕ := 64

def copyFrame (skb : Skb) (m : Mem) : Mem :=
  write (write m 0 (List.replicate (wlanHdrOffset + txdescOffset) 0)) txdescOffset skb.frame

def MonPriv.build (w : MonPriv ι) (i : ι) (b : ℕ) : MonPriv ι :=
  let c := w.call i
  let (args, reads) := radiotapArgs c.skb c.stale
  let rtapLen := ieee80211GetRadiotapLen c.skb
  let len := c.skb.len - rtapLen
  let m := copyFrame c.skb (w.bufMem b)
  { w.setCall i { c with
      pc := .ready, args := args, copied := some (txdescOffset + len)
      reads := c.reads ++ reads ++ offsets rtapLen len } with
    bufMem := Function.update w.bufMem b m
    mgntSeq := (getSequence (read m txdescOffset wlanHdrA3Len) + 1) % 65536 }

/-- `rtw_alloc_xmitbuf_ext` and what follows. -/
def MonPriv.allocBuf (w : MonPriv ι) (i : ι) (tries x : ℕ) : MonPriv ι :=
  match w.bufs.get with
  | none => (w.freeFrame i x).retry i tries
  | some (b, bufs) =>
    MonPriv.build
      { w.setCall i { w.call i with pxmitbuf := some b } with bufs := bufs } i b

/-- What `rtw_dump_xframe` submits. A monitor interface is no access point, and no frame waits for a
station that sleeps. -/
def monDump (hal : TxHal) (c : TxCrypto) (zmalloc : Bool) (a : Adapter) (m : Mem) (len b : ℕ) :
    MgmtCoalesced × Submission :=
  -- the attributes are those of any management frame, but for the radio
  let r := protectMgnt c zmalloc a m (updateMgntframeAttrib a m 0 len .rightKey)
  (r, (dumpFragment hal r.adapter b 0 ⟨r.mem, { attrib := r.attrib }, 0⟩).2)

/-- `rtw_hal_mgnt_xmit`, up to the USB core. -/
def MonPriv.submit (hal : TxHal) (c : TxCrypto) (w : MonPriv ι) (i : ι) (b : ℕ)
    (zmalloc accepted : Bool) : MonPriv ι :=
  let len := (w.call i).skb.len - ieee80211GetRadiotapLen (w.call i).skb
  let (r, s) := monDump hal c zmalloc w.adapter (w.bufMem b) len b
  let w := { w with adapter := r.adapter, bufMem := Function.update w.bufMem b s.mem }
  if accepted then w.setCall i { w.call i with pc := .dumped, sent := some s }
  else (w.freeBuf i b).setCall i { (w.freeBuf i b).call i with pc := .dumped }

def MonPriv.cannotRun (w : MonPriv ι) (i : ι) (x b : ℕ) : MonPriv ι :=
  let w := (w.freeBuf i b).freeFrame i x
  let c := w.call i
  { w.setCall i { c with pc := .done .ok, skbFreed := c.skbFreed + 1 } with
    txDrop := w.txDrop + 1 }

/-- The end of `rtw_dump_xframe`, which succeeds whatever became of the only fragment, and of the
call. -/
def MonPriv.finish (w : MonPriv ι) (i : ι) (x : ℕ) : MonPriv ι :=
  let w := w.freeFrame i x
  let c := w.call i
  { w.setCall i { c with pc := .done .ok, skbFreed := c.skbFreed + 1 } with
    txPkts := w.txPkts + 1
    txBytes := w.txBytes + (c.skb.len - ieee80211GetRadiotapLen c.skb)
    counted := i :: w.counted }

inductive MonEvent (ι : Type*)
  /-- A packet comes, with what the stack holds. -/
  | enter (i : ι) (skb : Skb) (stale : ℕ)
  | allocFrame (i : ι)
  | allocBuf (i : ι)
  /-- `dump_mgntframe`: the adapter may have stopped or be removed; an allocation of the protection
  and the submission may fail. -/
  | dump (i : ι) (cannotRun zmalloc accepted : Bool)
  | finish (i : ι)
  /-- A transfer completes, also because it was cancelled. -/
  | complete (i : ι)
  | configure (a : Adapter) (maxTxBufLen : ℕ)

def MonCall.inUrb (c : MonCall) : Bool :=
  match c.pc with
  | .dumped | .done _ => true
  | _ => false

def monStep (hal : TxHal) (c : TxCrypto) (w : MonPriv ι) : MonEvent ι → Option (MonPriv ι)
  | .enter i skb stale =>
    if (w.call i).pc = .idle ∧ skb.len < 2 ^ 32 then some (w.enter i skb stale) else none
  | .allocFrame i =>
    match (w.call i).pc with
    | .trying tries => some (w.allocFrame i tries)
    | _ => none
  | .allocBuf i =>
    match (w.call i).pc with
    | .framed tries => (w.call i).pmgntframe.map (w.allocBuf i tries)
    | _ => none
  | .dump i cannotRun zmalloc accepted =>
    if (w.call i).pc = .ready then
      (w.call i).pmgntframe.bind fun x => (w.call i).pxmitbuf.map fun b =>
        if cannotRun then w.cannotRun i x b else w.submit hal c i b zmalloc accepted
    else none
  | .finish i =>
    if (w.call i).pc = .dumped then (w.call i).pmgntframe.map (w.finish i) else none
  | .complete i =>
    if (w.call i).inUrb then (w.call i).pxmitbuf.map (w.freeBuf i) else none
  | .configure a maxTxBufLen => some { w with adapter := a, maxTxBufLen := maxTxBufLen }

/-- Every member of a pool is free once or with one call, and the count is the length. -/
structure ExtPool.Ok (p : ExtPool) (held : ι → Option ℕ) (all : Set ℕ) : Prop where
  sound : Lending.Sound ⟨p.queue, held⟩
  covers : Lending.Covers ⟨p.queue, held⟩ all
  cnt : p.cnt = p.queue.length

def MonCall.Returned (c : MonCall) : NetdevTx → Prop
  | .busy => c.skbFreed = 0 ∧ c.took = false
  | .ok => c.skbFreed = 1 ∧ c.pmgntframe = none ∧ (c.pxmitbuf ≠ none → c.sent ≠ none)

/-- Nothing is lost or freed twice, reads and copies stay inside, what is sent is the packet, and
what is counted was accepted. -/
structure MonConservative (w : MonPriv ι) (frames bufs : Set ℕ) : Prop where
  returned : ∀ i ret, (w.call i).pc = .done ret → (w.call i).Returned ret
  running : ∀ i, (∀ ret, (w.call i).pc ≠ .done ret) → (w.call i).skbFreed = 0
  frames : w.frames.Ok (fun i => (w.call i).pmgntframe) frames
  bufs : w.bufs.Ok (fun i => (w.call i).pxmitbuf) bufs
  reads : ∀ i, ∀ o ∈ (w.call i).reads, o < (w.call i).skb.len
  copied : ∀ i, ∀ n ∈ (w.call i).copied, n ≤ maxXmitExtbufSz
  sent : ∀ i, ∀ s ∈ (w.call i).sent, s.packet = (w.call i).skb.frame
  txPkts : w.txPkts = w.counted.length
  counted : ∀ i ∈ w.counted, (w.call i).sent ≠ none

structure MonPriv.Fresh (w : MonPriv ι) : Prop where
  frames : w.frames.queue.Nodup ∧ w.frames.cnt = w.frames.queue.length
  bufs : w.bufs.queue.Nodup ∧ w.bufs.cnt = w.bufs.queue.length
  call : w.call = fun _ => {}
  counted : w.txPkts = 0 ∧ w.counted = []

def mgmtRewrites (zmalloc : Bool) (a : Adapter) (m : Mem) (bufAddr : ℕ) (p : PktAttrib) : Bool :=
  let sec := a.securitypriv
  let pframe := bufAddr + txdescOffset
  let subtype := getFrameSubType (read m pframe wlanHdrA3Len)
  let category := (m (pframe + wlanHdrA3Len)).toNat
  let action : Bool := subtype = wifiAction
  let robust := subtype = wifiDeauth || subtype = wifiDisassoc ||
    (action && categoryIsRobust category)
  let rewritten :=
    if p.ra.isMcast then
      if action && categoryIsGroupPrivacy category then
        (rtwGetStainfo a p.ra).isSome && sec.binstallGrpkey &&
          (mgmtIcvLen sec.dot118021XGrpPrivacy).isSome
      else sec.binstallBIPkey
    else (rtwGetStainfo a p.ra).any fun psta =>
      psta.mfp && psta.bpairwiseKeyInstalled && (mgmtIcvLen psta.dot118021XPrivacy).isSome
  robust && zmalloc && rewritten

/-- The packet that is copied fits and its header can be read; the one that is submitted is not
rewritten and the USB core accepts it. -/
def MonOk (w : MonPriv ι) : MonEvent ι → Prop
  | .allocBuf i => w.bufs.queue ≠ [] →
      txdescOffset + (w.call i).skb.frame.length ≤ maxXmitExtbufSz ∧
        VendorOk (w.call i).skb (w.call i).stale
  | .dump i cannotRun zmalloc accepted => cannotRun = false → accepted = true ∧
      ∀ b ∈ (w.call i).pxmitbuf, w.adapter.securitypriv.binstallBIPkey = true →
        mgmtRewrites zmalloc w.adapter (w.bufMem b) 0 (updateMgntframeAttrib w.adapter (w.bufMem b)
          0 (w.call i).skb.frame.length .rightKey) = false
  | _ => True

/-! ## What is submitted -/

section Dump

variable {hal : TxHal} {c : TxCrypto} {zmalloc : Bool} {a : Adapter} {m : Mem} {p : PktAttrib}
  {len b : ℕ} {skb : Skb}

/-- The frame is as its caller left it. -/
structure Unwritten (m : Mem) (p : PktAttrib) (r : MgmtCoalesced) : Prop where
  mem : r.mem = m
  lastTxcmdsz : r.attrib.lastTxcmdsz = p.lastTxcmdsz
  nrFrags : r.attrib.nrFrags = p.nrFrags
  qsel : r.attrib.qsel = p.qsel

theorem unwritten_same (res : Bool) (a : Adapter) : Unwritten m p ⟨res, m, a, p, none⟩ :=
  ⟨rfl, rfl, rfl, rfl⟩

theorem aeadProtect_unwritten {bufAddr kid : ℕ} {psta : StaInfo} {cipher : SecurityType}
    (hkey : p.keyType ≠ .noKey) (hcipher : mgmtIcvLen cipher = none) :
    Unwritten m p (aeadProtect c a m bufAddr p psta cipher kid) := by
  simp only [aeadProtect, if_pos hkey, hcipher]
  exact ⟨rfl, rfl, rfl, rfl⟩

theorem groupProtect_unwritten {bufAddr : ℕ} {privacy : Bool} (hkey : p.keyType ≠ .noKey)
    (h : zmalloc = true →
      (if privacy then (rtwGetStainfo a p.ra).isSome && a.securitypriv.binstallGrpkey &&
        (mgmtIcvLen a.securitypriv.dot118021XGrpPrivacy).isSome
      else a.securitypriv.binstallBIPkey) = false) :
    Unwritten m p (groupProtect c zmalloc a m bufAddr p privacy) := by
  cases zmalloc
  · exact unwritten_same ..
  · have h := h rfl
    cases privacy
    · simp only [Bool.false_eq_true, if_false] at h
      simp only [groupProtect, bipProtect, h, Bool.not_true, Bool.not_false, Bool.false_eq_true,
        if_false, if_true]
      exact unwritten_same ..
    · simp only [if_true] at h
      simp only [groupProtect, Bool.not_true, Bool.false_eq_true, if_false]
      cases hsta : rtwGetStainfo a p.ra with
      | none => exact unwritten_same ..
      | some psta =>
        dsimp only
        split_ifs with hgrp
        · refine aeadProtect_unwritten hkey ?_
          simpa [hsta, hgrp] using h
        · exact unwritten_same ..

theorem unicastProtect_unwritten {bufAddr : ℕ} (hkey : p.keyType ≠ .noKey)
    (h : zmalloc = true → ((rtwGetStainfo a p.ra).any fun psta =>
      psta.mfp && psta.bpairwiseKeyInstalled && (mgmtIcvLen psta.dot118021XPrivacy).isSome) =
        false) :
    Unwritten m p (unicastProtect c zmalloc a m bufAddr p) := by
  unfold unicastProtect
  cases hsta : rtwGetStainfo a p.ra with
  | none => exact unwritten_same ..
  | some psta =>
    dsimp only
    split_ifs with hmfp hinstalled
    · exact unwritten_same ..
    · exact unwritten_same ..
    · obtain ⟨hkeyOk, hz⟩ : psta.bpairwiseKeyInstalled = true ∧ zmalloc = true := by
        simpa using hinstalled
      have hnone : mgmtIcvLen psta.dot118021XPrivacy = none := by
        simpa [hsta, hkeyOk, Bool.eq_true_of_not_eq_false (by simpa using hmfp)] using h hz
      let q := { p with dot118021xUncstKey := unicastKey psta p.keyType }
      have hkeyed : Unwritten m q (aeadProtect c a m bufAddr q psta psta.dot118021XPrivacy 0) :=
        aeadProtect_unwritten hkey hnone
      exact ⟨hkeyed.1, hkeyed.2, hkeyed.3, hkeyed.4⟩

theorem mgmtCoalesce_unwritten {bufAddr : ℕ} (hkey : p.keyType ≠ .noKey)
    (h : mgmtRewrites zmalloc a m bufAddr p = false) :
    Unwritten m p (rtwMgmtXmitframeCoalesce c zmalloc a m bufAddr p) := by
  unfold mgmtRewrites at h
  unfold rtwMgmtXmitframeCoalesce
  dsimp only at h ⊢
  split_ifs with hrobust hmcast
  · exact unwritten_same ..
  all_goals
    simp only [Bool.not_eq_true', Bool.not_eq_false] at hrobust
    simp only [hrobust, hmcast, Bool.true_and, if_true, if_false, Bool.false_eq_true] at h
  · refine groupProtect_unwritten hkey fun hz => ?_
    simpa only [hz, Bool.true_and] using h
  · refine unicastProtect_unwritten hkey fun hz => ?_
    simpa only [hz, Bool.true_and] using h

theorem protectMgnt_unwritten (hkey : p.keyType ≠ .noKey)
    (h : a.securitypriv.binstallBIPkey = true → mgmtRewrites zmalloc a m 0 p = false) :
    Unwritten m p (protectMgnt c zmalloc a m p) := by
  unfold protectMgnt
  split_ifs with hbip
  · exact mgmtCoalesce_unwritten hkey (h hbip)
  · exact unwritten_same ..

/-- A frame that is not rewritten is submitted as it stands in the buffer. -/
theorem packet_monDump (h : a.securitypriv.binstallBIPkey = true →
      mgmtRewrites zmalloc a m 0 (updateMgntframeAttrib a m 0 len .rightKey) = false)
    (hlen : len + txdescOffset < 2 ^ 32) :
    (monDump hal c zmalloc a m len b).2.packet = read m txdescOffset len := by
  have hun := protectMgnt_unwritten (c := c) (p := updateMgntframeAttrib a m 0 len .rightKey)
    KeyType.noConfusion h
  unfold monDump
  dsimp only
  generalize protectMgnt c zmalloc a m _ = r at hun ⊢
  have hlast : r.attrib.lastTxcmdsz = len := hun.lastTxcmdsz
  refine (dumpFragment_whole hal r.adapter b { attrib := r.attrib } r.mem ?_ hun.nrFrags rfl
    (hlast ▸ hlen)).trans ?_
  · show r.attrib.qsel ≠ qselH2cCmd
    rw [hun.qsel]
    exact Nat.ne_of_lt (Nat.lt_succ_self 0x12)
  · show read r.mem _ r.attrib.lastTxcmdsz = _
    rw [hun.mem, hlast]
    rfl

theorem read_copyFrame : read (copyFrame skb m) txdescOffset skb.frame.length = skb.frame :=
  read_write

end Dump

namespace ExtPool

variable {p p' : ExtPool} {held : ι → Option ℕ} {all : Set ℕ} {i : ι} {x : ℕ}

theorem get_eq_some (h : p.get = some (x, p')) :
    p.queue = x :: p'.queue ∧ p'.cnt = p.cnt - 1 := by
  unfold get at h
  split at h
  · exact nomatch h
  · rename_i hqueue
    obtain ⟨rfl, rfl⟩ := Prod.mk.inj (Option.some.inj h)
    exact ⟨hqueue, rfl⟩

theorem Ok.get (h : p.Ok held all) (hi : held i = none) (hget : p.get = some (x, p')) :
    p'.Ok (Function.update held i (some x)) all := by
  obtain ⟨hqueue, hcnt⟩ := get_eq_some hget
  have hborrow : (Lending.mk p.queue held).borrow i =
      some (x, ⟨p'.queue, Function.update held i (some x)⟩) := by
    simp only [Lending.borrow, hqueue]
  refine ⟨h.sound.borrow hborrow, h.covers.borrow hi hborrow, ?_⟩
  rw [hcnt, h.cnt, hqueue, List.length_cons, Nat.cast_succ]
  exact Int.add_sub_cancel _ 1

theorem Ok.put (h : p.Ok held all) (hi : held i = some x) :
    (p.put x).Ok (Function.update held i none) all := by
  have hback : (Lending.mk p.queue held).giveBack i =
      ⟨(p.put x).queue, Function.update held i none⟩ := by
    simp only [Lending.giveBack, hi, ExtPool.put, Option.toList_some]
  refine ⟨hback ▸ h.sound.giveBack i, hback ▸ h.covers.giveBack i, ?_⟩
  show p.cnt + 1 = ((p.queue ++ [x]).length : ℤ)
  rw [h.cnt, List.length_append]
  rfl

/-- A caller that keeps what it has. -/
theorem Ok.keep (h : p.Ok held all) {y : Option ℕ} (hy : y = held i) :
    p.Ok (Function.update held i y) all := by
  rwa [hy, Function.update_eq_self]

end ExtPool

/-! ## The invariant -/

def MonPc.hasFrame : MonPc → Bool
  | .framed _ | .ready | .dumped => true
  | _ => false

/-- The call has not asked for a buffer yet. -/
def MonPc.unbuffered : MonPc → Bool
  | .idle | .trying _ | .framed _ => true
  | _ => false

def MonPc.over : MonPc → Bool
  | .done _ => true
  | _ => false

/-- What holds of a call between its steps. -/
structure MonCall.Ok (bufMem : ℕ → Mem) (c : MonCall) : Prop where
  frame : c.pmgntframe.isSome = c.pc.hasFrame
  unbuffered : c.pc.unbuffered → c.pxmitbuf = none ∧ c.sent = none
  /-- The packet stands in the buffer. -/
  ready : c.pc = .ready → txdescOffset + c.skb.frame.length ≤ maxXmitExtbufSz ∧
    ∃ b, c.pxmitbuf = some b ∧ read (bufMem b) txdescOffset c.skb.frame.length = c.skb.frame
  dumped : c.pc = .dumped → c.sent ≠ none
  running : c.pc.over = false → c.skbFreed = 0
  returned : ∀ ret, c.pc = .done ret → c.Returned ret
  lens : c.pc = .idle ∨ c.pc.over = true ∨
    ieee80211GetRadiotapLen c.skb ≤ c.skb.len ∧ c.skb.len < 2 ^ 32
  reads : ∀ o ∈ c.reads, o < c.skb.len
  copied : ∀ n ∈ c.copied, n ≤ maxXmitExtbufSz
  sent : ∀ s ∈ c.sent, s.packet = c.skb.frame

/-- What holds between the steps. -/
structure MonInv (frames bufs : Set ℕ) (w : MonPriv ι) : Prop where
  call : ∀ i, (w.call i).Ok w.bufMem
  frames : w.frames.Ok (fun i => (w.call i).pmgntframe) frames
  bufs : w.bufs.Ok (fun i => (w.call i).pxmitbuf) bufs
  txPkts : w.txPkts = w.counted.length
  counted : ∀ i ∈ w.counted, (w.call i).pc.over = true ∧ (w.call i).sent ≠ none

section Steps

variable {hal : TxHal} {c : TxCrypto} {w w' : MonPriv ι} {i : ι} {d : MonCall} {skb : Skb}
  {frames bufs : Set ℕ} {stale tries x b : ℕ} {zmalloc : Bool}

omit [DecidableEq ι] in
theorem MonInv.conservative (h : MonInv frames bufs w) : MonConservative w frames bufs where
  returned i := (h.call i).returned
  running i hrun := (h.call i).running (by
    cases hpc : (w.call i).pc <;> first | rfl | exact absurd hpc (hrun _))
  frames := h.frames
  bufs := h.bufs
  reads i := (h.call i).reads
  copied i := (h.call i).copied
  sent i := (h.call i).sent
  txPkts := h.txPkts
  counted i hi := (h.counted i hi).2

/-- A call that waits is not affected by what another one does with its own buffer. -/
theorem MonCall.Ok.congr {e : MonCall} {bufMem bufMem' : ℕ → Mem} (h : e.Ok bufMem)
    (hmem : ∀ b ∈ e.pxmitbuf, bufMem' b = bufMem b) : e.Ok bufMem' := by
  refine { h with ready := fun hpc => ?_ }
  obtain ⟨hfits, b, hb, hread⟩ := h.ready hpc
  exact ⟨hfits, b, hb, (hmem b hb).symm ▸ hread⟩

/-- **The frame rule of a step of one call.** -/
theorem MonInv.step (h : MonInv frames bufs w) (hcall : w'.call = Function.update w.call i d)
    (hd : d.Ok w'.bufMem)
    (hmem : ∀ j, j ≠ i → ∀ b ∈ (w.call j).pxmitbuf, w'.bufMem b = w.bufMem b)
    (hframes : w'.frames.Ok (Function.update (fun j => (w.call j).pmgntframe) i d.pmgntframe)
      frames)
    (hbufs : w'.bufs.Ok (Function.update (fun j => (w.call j).pxmitbuf) i d.pxmitbuf) bufs)
    (htxPkts : w'.txPkts = w'.counted.length)
    (hcounted : ∀ j ∈ w'.counted, j ∈ w.counted ∨ j = i)
    (hi : i ∈ w'.counted → d.pc.over = true ∧ d.sent ≠ none) : MonInv frames bufs w' := by
  have hself : w'.call i = d := by rw [hcall, Function.update_self]
  have hother (j : ι) (hji : j ≠ i) : w'.call j = w.call j := by
    rw [hcall, Function.update_of_ne hji]
  have hfield {γ : Type} (f : MonCall → γ) :
      (fun j => f (w'.call j)) = Function.update (fun j => f (w.call j)) i (f d) := by
    funext j
    rw [hcall, Function.apply_update (fun _ => f)]
  refine ⟨fun j => ?_, ?_, ?_, htxPkts, fun j hj => ?_⟩
  · rcases eq_or_ne j i with rfl | hji
    · rwa [hself]
    · rw [hother j hji]
      exact (h.call j).congr (hmem j hji)
  · rw [hfield]
    exact hframes
  · rw [hfield]
    exact hbufs
  · rcases eq_or_ne j i with rfl | hji
    · rw [hself]
      exact hi hj
    · rw [hother j hji]
      exact h.counted j ((hcounted j hj).resolve_right hji)

theorem MonCall.ok_entered {bufMem : ℕ → Mem} {pc : MonPc} {n : ℕ} {reads : List ℕ}
    (hreads : ∀ o ∈ reads, o < skb.len)
    (hpc : pc = .done .ok ∧ n = 1 ∨ pc = .done .busy ∧ n = 0 ∨
      (∃ tries, pc = .trying tries) ∧ n = 0 ∧ ieee80211GetRadiotapLen skb ≤ skb.len ∧
        skb.len < 2 ^ 32) :
    MonCall.Ok bufMem { pc := pc, skb := skb, stale := stale, skbFreed := n, reads := reads } := by
  have hnone (o : ℕ) (h : o ∈ (none : Option ℕ)) : o ≤ maxXmitExtbufSz := nomatch h
  have hunsent (s : Submission) (h : s ∈ (none : Option Submission)) : s.packet = skb.frame :=
    nomatch h
  rcases hpc with ⟨rfl, rfl⟩ | ⟨rfl, rfl⟩ | ⟨⟨tries, rfl⟩, rfl, hlens⟩
  · refine ⟨rfl, (nomatch ·), (nomatch ·), (nomatch ·), (nomatch ·),
      fun ret hret => ?_, .inr (.inl rfl), hreads, hnone, hunsent⟩
    obtain rfl := MonPc.done.inj hret
    exact ⟨rfl, rfl, fun h => absurd rfl h⟩
  · refine ⟨rfl, (nomatch ·), (nomatch ·), (nomatch ·), (nomatch ·),
      fun ret hret => ?_, .inr (.inl rfl), hreads, hnone, hunsent⟩
    obtain rfl := MonPc.done.inj hret
    exact ⟨rfl, rfl⟩
  · exact ⟨rfl, fun _ => ⟨rfl, rfl⟩, (nomatch ·), (nomatch ·), fun _ => rfl,
      fun _ => (nomatch ·), .inr (.inr hlens), hreads, hnone, hunsent⟩

theorem MonInv.entered (h : MonInv frames bufs w) (hpc : (w.call i).pc = .idle)
    (hframe : d.pmgntframe = none) (hbuf : d.pxmitbuf = none) (hd : d.Ok w.bufMem) :
    MonInv frames bufs (w.setCall i d) := by
  have hi := h.call i
  have hnone : (w.call i).pmgntframe = none := by
    simpa [hpc, MonPc.hasFrame] using hi.frame
  refine h.step rfl hd (fun _ _ _ _ => rfl) (h.frames.keep (hframe.trans hnone.symm))
    (h.bufs.keep (hbuf.trans (hi.unbuffered (by rw [hpc]; rfl)).1.symm)) h.txPkts
    (fun j hj => .inl hj) fun hj => ?_
  have hover := (h.counted i hj).1
  rw [hpc] at hover
  exact nomatch hover

theorem MonInv.enter (h : MonInv frames bufs w) (hpc : (w.call i).pc = .idle)
    (hlen : skb.len < 2 ^ 32) : MonInv frames bufs (w.enter i skb stale) := by
  have hreads (hlong : ¬skb.len < radiotapHdrLen) : ∀ o ∈ [0, 2, 3], o < skb.len := fun o ho => by
    simp only [List.mem_cons, List.not_mem_nil, or_false] at ho
    unfold radiotapHdrLen at hlong
    omega
  unfold MonPriv.enter
  dsimp only
  split_ifs with hshort hversion hrtap hfull
  all_goals refine h.entered hpc rfl rfl (MonCall.ok_entered ?_ ?_)
  · exact fun _ ho => absurd ho List.not_mem_nil
  · exact .inl ⟨rfl, rfl⟩
  · exact fun o ho => hreads hshort o (List.mem_of_mem_head? (by simp [List.mem_singleton.mp ho]))
  · exact .inl ⟨rfl, rfl⟩
  · exact hreads hshort
  · exact .inl ⟨rfl, rfl⟩
  · exact hreads hshort
  · exact .inr (.inl ⟨rfl, rfl⟩)
  · exact hreads hshort
  · exact .inr (.inr ⟨⟨0, rfl⟩, rfl, Nat.le_of_not_lt hrtap, hlen⟩)

@[simp] theorem MonPriv.call_setCall (w : MonPriv ι) (i : ι) (d : MonCall) :
    (w.setCall i d).call i = d := Function.update_self ..

omit [DecidableEq ι] in
theorem MonInv.not_counted (h : MonInv frames bufs w) (hpc : (w.call i).pc.over = false) :
    i ∉ w.counted := fun hi => by
  rw [(h.counted i hi).1] at hpc
  exact nomatch hpc

/-- A try has failed, and what it had taken is back. -/
theorem MonInv.retry (h : MonInv frames bufs w) (hpc : (w.call i).pc.unbuffered = true)
    (hidle : (w.call i).pc ≠ .idle) (tries : ℕ) {p : ExtPool}
    (hframes : p.Ok (Function.update (fun j => (w.call j).pmgntframe) i none) frames) :
    MonInv frames bufs (MonPriv.retry
      { w.setCall i { w.call i with pmgntframe := none } with frames := p } i tries) := by
  have hi := h.call i
  obtain ⟨hbuf, hsent⟩ := hi.unbuffered hpc
  have hover : (w.call i).pc.over = false := by
    cases hc : (w.call i).pc <;> simp [hc, MonPc.unbuffered] at hpc <;> rfl
  have hlens := (hi.lens.resolve_left hidle).resolve_left (Bool.not_eq_true _ ▸ hover)
  have hnot := h.not_counted hover
  unfold MonPriv.retry
  dsimp only
  rw [MonPriv.call_setCall]
  split_ifs with htries
  · refine h.step (Function.update_idem ..) ⟨rfl, fun _ => ⟨hbuf, hsent⟩, (nomatch ·),
      (nomatch ·), fun _ => hi.running hover, fun _ => (nomatch ·),
      .inr (.inr hlens), hi.reads, hi.copied, hi.sent⟩ (fun _ _ _ _ => rfl) hframes
      (h.bufs.keep rfl) h.txPkts (fun j hj => .inl hj) fun hj => absurd hj hnot
  · refine h.step (Function.update_idem ..) ⟨rfl, (nomatch ·), (nomatch ·),
      (nomatch ·), (nomatch ·), fun ret hret => ?_,
      .inr (.inl rfl), hi.reads, hi.copied, hi.sent⟩ (fun _ _ _ _ => rfl) hframes
      (h.bufs.keep rfl) h.txPkts (fun j hj => .inl hj) fun hj => absurd hj hnot
    obtain rfl := MonPc.done.inj hret
    exact ⟨congrArg (· + 1) (hi.running hover), rfl, fun hne => absurd hbuf hne⟩

theorem MonInv.allocFrame (h : MonInv frames bufs w) (hpc : (w.call i).pc = .trying tries) :
    MonInv frames bufs (w.allocFrame i tries) := by
  have hi := h.call i
  have hnone : (w.call i).pmgntframe = none := by
    simpa [hpc, MonPc.hasFrame] using hi.frame
  have hun : (w.call i).pc.unbuffered = true := by rw [hpc]; rfl
  have hidle : (w.call i).pc ≠ .idle := by rw [hpc]; exact (nomatch ·)
  have hover : (w.call i).pc.over = false := by rw [hpc]; rfl
  unfold MonPriv.allocFrame
  split
  · -- the call has nothing that it could give back
    have hself :
        { w.setCall i { w.call i with pmgntframe := none } with frames := w.frames } = w := by
      have hcall : { w.call i with pmgntframe := none } = w.call i := by rw [← hnone]
      rw [hcall, MonPriv.setCall, Function.update_eq_self]
    have hretry := h.retry hun hidle tries (h.frames.keep hnone.symm)
    rwa [hself] at hretry
  · rename_i x p hget
    have hlens := (hi.lens.resolve_left hidle).resolve_left (Bool.not_eq_true _ ▸ hover)
    exact h.step rfl ⟨rfl, fun _ => hi.unbuffered hun, (nomatch ·), (nomatch ·),
      fun _ => hi.running hover, fun _ => (nomatch ·), .inr (.inr hlens), hi.reads, hi.copied,
      hi.sent⟩ (fun _ _ _ _ => rfl) (h.frames.get hnone hget) (h.bufs.keep rfl) h.txPkts
      (fun j hj => .inl hj) fun hj => absurd hj (h.not_counted hover)

theorem MonInv.build {p : ExtPool} (h : MonInv frames bufs w) (hpc : (w.call i).pc = .framed tries)
    (hget : w.bufs.get = some (b, p))
    (hfits : txdescOffset + (w.call i).skb.frame.length ≤ maxXmitExtbufSz)
    (hvendor : VendorOk (w.call i).skb (w.call i).stale) :
    MonInv frames bufs (MonPriv.build
      { w.setCall i { w.call i with pxmitbuf := some b } with bufs := p } i b) := by
  have hi := h.call i
  have hun : (w.call i).pc.unbuffered = true := by rw [hpc]; rfl
  have hover : (w.call i).pc.over = false := by rw [hpc]; rfl
  obtain ⟨hnone, hsent⟩ := hi.unbuffered hun
  obtain ⟨hrtap, hlen⟩ := (hi.lens.resolve_left (by rw [hpc]; exact (nomatch ·))).resolve_left
    (by rw [hover]; exact Bool.false_ne_true)
  have hfree : b ∈ w.bufs.queue := by
    rw [(ExtPool.get_eq_some hget).1]
    exact List.mem_cons_self
  unfold MonPriv.build
  dsimp only
  rw [MonPriv.call_setCall]
  refine h.step (Function.update_idem ..) ⟨?_, (nomatch ·), fun _ => ⟨hfits, b, rfl, ?_⟩,
    (nomatch ·), fun _ => hi.running hover, fun _ => (nomatch ·), .inr (.inr ⟨hrtap, hlen⟩), ?_, ?_,
    hi.sent⟩ ?_
    (h.frames.keep rfl) (h.bufs.get hnone hget) h.txPkts (fun j hj => .inl hj)
    fun hj => absurd hj (h.not_counted hover)
  · exact hi.frame.trans (by rw [hpc]; rfl)
  · show read (Function.update w.bufMem b _ b) _ _ = _
    rw [Function.update_self]
    exact read_copyFrame
  · intro o ho
    rcases List.mem_append.mp ho with ho | ho
    · rcases List.mem_append.mp ho with ho | ho
      · exact hi.reads o ho
      · exact radiotapArgs_reads hvendor o ho
    · refine reads_offsets ?_ ?_ o ho <;> dsimp only <;> omega
  · intro n hn
    obtain rfl := Option.some.inj hn
    rwa [Skb.length_frame] at hfits
  · intro j hji b' hb'
    refine Function.update_of_ne (fun hbb => ?_) ..
    exact h.bufs.sound.notMem j b' hb' (hbb ▸ hfree)

theorem MonInv.allocBuf (h : MonInv frames bufs w) (hpc : (w.call i).pc = .framed tries)
    (hx : (w.call i).pmgntframe = some x) (hok : MonOk w (.allocBuf i)) :
    MonInv frames bufs (w.allocBuf i tries x) := by
  unfold MonPriv.allocBuf
  split
  · have hput := h.frames.put hx
    exact h.retry (by rw [hpc]; rfl) (by rw [hpc]; exact (nomatch ·)) tries hput
  · rename_i b p hget
    have hqueue : w.bufs.queue ≠ [] := by
      rw [(ExtPool.get_eq_some hget).1]
      exact List.cons_ne_nil _ _
    exact h.build hpc hget (hok hqueue).1 (hok hqueue).2

theorem MonInv.submit (h : MonInv frames bufs w) (hpc : (w.call i).pc = .ready)
    (hb : (w.call i).pxmitbuf = some b)
    (hkeep : w.adapter.securitypriv.binstallBIPkey = true →
      mgmtRewrites zmalloc w.adapter (w.bufMem b) 0 (updateMgntframeAttrib w.adapter (w.bufMem b)
        0 (w.call i).skb.frame.length .rightKey) = false) :
    MonInv frames bufs (w.submit hal c i b zmalloc true) := by
  have hi := h.call i
  have hover : (w.call i).pc.over = false := by rw [hpc]; rfl
  obtain ⟨hrtap, hlen⟩ := (hi.lens.resolve_left (by rw [hpc]; exact (nomatch ·))).resolve_left
    (by rw [hover]; exact Bool.false_ne_true)
  obtain ⟨hfits, b', hb', hread⟩ := hi.ready hpc
  obtain rfl := Option.some.inj (hb'.symm.trans hb)
  have hshort : (w.call i).skb.frame.length + txdescOffset < 2 ^ 32 := by
    have hmax : maxXmitExtbufSz < 2 ^ 32 := by decide
    omega
  have hpacket : (monDump hal c zmalloc w.adapter (w.bufMem b') (w.call i).skb.frame.length
      b').2.packet = (w.call i).skb.frame := (packet_monDump hkeep hshort).trans hread
  rw [Skb.length_frame] at hpacket
  unfold MonPriv.submit
  dsimp only
  generalize monDump hal c zmalloc w.adapter (w.bufMem b') _ b' = r at hpacket ⊢
  refine h.step rfl ⟨?_, (nomatch ·), (nomatch ·), fun _ => (nomatch ·), fun _ => hi.running hover,
    fun _ => (nomatch ·), .inr (.inr ⟨hrtap, hlen⟩), hi.reads, hi.copied, ?_⟩ ?_
    (h.frames.keep rfl) (h.bufs.keep rfl) h.txPkts (fun j hj => .inl hj)
    fun hj => absurd hj (h.not_counted hover)
  · exact hi.frame.trans (by rw [hpc]; rfl)
  · intro s hs
    obtain rfl := Option.some.inj hs
    exact hpacket
  · intro j hji e he
    refine Function.update_of_ne (fun hbe => hji ?_) ..
    exact h.bufs.sound.eq_of_held he (hb'.trans (congrArg some hbe.symm))

theorem call_cannotRun (w : MonPriv ι) (i : ι) (x b : ℕ) :
    (w.cannotRun i x b).call = Function.update w.call i { w.call i with
      pc := .done .ok, pmgntframe := none, pxmitbuf := none
      skbFreed := (w.call i).skbFreed + 1 } := by
  simp [MonPriv.cannotRun, MonPriv.freeFrame, MonPriv.freeBuf, MonPriv.setCall]

theorem MonInv.cannotRun (h : MonInv frames bufs w) (hpc : (w.call i).pc = .ready)
    (hx : (w.call i).pmgntframe = some x) (hb : (w.call i).pxmitbuf = some b) :
    MonInv frames bufs (w.cannotRun i x b) := by
  have hi := h.call i
  have hover : (w.call i).pc.over = false := by rw [hpc]; rfl
  refine h.step (call_cannotRun w i x b) ⟨rfl, (nomatch ·), (nomatch ·), (nomatch ·), (nomatch ·),
    fun ret hret => ?_, .inr (.inl rfl), hi.reads, hi.copied, hi.sent⟩ (fun _ _ _ _ => rfl)
    (h.frames.put hx) (h.bufs.put hb) h.txPkts (fun j hj => .inl hj)
    fun hj => absurd hj (h.not_counted hover)
  obtain rfl := MonPc.done.inj hret
  exact ⟨congrArg (· + 1) (hi.running hover), rfl, fun hne => absurd rfl hne⟩

theorem MonInv.finish (h : MonInv frames bufs w) (hpc : (w.call i).pc = .dumped)
    (hx : (w.call i).pmgntframe = some x) : MonInv frames bufs (w.finish i x) := by
  have hi := h.call i
  have hover : (w.call i).pc.over = false := by rw [hpc]; rfl
  unfold MonPriv.finish MonPriv.freeFrame
  dsimp only
  simp only [MonPriv.call_setCall]
  refine h.step (Function.update_idem ..) ⟨rfl, (nomatch ·), (nomatch ·), (nomatch ·), (nomatch ·),
    fun ret hret => ?_, .inr (.inl rfl), hi.reads, hi.copied, hi.sent⟩ (fun _ _ _ _ => rfl)
    (h.frames.put hx) (h.bufs.keep rfl) (congrArg (· + 1) h.txPkts)
    (fun j hj => (List.mem_cons.mp hj).symm) fun _ => ⟨rfl, hi.dumped hpc⟩
  obtain rfl := MonPc.done.inj hret
  exact ⟨congrArg (· + 1) (hi.running hover), rfl, fun _ => hi.dumped hpc⟩

theorem MonInv.complete (h : MonInv frames bufs w) (hpc : (w.call i).inUrb = true)
    (hb : (w.call i).pxmitbuf = some b) : MonInv frames bufs (w.freeBuf i b) := by
  have hi := h.call i
  have hready : (w.call i).pc ≠ .ready := fun hc => by
    simp only [MonCall.inUrb, hc, Bool.false_eq_true] at hpc
  refine h.step rfl ⟨hi.frame, fun hun => ⟨rfl, (hi.unbuffered hun).2⟩, fun hc => absurd hc hready,
    hi.dumped, hi.running, fun ret hret => ?_, hi.lens, hi.reads, hi.copied, hi.sent⟩
      (fun _ _ _ _ => rfl)
    (h.frames.keep rfl) (h.bufs.put hb) h.txPkts (fun j hj => .inl hj) fun hj => h.counted i hj
  have hret := hi.returned ret hret
  cases ret with
  | busy => exact hret
  | ok => exact ⟨hret.1, hret.2.1, fun hne => absurd rfl hne⟩

/-- **Every step whose condition is met keeps the invariant.** -/
theorem MonInv.monStep {e : MonEvent ι} (h : MonInv frames bufs w) (hok : MonOk w e)
    (hstep : monStep hal c w e = some w') : MonInv frames bufs w' := by
  cases e with
  | enter i skb stale =>
    obtain ⟨⟨hpc, hlen⟩, hstep⟩ := Option.ite_none_right_eq_some.mp hstep
    obtain rfl := Option.some.inj hstep
    exact h.enter hpc hlen
  | allocFrame i =>
    simp only [Xmit.monStep] at hstep
    split at hstep
    · rename_i tries hpc
      obtain rfl := Option.some.inj hstep
      exact h.allocFrame hpc
    · exact nomatch hstep
  | allocBuf i =>
    simp only [Xmit.monStep] at hstep
    split at hstep
    · rename_i tries hpc
      obtain ⟨x, hx, rfl⟩ := Option.map_eq_some_iff.mp hstep
      exact h.allocBuf hpc hx hok
    · exact nomatch hstep
  | dump i cannotRun zmalloc accepted =>
    obtain ⟨hpc, hstep⟩ := Option.ite_none_right_eq_some.mp hstep
    obtain ⟨x, hx, hstep⟩ := Option.bind_eq_some_iff.mp hstep
    obtain ⟨b, hb, rfl⟩ := Option.map_eq_some_iff.mp hstep
    cases cannotRun with
    | true => exact h.cannotRun hpc hx hb
    | false =>
      obtain ⟨rfl, hkeep⟩ := hok rfl
      exact h.submit hpc hb (hkeep b hb)
  | finish i =>
    obtain ⟨hpc, hstep⟩ := Option.ite_none_right_eq_some.mp hstep
    obtain ⟨x, hx, rfl⟩ := Option.map_eq_some_iff.mp hstep
    exact h.finish hpc hx
  | complete i =>
    obtain ⟨hpc, hstep⟩ := Option.ite_none_right_eq_some.mp hstep
    obtain ⟨b, hb, rfl⟩ := Option.map_eq_some_iff.mp hstep
    exact h.complete hpc hb
  | configure a maxTxBufLen =>
    obtain rfl := Option.some.inj hstep
    exact ⟨h.call, h.frames, h.bufs, h.txPkts, h.counted⟩

omit [DecidableEq ι] in
theorem ExtPool.ok_fresh {p : ExtPool} (hnodup : p.queue.Nodup) (hcnt : p.cnt = p.queue.length) :
    p.Ok (fun _ : ι => none) {x | x ∈ p.queue} :=
  ⟨⟨hnodup, fun _ _ => (nomatch ·), fun _ _ _ => (nomatch ·)⟩, fun _ hx => .inl hx, hcnt⟩

omit [DecidableEq ι] in
theorem MonPriv.Fresh.inv (h : w.Fresh) :
    MonInv {x | x ∈ w.frames.queue} {b | b ∈ w.bufs.queue} w := by
  refine ⟨fun i => ?_, ?_, ?_, ?_, fun i hi => ?_⟩
  · rw [h.call]
    exact ⟨rfl, fun _ => ⟨rfl, rfl⟩, (nomatch ·), (nomatch ·), fun _ => rfl, fun _ => (nomatch ·),
      .inl rfl, fun _ ho => absurd ho List.not_mem_nil, fun _ => (nomatch ·),
      fun _ => (nomatch ·)⟩
  · rw [h.call]
    exact ExtPool.ok_fresh h.frames.1 h.frames.2
  · rw [h.call]
    exact ExtPool.ok_fresh h.bufs.1 h.bufs.2
  · rw [h.counted.1, h.counted.2]
    rfl
  · rw [h.counted.2] at hi
    exact absurd hi List.not_mem_nil

/-! ## Every call can return -/

def MonPriv.Returns (hal : TxHal) (c : TxCrypto) (w : MonPriv ι) (i : ι) : Prop :=
  ∃ es w' ret, run (Xmit.monStep hal c) w es = some w' ∧ (w'.call i).pc = .done ret

theorem MonPriv.Returns.of_done (ret : NetdevTx) (h : (w.call i).pc = .done ret) :
    w.Returns hal c i := ⟨[], w, ret, rfl, h⟩

theorem MonPriv.Returns.of_step (e : MonEvent ι) (w' : MonPriv ι) (h : w'.Returns hal c i)
    (hstep : Xmit.monStep hal c w e = some w') : w.Returns hal c i := by
  obtain ⟨es, w'', ret, hrun, hret⟩ := h
  exact ⟨e :: es, w'', ret, run_cons.mpr ⟨w', hstep, hrun⟩, hret⟩

theorem MonPriv.Returns.of_dumped (hpc : (w.call i).pc = .dumped)
    (hx : (w.call i).pmgntframe = some x) : w.Returns hal c i := by
  refine .of_step (.finish i) (w.finish i x) (.of_done .ok ?_) ?_
  · simp [MonPriv.finish]
  · simp [Xmit.monStep, hpc, hx]

theorem MonPriv.Returns.of_ready (hpc : (w.call i).pc = .ready)
    (hx : (w.call i).pmgntframe = some x) (hb : (w.call i).pxmitbuf = some b) :
    w.Returns hal c i := by
  refine .of_step (.dump i true false false) (w.cannotRun i x b) (.of_done .ok ?_) ?_
  · rw [call_cannotRun, Function.update_self]
  · simp [Xmit.monStep, hpc, hx, hb]

theorem MonPriv.Returns.of_retry
    (h : tries + 1 < 4 → ∀ w : MonPriv ι, (w.call i).pc = .trying (tries + 1) → w.Returns hal c i) :
    (w.retry i tries).Returns hal c i := by
  unfold MonPriv.retry
  dsimp only
  split_ifs with htries
  · exact h htries _ (by rw [MonPriv.call_setCall])
  · exact .of_done .ok (by simp)

theorem MonPriv.Returns.of_framed
    (h : tries + 1 < 4 → ∀ w : MonPriv ι, (w.call i).pc = .trying (tries + 1) → w.Returns hal c i)
    (hpc : (w.call i).pc = .framed tries) (hx : (w.call i).pmgntframe = some x) :
    w.Returns hal c i := by
  refine .of_step (.allocBuf i) (w.allocBuf i tries x) ?_ (by simp [Xmit.monStep, hpc, hx])
  unfold MonPriv.allocBuf
  split
  · exact .of_retry h
  · rename_i b p _
    refine .of_ready (x := x) (b := b) ?_ ?_ ?_ <;> simp [MonPriv.build, hx]

theorem MonPriv.Returns.of_trying (hpc : (w.call i).pc = .trying tries) : w.Returns hal c i := by
  induction hn : 4 - tries using Nat.strong_induction_on generalizing w tries with
  | _ n ih =>
    have hnext (htries : tries + 1 < 4) (w : MonPriv ι)
        (hpc : (w.call i).pc = .trying (tries + 1)) : w.Returns hal c i :=
      ih (4 - (tries + 1)) (by omega) hpc rfl
    refine .of_step (.allocFrame i) (w.allocFrame i tries) ?_ (by simp [Xmit.monStep, hpc])
    unfold MonPriv.allocFrame
    split
    · exact .of_retry hnext
    · rename_i x p _
      exact .of_framed (x := x) hnext (by simp) (by simp)

theorem MonInv.returns (h : MonInv frames bufs w) (hpc : (w.call i).pc ≠ .idle) :
    w.Returns hal c i := by
  have hi := h.call i
  have hframe (hhas : (w.call i).pc.hasFrame = true) : ∃ x, (w.call i).pmgntframe = some x :=
    Option.isSome_iff_exists.mp (hi.frame.trans hhas)
  cases hc : (w.call i).pc with
  | idle => exact absurd hc hpc
  | trying tries => exact .of_trying hc
  | framed tries =>
    obtain ⟨x, hx⟩ := hframe (by rw [hc]; rfl)
    exact .of_framed (fun _ _ => .of_trying) hc hx
  | ready =>
    obtain ⟨x, hx⟩ := hframe (by rw [hc]; rfl)
    obtain ⟨-, b, hb, -⟩ := hi.ready hc
    exact .of_ready hc hx hb
  | dumped =>
    obtain ⟨x, hx⟩ := hframe (by rw [hc]; rfl)
    exact .of_dumped hc hx
  | done ret => exact .of_done ret hc

end Steps

/-- **Injection is conservative in every run whose steps are, and every call can return.** -/
theorem monConservative_of_run {hal : TxHal} {c : TxCrypto} {w w' : MonPriv ι}
    {es : List (MonEvent ι)} (hfresh : w.Fresh) (hok : Meets (monStep hal c) MonOk w es)
    (hrun : run (monStep hal c) w es = some w') :
    MonConservative w' {x | x ∈ w.frames.queue} {b | b ∈ w.bufs.queue} ∧
      ∀ i, (w'.call i).pc ≠ .idle → w'.Returns hal c i := by
  have hinv : MonInv {x | x ∈ w.frames.queue} {b | b ∈ w.bufs.queue} w' :=
    run_invariant_of_meets (fun _ _ _ h hok hstep => h.monStep hok hstep) hfresh.inv hok hrun
  exact ⟨hinv.conservative, fun i hi => hinv.returns hi⟩

/-! ## A run, and two that are not conservative -/

/-- A header of eight octets without fields, and behind it a frame of zeros. -/
def plainSkb (len : ℕ) : Skb := ⟨fun o => if o = 2 then 8 else 0, 8 + len⟩

def monFresh : MonPriv ℕ where
  frames := ⟨List.range 64, 64⟩
  bufs := ⟨List.range 64, 64⟩
  bufMem _ _ := 0
  call _ := {}
  adapter := ccmpAdapter 2346
  maxTxBufLen := 0
  mgntSeq := 0
  txPkts := 0
  txBytes := 0
  txDrop := 0
  counted := []

theorem monFresh_fresh : monFresh.Fresh :=
  ⟨⟨List.nodup_range, rfl⟩, ⟨List.nodup_range, rfl⟩, rfl, rfl, rfl⟩

instance StalePtr.decidable (g : ℕ) : Decidable (StalePtr g) := inferInstanceAs (Decidable (_ ∧ _))

instance IsBitmap.decidable (skb : Skb) (o : ℕ) : Decidable (IsBitmap skb o) :=
  inferInstanceAs (Decidable (_ ∨ _))

theorem vendorOk_iff {skb : Skb} {stale : ℕ} :
    (StalePtr (stale % 2 ^ 64) → ∀ o < 5 + ieee80211GetRadiotapLen skb, IsBitmap skb o →
      ¬((skb.le32 o).testBit 18 = true ∧ (skb.le32 o).testBit 29 = false ∧
        (skb.le32 o).testBit 30 = true)) ↔ VendorOk skb stale := by
  refine ⟨fun h hs o ho => h hs o ?_ ho, fun h hs o _ => h hs o⟩
  rcases ho with rfl | ho <;> omega

instance VendorOk.decidable (skb : Skb) (stale : ℕ) : Decidable (VendorOk skb stale) :=
  decidable_of_iff _ vendorOk_iff

instance MonOk.decidable (w : MonPriv ι) : ∀ e, Decidable (MonOk w e)
  | .allocBuf _ => inferInstanceAs (Decidable (_ → _))
  | .dump .. => inferInstanceAs (Decidable (_ → _))
  | .enter .. | .allocFrame _ | .finish _ | .complete _ | .configure .. => isTrue trivial

def twoPackets : List (MonEvent ℕ) :=
  [.enter 0 (plainSkb 30) 0, .allocFrame 0, .enter 1 (plainSkb 200) 0, .allocBuf 0, .allocFrame 1,
    .dump 0 false true true, .allocBuf 1, .complete 0, .finish 0, .dump 1 true true true]

theorem monConservative_twoPackets :
    ∃ w', run (monStep {} nullCrypto) monFresh twoPackets = some w' ∧
      (w'.txPkts = 1 ∧ w'.txDrop = 1) ∧
      MonConservative w' {x | x ∈ monFresh.frames.queue} {b | b ∈ monFresh.bufs.queue} := by
  obtain ⟨w', hrun, hcounts⟩ : ∃ w', run (monStep {} nullCrypto) monFresh twoPackets = some w' ∧
      w'.txPkts = 1 ∧ w'.txDrop = 1 := exists_run_of_any (by decide +kernel)
  have hmeets : Meets (monStep {} nullCrypto) MonOk monFresh twoPackets := by decide +kernel
  exact ⟨w', hrun, hcounts, (monConservative_of_run monFresh_fresh hmeets hrun).1⟩

def longPacket : List (MonEvent ℕ) := [.enter 0 (plainSkb 5000) 0, .allocFrame 0, .allocBuf 0]

/-- The USB core does not take the transfer. -/
def refusedPacket : List (MonEvent ℕ) :=
  [.enter 0 (plainSkb 30) 0, .allocFrame 0, .allocBuf 0, .dump 0 false true false, .finish 0]

/-- **The copy of a long packet runs over the end of its buffer, and a packet whose submission is
refused counts as sent.** -/
theorem not_monConservative :
    monFresh.Fresh ∧
      (∃ w', run (monStep {} nullCrypto) monFresh longPacket = some w' ∧
        (w'.call 0).copied = some 5056 ∧
        ¬MonConservative w' {x | x ∈ monFresh.frames.queue} {b | b ∈ monFresh.bufs.queue}) ∧
      ∃ w', run (monStep {} nullCrypto) monFresh refusedPacket = some w' ∧
        (w'.txPkts = 1 ∧ (w'.call 0).sent.isNone) ∧
        ¬MonConservative w' {x | x ∈ monFresh.frames.queue} {b | b ∈ monFresh.bufs.queue} := by
  obtain ⟨w₁, hrun₁, hcopied⟩ : ∃ w', run (monStep {} nullCrypto) monFresh longPacket = some w' ∧
      (w'.call 0).copied = some 5056 := exists_run_of_any (by decide +kernel)
  obtain ⟨w₂, hrun₂, hcounts, hcounted⟩ :
      ∃ w', run (monStep {} nullCrypto) monFresh refusedPacket = some w' ∧
        (w'.txPkts = 1 ∧ (w'.call 0).sent.isNone) ∧ w'.counted = [0] :=
    exists_run_of_any (by decide +kernel)
  refine ⟨monFresh_fresh, ⟨w₁, hrun₁, hcopied, fun h => ?_⟩, w₂, hrun₂, hcounts, fun h => ?_⟩
  · exact absurd (h.copied 0 5056 hcopied) (by decide)
  · have hsent := h.counted 0 (by rw [hcounted]; exact List.mem_cons_self)
    exact hsent (Option.isNone_iff_eq_none.mp hcounts.2)

end Rtl88x2eu.Xmit
