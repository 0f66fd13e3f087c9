import Rtl88x2eu.Recv.State

/-!
# The A-MPDU reorder window

The functions of `rtw_recv.c` that move the window of one `recv_reorder_ctrl` and its
`pending_recvframe_queue`. Each returns the descriptors it hands to `recv_process_mpdu`, in that
order; the adapter-level functions feed them to it.

## Main definitions

* `snLess`, `checkIndicateSeq`, `enqueueReorderRecvframe`, `recvIndicatepktsInOrder`,
  `RecvReorderCtrl.recvIndicatepktReorder`, `RecvReorderCtrl.timeout`
-/

namespace Rtl88x2eu

/-- `SN_LESS(a, b)`: bit 11 of the `int` difference. -/
def snLess (a b : ℕ) : Bool := ((a : ℤ) - b) / 2048 % 2 = 1

def u16 (x : ℤ) : ℕ := (x % 65536).toNat

/-- `check_indicate_seq`: whether the frame is kept, and the window behind it. -/
def checkIndicateSeq (c : RecvReorderCtrl) (seqNum : ℕ) : Bool × RecvReorderCtrl :=
  let wsize : ℤ := c.wsizeB
  let ind := if c.indicateSeq = 0xFFFF then seqNum else c.indicateSeq
  let wend := ((ind + wsize - 1) % 4096).toNat
  if snLess seqNum ind then (false, { c with indicateSeq := ind })
  else if seqNum = ind then (true, { c with indicateSeq := (ind + 1) % 4096 })
  else if snLess wend seqNum then
    -- boundary situation, when seq_num cross 0xFFF
    if wsize - 1 ≤ seqNum then (true, { c with indicateSeq := u16 (seqNum + 1 - wsize) })
    else (true, { c with indicateSeq := u16 (0xFFF - (wsize - (seqNum + 1)) + 1) })
  else (true, { c with indicateSeq := ind })

/-- `enqueue_reorder_recvframe`: `none` when the sequence number is queued already. -/
def enqueueReorderRecvframe (f : RecvFrame) : List RecvFrame → Option (List RecvFrame)
  | [] => some [f]
  | next :: q =>
    if snLess next.attrib.seqNum f.attrib.seqNum then
      (enqueueReorderRecvframe f q).map (next :: ·)
    else if next.attrib.seqNum = f.attrib.seqNum then none
    else some (f :: next :: q)

structure InOrder where
  bPktInBuf : Bool
  indicateSeq : ℕ
  indicated : List RecvFrame
  queue : List RecvFrame
deriving DecidableEq

def indicateLoop (ind : ℕ) : List RecvFrame → InOrder
  | [] => ⟨false, ind, [], []⟩
  | f :: q =>
    if snLess ind f.attrib.seqNum then ⟨true, ind, [], f :: q⟩
    else
      let r := indicateLoop (if ind = f.attrib.seqNum then (ind + 1) % 4096 else ind) q
      { r with indicated := f :: r.indicated }

/-- `recv_indicatepkts_in_order`: a forced indication starts at the first queued frame, and
answers `_TRUE` when there is none. -/
def recvIndicatepktsInOrder (ind : ℕ) (q : List RecvFrame) (bforced : Bool) : InOrder :=
  if bforced then
    match q with
    | [] => ⟨true, ind, [], []⟩
    | f :: _ => indicateLoop f.attrib.seqNum q
  else indicateLoop ind q

/-- `rtw_test_and_clear_bit` on both bits of `rec_abba_rsp_ack`: a set bit restarts the window. -/
def RecvReorderCtrl.clearAbba (c : RecvReorderCtrl) : RecvReorderCtrl :=
  { c with
    indicateSeq := if c.recvAckOrTimeout || c.recvReorderWow then 0xFFFF else c.indicateSeq
    recvAckOrTimeout := false
    recvReorderWow := false }

/-- The critical section of `recv_indicatepkt_reorder`: the answer, the window behind the frame
and the frames indicated. -/
def RecvReorderCtrl.indicatepkt (c : RecvReorderCtrl) (f : RecvFrame) :
    Ret × RecvReorderCtrl × List RecvFrame :=
  let checked := checkIndicateSeq c.clearAbba f.attrib.seqNum
  if checked.1 then
    match enqueueReorderRecvframe f checked.2.pendingRecvframeQueue with
    | none => (.fail, checked.2, [])
    | some q =>
      let r := recvIndicatepktsInOrder checked.2.indicateSeq q false
      (.rxHandled,
        { checked.2 with
          indicateSeq := r.indicateSeq
          pendingRecvframeQueue := r.queue
          bReorderWaiting := r.bPktInBuf },
        r.indicated)
  else (.fail, checked.2, [])

/-- `recv_indicatepkt_reorder`, and `indicatepkt` its critical section. -/
def RecvReorderCtrl.recvIndicatepktReorder (c : RecvReorderCtrl) (f : RecvFrame) :
    Ret × RecvReorderCtrl × List RecvFrame :=
  if !f.attrib.qos || !c.enable then (.success, c, []) else c.indicatepkt f

/-- The critical section of `rtw_reordering_ctrl_timeout_handler`. -/
def RecvReorderCtrl.timeout (c : RecvReorderCtrl) : RecvReorderCtrl × List RecvFrame :=
  let r := recvIndicatepktsInOrder c.indicateSeq c.pendingRecvframeQueue true
  ({ c with
      indicateSeq := r.indicateSeq
      pendingRecvframeQueue := r.queue
      bReorderWaiting := false },
    r.indicated)

/-! ## What the window functions leave alone -/

@[simp] theorem checkIndicateSeq_queue (c : RecvReorderCtrl) (seqNum : ℕ) :
    (checkIndicateSeq c seqNum).2.pendingRecvframeQueue = c.pendingRecvframeQueue := by
  simp only [checkIndicateSeq]
  split_ifs <;> rfl

@[simp] theorem checkIndicateSeq_wsizeB (c : RecvReorderCtrl) (seqNum : ℕ) :
    (checkIndicateSeq c seqNum).2.wsizeB = c.wsizeB := by
  simp only [checkIndicateSeq]
  split_ifs <;> rfl

@[simp] theorem clearAbba_queue (c : RecvReorderCtrl) :
    c.clearAbba.pendingRecvframeQueue = c.pendingRecvframeQueue := rfl

@[simp] theorem clearAbba_wsizeB (c : RecvReorderCtrl) : c.clearAbba.wsizeB = c.wsizeB := rfl

theorem clearAbba_of_clear {c : RecvReorderCtrl} (hack : c.recvAckOrTimeout = false)
    (hwow : c.recvReorderWow = false) : c.clearAbba = c := by
  cases c
  simp_all [RecvReorderCtrl.clearAbba]

theorem enqueueReorderRecvframe_perm {f : RecvFrame} {q q' : List RecvFrame}
    (h : enqueueReorderRecvframe f q = some q') : q'.Perm (f :: q) := by
  induction q generalizing q' with
  | nil =>
    obtain rfl := Option.some.inj h
    exact List.Perm.refl _
  | cons next q ih =>
    simp only [enqueueReorderRecvframe] at h
    split_ifs at h with hless
    · obtain ⟨q₁, hq₁, rfl⟩ := Option.map_eq_some_iff.mp h
      exact ((ih hq₁).cons next).trans (List.Perm.swap _ _ _)
    · obtain rfl := Option.some.inj h
      exact List.Perm.refl _

theorem indicateLoop_append (ind : ℕ) (q : List RecvFrame) :
    (indicateLoop ind q).indicated ++ (indicateLoop ind q).queue = q := by
  induction q generalizing ind with
  | nil => rfl
  | cons f q ih =>
    simp only [indicateLoop]
    split
    · rfl
    · simp [ih]

theorem recvIndicatepktsInOrder_append (ind : ℕ) (q : List RecvFrame) (bforced : Bool) :
    (recvIndicatepktsInOrder ind q bforced).indicated ++
      (recvIndicatepktsInOrder ind q bforced).queue = q := by
  unfold recvIndicatepktsInOrder
  cases bforced with
  | false => exact indicateLoop_append ind q
  | true =>
    cases q with
    | nil => rfl
    | cons f q => exact indicateLoop_append _ _

/-- **A frame is refused and the queue untouched, or it is indicated or queued** with everything
that was queued. -/
theorem indicatepkt_cases (c : RecvReorderCtrl) (f : RecvFrame) :
    ((c.indicatepkt f).1 = .fail ∧ (c.indicatepkt f).2.2 = [] ∧
        (c.indicatepkt f).2.1.pendingRecvframeQueue = c.pendingRecvframeQueue) ∨
      ((c.indicatepkt f).1 = .rxHandled ∧
        ((c.indicatepkt f).2.2 ++ (c.indicatepkt f).2.1.pendingRecvframeQueue).Perm
          (f :: c.pendingRecvframeQueue)) := by
  simp only [RecvReorderCtrl.indicatepkt]
  split
  · cases henq : enqueueReorderRecvframe f
        (checkIndicateSeq c.clearAbba f.attrib.seqNum).2.pendingRecvframeQueue with
    | none => simp
    | some q =>
      refine Or.inr ⟨rfl, ?_⟩
      rw [recvIndicatepktsInOrder_append]
      simpa using enqueueReorderRecvframe_perm henq
  · simp

theorem timeout_append (c : RecvReorderCtrl) :
    c.timeout.2 ++ c.timeout.1.pendingRecvframeQueue = c.pendingRecvframeQueue :=
  recvIndicatepktsInOrder_append _ _ _

/-- The fields that `f` of `recv_indicatepkt_reorder` never writes, and the two flags it clears. -/
theorem indicatepkt_frame (c : RecvReorderCtrl) (f : RecvFrame) :
    (c.indicatepkt f).2.1.enable = c.enable ∧ (c.indicatepkt f).2.1.wsizeB = c.wsizeB ∧
      (c.indicatepkt f).2.1.recvAckOrTimeout = false ∧
      (c.indicatepkt f).2.1.recvReorderWow = false := by
  have hcheck : ∀ c : RecvReorderCtrl, ∃ ind,
      (checkIndicateSeq c f.attrib.seqNum).2 = { c with indicateSeq := ind } := by
    intro c
    simp only [checkIndicateSeq]
    split_ifs <;> exact ⟨_, rfl⟩
  obtain ⟨ind, hind⟩ := hcheck c.clearAbba
  simp only [RecvReorderCtrl.indicatepkt, hind]
  split_ifs
  · split <;> exact ⟨rfl, rfl, rfl, rfl⟩
  · exact ⟨rfl, rfl, rfl, rfl⟩

end Rtl88x2eu
