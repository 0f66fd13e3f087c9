import Mathlib.Logic.Function.Basic
import Rtl88x2eu.Lib.Transition
import Rtl88x2eu.Recv.Reorder

/-!
# The reorder timer

Two contexts put frames into one window. The lock of its queue covers `bReorderWaiting` and the
arming of `reordering_ctrl_timer`, but a context that empties the queue cancels the timer after it
gave the lock back. What it cancels then may be the timer of frames that the other context queued in
between, and `bReorderWaiting` keeps every later frame from arming it again.

## Main definitions

* `ReorderTimer.next`, `ReorderTimer.Wakes`, `ReorderTimer.fits`

## Main results

* `reorderTimer_wakes_iff`: every state that a run reaches wakes exactly if its steps fit
-/

namespace Rtl88x2eu

open Transition

/-- Who calls `recv_indicatepkt_reorder`. -/
inductive RxContext
  | recvTasklet
  | coopRxTasklet
deriving DecidableEq

def RxContext.other : RxContext → RxContext
  | .recvTasklet => .coopRxTasklet
  | .coopRxTasklet => .recvTasklet

/-- A window, its timer and the contexts that work on it, on an adapter that can run. -/
structure ReorderTimer where
  ctrl : RecvReorderCtrl
  armed : Bool := false
  /-- The timer has expired, and its handler is not yet in its critical section. -/
  expired : Bool := false
  /-- The contexts between `_exit_critical_bh` and `_cancel_timer_ex`. -/
  cancelling : RxContext → Bool := fun _ => false

inductive TimerStep
  /-- `recv_indicatepkt_reorder` up to the unlock. -/
  | arrive (ctx : RxContext) (f : RecvFrame)
  | cancel (ctx : RxContext)
  | expire
  /-- The critical section of `rtw_reordering_ctrl_timeout_handler`. -/
  | handler
  /-- What others write to the window: frames that pass it while it is off, DELBA, ADDBA,
  wake-up. -/
  | rewindow (indicateSeq : ℕ) (enable recvAckOrTimeout recvReorderWow : Bool)

def ReorderTimer.indicatepkt (t : ReorderTimer) (ctx : RxContext) (f : RecvFrame) : ReorderTimer :=
  let step := t.ctrl.recvIndicatepktReorder f
  if step.1 = .rxHandled then
    if step.2.1.bReorderWaiting then
      -- `_set_timer`, unless somebody waits already
      { t with ctrl := step.2.1, armed := t.armed || !t.ctrl.bReorderWaiting }
    else { t with ctrl := step.2.1, cancelling := Function.update t.cancelling ctx true }
  else { t with ctrl := step.2.1 }

def ReorderTimer.timeoutHandler (t : ReorderTimer) : ReorderTimer :=
  let r := recvIndicatepktsInOrder t.ctrl.indicateSeq t.ctrl.pendingRecvframeQueue true
  { t with ctrl := t.ctrl.timeout.1, armed := t.armed || r.bPktInBuf, expired := false }

/-- The critical sections, the cancels and the timer, one step each. -/
def ReorderTimer.next (t : ReorderTimer) : TimerStep → Option ReorderTimer
  | .arrive ctx f => if t.cancelling ctx then none else some (t.indicatepkt ctx f)
  | .cancel ctx =>
    -- `del_timer_sync` waits for a handler that runs
    if t.cancelling ctx && !t.expired then
      some { t with armed := false, cancelling := Function.update t.cancelling ctx false }
    else none
  | .expire =>
    if t.armed && !t.expired then some { t with armed := false, expired := true } else none
  | .handler => if t.expired then some t.timeoutHandler else none
  | .rewindow indicateSeq enable recvAckOrTimeout recvReorderWow =>
    some { t with ctrl := { t.ctrl with indicateSeq, enable, recvAckOrTimeout, recvReorderWow } }

/-- No call is under way. -/
def ReorderTimer.Quiet (t : ReorderTimer) : Prop :=
  t.expired = false ∧ ∀ ctx, t.cancelling ctx = false

/-- With no call under way, a queue that holds frames has its timer armed. -/
def ReorderTimer.Wakes (t : ReorderTimer) : Prop :=
  t.Quiet → t.ctrl.pendingRecvframeQueue ≠ [] → t.armed

/-- The cancel that ends the last call finds the queue empty. -/
def ReorderTimer.fits (t : ReorderTimer) : TimerStep → Bool
  | .cancel ctx => t.cancelling ctx.other || t.ctrl.pendingRecvframeQueue.isEmpty
  | _ => true

theorem indicateLoop_bPktInBuf (ind : ℕ) (q : List RecvFrame) :
    (indicateLoop ind q).bPktInBuf ↔ (indicateLoop ind q).queue ≠ [] := by
  induction q generalizing ind with
  | nil => simp [indicateLoop]
  | cons f q ih =>
    simp only [indicateLoop]
    split
    · simp
    · exact ih _

theorem bPktInBuf_of_forced {ind : ℕ} {q : List RecvFrame}
    (h : (recvIndicatepktsInOrder ind q true).queue ≠ []) :
    (recvIndicatepktsInOrder ind q true).bPktInBuf := by
  cases q with
  | nil => rfl
  | cons f q => exact (indicateLoop_bPktInBuf _ _).mpr h

/-- A frame that is not handled leaves the queue and `bReorderWaiting` alone; after one that is,
`bReorderWaiting` says whether the queue holds frames. -/
theorem recvIndicatepktReorder_waiting (c : RecvReorderCtrl) (f : RecvFrame) :
    let step := c.recvIndicatepktReorder f
    (step.1 ≠ .rxHandled ∧ step.2.1.pendingRecvframeQueue = c.pendingRecvframeQueue ∧
        step.2.1.bReorderWaiting = c.bReorderWaiting) ∨
      (step.1 = .rxHandled ∧
        (step.2.1.bReorderWaiting ↔ step.2.1.pendingRecvframeQueue ≠ [])) := by
  have hcheck : (checkIndicateSeq c.clearAbba f.attrib.seqNum).2.bReorderWaiting =
      c.bReorderWaiting := by
    simp only [checkIndicateSeq]
    split_ifs <;> rfl
  simp only [RecvReorderCtrl.recvIndicatepktReorder, RecvReorderCtrl.indicatepkt]
  split
  · exact Or.inl ⟨Ret.noConfusion, rfl, rfl⟩
  · split
    · cases henq : enqueueReorderRecvframe f
          (checkIndicateSeq c.clearAbba f.attrib.seqNum).2.pendingRecvframeQueue with
      | none => exact Or.inl ⟨Ret.noConfusion, checkIndicateSeq_queue _ _, hcheck⟩
      | some q => exact Or.inr ⟨rfl, indicateLoop_bPktInBuf _ _⟩
    · exact Or.inl ⟨Ret.noConfusion, checkIndicateSeq_queue _ _, hcheck⟩

/-! ## The invariant -/

structure ReorderTimer.Inv (t : ReorderTimer) : Prop where
  waiting : t.ctrl.bReorderWaiting → t.ctrl.pendingRecvframeQueue ≠ []
  wakes : t.ctrl.pendingRecvframeQueue ≠ [] →
    t.armed ∨ t.expired ∨ ∃ ctx, t.cancelling ctx

variable {t t' : ReorderTimer} {ctx : RxContext}

theorem ReorderTimer.Inv.quiet (ht : t.Inv) : t.Wakes := by
  rintro ⟨hexpired, hcancelling⟩ hqueue
  rcases ht.wakes hqueue with harmed | h | ⟨ctx, h⟩
  · exact harmed
  · simp [hexpired] at h
  · simp [hcancelling ctx] at h

theorem ReorderTimer.Inv.indicatepkt (ht : t.Inv) (ctx : RxContext) (f : RecvFrame) :
    (t.indicatepkt ctx f).Inv := by
  rcases recvIndicatepktReorder_waiting t.ctrl f with ⟨hret, hqueue, hwaiting⟩ | ⟨hret, hiff⟩
  · simp only [ReorderTimer.indicatepkt, if_neg hret]
    exact ⟨by rw [hwaiting, hqueue]; exact ht.waiting, by rw [hqueue]; exact ht.wakes⟩
  · simp only [ReorderTimer.indicatepkt, if_pos hret]
    split
    next hwait =>
      refine ⟨hiff.mp, fun _ => ?_⟩
      by_cases hbefore : t.ctrl.bReorderWaiting
      · -- the frames that were queued before have what wakes them
        rcases ht.wakes (ht.waiting hbefore) with harmed | h
        · exact Or.inl (by simp [harmed])
        · exact Or.inr h
      · exact Or.inl (by simp [hbefore])
    next hwait =>
      exact ⟨hiff.mp, fun _ => Or.inr (Or.inr ⟨ctx, by simp⟩)⟩

theorem ReorderTimer.inv_timeoutHandler (t : ReorderTimer) : t.timeoutHandler.Inv := by
  refine ⟨nofun, fun hqueue => Or.inl ?_⟩
  have hbuf := bPktInBuf_of_forced hqueue
  simp [ReorderTimer.timeoutHandler, hbuf]

theorem RxContext.eq_or_other (ctx ctx' : RxContext) : ctx' = ctx ∨ ctx' = ctx.other := by
  cases ctx <;> cases ctx' <;> decide

theorem RxContext.other_ne (ctx : RxContext) : ctx.other ≠ ctx := by
  cases ctx <;> decide

/-- **A step leaves the frames without a timer exactly if it does not fit**, and otherwise keeps the
invariant. -/
theorem ReorderTimer.Inv.next {k : TimerStep} (ht : t.Inv) (h : t.next k = some t') :
    (t'.Wakes ↔ t.fits k) ∧ (t.fits k → t'.Inv) := by
  -- all steps but a cancel keep the invariant
  have hkeeps : t'.Inv → t.fits k = true → (t'.Wakes ↔ t.fits k) ∧ (t.fits k → t'.Inv) :=
    fun hinv hfits => ⟨iff_of_true hinv.quiet hfits, fun _ => hinv⟩
  cases k with
  | arrive ctx f =>
    simp only [ReorderTimer.next, Option.ite_none_left_eq_some, Option.some.injEq] at h
    obtain ⟨-, rfl⟩ := h
    exact hkeeps (ht.indicatepkt ctx f) rfl
  | cancel ctx =>
    simp only [ReorderTimer.next, Option.ite_none_right_eq_some, Option.some.injEq,
      Bool.and_eq_true, Bool.not_eq_true'] at h
    obtain ⟨⟨-, hexpired⟩, rfl⟩ := h
    by_cases hother : t.cancelling ctx.other
    · refine hkeeps ⟨ht.waiting, fun _ => Or.inr (Or.inr ⟨ctx.other, ?_⟩)⟩ ?_
      · show Function.update t.cancelling ctx false ctx.other = true
        rw [Function.update_of_ne ctx.other_ne, hother]
      · simp [ReorderTimer.fits, hother]
    · have hfits : t.fits (.cancel ctx) ↔ t.ctrl.pendingRecvframeQueue = [] := by
        simp [ReorderTimer.fits, hother]
      rw [hfits]
      constructor
      · constructor
        · intro hwakes
          by_contra hqueue
          -- no call is under way any more
          have hquiet : ∀ ctx', Function.update t.cancelling ctx false ctx' = false := by
            intro ctx'
            rcases ctx.eq_or_other ctx' with rfl | rfl
            · exact Function.update_self _ _ _
            · rw [Function.update_of_ne ctx.other_ne]
              simpa using hother
          exact absurd (hwakes ⟨hexpired, hquiet⟩ hqueue) (by simp)
        · exact fun hqueue _ hne => absurd hqueue hne
      · exact fun hqueue => ⟨ht.waiting, fun hne => absurd hqueue hne⟩
  | expire =>
    simp only [ReorderTimer.next, Option.ite_none_right_eq_some, Option.some.injEq] at h
    obtain ⟨-, rfl⟩ := h
    exact hkeeps ⟨ht.waiting, fun _ => Or.inr (Or.inl rfl)⟩ rfl
  | handler =>
    simp only [ReorderTimer.next, Option.ite_none_right_eq_some, Option.some.injEq] at h
    obtain ⟨-, rfl⟩ := h
    exact hkeeps (ReorderTimer.inv_timeoutHandler _) rfl
  | rewindow indicateSeq enable recvAckOrTimeout recvReorderWow =>
    obtain rfl := Option.some.inj h
    exact hkeeps ⟨ht.waiting, ht.wakes⟩ rfl

/-- **When no wake-up is lost.** From a window nobody waits at, over every interleaving of the two
contexts and the timer: in every state that the run reaches with no call under way, frames in
`pending_recvframe_queue` have `reordering_ctrl_timer` armed, exactly if each cancel that leaves no
other one to come finds the queue empty. -/
theorem reorderTimer_wakes_iff (c : RecvReorderCtrl) (hqueue : c.pendingRecvframeQueue = [])
    (hwaiting : c.bReorderWaiting = false) {ks : List TimerStep}
    (hrun : run ReorderTimer.next { ctrl := c } ks = some t) :
    (∀ ks' t', ks' <+: ks → run ReorderTimer.next { ctrl := c } ks' = some t' → t'.Wakes) ↔
      Meets ReorderTimer.next (fun t k => t.fits k) { ctrl := c } ks := by
  have hstart : ReorderTimer.Inv { ctrl := c } :=
    ⟨by simp [hwaiting], fun h => absurd hqueue h⟩
  exact forall_prefix_iff_meets (fun t ht => ht.quiet) (fun t k t' ht h => ht.next h) hstart hrun

def arriveSeq (ctx : RxContext) (id seqNum : ℕ) : TimerStep :=
  .arrive ctx { id, attrib := { qos := true, seqNum } }

def timerFiresRun : List TimerStep :=
  [arriveSeq .recvTasklet 0 10, .cancel .recvTasklet, arriveSeq .coopRxTasklet 1 12,
    arriveSeq .recvTasklet 2 14, .expire, .handler]

theorem reorderTimer_wakes_fires :
    ∃ t, run ReorderTimer.next { ctrl := { enable := true } } timerFiresRun = some t ∧
      t.ctrl.pendingRecvframeQueue.map (·.attrib.seqNum) = [14] ∧ t.armed ∧
      ∀ ks' t', ks' <+: timerFiresRun →
        run ReorderTimer.next { ctrl := { enable := true } } ks' = some t' → t'.Wakes :=
  ⟨_, rfl, by decide +kernel, by decide +kernel,
    (reorderTimer_wakes_iff { enable := true } rfl rfl
      (rfl : run ReorderTimer.next _ timerFiresRun = some _)).mpr (by decide +kernel)⟩

def lostWakeUpRun : List TimerStep :=
  [arriveSeq .recvTasklet 0 10, arriveSeq .coopRxTasklet 1 12, .cancel .recvTasklet]

/-- A cancel may hit the timer of frames that were queued after the unlock. -/
theorem not_reorderTimer_wakes :
    ¬∀ (c : RecvReorderCtrl) (ks : List TimerStep) (t : ReorderTimer),
      c.pendingRecvframeQueue = [] → c.bReorderWaiting = false →
        run ReorderTimer.next { ctrl := c } ks = some t → t.Wakes := by
  intro h
  have hwakes := h { enable := true } lostWakeUpRun _ rfl rfl rfl
  have hquiet : ∀ ctx, Function.update (Function.update (fun _ => false) RxContext.recvTasklet true)
      RxContext.recvTasklet false ctx = false := by
    intro ctx
    cases ctx <;> rfl
  exact absurd (hwakes ⟨rfl, hquiet⟩ (by decide +kernel)) (by decide +kernel)

end Rtl88x2eu
