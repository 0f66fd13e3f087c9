import Rtl88x2eu.Lib.Lending
import Rtl88x2eu.Lib.Transition

/-!
# Callers that wait for their frame

`dump_mgntframe_and_wait` leaves the address of its `submit_ctx` in the transmit buffer of its frame
and waits. Whoever ends the transmission writes the status there and gives the buffer back to the
pool; the caller then clears the pointer in the buffer, which may be another caller's by now.

## Main definitions

* `WaitPriv`, `waitStep`, `WaitersServed`, `ClearOk`

## Main results

* `waitersServed_iff_meets`: callers get their own status in every state of a run exactly if no step
  clears the pointer of a waiting caller
* `not_waitersServed`: a caller loses its completion
-/

namespace Rtl88x2eu.Xmit

open Transition


variable {ι β : Type*}

/-! ## State -/

/-- `submit_ctx.status`, as far as transmit buffers go. -/
inductive SctxStatus
  | submitted | doneSuccess | doneUnknown | doneBufAlloc | doneBufFree | doneWritePortErr
  | doneTxDeny
deriving DecidableEq, Repr

structure SubmitCtx where
  status : SctxStatus := .submitted
  /-- The completion. -/
  done : Bool := false
deriving DecidableEq, Repr

inductive FrameTx
  /-- With its caller. -/
  | unsent
  /-- In a `mgmt_sleep_q` or a management queue. -/
  | queued
  /-- In a URB. -/
  | inFlight
  /-- The completion has run `rtw_sctx_done_err`. -/
  | reported (status : SctxStatus)
  | freed (status : SctxStatus)
deriving DecidableEq, Repr

/-- How the transmission ended. -/
def FrameTx.result : FrameTx → Option SctxStatus
  | .reported status | .freed status => some status
  | _ => none

inductive CallerPc
  | idle | allocated | sctxSet | waiting
  | clearing (ret : Bool)
  | returned (ret : Bool)
  | gone
deriving DecidableEq, Repr

structure Caller (β : Type*) where
  pc : CallerPc := .idle
  /-- The local variable `pxmitbuf`. -/
  pxmitbuf : Option β := none
  tx : FrameTx := .unsent
  sctx : SubmitCtx := {}

/-- The pool and the callers. The last two fields record the timeouts, with whether the frame was
still to be transmitted, and the writes to a `submit_ctx` whose caller had returned. -/
structure WaitPriv (ι β : Type*) where
  /-- `free_xmit_extbuf_queue`. -/
  free : List β
  /-- `pxmitbuf->sctx`, by the caller whose `submit_ctx` it is. -/
  sctx : β → Option ι
  caller : ι → Caller β
  timeouts : List (ι × Bool)
  lateWrites : ℕ

def Caller.isReturned (c : Caller β) : Bool :=
  match c.pc with
  | .returned _ | .gone => true
  | _ => false

/-- The frame is still to be transmitted. -/
def Caller.isPending (c : Caller β) : Bool := c.tx = .queued || c.tx = .inFlight

variable [DecidableEq ι] [DecidableEq β]

def WaitPriv.setCaller (w : WaitPriv ι β) (i : ι) (c : Caller β) : WaitPriv ι β :=
  { w with caller := Function.update w.caller i c }

def WaitPriv.atPc (w : WaitPriv ι β) (i : ι) (pc : CallerPc) : Option β :=
  if (w.caller i).pc = pc then (w.caller i).pxmitbuf else none

def WaitPriv.atTx (w : WaitPriv ι β) (i : ι) (tx : FrameTx) : Option β :=
  if (w.caller i).tx = tx then (w.caller i).pxmitbuf else none

/-! ## Buffers -/

def rtwSctxDoneErr (w : WaitPriv ι β) (pxmitbuf : β) (status : SctxStatus) : WaitPriv ι β :=
  match w.sctx pxmitbuf with
  | none => w
  | some i =>
    { w with
      sctx := Function.update w.sctx pxmitbuf none
      caller := Function.update w.caller i { w.caller i with sctx := ⟨status, true⟩ }
      lateWrites := w.lateWrites + if (w.caller i).isReturned then 1 else 0 }

def rtwAllocXmitbufExt (w : WaitPriv ι β) : Option (β × WaitPriv ι β) :=
  match w.free with
  | [] => none
  | pxmitbuf :: rest =>
    some (pxmitbuf, rtwSctxDoneErr { w with free := rest } pxmitbuf .doneBufAlloc)

def rtwFreeXmitbuf (w : WaitPriv ι β) (pxmitbuf : β) : WaitPriv ι β :=
  let w := rtwSctxDoneErr w pxmitbuf .doneBufFree
  { w with free := w.free ++ [pxmitbuf] }

def WaitPriv.setTx (w : WaitPriv ι β) (i : ι) (tx : FrameTx) : WaitPriv ι β :=
  w.setCaller i { w.caller i with tx := tx }

def WaitPriv.setPc (w : WaitPriv ι β) (i : ι) (pc : CallerPc) : WaitPriv ι β :=
  w.setCaller i { w.caller i with pc := pc }

/-- What happens to a submission: it is accepted, the adapter cannot transmit, or
`usb_submit_urb` fails. -/
inductive UsbSubmit
  | accepted | denied | failed
deriving DecidableEq, Repr

def usbWritePort (w : WaitPriv ι β) (i : ι) (pxmitbuf : β) : UsbSubmit → WaitPriv ι β
  | .accepted => w.setTx i .inFlight
  | .denied =>
    (rtwFreeXmitbuf (rtwSctxDoneErr w pxmitbuf .doneTxDeny) pxmitbuf).setTx i (.freed .doneTxDeny)
  | .failed =>
    (rtwFreeXmitbuf (rtwSctxDoneErr w pxmitbuf .doneWritePortErr) pxmitbuf).setTx i
      (.freed .doneWritePortErr)

/-- The atomic steps. -/
inductive WaitEvent (ι : Type*)
  /-- A frame with its buffer is allocated. -/
  | alloc (i : ι)
  | cannotRun (i : ι)
  /-- `pxmitbuf->sctx = &sctx`. -/
  | setSctx (i : ι)
  /-- `rtw_hal_mgnt_xmit` dumps the frame. -/
  | submit (i : ι) (usb : UsbSubmit)
  /-- `rtw_hal_mgnt_xmit` leaves the frame in the queue of a sleeping station. -/
  | queue (i : ι)
  /-- The tasklet dumps a queued frame. -/
  | dequeue (i : ι) (usb : UsbSubmit)
  /-- A queued frame is freed with its buffer. -/
  | drop (i : ι)
  /-- The locked `rtw_sctx_done_err` of `usb_write_port_complete`, with `purb->status == 0`. -/
  | complete (i : ι) (ok : Bool)
  /-- The `rtw_free_xmitbuf` of `usb_write_port_complete`. -/
  | release (i : ι)
  /-- `rtw_sctx_wait` finds the completion. -/
  | wake (i : ι)
  /-- `rtw_sctx_wait` times out. -/
  | timeout (i : ι)
  /-- The locked `pxmitbuf->sctx = NULL`. -/
  | clear (i : ι)

/-- Where a caller is after its frame was dumped: it waits if it has set its `sctx`. -/
def CallerPc.dumped : CallerPc → Option CallerPc
  | .sctxSet => some .waiting
  | .allocated => some .gone
  | _ => none

/-- `rtw_hal_mgnt_xmit` of a caller, and what it does to the frame. -/
def WaitPriv.dump (w : WaitPriv ι β) (i : ι) (f : β → WaitPriv ι β) : Option (WaitPriv ι β) :=
  (w.caller i).pc.dumped.bind fun pc =>
    (w.caller i).pxmitbuf.map fun pxmitbuf => (f pxmitbuf).setPc i pc

/-- One step of a caller, of the USB completion, or of the management queue. -/
def waitStep (w : WaitPriv ι β) : WaitEvent ι → Option (WaitPriv ι β)
  | .alloc i =>
    if (w.caller i).pc = .idle then
      (rtwAllocXmitbufExt w).map fun (pxmitbuf, w) =>
        w.setCaller i { pc := .allocated, pxmitbuf := some pxmitbuf }
    else none
  | .cannotRun i => (w.atPc i .allocated).map fun pxmitbuf =>
    ((rtwFreeXmitbuf w pxmitbuf).setTx i (.freed .doneBufFree)).setPc i (.returned false)
  | .setSctx i => (w.atPc i .allocated).map fun pxmitbuf =>
    { w.setCaller i { w.caller i with pc := .sctxSet, sctx := {} } with
      sctx := Function.update w.sctx pxmitbuf (some i) }
  | .submit i usb => w.dump i fun pxmitbuf => usbWritePort w i pxmitbuf usb
  | .queue i => w.dump i fun _ => w.setTx i .queued
  | .dequeue i usb => (w.atTx i .queued).map fun pxmitbuf => usbWritePort w i pxmitbuf usb
  | .drop i => (w.atTx i .queued).map fun pxmitbuf =>
    (rtwFreeXmitbuf w pxmitbuf).setTx i (.freed .doneBufFree)
  | .complete i ok => (w.atTx i .inFlight).map fun pxmitbuf =>
    let status := if ok then .doneSuccess else .doneWritePortErr
    (rtwSctxDoneErr w pxmitbuf status).setTx i (.reported status)
  | .release i =>
    match (w.caller i).tx with
    | .reported status => (w.caller i).pxmitbuf.map fun pxmitbuf =>
      (rtwFreeXmitbuf w pxmitbuf).setTx i (.freed status)
    | _ => none
  | .wake i =>
    if (w.caller i).pc = .waiting ∧ (w.caller i).sctx.done then
      some (w.setPc i (.clearing ((w.caller i).sctx.status = .doneSuccess)))
    else none
  | .timeout i =>
    if (w.caller i).pc = .waiting ∧ (w.caller i).sctx.done = false then
      some { w.setPc i (.clearing false) with
        timeouts := (i, (w.caller i).isPending) :: w.timeouts }
    else none
  | .clear i =>
    match (w.caller i).pc with
    | .clearing ret => (w.caller i).pxmitbuf.map fun pxmitbuf =>
      { w.setPc i (.returned ret) with sctx := Function.update w.sctx pxmitbuf none }
    | _ => none

def Caller.Waits (c : Caller β) : Prop := c.pc = .sctxSet ∨ c.pc = .waiting

instance Caller.Waits.decidable (c : Caller β) : Decidable c.Waits :=
  inferInstanceAs (Decidable (_ ∨ _))

/-- A caller that was woken returns the status of its own frame, or it timed out while that was
still to be transmitted; no `submit_ctx` is written after its caller has returned; and the
completion of a caller that waits is still to come or has come with the status of its frame. -/
structure WaitersServed (w : WaitPriv ι β) : Prop where
  own : ∀ i ret, (w.caller i).pc = .clearing ret ∨ (w.caller i).pc = .returned ret →
    ret = false ∧ (i, true) ∈ w.timeouts ∨
      ∃ status, (w.caller i).tx.result = some status ∧ ret = decide (status = .doneSuccess)
  timeouts : ∀ p ∈ w.timeouts, p.2 = true
  lateWrites : w.lateWrites = 0
  notLost : ∀ i, (w.caller i).Waits →
    (∃ pxmitbuf ∈ (w.caller i).pxmitbuf, w.sctx pxmitbuf = some i) ∨
      (w.caller i).sctx.done = true ∧ (w.caller i).tx.result = some (w.caller i).sctx.status

structure WaitPriv.Fresh (w : WaitPriv ι β) : Prop where
  free : w.free.Nodup
  sctx : w.sctx = fun _ => none
  caller : w.caller = fun _ => {}
  timeouts : w.timeouts = []
  lateWrites : w.lateWrites = 0

/-- A caller that clears the pointer does not clear the one of a caller that still waits. -/
def ClearOk (w : WaitPriv ι β) : WaitEvent ι → Prop
  | .clear i => ∀ pxmitbuf ∈ (w.caller i).pxmitbuf, ∀ j ∈ w.sctx pxmitbuf, j ≠ i →
      ¬(w.caller j).Waits
  | _ => True

/-! ## The invariant -/

section Invariant

variable {w w' : WaitPriv ι β} {i j : ι} {b : β} {c : Caller β} {pc : CallerPc}
  {status : SctxStatus}

def Caller.held (c : Caller β) : Option β :=
  match c.tx with
  | .freed _ => none
  | _ => c.pxmitbuf

/-- The pool of extended buffers. -/
def WaitPriv.lending (w : WaitPriv ι β) : Lending ι β := ⟨w.free, fun i => (w.caller i).held⟩

/-- A pointer to the `submit_ctx` of a caller is in the buffer of its frame, which is still to be
transmitted, and the caller has not returned. -/
structure PointedAt (c : Caller β) (b : β) : Prop where
  held : c.held = some b
  result : c.tx.result = none
  pc : c.Waits ∨ ∃ ret, c.pc = .clearing ret

def OwnStatus (w : WaitPriv ι β) (i : ι) (c : Caller β) (ret : Bool) : Prop :=
  ret = false ∧ (i, true) ∈ w.timeouts ∨
    ∃ status, c.tx.result = some status ∧ ret = decide (status = .doneSuccess)

/-- The pointer in the buffer of a caller is the one to its `submit_ctx`. -/
def Attached (w : WaitPriv ι β) (i : ι) (c : Caller β) : Prop :=
  ∃ b ∈ c.pxmitbuf, w.sctx b = some i

/-- Where a caller stands fits its frame and its `submit_ctx`. -/
def CallerOk (w : WaitPriv ι β) (i : ι) (c : Caller β) : Prop :=
  match c.pc with
  | .idle => c.pxmitbuf = none
  | .allocated => c.tx = .unsent
  | .sctxSet => c.tx = .unsent ∧ c.sctx.done = false ∧ Attached w i c
  | .waiting =>
    c.isPending = true ∧ c.sctx.done = false ∧ Attached w i c ∨
      c.sctx.done = true ∧ c.tx.result = some c.sctx.status
  | .clearing ret | .returned ret => OwnStatus w i c ret
  | .gone => True

/-- The invariant. -/
structure WaitInv (w : WaitPriv ι β) : Prop where
  lent : w.lending.Sound
  pointed : ∀ b i, w.sctx b = some i → PointedAt (w.caller i) b
  caller : ∀ i, CallerOk w i (w.caller i)
  timeouts : ∀ p ∈ w.timeouts, p.2 = true
  lateWrites : w.lateWrites = 0

omit [DecidableEq ι] [DecidableEq β] in
theorem WaitInv.waitersServed (h : WaitInv w) : WaitersServed w := by
  refine ⟨fun i ret hpc => ?_, h.timeouts, h.lateWrites, fun i hpc => ?_⟩
  · have hi := h.caller i
    rcases hpc with hpc | hpc <;> rw [CallerOk, hpc] at hi <;> exact hi
  · have hi := h.caller i
    rcases hpc with hpc | hpc <;> rw [CallerOk, hpc] at hi
    · exact .inl hi.2.2
    · exact hi.imp (fun hattached => hattached.2.2) id

omit [DecidableEq ι] [DecidableEq β] in
theorem WaitPriv.Fresh.waitInv (h : w.Fresh) : WaitInv w := by
  have hlending : w.lending = ⟨w.free, fun _ => none⟩ := by
    unfold WaitPriv.lending
    rw [h.caller]
    rfl
  refine ⟨?_, fun b i hb => ?_, fun i => ?_, fun p hp => ?_, h.lateWrites⟩
  · rw [hlending]
    exact ⟨h.free, fun _ _ hc => absurd hc (by simp), fun _ _ _ hc => absurd hc (by simp)⟩
  · rw [h.sctx] at hb
    exact nomatch hb
  · rw [h.caller]
    rfl
  · rw [h.timeouts] at hp
    exact absurd hp List.not_mem_nil

omit [DecidableEq β] in
theorem lending_update (hcaller : w'.caller = Function.update w.caller i c) :
    w'.lending = ⟨w'.free, Function.update w.lending.held i c.held⟩ := by
  have hheld : (fun j => (w'.caller j).held) = Function.update w.lending.held i c.held := by
    funext j
    rw [hcaller]
    rcases eq_or_ne j i with rfl | hji
    · rw [Function.update_self, Function.update_self]
    · rw [Function.update_of_ne hji, Function.update_of_ne hji]
      rfl
  rw [← hheld]
  rfl

omit [DecidableEq β] in
/-- A caller moves; what the pointers of the others say stays, but for callers that do not wait. -/
theorem WaitInv.update (h : WaitInv w) (hcaller : w'.caller = Function.update w.caller i c)
    (hlent : w'.lending.Sound)
    (hsctx : ∀ b, ∀ j ≠ i, w'.sctx b = some j → w.sctx b = some j)
    (hkept : ∀ b, ∀ j ≠ i, (w.caller j).Waits → w.sctx b = some j → w'.sctx b = some j)
    (htimeouts : ∀ p ∈ w'.timeouts, p ∈ w.timeouts ∨ p = (i, true))
    (hmono : ∀ p ∈ w.timeouts, p ∈ w'.timeouts) (hlate : w'.lateWrites = w.lateWrites)
    (hpointed : ∀ b, w'.sctx b = some i → PointedAt c b) (hi : CallerOk w' i c) : WaitInv w' := by
  have hother (j : ι) (hj : j ≠ i) : w'.caller j = w.caller j := by
    rw [hcaller, Function.update_of_ne hj]
  refine ⟨hlent, fun b j hb => ?_, fun j => ?_, fun p hp => ?_, hlate.trans h.lateWrites⟩
  · rcases eq_or_ne j i with rfl | hj
    · rw [hcaller, Function.update_self]
      exact hpointed b hb
    · rw [hother j hj]
      exact h.pointed b j (hsctx b j hj hb)
  · rcases eq_or_ne j i with rfl | hj
    · rw [hcaller, Function.update_self]
      exact hi
    have hok := h.caller j
    have hwaits (hpc : (w.caller j).Waits) :
        Attached w j (w.caller j) → Attached w' j (w.caller j) :=
      fun ⟨b, hb, hattached⟩ => ⟨b, hb, hkept b j hj hpc hattached⟩
    rw [hother j hj]
    rcases hpc : (w.caller j).pc with _ | _ | _ | _ | ret | ret | _ <;>
      rw [CallerOk, hpc] at hok ⊢
    · exact hok
    · exact hok
    · exact ⟨hok.1, hok.2.1, hwaits (.inl hpc) hok.2.2⟩
    · exact hok.imp_left fun hpending =>
        ⟨hpending.1, hpending.2.1, hwaits (.inr hpc) hpending.2.2⟩
    · exact hok.imp_left fun htimeout => ⟨htimeout.1, hmono _ htimeout.2⟩
    · exact hok.imp_left fun htimeout => ⟨htimeout.1, hmono _ htimeout.2⟩
    · trivial
  · rcases htimeouts p hp with hp | rfl
    · exact h.timeouts p hp
    · rfl

end Invariant

/-! ## Transmissions end -/

section Ends

variable {w w' : WaitPriv ι β} {i j : ι} {b : β} {c : Caller β} {pc : CallerPc} {tx : FrameTx}
  {status : SctxStatus} {ret : Bool}

/-- A caller after `rtw_sctx_done_err` on the pointer of its buffer. -/
def WaitPriv.tell (w : WaitPriv ι β) (i : ι) (b : β) (status : SctxStatus) : Caller β :=
  if w.sctx b = some i then { w.caller i with sctx := ⟨status, true⟩ } else w.caller i

omit [DecidableEq β] in
theorem tell_held (w : WaitPriv ι β) (i : ι) (b : β) (status : SctxStatus) :
    (w.tell i b status).pxmitbuf = (w.caller i).pxmitbuf := by
  unfold WaitPriv.tell
  split_ifs <;> rfl

omit [DecidableEq ι] [DecidableEq β] in
theorem WaitInv.sctx_eq (h : WaitInv w) (hb : (w.caller i).held = some b)
    (hj : w.sctx b = some j) : j = i :=
  h.lent.eq_of_held (h.pointed b j hj).held hb

theorem WaitInv.doneErr_eq (h : WaitInv w) (hb : (w.caller i).held = some b)
    (status : SctxStatus) :
    rtwSctxDoneErr w b status = { w with
      sctx := Function.update w.sctx b none
      caller := Function.update w.caller i (w.tell i b status) } := by
  unfold rtwSctxDoneErr WaitPriv.tell
  rcases hsctx : w.sctx b with _ | j
  · have hsame : Function.update w.sctx b none = w.sctx :=
      Function.update_eq_self_iff.mpr hsctx.symm
    rw [if_neg (by simp), Function.update_eq_self, hsame]
  · obtain rfl := h.sctx_eq hb hsctx
    have hreturned : (w.caller j).isReturned = false := by
      unfold Caller.isReturned
      rcases (h.pointed b j hsctx).pc with (hpc | hpc) | ⟨ret, hpc⟩ <;> rw [hpc]
    rw [if_pos rfl]
    dsimp only
    rw [hreturned]
    rfl

theorem doneErr_sctx (w : WaitPriv ι β) (b : β) (status : SctxStatus) :
    (rtwSctxDoneErr w b status).sctx b = none := by
  unfold rtwSctxDoneErr
  split
  · assumption
  · exact Function.update_self ..

theorem freeXmitbuf_of_none (h : w.sctx b = none) :
    rtwFreeXmitbuf w b = { w with free := w.free ++ [b] } := by
  unfold rtwFreeXmitbuf rtwSctxDoneErr
  rw [h]

theorem WaitInv.free_eq (h : WaitInv w) (hb : (w.caller i).held = some b) :
    rtwFreeXmitbuf w b = { w with
      free := w.free ++ [b]
      sctx := Function.update w.sctx b none
      caller := Function.update w.caller i (w.tell i b .doneBufFree) } := by
  unfold rtwFreeXmitbuf
  rw [h.doneErr_eq hb _]

theorem WaitInv.done_free_eq (h : WaitInv w) (hb : (w.caller i).held = some b)
    (status : SctxStatus) :
    rtwFreeXmitbuf (rtwSctxDoneErr w b status) b = { w with
      free := w.free ++ [b]
      sctx := Function.update w.sctx b none
      caller := Function.update w.caller i (w.tell i b status) } := by
  rw [freeXmitbuf_of_none (doneErr_sctx w b status), h.doneErr_eq hb _]

inductive EndPc (c : Caller β) (status : SctxStatus) : CallerPc → Prop
  | gone : EndPc c status .gone
  | fails (h : status ≠ .doneSuccess) : EndPc c status (.returned false)
  | waits (h : c.Waits) : EndPc c status .waiting
  | clearing {ret : Bool} (h : c.pc = .clearing ret) : EndPc c status (.clearing ret)
  | returned {ret : Bool} (h : c.pc = .returned ret) : EndPc c status (.returned ret)

/-- The transmission of a caller ends: the caller is told, and its pointer is cleared. -/
theorem WaitInv.ends (h : WaitInv w) (hb : (w.caller i).held = some b)
    (hresult : (w.caller i).tx.result = none) (htx : tx.result = some status)
    (hpc : EndPc (w.caller i) status pc)
    (hcaller : w'.caller =
      Function.update w.caller i { w.tell i b status with tx := tx, pc := pc })
    (hlent : w'.lending.Sound) (hsctx : w'.sctx = Function.update w.sctx b none)
    (htimeouts : w'.timeouts = w.timeouts) (hlate : w'.lateWrites = w.lateWrites) :
    WaitInv w' := by
  refine h.update hcaller hlent (fun b' j _ hj => ?_) (fun b' j hji _ hj => ?_)
    (fun p hp => .inl (htimeouts ▸ hp)) (fun p hp => htimeouts ▸ hp) hlate
    (fun b' hb' => ?_) ?_
  · rw [hsctx] at hj
    rcases eq_or_ne b' b with rfl | hne
    · rw [Function.update_self] at hj
      exact nomatch hj
    · rwa [Function.update_of_ne hne] at hj
  · have hne : b' ≠ b := fun hbb => hji (h.sctx_eq hb (hbb ▸ hj))
    rw [hsctx, Function.update_of_ne hne]
    exact hj
  · rw [hsctx] at hb'
    rcases eq_or_ne b' b with rfl | hne
    · rw [Function.update_self] at hb'
      exact nomatch hb'
    · rw [Function.update_of_ne hne] at hb'
      exact absurd (Option.some.inj ((h.pointed b' i hb').held.symm.trans hb)) hne
  · have hok := h.caller i
    have hown (ret : Bool) (hown : OwnStatus w i (w.caller i) ret) :
        OwnStatus w' i { w.tell i b status with tx := tx, pc := pc } ret := by
      refine .inl ?_
      rw [htimeouts]
      refine hown.resolve_right fun ⟨st, hst, _⟩ => ?_
      rw [hresult] at hst
      exact nomatch hst
    cases hpc with
    | gone => trivial
    | fails hstatus => exact .inr ⟨status, htx, (decide_eq_false hstatus).symm⟩
    | waits hwaits =>
      have hattached : Attached w i (w.caller i) := by
        rcases hwaits with hpc | hpc <;> rw [CallerOk, hpc] at hok
        · exact hok.2.2
        · refine (hok.resolve_right fun hdone => ?_).2.2
          rw [hresult] at hdone
          exact nomatch hdone.2
      obtain ⟨b', hb', hsctx'⟩ := hattached
      have hbb : b' = b := by
        have hheld := (h.pointed b' i hsctx').held
        exact Option.some.inj (hheld.symm.trans hb)
      subst hbb
      refine .inr ?_
      rw [WaitPriv.tell, if_pos hsctx']
      exact ⟨rfl, htx⟩
    | clearing hclearing =>
      rw [CallerOk, hclearing] at hok
      exact hown _ hok
    | returned hreturned =>
      rw [CallerOk, hreturned] at hok
      exact hown _ hok

end Ends

/-! ## Steps -/

section Steps

variable {w w' w₁ : WaitPriv ι β} {i j : ι} {b : β} {c : Caller β} {pc : CallerPc}
  {tx : FrameTx} {status : SctxStatus} {ret : Bool} {usb : UsbSubmit}

omit [DecidableEq β] in
theorem setTx_caller (h : w₁.caller = Function.update w.caller i c) (tx : FrameTx) :
    (w₁.setTx i tx).caller = Function.update w.caller i { c with tx := tx } := by
  unfold WaitPriv.setTx WaitPriv.setCaller
  dsimp only
  rw [h, Function.update_self, Function.update_idem]

omit [DecidableEq β] in
theorem setPc_caller (h : w₁.caller = Function.update w.caller i c) (pc : CallerPc) :
    (w₁.setPc i pc).caller = Function.update w.caller i { c with pc := pc } := by
  unfold WaitPriv.setPc WaitPriv.setCaller
  dsimp only
  rw [h, Function.update_self, Function.update_idem]

section

omit [DecidableEq ι] [DecidableEq β]

theorem atPc_eq_some (h : w.atPc i pc = some b) :
    (w.caller i).pc = pc ∧ (w.caller i).pxmitbuf = some b := by
  unfold WaitPriv.atPc at h
  split_ifs at h with hpc
  exact ⟨hpc, h⟩

theorem atTx_eq_some (h : w.atTx i tx = some b) :
    (w.caller i).tx = tx ∧ (w.caller i).pxmitbuf = some b := by
  unfold WaitPriv.atTx at h
  split_ifs at h with htx
  exact ⟨htx, h⟩

theorem held_of_tx (hbuf : (w.caller i).pxmitbuf = some b)
    (hresult : (w.caller i).tx.result = none) :
    (w.caller i).held = some b := by
  unfold Caller.held
  split
  · rename_i heq
    rw [heq] at hresult
    exact nomatch hresult
  · exact hbuf

end

section

omit [DecidableEq β]

theorem lent_of_held (h : WaitInv w) (hcaller : w'.caller = Function.update w.caller i c)
    (hfree : w'.free = w.free) (hheld : c.held = (w.caller i).held) : w'.lending.Sound := by
  have hsame : Function.update w.lending.held i c.held = w.lending.held :=
    Function.update_eq_self_iff.mpr hheld
  rw [lending_update hcaller, hfree, hsame]
  exact h.lent

theorem lent_of_free (h : WaitInv w) (hb : (w.caller i).held = some b)
    (hcaller : w'.caller = Function.update w.caller i c) (hfree : w'.free = w.free ++ [b])
    (hheld : c.held = none) : w'.lending.Sound := by
  have hback : w'.lending = w.lending.giveBack i := by
    have hlend : w.lending.held i = some b := hb
    rw [lending_update hcaller, hfree, hheld, Lending.giveBack, hlend]
    rfl
  rw [hback]
  exact h.lent.giveBack i

/-- A caller moves and nothing else changes. -/
theorem WaitInv.move (h : WaitInv w) (hcaller : w'.caller = Function.update w.caller i c)
    (hheld : c.held = (w.caller i).held) (hfree : w'.free = w.free) (hsctx : w'.sctx = w.sctx)
    (htimeouts : ∀ p ∈ w'.timeouts, p ∈ w.timeouts ∨ p = (i, true))
    (hmono : ∀ p ∈ w.timeouts, p ∈ w'.timeouts) (hlate : w'.lateWrites = w.lateWrites)
    (hpointed : ∀ b, PointedAt (w.caller i) b → PointedAt c b) (hi : CallerOk w' i c) :
    WaitInv w' :=
  h.update hcaller (lent_of_held h hcaller hfree hheld) (fun _ _ _ => hsctx ▸ id)
    (fun _ _ _ _ => hsctx ▸ id) htimeouts hmono hlate
    (fun b hb => hpointed b (h.pointed b i (hsctx ▸ hb))) hi

end

omit [DecidableEq ι] [DecidableEq β] in
theorem WaitInv.endPc (h : WaitInv w) (hbuf : (w.caller i).pxmitbuf = some b)
    (htx : (w.caller i).tx ≠ .unsent) (status : SctxStatus) :
    EndPc (w.caller i) status (w.caller i).pc := by
  have hok := h.caller i
  rcases hpc : (w.caller i).pc with _ | _ | _ | _ | ret | ret | _ <;> rw [CallerOk, hpc] at hok
  · rw [hbuf] at hok
    exact nomatch hok
  · exact absurd hok htx
  · exact absurd hok.1 htx
  · exact .waits (.inr hpc)
  · exact .clearing hpc
  · exact .returned hpc
  · exact .gone

omit [DecidableEq ι] [DecidableEq β] in
theorem WaitInv.dumped (h : WaitInv w) (hpc : (w.caller i).pc.dumped = some pc) :
    (w.caller i).tx = .unsent ∧ ((w.caller i).pc = .sctxSet ∧ pc = .waiting ∨
      (w.caller i).pc = .allocated ∧ pc = .gone) := by
  have hok := h.caller i
  rcases hpc' : (w.caller i).pc with _ | _ | _ | _ | ret | ret | _ <;> rw [hpc'] at hpc <;>
    rw [CallerOk, hpc'] at hok
  · exact nomatch hpc
  · exact ⟨hok, .inr ⟨rfl, (Option.some.inj hpc).symm⟩⟩
  · exact ⟨hok.1, .inl ⟨rfl, (Option.some.inj hpc).symm⟩⟩
  all_goals exact nomatch hpc

omit [DecidableEq β] in
/-- A frame is on its way: in a queue or in a URB. -/
theorem WaitInv.sent (h : WaitInv w) (hbuf : (w.caller i).pxmitbuf = some b)
    (hdumped : (w.caller i).pc.dumped = some pc) (htx : tx = .queued ∨ tx = .inFlight) :
    WaitInv ((w.setTx i tx).setPc i pc) := by
  obtain ⟨hunsent, hpc⟩ := h.dumped hdumped
  have hok := h.caller i
  have hresult : (w.caller i).tx.result = none := by rw [hunsent]; rfl
  have hpending : ({ w.caller i with tx := tx, pc := pc } : Caller β).isPending = true := by
    rcases htx with rfl | rfl <;> rfl
  have hheld : ({ w.caller i with tx := tx, pc := pc } : Caller β).held = (w.caller i).held := by
    rw [held_of_tx hbuf hresult]
    rcases htx with rfl | rfl <;> exact hbuf
  refine h.move (setPc_caller (setTx_caller (Function.update_eq_self i w.caller).symm tx) pc) hheld
    rfl rfl (fun _ => .inl) (fun _ => id) rfl (fun b' hb' => ?_) ?_
  · refine ⟨hheld.trans hb'.held, by rcases htx with rfl | rfl <;> rfl, ?_⟩
    rcases hpc with ⟨-, rfl⟩ | ⟨hpc, -⟩
    · exact .inl (.inr rfl)
    · rcases hb'.pc with (hwaits | hwaits) | ⟨ret, hclearing⟩
      · rw [hpc] at hwaits
        exact nomatch hwaits
      · rw [hpc] at hwaits
        exact nomatch hwaits
      · rw [hpc] at hclearing
        exact nomatch hclearing
  · rcases hpc with ⟨hpc, rfl⟩ | ⟨-, rfl⟩
    · rw [CallerOk, hpc] at hok
      exact .inl ⟨hpending, hok.2⟩
    · trivial

end Steps

section Run

variable {w w' w₁ : WaitPriv ι β} {i j : ι} {b : β} {c : Caller β} {pc : CallerPc}
  {tx : FrameTx} {status : SctxStatus} {ret : Bool} {usb : UsbSubmit} {e : WaitEvent ι}

omit [DecidableEq β] in
theorem held_freed (c : Caller β) (status : SctxStatus) (pc : CallerPc) :
    ({ c with tx := .freed status, pc := pc } : Caller β).held = none := rfl

theorem WaitInv.endsFreed (h : WaitInv w) (hb : (w.caller i).held = some b)
    (hresult : (w.caller i).tx.result = none) (hpc : EndPc (w.caller i) status pc)
    (heq : w₁ = { w with
      free := w.free ++ [b]
      sctx := Function.update w.sctx b none
      caller := Function.update w.caller i (w.tell i b status) }) :
    WaitInv ((w₁.setTx i (.freed status)).setPc i pc) := by
  have hcaller₁ : w₁.caller = Function.update w.caller i (w.tell i b status) := by rw [heq]
  have hcaller := setPc_caller (setTx_caller hcaller₁ (.freed status)) pc
  have hfree : ((w₁.setTx i (.freed status)).setPc i pc).free = w.free ++ [b] := by rw [heq]; rfl
  have hlent := lent_of_free h hb hcaller hfree (held_freed ..)
  refine h.ends hb hresult rfl hpc hcaller hlent ?_ ?_ ?_
  all_goals
    rw [heq]
    rfl

/-- A frame is handed to the USB stack. -/
theorem WaitInv.refused (h : WaitInv w) (hb : (w.caller i).held = some b)
    (hresult : (w.caller i).tx.result = none) (hpc : ∀ status, EndPc (w.caller i) status pc)
    (husb : usb ≠ .accepted) : WaitInv ((usbWritePort w i b usb).setPc i pc) := by
  cases usb with
  | accepted => exact absurd rfl husb
  | denied => exact h.endsFreed hb hresult (hpc _) (h.done_free_eq hb _)
  | failed => exact h.endsFreed hb hresult (hpc _) (h.done_free_eq hb _)

omit [DecidableEq β] in
theorem setPc_self (w : WaitPriv ι β) (h : (w.caller i).pc = pc) : w.setPc i pc = w := by
  subst h
  unfold WaitPriv.setPc WaitPriv.setCaller
  rw [Function.update_eq_self]

theorem WaitInv.alloc (h : WaitInv w) (hidle : (w.caller i).pc = .idle)
    (halloc : rtwAllocXmitbufExt w = some (b, w₁)) :
    WaitInv (w₁.setCaller i { pc := .allocated, pxmitbuf := some b }) := by
  unfold rtwAllocXmitbufExt at halloc
  split at halloc
  · exact nomatch halloc
  rename_i b' rest hfree
  obtain ⟨rfl, rfl⟩ := Prod.mk.inj (Option.some.inj halloc)
  have hsctx : w.sctx b' = none := by
    rcases hj : w.sctx b' with _ | j
    · rfl
    · refine absurd ?_ (h.lent.notMem j b' (h.pointed b' j hj).held)
      show b' ∈ w.free
      rw [hfree]
      exact List.mem_cons_self
  have hdone : rtwSctxDoneErr { w with free := rest } b' .doneBufAlloc =
      { w with free := rest } := by
    unfold rtwSctxDoneErr
    rw [hsctx]
  rw [hdone]
  have hborrow : w.lending.borrow i =
      some (b', ⟨rest, Function.update w.lending.held i (some b')⟩) := by
    have hlend : w.lending.free = b' :: rest := hfree
    rw [Lending.borrow, hlend]
  refine h.update (i := i) rfl ?_ (fun _ _ _ => id) (fun _ _ _ _ => id) (fun _ => .inl)
    (fun _ => id) rfl (fun b hb => ?_) rfl
  · have hlending : (({ w with free := rest } : WaitPriv ι β).setCaller i
        { pc := .allocated, pxmitbuf := some b' }).lending =
        ⟨rest, Function.update w.lending.held i (some b')⟩ :=
      lending_update (c := { pc := .allocated, pxmitbuf := some b' }) rfl
    rw [hlending]
    exact h.lent.borrow hborrow
  · rcases (h.pointed b i hb).pc with (hpc | hpc) | ⟨ret, hpc⟩ <;> rw [hidle] at hpc <;>
      exact nomatch hpc

theorem WaitInv.setSctx (h : WaitInv w) (hpc : (w.caller i).pc = .allocated)
    (hbuf : (w.caller i).pxmitbuf = some b) :
    WaitInv { w.setCaller i { w.caller i with pc := .sctxSet, sctx := {} } with
      sctx := Function.update w.sctx b (some i) } := by
  have hunsent := h.caller i
  rw [CallerOk, hpc] at hunsent
  have hresult : (w.caller i).tx.result = none := by rw [hunsent]; rfl
  have hheld := held_of_tx hbuf hresult
  refine h.update (i := i) rfl (lent_of_held h (i := i) rfl rfl rfl) (fun b' j hji hj => ?_)
    (fun b' j hji _ hj => ?_) (fun _ => .inl) (fun _ => id) rfl (fun b' hb' => ?_)
    ⟨hunsent, rfl, b, hbuf, Function.update_self ..⟩
  · have hupdate : Function.update w.sctx b (some i) b' = some j := hj
    rcases eq_or_ne b' b with rfl | hne
    · rw [Function.update_self] at hupdate
      exact absurd (Option.some.inj hupdate).symm hji
    · rwa [Function.update_of_ne hne] at hupdate
  · have hne : b' ≠ b := fun hbb => hji (h.sctx_eq hheld (hbb ▸ hj))
    exact (Function.update_of_ne hne (some i) w.sctx).trans hj
  · have hupdate : Function.update w.sctx b (some i) b' = some i := hb'
    rcases eq_or_ne b' b with rfl | hne
    · exact ⟨hheld, hresult, .inl (.inl rfl)⟩
    · rw [Function.update_of_ne hne] at hupdate
      exact absurd (Option.some.inj ((h.pointed b' i hupdate).held.symm.trans hheld)) hne

/-- The completion frees a buffer whose caller was told. -/
theorem WaitInv.release (h : WaitInv w) (htx : (w.caller i).tx = .reported status)
    (hbuf : (w.caller i).pxmitbuf = some b) :
    WaitInv ((rtwFreeXmitbuf w b).setTx i (.freed status)) := by
  have hheld : (w.caller i).held = some b := by rw [Caller.held, htx]; exact hbuf
  have hnone : w.sctx b = none := by
    rcases hj : w.sctx b with _ | j
    · rfl
    · obtain rfl := h.sctx_eq hheld hj
      have hresult := (h.pointed b j hj).result
      rw [htx] at hresult
      exact nomatch hresult
  have hok := h.caller i
  have hown (ret : Bool) (hown : OwnStatus w i (w.caller i) ret) :
      OwnStatus w i { w.caller i with tx := .freed status } ret := by
    refine hown.imp_right fun ⟨st, hst, hret⟩ => ⟨st, ?_, hret⟩
    rw [htx] at hst
    exact hst
  rw [freeXmitbuf_of_none hnone]
  refine h.update (i := i) rfl (lent_of_free h hheld (i := i) rfl rfl rfl) (fun _ _ _ => id)
    (fun _ _ _ _ => id) (fun _ => .inl) (fun _ => id) rfl (fun b' hb' => ?_) ?_
  · have hresult := (h.pointed b' i hb').result
    rw [htx] at hresult
    exact nomatch hresult
  · rcases hpc : (w.caller i).pc with _ | _ | _ | _ | ret | ret | _ <;>
      rw [CallerOk, hpc] at hok <;> rw [CallerOk] <;> dsimp only <;> rw [hpc]
    · exact hok
    · rw [htx] at hok
      exact nomatch hok
    · rw [htx] at hok
      exact nomatch hok.1
    · refine hok.imp (fun hpending => ?_) fun hdone => ?_
      · rw [Caller.isPending, htx] at hpending
        exact nomatch hpending.1
      · rw [htx] at hdone
        exact hdone
    · exact hown ret hok
    · exact hown ret hok
    · trivial

omit [DecidableEq β] in
theorem WaitInv.wake (h : WaitInv w) (hpc : (w.caller i).pc = .waiting)
    (hdone : (w.caller i).sctx.done = true) :
    WaitInv (w.setPc i (.clearing ((w.caller i).sctx.status = .doneSuccess))) := by
  have hok := h.caller i
  rw [CallerOk, hpc] at hok
  have hresult : (w.caller i).tx.result = some (w.caller i).sctx.status := by
    refine (hok.resolve_left fun hpending => ?_).2
    rw [hdone] at hpending
    exact nomatch hpending.2.1
  refine h.move (i := i) rfl rfl rfl rfl (fun _ => .inl) (fun _ => id) rfl
    (fun b hb => ⟨hb.held, hb.result, .inr ⟨_, rfl⟩⟩) ?_
  exact .inr ⟨_, hresult, rfl⟩

omit [DecidableEq β] in
theorem WaitInv.timeout (h : WaitInv w) (hpc : (w.caller i).pc = .waiting)
    (hdone : (w.caller i).sctx.done = false) :
    WaitInv { w.setPc i (.clearing false) with
      timeouts := (i, (w.caller i).isPending) :: w.timeouts } := by
  have hok := h.caller i
  rw [CallerOk, hpc] at hok
  have hpending : (w.caller i).isPending = true := by
    refine (hok.resolve_right fun hdone' => ?_).1
    rw [hdone] at hdone'
    exact nomatch hdone'.1
  refine h.move (i := i) rfl rfl rfl rfl (fun p hp => ?_) (fun p => List.mem_cons_of_mem _) rfl
    (fun b hb => ⟨hb.held, hb.result, .inr ⟨_, rfl⟩⟩) ?_
  · rcases List.mem_cons.mp hp with rfl | hp
    · rw [hpending]
      exact .inr rfl
    · exact .inl hp
  · refine .inl ⟨rfl, ?_⟩
    dsimp only
    rw [hpending]
    exact List.mem_cons_self

theorem WaitInv.clear (h : WaitInv w) (hpc : (w.caller i).pc = .clearing ret)
    (hok : ∀ j ∈ w.sctx b, j ≠ i → ¬(w.caller j).Waits)
    (hbuf : (w.caller i).pxmitbuf = some b) :
    WaitInv { w.setPc i (.returned ret) with sctx := Function.update w.sctx b none } := by
  have hown := h.caller i
  rw [CallerOk, hpc] at hown
  have hsctx (b' : β) (j : ι) (hj : Function.update w.sctx b none b' = some j) :
      b' ≠ b ∧ w.sctx b' = some j := by
    rcases eq_or_ne b' b with rfl | hne
    · rw [Function.update_self] at hj
      exact nomatch hj
    · rw [Function.update_of_ne hne] at hj
      exact ⟨hne, hj⟩
  refine h.update (i := i) rfl (lent_of_held h (i := i) rfl rfl rfl)
    (fun b' j _ hj => (hsctx b' j hj).2) (fun b' j hji hwaits hj => ?_) (fun _ => .inl)
    (fun _ => id) rfl (fun b' hb' => ?_) hown
  · have hne : b' ≠ b := fun hbb => hok j (hbb ▸ hj) hji hwaits
    exact (Function.update_of_ne hne none w.sctx).trans hj
  · obtain ⟨hne, hj⟩ := hsctx b' i hb'
    have hheld := (h.pointed b' i hj).held
    have hb : b' = b := by
      unfold Caller.held at hheld
      split at hheld
      · exact nomatch hheld
      · exact Option.some.inj (hheld.symm.trans hbuf)
    exact absurd hb hne

end Run

section Safety

variable {w w' w₁ : WaitPriv ι β} {i : ι} {b : β} {ret : Bool} {status : SctxStatus}
  {tx : FrameTx} {e : WaitEvent ι}

omit [DecidableEq β] in
theorem tell_pc (w : WaitPriv ι β) (i : ι) (b : β) (status : SctxStatus) :
    (w.tell i b status).pc = (w.caller i).pc := by
  unfold WaitPriv.tell
  split_ifs <;> rfl

omit [DecidableEq β] in
theorem setTx_eq_setPc (hcaller : w₁.caller = Function.update w.caller i (w.tell i b status)) :
    w₁.setTx i tx = (w₁.setTx i tx).setPc i (w.caller i).pc := by
  refine (setPc_self _ ?_).symm
  rw [setTx_caller hcaller, Function.update_self]
  exact tell_pc w i b status

theorem WaitInv.endsQueued (h : WaitInv w) (htx : w.atTx i .queued = some b)
    (heq : w₁ = { w with
      free := w.free ++ [b]
      sctx := Function.update w.sctx b none
      caller := Function.update w.caller i (w.tell i b status) }) :
    WaitInv (w₁.setTx i (.freed status)) := by
  obtain ⟨htx, hbuf⟩ := atTx_eq_some htx
  have hsent : (w.caller i).tx ≠ .unsent := by rw [htx]; exact FrameTx.noConfusion
  have hresult : (w.caller i).tx.result = none := by rw [htx]; rfl
  have hends := h.endsFreed (held_of_tx hbuf hresult) hresult (h.endPc hbuf hsent status) heq
  have hcaller : w₁.caller = Function.update w.caller i (w.tell i b status) := by rw [heq]
  rw [setTx_eq_setPc hcaller]
  exact hends

theorem WaitInv.dequeue (h : WaitInv w) (htx : w.atTx i .queued = some b) (usb : UsbSubmit) :
    WaitInv (usbWritePort w i b usb) := by
  obtain ⟨hqueued, hbuf⟩ := atTx_eq_some htx
  have hsent : (w.caller i).tx ≠ .unsent := by rw [hqueued]; exact FrameTx.noConfusion
  have hresult : (w.caller i).tx.result = none := by rw [hqueued]; rfl
  have hheld := held_of_tx hbuf hresult
  cases usb with
  | denied => exact h.endsQueued htx (h.done_free_eq hheld _)
  | failed => exact h.endsQueued htx (h.done_free_eq hheld _)
  | accepted =>
    have hok := h.caller i
    have hown (ret : Bool) (hown : OwnStatus w i (w.caller i) ret) :
        OwnStatus w i { w.caller i with tx := .inFlight } ret := by
      refine .inl (hown.resolve_right fun ⟨st, hst, _⟩ => ?_)
      rw [hresult] at hst
      exact nomatch hst
    refine h.move (i := i) rfl ?_ rfl rfl (fun _ => .inl) (fun _ => id) rfl
      (fun b' hb' => ⟨hbuf.trans (hheld.symm.trans hb'.held), rfl, hb'.pc⟩) ?_
    · rw [hheld]
      exact hbuf
    · rcases hpc : (w.caller i).pc with _ | _ | _ | _ | ret | ret | _ <;>
        rw [CallerOk, hpc] at hok <;> rw [CallerOk] <;> dsimp only <;> rw [hpc]
      · exact hok
      · exact absurd hok hsent
      · exact absurd hok.1 hsent
      · refine .inl ⟨rfl, (hok.resolve_right fun hdone => ?_).2⟩
        rw [hresult] at hdone
        exact nomatch hdone.2
      · exact hown ret hok
      · exact hown ret hok
      · trivial

theorem WaitInv.complete (h : WaitInv w) (htx : w.atTx i .inFlight = some b)
    (status : SctxStatus) : WaitInv ((rtwSctxDoneErr w b status).setTx i (.reported status)) := by
  obtain ⟨htx, hbuf⟩ := atTx_eq_some htx
  have hsent : (w.caller i).tx ≠ .unsent := by rw [htx]; exact FrameTx.noConfusion
  have hresult : (w.caller i).tx.result = none := by rw [htx]; rfl
  have hheld := held_of_tx hbuf hresult
  have hdone := h.doneErr_eq hheld status
  have hcaller : (rtwSctxDoneErr w b status).caller =
      Function.update w.caller i (w.tell i b status) := by rw [hdone]
  rw [setTx_eq_setPc hcaller]
  refine h.ends hheld hresult rfl (h.endPc hbuf hsent status)
    (setPc_caller (setTx_caller hcaller (.reported status)) (w.caller i).pc) ?_ ?_ ?_ ?_
  · refine lent_of_held h (setPc_caller (setTx_caller hcaller (.reported status)) _) ?_ ?_
    · show (rtwSctxDoneErr w b status).free = _
      rw [hdone]
    · rw [hheld]
      exact (tell_held w i b status).trans hbuf
  all_goals
    unfold WaitPriv.setPc WaitPriv.setTx WaitPriv.setCaller
    dsimp only
    rw [hdone]

/-- Every step keeps the invariant under its condition. -/
theorem WaitInv.step (h : WaitInv w) (hok : ClearOk w e) (hstep : waitStep w e = some w') :
    WaitInv w' := by
  cases e with
  | alloc i =>
    dsimp only [waitStep] at hstep
    split_ifs at hstep with hidle
    obtain ⟨⟨b, w₁⟩, halloc, rfl⟩ := Option.map_eq_some_iff.mp hstep
    exact h.alloc hidle halloc
  | cannotRun i =>
    obtain ⟨b, hb, rfl⟩ := Option.map_eq_some_iff.mp hstep
    obtain ⟨hpc, hbuf⟩ := atPc_eq_some hb
    have hunsent := h.caller i
    rw [CallerOk, hpc] at hunsent
    have hresult : (w.caller i).tx.result = none := by rw [hunsent]; rfl
    have hheld := held_of_tx hbuf hresult
    exact h.endsFreed hheld hresult (.fails SctxStatus.noConfusion) (h.free_eq hheld)
  | setSctx i =>
    obtain ⟨b, hb, rfl⟩ := Option.map_eq_some_iff.mp hstep
    obtain ⟨hpc, hbuf⟩ := atPc_eq_some hb
    exact h.setSctx hpc hbuf
  | submit i usb =>
    obtain ⟨pc, hpc, hstep⟩ := Option.bind_eq_some_iff.mp hstep
    obtain ⟨b, hbuf, rfl⟩ := Option.map_eq_some_iff.mp hstep
    obtain ⟨hunsent, hends⟩ := h.dumped hpc
    have hresult : (w.caller i).tx.result = none := by rw [hunsent]; rfl
    have hend (status : SctxStatus) : EndPc (w.caller i) status pc := by
      rcases hends with ⟨hset, rfl⟩ | ⟨-, rfl⟩
      · exact .waits (.inl hset)
      · exact .gone
    by_cases husb : usb = .accepted
    · subst husb
      exact h.sent hbuf hpc (.inr rfl)
    · exact h.refused (held_of_tx hbuf hresult) hresult hend husb
  | queue i =>
    obtain ⟨pc, hpc, hstep⟩ := Option.bind_eq_some_iff.mp hstep
    obtain ⟨b, hbuf, rfl⟩ := Option.map_eq_some_iff.mp hstep
    exact h.sent hbuf hpc (.inl rfl)
  | dequeue i usb =>
    obtain ⟨b, hb, rfl⟩ := Option.map_eq_some_iff.mp hstep
    exact h.dequeue hb usb
  | drop i =>
    obtain ⟨b, hb, rfl⟩ := Option.map_eq_some_iff.mp hstep
    obtain ⟨htx, hbuf⟩ := atTx_eq_some hb
    have hheld := held_of_tx hbuf (by rw [htx]; rfl)
    exact h.endsQueued hb (h.free_eq hheld)
  | complete i ok =>
    obtain ⟨b, hb, rfl⟩ := Option.map_eq_some_iff.mp hstep
    exact h.complete hb _
  | release i =>
    dsimp only [waitStep] at hstep
    split at hstep
    · rename_i status htx
      obtain ⟨b, hbuf, rfl⟩ := Option.map_eq_some_iff.mp hstep
      exact h.release htx hbuf
    · exact nomatch hstep
  | wake i =>
    dsimp only [waitStep] at hstep
    split_ifs at hstep with hwake
    obtain rfl := Option.some.inj hstep
    exact h.wake hwake.1 hwake.2
  | timeout i =>
    dsimp only [waitStep] at hstep
    split_ifs at hstep with htimeout
    obtain rfl := Option.some.inj hstep
    exact h.timeout htimeout.1 htimeout.2
  | clear i =>
    dsimp only [waitStep] at hstep
    split at hstep
    · rename_i ret hpc
      obtain ⟨b, hbuf, rfl⟩ := Option.map_eq_some_iff.mp hstep
      exact h.clear hpc (hok b hbuf) hbuf
    · exact nomatch hstep

/-- A caller whose pointer was cleared by another one does not get its completion. -/
theorem WaitInv.served_iff (h : WaitInv w) (hstep : waitStep w e = some w') :
    WaitersServed w' ↔ ClearOk w e := by
  refine ⟨fun hserved => ?_, fun hok => (h.step hok hstep).waitersServed⟩
  cases e with
  | clear i =>
    intro b hb j hj hji hwaits
    dsimp only [waitStep] at hstep
    split at hstep
    swap
    · exact nomatch hstep
    rw [Option.mem_def.mp hb] at hstep
    obtain rfl := Option.some.inj hstep
    have hsame (pc : CallerPc) : (w.setPc i pc).caller j = w.caller j :=
      Function.update_of_ne hji _ _
    have hpointed := h.pointed b j hj
    have hnotLost := hserved.notLost j
    dsimp only at hnotLost
    rw [hsame] at hnotLost
    rcases hnotLost hwaits with ⟨b', hb', hsctx⟩ | ⟨-, hresult⟩
    · have hheld := hpointed.held
      have hbb : b' = b := by
        unfold Caller.held at hheld
        split at hheld
        · exact nomatch hheld
        · exact Option.some.inj (hb'.symm.trans hheld)
      rw [hbb, Function.update_self] at hsctx
      exact nomatch hsctx
    · rw [hpointed.result] at hresult
      exact nomatch hresult
  | _ => trivial

/-- **Every caller gets the status of its own frame in every state of a run exactly if no step
clears the pointer of a caller that still waits.** -/
theorem waitersServed_iff_meets {es : List (WaitEvent ι)} (hfresh : w.Fresh)
    (hrun : run waitStep w es = some w') :
    (∀ es' t, es' <+: es → run waitStep w es' = some t → WaitersServed t) ↔
      Meets waitStep ClearOk w es :=
  forall_prefix_iff_meets (fun _ => WaitInv.waitersServed)
    (fun _ _ _ h hstep => ⟨WaitInv.served_iff h hstep, fun hok => WaitInv.step h hok hstep⟩)
    hfresh.waitInv hrun

end Safety

section Callers

instance ClearOk.decidable (w : WaitPriv ι β) : ∀ e, Decidable (ClearOk w e)
  | .clear i => inferInstanceAs (Decidable (∀ pxmitbuf ∈ (w.caller i).pxmitbuf,
      ∀ j ∈ w.sctx pxmitbuf, j ≠ i → ¬(w.caller j).Waits))
  | .alloc _ | .cannotRun _ | .setSctx _ | .submit _ _ | .queue _ | .dequeue _ _ | .drop _
  | .complete _ _ | .release _ | .wake _ | .timeout _ => .isTrue trivial

/-- The pool with its 64 buffers, and no callers. -/
def allFree : WaitPriv ℕ ℕ where
  free := List.range 64
  sctx _ := none
  caller _ := {}
  timeouts := []
  lateWrites := 0

theorem allFree_fresh : allFree.Fresh := ⟨List.nodup_range, rfl, rfl, rfl, rfl⟩

/-- A caller sends its frame, is woken and returns; a second one times out in time. -/
def twoCallers : List (WaitEvent ℕ) :=
  [.alloc 0, .setSctx 0, .alloc 1, .setSctx 1, .submit 0 .accepted, .submit 1 .accepted,
    .complete 0 true, .wake 0, .release 0, .timeout 1, .clear 0, .clear 1, .complete 1 true,
    .release 1]

theorem waitersServed_twoCallers :
    ∃ w', run waitStep allFree twoCallers = some w' ∧
      ((w'.caller 0).pc = .returned true ∧ (w'.caller 1).pc = .returned false) ∧
      WaitersServed w' := by
  obtain ⟨w', hrun, hreturned⟩ : ∃ w', run waitStep allFree twoCallers = some w' ∧
      (w'.caller 0).pc = .returned true ∧ (w'.caller 1).pc = .returned false :=
    exists_run_of_any (by decide +kernel)
  have hmeets : Meets waitStep ClearOk allFree twoCallers := by decide +kernel
  exact ⟨w', hrun, hreturned, (waitersServed_iff_meets allFree_fresh hrun).mpr hmeets _ w'
    List.prefix_rfl hrun⟩

def clearedPointer : List (WaitEvent ℕ) :=
  [.alloc 0, .setSctx 0, .submit 0 .accepted, .complete 0 true, .release 0] ++
    (List.range 63).map (fun i => .alloc (i + 2)) ++
    [.alloc 1, .setSctx 1, .wake 0, .clear 0, .submit 1 .accepted, .complete 1 true, .timeout 1,
      .clear 1]

/-- **The frame of caller 1 is transmitted, and caller 1 times out and fails.** -/
theorem not_waitersServed :
    allFree.Fresh ∧ ∃ w', run waitStep allFree clearedPointer = some w' ∧
      (w'.caller 1).pc = .returned false ∧
      (w'.caller 1).tx = .reported .doneSuccess ∧ w'.timeouts = [(1, false)] ∧
      ¬WaitersServed w' := by
  obtain ⟨w', hrun, hpc, htx, htimeouts⟩ : ∃ w', run waitStep allFree clearedPointer = some w' ∧
      (w'.caller 1).pc = .returned false ∧ (w'.caller 1).tx = .reported .doneSuccess ∧
      w'.timeouts = [(1, false)] := exists_run_of_any (by decide +kernel)
  refine ⟨allFree_fresh, w', hrun, hpc, htx, htimeouts, fun hserved => ?_⟩
  have htrue := hserved.timeouts (1, false) (by rw [htimeouts]; exact List.mem_cons_self)
  exact Bool.false_ne_true htrue

end Callers

end Rtl88x2eu.Xmit
