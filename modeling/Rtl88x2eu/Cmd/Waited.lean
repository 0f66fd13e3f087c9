import Mathlib.Logic.Function.Basic
import Rtl88x2eu.Lib.Transition

/-!
# Commands that are waited for

`_rtw_set_chplan_cmd` and `rtw_get_chplan_cmd` with `RTW_CMDF_WAIT_ACK`. A caller puts a command
into the queue and waits for two seconds at most. If the command has not succeeded by then it calls
the handler itself, which is meant for a command thread that does not run.

Calls have numbers. A handler that succeeds for `rtw_get_chplan_cmd` allocates a response, numbered
as well, and stores it through the pointer of the caller.

## Main definitions

* `Call`, `WaitState`: the calls, the queue and the thread
* `waitStep`, `OnceEach`, `WaitOk`

## Main results

* `Inv.handle`, `Inv.clear`, `Inv.fallback`: one step
* `onceEach_of_meets`: runs
-/

namespace Rtl88x2eu.Waited

/-! ## Calls -/

/-- `sctx.status`, as far as the callers look at it. -/
inductive SctxStatus
  | submitted | doneSuccess | doneErr
deriving DecidableEq

inductive CallPc
  /-- It has not enqueued its command. -/
  | start
  /-- In `rtw_sctx_wait`. -/
  | waiting
  | woken
  /-- About to call the handler itself. -/
  | fallback
  /-- Back with `_SUCCESS` or `_FAIL`. -/
  | returned (res : Bool)
deriving DecidableEq

/-- One call: of `rtw_get_chplan_cmd` or of `_rtw_set_chplan_cmd`, with its `sctx`. -/
structure Call where
  get : Bool := false
  pc : CallPc := .start
  sctx : SctxStatus := .submitted
  /-- `cmdobj->sctx` is not `NULL`. -/
  linked : Bool := false
  /-- How often the handler succeeded for it. -/
  successes : ℕ := 0
  /-- The handler ran for it when it had returned. -/
  late : Bool := false
  /-- What is stored through `chplan`. -/
  slot : Option ℕ := none
deriving DecidableEq

inductive ThreadPc
  | next
  | dequeued (i : ℕ)
  /-- The handler is done, or the command was filtered out: `pcmd->res` is `H2C_SUCCESS` or not. -/
  | handled (i : ℕ) (ok : Bool)
  /-- After the loop, with `cmdthd_running` cleared. -/
  | draining
  | dropping (i : ℕ)
  | finished
deriving DecidableEq

structure WaitState where
  calls : ℕ → Call := fun _ => {}
  cmdQueue : List ℕ := []
  thread : ThreadPc := .next
  cmdthdRunning : Bool := true
  hwInitCompleted : Bool := true
  /-- `RTW_CANNOT_RUN`. -/
  cannotRun : Bool := false
  responses : ℕ := 0

namespace WaitState

variable (s : WaitState)

def setCall (i : ℕ) (f : Call → Call) : WaitState :=
  { s with calls := Function.update s.calls i (f (s.calls i)) }

/-- `rtw_cmd_filter`: `CMD_SET_CHANPLAN` needs no hardware. -/
def rtwCmdFilter (i : ℕ) : Bool :=
  (s.hwInitCompleted || !(s.calls i).get) && s.cmdthdRunning

/-- The handler of a call succeeds: `rtw_get_chplan_hdl` stores a response. -/
def succeed (i : ℕ) : WaitState :=
  { s.setCall i fun c =>
      { c with
        successes := c.successes + 1
        slot := if c.get then some s.responses else c.slot } with
    responses := if (s.calls i).get then s.responses + 1 else s.responses }

def runHandler (i : ℕ) (ok : Bool) : WaitState :=
  let s := s.setCall i fun c =>
    { c with late := c.late || decide (∃ res, c.pc = .returned res) }
  if ok then s.succeed i else s

/-- `rtw_sctx_done_err` under the mutex, if the command still has its `sctx`. -/
def complete (i : ℕ) (status : SctxStatus) : WaitState :=
  s.setCall i fun c => if c.linked then { c with sctx := status, linked := false } else c

end WaitState

inductive WaitEvent
  /-- A caller allocates and enqueues its command, of `rtw_get_chplan_cmd` or not. -/
  | enqueue (i : ℕ) (get mem : Bool)
  /-- It is woken up, or its time is over. -/
  | wake (i : ℕ)
  /-- The section under `sctx_mutex`, and what follows from `sctx.status`. -/
  | clear (i : ℕ)
  /-- Its own call of the handler, which has the memory for it or not. -/
  | fallback (i : ℕ) (mem ok : Bool)
  | dequeue
  /-- The thread runs the handler. -/
  | handle (ok : Bool)
  /-- `rtw_register_cmd_alive` fails, and the command goes back to the head of the queue. -/
  | enqHead
  /-- `post_process`: completion, and the command is freed. -/
  | postProcess
  /-- The thread leaves its loop. -/
  | leave
  | drain
  | drop
  | setHwInitCompleted (b : Bool)
  | setCannotRun (b : Bool)

/-- One atomic step. -/
def waitStep (s : WaitState) : WaitEvent → Option WaitState
  | .enqueue i get mem =>
    if (s.calls i).pc ≠ .start then none
    else if !mem then some (s.setCall i fun c => { c with get := get, pc := .returned false })
    else
      let s := s.setCall i fun c => { c with get := get }
      if s.rtwCmdFilter i then
        some { s.setCall i fun c => { c with pc := .waiting, linked := true } with
          cmdQueue := s.cmdQueue ++ [i] }
      else some (s.setCall i fun c => { c with pc := .fallback })
  | .wake i =>
    if (s.calls i).pc = .waiting then some (s.setCall i fun c => { c with pc := .woken })
    else none
  | .clear i =>
    if (s.calls i).pc = .woken then
      some (s.setCall i fun c =>
        { c with
          linked := if c.sctx = .submitted then false else c.linked
          pc := if c.sctx = .doneSuccess then .returned true else .fallback })
    else none
  | .fallback i mem ok =>
    if (s.calls i).pc = .fallback then
      if !mem then some (s.setCall i fun c => { c with pc := .returned false })
      else some ((s.runHandler i ok).setCall i fun c => { c with pc := .returned ok })
    else none
  | .dequeue =>
    match s.thread, s.cmdQueue with
    | .next, i :: queue =>
      if s.cannotRun then none else some { s with thread := .dequeued i, cmdQueue := queue }
    | _, _ => none
  | .handle ok =>
    match s.thread with
    | .dequeued i =>
      if s.rtwCmdFilter i then some { s.runHandler i ok with thread := .handled i ok }
      else some { s with thread := .handled i false }
    | _ => none
  | .enqHead =>
    match s.thread with
    | .dequeued i => some { s with thread := .next, cmdQueue := i :: s.cmdQueue }
    | _ => none
  | .postProcess =>
    match s.thread with
    | .handled i ok =>
      some { s.complete i (if ok then .doneSuccess else .doneErr) with thread := .next }
    | _ => none
  | .leave =>
    if s.thread = .next then some { s with thread := .draining, cmdthdRunning := false } else none
  | .drain =>
    match s.thread, s.cmdQueue with
    | .draining, i :: queue => some { s with thread := .dropping i, cmdQueue := queue }
    | .draining, [] => some { s with thread := .finished }
    | _, _ => none
  | .drop =>
    match s.thread with
    | .dropping i => some { s.complete i .doneErr with thread := .draining }
    | _ => none
  | .setHwInitCompleted b => some { s with hwInitCompleted := b }
  | .setCannotRun b => some { s with cannotRun := b }

/-- **The handler takes effect once for each call**: it succeeds at most once, and once if the call
returns `_SUCCESS`; it does not run for a call that has returned; and every response is in the hands
of one caller. -/
structure OnceEach (s : WaitState) : Prop where
  atMost : ∀ i, (s.calls i).successes ≤ 1
  exact : ∀ i, (s.calls i).pc = .returned true → (s.calls i).successes = 1
  notLate : ∀ i, (s.calls i).late = false
  handed : ∀ r < s.responses, ∃! i, (s.calls i).slot = some r

/-- **The steps that keep it so**: the thread runs the handler only for a command that is waited
for, and no caller gives up on a command for which the handler has succeeded. -/
def WaitOk (s : WaitState) : WaitEvent → Prop
  | .handle _ => ∀ i, s.thread = .dequeued i → s.rtwCmdFilter i = true → (s.calls i).linked = true
  | .clear i => (s.calls i).sctx = .submitted → s.thread ≠ .handled i true
  | _ => True

/-- Every number below `n` is in one place, and no other number in any. -/
structure Handed (slot : ℕ → Option ℕ) (n : ℕ) : Prop where
  unique : ∀ r < n, ∃! i, slot i = some r
  below : ∀ i r, slot i = some r → r < n

theorem Handed.grant {slot : ℕ → Option ℕ} {n i : ℕ} (h : Handed slot n) (hi : slot i = none) :
    Handed (Function.update slot i (some n)) (n + 1) := by
  constructor
  · intro r hr
    rcases Nat.lt_succ_iff_lt_or_eq.mp hr with hlt | rfl
    · obtain ⟨j, hj, huniq⟩ := h.unique r hlt
      have hne : j ≠ i := by
        rintro rfl
        rw [hi] at hj
        cases hj
      refine ⟨j, (Function.update_of_ne hne _ _).trans hj, fun k hk => ?_⟩
      rcases eq_or_ne k i with rfl | hki
      · rw [Function.update_self, Option.some.injEq] at hk
        omega
      · exact huniq k ((Function.update_of_ne hki _ _).symm.trans hk)
    · refine ⟨i, Function.update_self _ _ _, fun k hk => ?_⟩
      by_contra hki
      have hlt := h.below k r ((Function.update_of_ne hki _ _).symm.trans hk)
      omega
  · intro j r hj
    rcases eq_or_ne j i with rfl | hne
    · rw [Function.update_self, Option.some.injEq] at hj
      omega
    · rw [Function.update_of_ne hne] at hj
      have hlt := h.below j r hj
      omega

/-! ## The invariant -/

variable {s s' : WaitState} {i : ℕ} {c : Call} {done : Bool} {f : Call → Call}

/-- How often the handler has succeeded for a call; `done` says that the thread has run it and not
completed the command yet. -/
def expected (c : Call) (done : Bool) : ℕ :=
  match c.pc with
  | .returned res => res.toNat
  | _ => if c.sctx = .doneSuccess ∨ done = true then 1 else 0

structure CallInv (c : Call) (done : Bool) : Prop where
  successes : c.successes = expected c done
  linked : c.linked = true → (c.pc = .waiting ∨ c.pc = .woken) ∧ c.sctx = .submitted
  fallback : c.pc = .fallback → c.sctx ≠ .doneSuccess
  start : c.pc = .start → c.sctx = .submitted
  slot : c.successes = 0 → c.slot = none
  notLate : c.late = false

/-- What every run keeps. -/
structure Inv (s : WaitState) : Prop where
  call : ∀ i, CallInv (s.calls i) (decide (s.thread = .handled i true))
  linked : ∀ i, s.thread = .handled i true → (s.calls i).linked = true
  handed : Handed (fun i => (s.calls i).slot) s.responses

theorem CallInv.successes_le (h : CallInv c done) : c.successes ≤ 1 := by
  rw [h.successes, expected]
  split
  next => exact Bool.toNat_le _
  next => split <;> omega

theorem Inv.onceEach (h : Inv s) : OnceEach s where
  atMost i := (h.call i).successes_le
  exact i hret := by rw [(h.call i).successes, expected, hret]; rfl
  notLate i := (h.call i).notLate
  handed := h.handed.unique

theorem inv_start : Inv {} where
  call _ := ⟨rfl, fun h => absurd h Bool.false_ne_true, (nomatch ·), fun _ => rfl,
    fun _ => rfl, rfl⟩
  linked _ h := absurd h (by simp)
  handed := ⟨fun r hr => absurd hr (Nat.not_lt_zero r), fun _ _ h => absurd h (by simp)⟩

/-- The queue and the flags have no part in it. -/
theorem Inv.congr (h : Inv s) (hcalls : s'.calls = s.calls) (hthread : s'.thread = s.thread)
    (hresp : s'.responses = s.responses) : Inv s' where
  call i := by rw [hcalls, hthread]; exact h.call i
  linked i hi := by rw [hcalls]; rw [hthread] at hi; exact h.linked i hi
  handed := by rw [hcalls, hresp]; exact h.handed

/-- The thread goes on, and has no success in its hands before or after. -/
theorem Inv.thread {t : ThreadPc} (h : Inv s) (hold : ∀ i, s.thread ≠ .handled i true)
    (hnew : ∀ i, t ≠ .handled i true) : Inv { s with thread := t } where
  call i := by
    have hcall := h.call i
    rw [decide_eq_false (hold i)] at hcall
    change CallInv (s.calls i) (decide (t = .handled i true))
    rwa [decide_eq_false (hnew i)]
  linked i hi := absurd hi (hnew i)
  handed := h.handed

@[simp] theorem setCall_self : (s.setCall i f).calls i = f (s.calls i) := Function.update_self _ _ _

theorem setCall_of_ne {j : ℕ} (h : j ≠ i) : (s.setCall i f).calls j = s.calls j :=
  Function.update_of_ne h _ _

theorem setCall_eq_self (h : f (s.calls i) = s.calls i) : s.setCall i f = s := by
  rw [WaitState.setCall, h, Function.update_eq_self]

theorem slot_setCall : (fun j => ((s.setCall i f).calls j).slot) =
    Function.update (fun j => (s.calls j).slot) i (f (s.calls i)).slot := by
  funext j
  rcases eq_or_ne j i with rfl | hj
  · rw [setCall_self, Function.update_self]
  · rw [setCall_of_ne hj, Function.update_of_ne hj]

theorem Inv.setCall (h : Inv s)
    (hcall : CallInv (f (s.calls i)) (decide (s.thread = .handled i true)))
    (hlinked : s.thread = .handled i true → (f (s.calls i)).linked = true)
    (hslot : (f (s.calls i)).slot = (s.calls i).slot) : Inv (s.setCall i f) where
  call j := by
    rcases eq_or_ne j i with rfl | hj
    · rw [setCall_self]
      exact hcall
    · rw [setCall_of_ne hj]
      exact h.call j
  linked j hj := by
    rcases eq_or_ne j i with rfl | hne
    · rw [setCall_self]
      exact hlinked hj
    · rw [setCall_of_ne hne]
      exact h.linked j hj
  handed := by
    rw [slot_setCall, hslot, Function.update_eq_self]
    exact h.handed

theorem Inv.not_handled (h : Inv s) (hpc : (s.calls i).pc ≠ .waiting)
    (hpc' : (s.calls i).pc ≠ .woken) : s.thread ≠ .handled i true := by
  intro hthread
  exact ((h.call i).linked (h.linked i hthread)).1.elim hpc hpc'

theorem Inv.enqueue {get mem : Bool} (h : Inv s)
    (hstep : waitStep s (.enqueue i get mem) = some s') : Inv s' := by
  rw [waitStep] at hstep
  split at hstep
  next => cases hstep
  next hpc =>
    rw [not_not] at hpc
    have hcall := h.call i
    have hno := h.not_handled (i := i) (by rw [hpc]; decide) (by rw [hpc]; decide)
    have hsctx := hcall.start hpc
    have hzero : (s.calls i).successes = 0 := by
      rw [hcall.successes, expected, hpc, decide_eq_false hno]
      simp [hsctx]
    have hlinked : (s.calls i).linked = false := by
      by_contra hl
      rw [Bool.not_eq_false] at hl
      exact (hcall.linked hl).1.elim (by rw [hpc]; decide) (by rw [hpc]; decide)
    split at hstep
    next =>
      obtain rfl := Option.some.inj hstep
      refine h.setCall ⟨hzero, fun hl => ?_, (nomatch ·), (nomatch ·),
        hcall.slot, hcall.notLate⟩ (fun ht => absurd ht hno) rfl
      exact absurd hl (by rw [hlinked]; exact Bool.false_ne_true)
    next =>
      dsimp only at hstep
      have hget : Inv (s.setCall i fun c => { c with get := get }) :=
        h.setCall ⟨hcall.successes, hcall.linked, hcall.fallback, hcall.start, hcall.slot,
          hcall.notLate⟩ (h.linked i) rfl
      split at hstep
      next =>
        obtain rfl := Option.some.inj hstep
        refine Inv.congr (hget.setCall (i := i)
          (f := fun c => { c with pc := .waiting, linked := true }) ?_ (fun _ => rfl) rfl)
          rfl rfl rfl
        rw [setCall_self]
        refine ⟨?_, fun _ => ⟨.inl rfl, hsctx⟩, (nomatch ·), (nomatch ·),
          hcall.slot, hcall.notLate⟩
        change (s.calls i).successes = if (s.calls i).sctx = _ ∨ decide (s.thread = _) = true then _
          else _
        rw [hzero, hsctx, decide_eq_false hno]
        rfl
      next =>
        obtain rfl := Option.some.inj hstep
        refine hget.setCall ?_ (fun ht => absurd ht hno) rfl
        rw [setCall_self]
        refine ⟨?_, fun hl => ?_, fun _ => ?_, (nomatch ·), hcall.slot, hcall.notLate⟩
        · change (s.calls i).successes = if (s.calls i).sctx = _ ∨ decide (s.thread = _) = true
            then _ else _
          rw [hzero, hsctx, decide_eq_false hno]
          rfl
        · exact absurd hl (by change ¬(s.calls i).linked = true; rw [hlinked]; decide)
        · change (s.calls i).sctx ≠ .doneSuccess
          rw [hsctx]
          decide

theorem Inv.wake (h : Inv s) (hstep : waitStep s (.wake i) = some s') : Inv s' := by
  rw [waitStep] at hstep
  split at hstep
  next hpc =>
    obtain rfl := Option.some.inj hstep
    have hcall := h.call i
    refine h.setCall ⟨?_, fun hl => ⟨.inr rfl, (hcall.linked hl).2⟩, (nomatch ·), (nomatch ·),
      hcall.slot, hcall.notLate⟩ (h.linked i) rfl
    have hsucc := hcall.successes
    rw [expected, hpc] at hsucc
    exact hsucc
  next => cases hstep

/-- A caller gives up, or finds that its command has succeeded. -/
theorem Inv.clear (h : Inv s) (hok : WaitOk s (.clear i))
    (hstep : waitStep s (.clear i) = some s') : Inv s' := by
  rw [waitStep] at hstep
  split at hstep
  next hpc =>
    obtain rfl := Option.some.inj hstep
    have hcall := h.call i
    have hsucc := hcall.successes
    rw [expected, hpc] at hsucc
    dsimp only at hsucc
    rcases hsctx : (s.calls i).sctx with _ | _ | _
    · -- the time is over
      have hno := hok hsctx
      refine h.setCall ?_ (fun ht => absurd ht hno) rfl
      simp only [hsctx, reduceCtorEq, if_true, if_false]
      refine ⟨?_, (absurd · Bool.false_ne_true), fun _ => SctxStatus.noConfusion, (nomatch ·),
        hcall.slot, hcall.notLate⟩
      change (s.calls i).successes = _
      rw [hsucc, hsctx, decide_eq_false hno]
      rfl
    · -- it has succeeded
      have hone : (s.calls i).successes = 1 := by rw [hsucc, if_pos (.inl hsctx)]
      have hlinked : (s.calls i).linked = false := by
        by_contra hl
        rw [Bool.not_eq_false] at hl
        rw [(hcall.linked hl).2] at hsctx
        cases hsctx
      refine h.setCall ?_ (fun ht => ?_) rfl
      · simp only [hsctx, reduceCtorEq, if_true, if_false, hlinked]
        exact ⟨hone, (absurd · Bool.false_ne_true), (nomatch ·), (nomatch ·), hcall.slot,
          hcall.notLate⟩
      · simp only [hsctx, reduceCtorEq, if_false]
        exact h.linked i ht
    · -- it has failed
      have hlinked : (s.calls i).linked = false := by
        by_contra hl
        rw [Bool.not_eq_false] at hl
        rw [(hcall.linked hl).2] at hsctx
        cases hsctx
      have hno : s.thread ≠ .handled i true := fun ht => by
        rw [h.linked i ht] at hlinked
        cases hlinked
      refine h.setCall ?_ (fun ht => absurd ht hno) rfl
      simp only [hsctx, reduceCtorEq, if_false, hlinked]
      refine ⟨?_, (absurd · Bool.false_ne_true), fun _ => SctxStatus.noConfusion, (nomatch ·),
        hcall.slot, hcall.notLate⟩
      change (s.calls i).successes = _
      rw [hsucc, hsctx, decide_eq_false hno]
      rfl
  next => cases hstep

theorem runHandler_calls {ok : Bool} (hpc : ∀ res, (s.calls i).pc ≠ .returned res) :
    (s.runHandler i ok).calls = Function.update s.calls i
      { s.calls i with
        successes := (s.calls i).successes + ok.toNat
        slot := if ok && (s.calls i).get then some s.responses else (s.calls i).slot } ∧
    (s.runHandler i ok).thread = s.thread ∧
    (s.runHandler i ok).responses = s.responses + (ok && (s.calls i).get).toNat := by
  have hnot : ¬∃ res, (s.calls i).pc = .returned res := fun ⟨res, h⟩ => hpc res h
  have hset : (s.setCall i fun c =>
      { c with late := c.late || decide (∃ res, c.pc = .returned res) }) = s :=
    setCall_eq_self (by simp only [decide_eq_false hnot, Bool.or_false])
  rw [WaitState.runHandler, hset]
  cases ok with
  | false =>
    refine ⟨?_, rfl, rfl⟩
    change s.calls = Function.update s.calls i (s.calls i)
    rw [Function.update_eq_self]
  | true =>
    refine ⟨rfl, rfl, ?_⟩
    change (if (s.calls i).get then s.responses + 1 else s.responses) = _
    cases (s.calls i).get <;> rfl

theorem handed_runHandler {ok : Bool} (h : Inv s) (hzero : (s.calls i).successes = 0)
    (hpc : ∀ res, (s.calls i).pc ≠ .returned res) :
    Handed (fun j => ((s.runHandler i ok).calls j).slot) (s.runHandler i ok).responses := by
  obtain ⟨hcalls, -, hresp⟩ := @runHandler_calls s i ok hpc
  have hslot : (fun j => ((s.runHandler i ok).calls j).slot) =
      Function.update (fun j => (s.calls j).slot) i
        (if ok && (s.calls i).get then some s.responses else (s.calls i).slot) := by
    funext j
    rw [hcalls]
    rcases eq_or_ne j i with rfl | hj
    · rw [Function.update_self, Function.update_self]
    · rw [Function.update_of_ne hj, Function.update_of_ne hj]
  rw [hslot, hresp]
  cases hb : ok && (s.calls i).get with
  | false =>
    rw [if_neg Bool.false_ne_true, Function.update_eq_self]
    exact h.handed
  | true =>
    rw [if_pos rfl]
    exact h.handed.grant ((h.call i).slot hzero)

/-- The caller runs the handler itself. -/
theorem Inv.fallback {mem ok : Bool} (h : Inv s)
    (hstep : waitStep s (.fallback i mem ok) = some s') : Inv s' := by
  rw [waitStep] at hstep
  split at hstep
  next hpc =>
    have hcall := h.call i
    have hno := h.not_handled (i := i) (by rw [hpc]; decide) (by rw [hpc]; decide)
    have hzero : (s.calls i).successes = 0 := by
      rw [hcall.successes, expected, hpc, decide_eq_false hno]
      simp [hcall.fallback hpc]
    have hlinked : (s.calls i).linked = false := by
      by_contra hl
      rw [Bool.not_eq_false] at hl
      exact (hcall.linked hl).1.elim (by rw [hpc]; decide) (by rw [hpc]; decide)
    have hunlinked : ¬(s.calls i).linked = true := by rw [hlinked]; decide
    split at hstep
    next =>
      obtain rfl := Option.some.inj hstep
      exact h.setCall ⟨hzero, (absurd · hunlinked), (nomatch ·), (nomatch ·), hcall.slot,
        hcall.notLate⟩ (fun ht => absurd ht hno) rfl
    next =>
      obtain rfl := Option.some.inj hstep
      have hret (res : Bool) : (s.calls i).pc ≠ .returned res := by rw [hpc]; exact nofun
      obtain ⟨hcalls, hthread, -⟩ := @runHandler_calls s i ok hret
      have hself : (s.runHandler i ok).calls i = _ :=
        (congrFun hcalls i).trans (Function.update_self _ _ _)
      constructor
      · intro j
        change CallInv _ (decide ((s.runHandler i ok).thread = _))
        rw [hthread]
        rcases eq_or_ne j i with rfl | hj
        · rw [setCall_self, hself, decide_eq_false hno, hzero, Nat.zero_add]
          refine ⟨rfl, (absurd · hunlinked), (nomatch ·), (nomatch ·), fun hz => ?_,
            hcall.notLate⟩
          have hfail : ok = false := by
            cases ok
            · rfl
            · cases hz
          change (if ok && (s.calls j).get then _ else (s.calls j).slot) = none
          rw [hfail]
          exact hcall.slot hzero
        · rw [setCall_of_ne hj, hcalls, Function.update_of_ne hj]
          exact h.call j
      · intro j hj
        change (s.runHandler i ok).thread = _ at hj
        rw [hthread] at hj
        have hne : j ≠ i := by
          rintro rfl
          exact hno hj
        rw [setCall_of_ne hne, hcalls, Function.update_of_ne hne]
        exact h.linked j hj
      · rw [slot_setCall]
        change Handed (Function.update _ i ((s.runHandler i ok).calls i).slot) _
        rw [Function.update_eq_self]
        exact handed_runHandler h hzero hret
  next => cases hstep

/-- The thread runs the handler of a command that is waited for. -/
theorem Inv.handle {ok : Bool} (h : Inv s) (hok : WaitOk s (.handle ok))
    (hstep : waitStep s (.handle ok) = some s') : Inv s' := by
  rw [waitStep] at hstep
  split at hstep
  next i hthread =>
    have hno (j : ℕ) : s.thread ≠ .handled j true := by rw [hthread]; exact nofun
    split at hstep
    next hfilter =>
      obtain rfl := Option.some.inj hstep
      have hcall := h.call i
      have hlinked := hok i hthread hfilter
      obtain ⟨hpc, hsctx⟩ := hcall.linked hlinked
      have hret (res : Bool) : (s.calls i).pc ≠ .returned res := by
        intro hres
        rw [hres] at hpc
        exact hpc.elim nofun nofun
      have hexp (b : Bool) : expected (s.calls i) b = b.toNat := by
        rw [expected]
        split
        next res hres => exact absurd hres (hret res)
        next => rw [hsctx]; cases b <;> rfl
      have hzero : (s.calls i).successes = 0 := by
        rw [hcall.successes, decide_eq_false (hno i), hexp]
        rfl
      obtain ⟨hcalls, -, -⟩ := @runHandler_calls s i ok hret
      have hself : (s.runHandler i ok).calls i = _ :=
        (congrFun hcalls i).trans (Function.update_self _ _ _)
      have hdone : decide (ThreadPc.handled i ok = .handled i true) = ok := by cases ok <;> simp
      constructor
      · intro j
        change CallInv ((s.runHandler i ok).calls j) (decide (ThreadPc.handled i ok = _))
        rcases eq_or_ne j i with rfl | hj
        · rw [hself, hdone, hzero, Nat.zero_add]
          refine ⟨(hexp ok).symm, fun _ => ⟨hpc, hsctx⟩, hcall.fallback, hcall.start, fun hz => ?_,
            hcall.notLate⟩
          have hfail : ok = false := by
            cases ok
            · rfl
            · cases hz
          change (if ok && (s.calls j).get then _ else (s.calls j).slot) = none
          rw [hfail]
          exact hcall.slot hzero
        · rw [hcalls, Function.update_of_ne hj, decide_eq_false (by simp [hj.symm])]
          have hother := h.call j
          rwa [decide_eq_false (hno j)] at hother
      · intro j hj
        injection (hj : ThreadPc.handled i ok = .handled j true) with hij
        rw [← hij]
        change ((s.runHandler i ok).calls i).linked = true
        rw [hself]
        exact hlinked
      · exact handed_runHandler h hzero hret
    next =>
      obtain rfl := Option.some.inj hstep
      exact h.thread hno nofun
  next => cases hstep

/-- A command that has not succeeded is completed, if it is waited for. -/
theorem Inv.completeErr (h : Inv s) (hno : ∀ j, s.thread ≠ .handled j true) :
    Inv (s.complete i .doneErr) := by
  refine h.setCall ?_ (fun ht => absurd ht (hno i)) (by split <;> rfl)
  have hcall := h.call i
  split
  next hl =>
    obtain ⟨hpc, hsctx⟩ := hcall.linked hl
    have hsucc := hcall.successes
    rw [decide_eq_false (hno i)] at hsucc ⊢
    refine ⟨?_, (absurd · Bool.false_ne_true), fun _ => SctxStatus.noConfusion, fun hp => ?_,
      hcall.slot, hcall.notLate⟩
    · change (s.calls i).successes = _
      rw [hsucc, expected, expected]
      obtain hpc | hpc := hpc <;> simp [hpc, hsctx]
    · change (s.calls i).pc = .start at hp
      rw [hp] at hpc
      exact hpc.elim nofun nofun
  next => exact hcall

theorem Inv.postProcess (h : Inv s) (hstep : waitStep s .postProcess = some s') : Inv s' := by
  rw [waitStep] at hstep
  split at hstep
  next i ok hthread =>
    obtain rfl := Option.some.inj hstep
    cases ok with
    | false =>
      have hno (j : ℕ) : s.thread ≠ .handled j true := by rw [hthread]; simp
      exact (h.completeErr hno).thread hno nofun
    | true =>
      have hlinked := h.linked i hthread
      have hcall := h.call i
      obtain ⟨hpc, hsctx⟩ := hcall.linked hlinked
      have hsucc := hcall.successes
      have hself : (s.complete i .doneSuccess).calls i =
          { s.calls i with sctx := .doneSuccess, linked := false } := by
        rw [WaitState.complete, setCall_self, if_pos hlinked]
      constructor
      · intro j
        change CallInv ((s.complete i .doneSuccess).calls j) (decide (ThreadPc.next = _))
        rw [decide_eq_false (by simp)]
        rcases eq_or_ne j i with rfl | hj
        · rw [hself]
          refine ⟨?_, (absurd · Bool.false_ne_true), fun hp => ?_, fun hp => ?_, hcall.slot,
            hcall.notLate⟩
          · change (s.calls j).successes = _
            rw [hsucc, expected, expected]
            obtain hpc | hpc := hpc <;> simp [hpc, hthread]
          · change (s.calls j).pc = .fallback at hp
            rw [hp] at hpc
            exact hpc.elim nofun nofun
          · change (s.calls j).pc = .start at hp
            rw [hp] at hpc
            exact hpc.elim nofun nofun
        · rw [WaitState.complete, setCall_of_ne hj]
          have hother := h.call j
          rwa [hthread, decide_eq_false (by simp [hj.symm])] at hother
      · exact nofun
      · change Handed (fun j => ((s.setCall i _).calls j).slot) s.responses
        rw [slot_setCall, if_pos hlinked, Function.update_eq_self]
        exact h.handed
  next => cases hstep

theorem inv_step {e : WaitEvent} (h : Inv s) (hok : WaitOk s e)
    (hstep : waitStep s e = some s') : Inv s' := by
  cases e with
  | enqueue i get mem => exact h.enqueue hstep
  | wake i => exact h.wake hstep
  | clear i => exact h.clear hok hstep
  | fallback i mem ok => exact h.fallback hstep
  | handle ok => exact h.handle hok hstep
  | postProcess => exact h.postProcess hstep
  | dequeue =>
    rw [waitStep] at hstep
    split at hstep
    next i queue hthread _ =>
      split at hstep
      · cases hstep
      · obtain rfl := Option.some.inj hstep
        exact (h.thread (t := .dequeued i) (fun j => by rw [hthread]; exact nofun) nofun).congr
          rfl rfl rfl
    next => cases hstep
  | enqHead =>
    rw [waitStep] at hstep
    split at hstep
    next i hthread =>
      obtain rfl := Option.some.inj hstep
      exact (h.thread (t := .next) (fun j => by rw [hthread]; exact nofun) nofun).congr
        rfl rfl rfl
    next => cases hstep
  | leave =>
    rw [waitStep] at hstep
    split at hstep
    next hthread =>
      obtain rfl := Option.some.inj hstep
      exact (h.thread (t := .draining) (fun j => by rw [hthread]; exact nofun) nofun).congr
        rfl rfl rfl
    next => cases hstep
  | drain =>
    rw [waitStep] at hstep
    split at hstep
    next i queue hthread _ =>
      obtain rfl := Option.some.inj hstep
      exact (h.thread (t := .dropping i) (fun j => by rw [hthread]; exact nofun) nofun).congr
        rfl rfl rfl
    next hthread _ =>
      obtain rfl := Option.some.inj hstep
      exact h.thread (fun j => by rw [hthread]; exact nofun) nofun
    next => cases hstep
  | drop =>
    rw [waitStep] at hstep
    split at hstep
    next i hthread =>
      obtain rfl := Option.some.inj hstep
      have hno (j : ℕ) : s.thread ≠ .handled j true := by rw [hthread]; exact nofun
      exact (h.completeErr hno).thread hno nofun
    next => cases hstep
  | setHwInitCompleted b =>
    obtain rfl := Option.some.inj hstep
    exact h.congr rfl rfl rfl
  | setCannotRun b =>
    obtain rfl := Option.some.inj hstep
    exact h.congr rfl rfl rfl

/-- **A command that is waited for takes effect once**, in every state of a run whose steps meet the
condition. -/
theorem onceEach_of_meets {es : List WaitEvent}
    (hok : Transition.Meets waitStep WaitOk {} es) (hrun : Transition.run waitStep {} es = some s) :
    OnceEach s :=
  (Transition.run_invariant_of_meets (fun _ _ _ h hok hstep => inv_step h hok hstep) inv_start
    hok hrun).onceEach

/-- A command is enqueued, and the thread completes it in time. -/
def answered : List WaitEvent :=
  [.enqueue 0 true true, .dequeue, .handle true, .postProcess, .wake 0, .clear 0]

theorem onceEach_answered :
    ∃ s, Transition.run waitStep {} answered = some s ∧ OnceEach s := by
  refine ⟨_, rfl, @onceEach_of_meets _ answered ?_ rfl⟩
  refine ⟨trivial, fun s hs => ⟨trivial, fun s' hs' => ⟨?_, fun s₂ hs₂ => ⟨trivial,
    fun s₃ hs₃ => ⟨trivial, fun s₄ hs₄ => ⟨?_, fun _ _ => trivial⟩⟩⟩⟩⟩⟩
  · obtain rfl := Option.some.inj hs
    obtain rfl := Option.some.inj hs'
    rintro i hi -
    injection hi with hi
    rw [← hi]
    rfl
  · obtain rfl := Option.some.inj hs
    obtain rfl := Option.some.inj hs'
    obtain rfl := Option.some.inj hs₂
    obtain rfl := Option.some.inj hs₃
    obtain rfl := Option.some.inj hs₄
    exact fun h => absurd h (by decide)

/-- The time is over before the thread gets to the command: the caller runs the handler, returns,
and the thread runs it once more. -/
def overtaken : List WaitEvent :=
  [.enqueue 0 true true, .wake 0, .clear 0, .fallback 0 true true, .dequeue, .handle true]

theorem not_onceEach : ¬∀ (es : List WaitEvent) (s : WaitState),
    Transition.run waitStep {} es = some s → OnceEach s := by
  intro h
  have hlate := (h overtaken _ rfl).notLate 0
  exact absurd hlate (by decide)

end Rtl88x2eu.Waited
