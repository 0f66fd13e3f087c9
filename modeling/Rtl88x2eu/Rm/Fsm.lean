import Mathlib.Data.Nat.Bitwise
import Mathlib.Tactic.Basic

/-!
# The measurement state machine

The handlers of `rtw_rm_fsm.c`. A handler works on its object, on the clock slot of that object,
and on the end of the event queue; `RmLocal` is these. Handlers call each other through
`rm_state_goto`, and the one of the last state frees the object.

## Main definitions

* `RmObj`, `RmLocal`
* `rmStateIdle`, `rmStateDoMeas`, `rmStateWaitMeas`, `rmStateSendReport`, `rmStateRecvReport`,
  `rmStateEnd`: the handlers
* `rmStateGoto`, `rmStateRun`

## Main results

* `rmStateGoto_eq`: what a transition does
* `rmStateRun_enters`, `rmStateRun_ended`: an object is freed in its last state and nowhere else
-/

namespace Rtl88x2eu.Rm

/-! ## Objects -/

inductive RmEvId
  | stateIn | busyTimerExpire | delayTimerExpire | measTimerExpire | retryTimerExpire
  | repeatDelayExpire | requestTimerExpire | waitReport | startMeas | surveyDone | recvRep
  | cancel | stateOut | max
deriving DecidableEq, Repr

inductive RmState
  | idle | doMeas | waitMeas | sendReport | recvReport | ended
deriving DecidableEq, Repr

def rmActRadioMeasReq : ℕ := 0
def rmActRadioMeasRep : ℕ := 1
def rmActLinkMeasReq : ℕ := 2
def rmActLinkMeasRep : ℕ := 3
def rmActNbRepReq : ℕ := 4
def rmActNbRepResp : ℕ := 5

def chLoadReq : ℕ := 3
def noiseHistoReq : ℕ := 4
def bcnReq : ℕ := 5

def bcnReqBcnTable : ℕ := 2

def measRepModIncap : ℕ := 2
def measRepModRefuse : ℕ := 4

/-- `struct rm_meas_req`; `cond` and `threshold` are those of `opt.clm` and `opt.nhm`. -/
structure RmMeasReq where
  actionCode : ℕ := 0
  diagToken : ℕ := 0
  rpt : ℕ := 0
  eId : ℕ := 0
  mToken : ℕ := 0
  mMode : ℕ := 0
  mType : ℕ := 0
  opClass : ℕ := 0
  chNum : ℕ := 0
  randIntvl : ℕ := 0
  cond : ℕ := 0
  threshold : ℕ := 0
deriving DecidableEq

structure RmMeasRep where
  actionCode : ℕ := 0
  diagToken : ℕ := 0
  rpt : ℕ := 0
  eId : ℕ := 0
  mToken : ℕ := 0
  mMode : ℕ := 0
  mType : ℕ := 0
  opClass : ℕ := 0
  chNum : ℕ := 0
  chLoad : ℕ := 0
  anpi : ℕ := 0
deriving DecidableEq

inductive RmFrame
  | request (token : ℕ)
  | report (token : ℕ)
  /-- Of `issue_null_reply`. -/
  | null (token mMode : ℕ)
deriving DecidableEq

/-- `struct rm_obj`. The fields from `visited` on record the states that were entered, the frames
that were sent, how many surveys were asked for, and whether the object was cancelled. -/
structure RmObj where
  rmid : ℕ := 0
  state : RmState := .idle
  q : RmMeasReq := {}
  p : RmMeasRep := {}
  /-- The index of its slot. -/
  pclock : ℕ
  waitBusy : ℤ := 0
  pollMode : Bool := false
  /-- `q.opt.bcn.req_start`. -/
  reqStart : Option ℕ := none
  /-- `q.opt.bcn.ap_ch_rpt`. -/
  apChRpt : List ℕ := []
  visited : List RmState := [.idle]
  sent : List RmFrame := []
  surveys : ℕ := 0
  cancelled : Bool := false
deriving DecidableEq

def RmObj.isMaster (o : RmObj) : Bool := o.rmid % 2 = 1

/-- What a handler finds: the channel, whether a scan is possible, how many frames the beacons
found make, what was measured, and whether there is memory for an event, for a survey and for a
frame. -/
structure RmEnv where
  curChannel : ℕ := 1
  readyForScan : Bool := true
  pktNum : ℕ := 1
  chLoad : ℕ := 0
  anpi : ℕ := 0
  evMalloc : Bool := true
  parmMalloc : Bool := true
  frameAlloc : Bool := true

/-- What a handler works on. -/
structure RmLocal where
  prm : RmObj
  /-- `prm->pclock`. -/
  counter : ℕ
  evid : RmEvId
  /-- What was put into `ev_queue`. -/
  events : List (ℕ × RmEvId) := []
  surveys : List ℕ := []
  freed : Bool := false
  /-- The object was used or freed again after it was freed. -/
  fault : Bool := false
deriving DecidableEq

namespace RmLocal

/-! ## What the handlers call -/

def mapPrm (l : RmLocal) (f : RmObj → RmObj) : RmLocal := { l with prm := f l.prm }

def clockUnit : ℕ := 10

def setClock (l : RmLocal) (ms : ℕ) (evid : RmEvId) : RmLocal :=
  { l with counter := ms / clockUnit, evid := evid }

def cancelClock (l : RmLocal) : RmLocal := { l with counter := 0, evid := .max }

def postEvent (env : RmEnv) (l : RmLocal) (evid : RmEvId) : RmLocal :=
  if evid = .max ∨ l.prm.rmid = 0 ∨ env.evMalloc = false then l
  else { l with events := l.events ++ [(l.prm.rmid, evid)] }

def setRepMode (l : RmLocal) (mode : ℕ) : RmLocal :=
  l.mapPrm fun o => { o with p := { o.p with mMode := o.p.mMode ||| mode } }

/-- `dump_mgntframe`, if there is a frame. -/
def send (env : RmEnv) (l : RmLocal) (fs : List RmFrame) : RmLocal :=
  if env.frameAlloc then l.mapPrm fun o => { o with sent := o.sent ++ fs } else l

def issueNullReply (env : RmEnv) (l : RmLocal) : RmLocal :=
  let p := l.prm.p
  if p.actionCode = rmActRadioMeasReq ∨ p.actionCode = rmActNbRepReq ∨
      p.actionCode = rmActLinkMeasReq then l.send env [.null p.diagToken p.mMode]
  else l

def issueBeaconRep (env : RmEnv) (l : RmLocal) : RmLocal :=
  if env.pktNum = 0 then l.issueNullReply env
  else l.send env (List.replicate env.pktNum (.report l.prm.p.diagToken))

/-- `issue_radio_meas_rep`, `issue_link_meas_rep`. -/
def issueRep (env : RmEnv) (l : RmLocal) : RmLocal := l.send env [.report l.prm.p.diagToken]

def rmSitesurvey (env : RmEnv) (l : RmLocal) : RmLocal :=
  if env.parmMalloc then
    { l.mapPrm fun o => { o with surveys := o.surveys + 1 } with
      surveys := l.surveys ++ [l.prm.rmid] }
  else l

def retrieveRadioMeasResult (env : RmEnv) (l : RmLocal) : RmLocal :=
  l.mapPrm fun o =>
    if o.q.mType = chLoadReq then { o with p := { o.p with chLoad := env.chLoad } }
    else if o.q.mType = noiseHistoReq then { o with p := { o.p with anpi := env.anpi } }
    else o

def rmRadioMeasReportCond (o : RmObj) : Bool :=
  if o.q.mType = chLoadReq ∨ o.q.mType = noiseHistoReq then
    let val8 := if o.q.mType = chLoadReq then o.p.chLoad else o.p.anpi
    match o.q.cond with
    | 0 => true
    | 1 => o.q.threshold ≤ val8
    | 2 => val8 ≤ o.q.threshold
    | _ => false
  else false

def rmIssueMeasReq (env : RmEnv) (l : RmLocal) : Bool × RmLocal :=
  let q := l.prm.q
  if q.actionCode = rmActRadioMeasReq then
    (true, if q.mType = bcnReq ∨ q.mType = chLoadReq ∨ q.mType = noiseHistoReq then
      l.send env [.request q.diagToken] else l)
  else if q.actionCode = rmActNbRepReq ∨ q.actionCode = rmActLinkMeasReq then
    (true, l.send env [.request q.diagToken])
  else (false, l)

def countRpt (l : RmLocal) : RmLocal :=
  l.mapPrm fun o => { o with p := { o.p with rpt := o.p.rpt - 1 } }

def setWaitBusy (l : RmLocal) (n : ℤ) : RmLocal := l.mapPrm fun o => { o with waitBusy := n }

def rmFreeRmobj (l : RmLocal) : RmLocal :=
  if l.freed then { l with fault := true } else { l with freed := true }

/-- What `rm_state_idle` copies from the request to the report. -/
def copyReq (env : RmEnv) (l : RmLocal) : RmLocal :=
  l.mapPrm fun o =>
    let q := o.q
    if q.actionCode = rmActRadioMeasReq then
      { o with
        p := { o.p with
          actionCode := rmActRadioMeasRep, diagToken := q.diagToken, eId := 39, mToken := q.mToken
          mType := q.mType, rpt := q.rpt, chNum := q.chNum, opClass := q.opClass }
        pollMode := o.pollMode ||
          ((q.mType = chLoadReq || q.mType = noiseHistoReq) && q.chNum = env.curChannel) }
    else if q.actionCode = rmActNbRepReq then
      { o with p := { o.p with actionCode := rmActNbRepResp } }
    else if q.actionCode = rmActLinkMeasReq then
      { o with p := { o.p with actionCode := rmActLinkMeasRep, diagToken := q.diagToken } }
    else
      { o with p := { o.p with
          actionCode := q.actionCode, mMode := o.p.mMode ||| measRepModIncap } }

end RmLocal

/-! ## The handlers -/

def rmReqTimeout : ℕ := 10000
def rmMeasTimeout : ℕ := 10000
def rmReptScanIntvl : ℕ := 5000
def rmReptPollIntvl : ℕ := 2000
def rmCondIntvl : ℕ := 2000
def rmBusyTrafficTimes : ℤ := 10
def rmWaitBusyTimeout : ℕ := 1000

section Handlers

open RmLocal

variable (env : RmEnv) (goto : RmState → RmLocal → RmLocal)

def rmStateIdle (evid : RmEvId) (l : RmLocal) : RmLocal :=
  match evid with
  | .stateIn =>
    let l := l.copyReq env
    if l.prm.isMaster then
      let (issued, l) := l.rmIssueMeasReq env
      let l := if issued then goto .waitMeas l else goto .ended (l.issueNullReply env)
      -- the code goes on behind the transition
      if l.prm.q.randIntvl ≠ 0 then l.setClock l.prm.q.randIntvl .delayTimerExpire
      else goto .doMeas l
    else goto .doMeas l
  | .delayTimerExpire => goto .doMeas l
  | .cancel => goto .ended l
  | .stateOut => l.cancelClock
  | _ => l

def rmStateDoMeas (evid : RmEvId) (l : RmLocal) : RmLocal :=
  let q := l.prm.q
  match evid with
  | .stateIn =>
    if q.actionCode = rmActRadioMeasReq then
      if q.mType = bcnReq then
        if q.mMode = bcnReqBcnTable then l.postEvent env .surveyDone
        else if env.readyForScan then l.postEvent env .startMeas
        else (l.setWaitBusy rmBusyTrafficTimes).setClock rmWaitBusyTimeout .busyTimerExpire
      else if q.mType = chLoadReq ∨ q.mType = noiseHistoReq then
        if l.prm.pollMode then l.postEvent env .surveyDone else l
      else goto .ended l
    else if q.actionCode = rmActLinkMeasReq then goto .sendReport l
    else l.postEvent env .startMeas
  | .startMeas =>
    if q.actionCode = rmActRadioMeasReq then
      if q.mType = bcnReq ∨ q.mType = chLoadReq ∨ q.mType = noiseHistoReq then
        (l.rmSitesurvey env).setClock rmMeasTimeout .measTimerExpire
      else goto .ended l
    else l.setClock rmMeasTimeout .measTimerExpire
  | .surveyDone =>
    if q.actionCode = rmActRadioMeasReq then
      if q.mType = bcnReq then goto .sendReport l.cancelClock
      else if q.mType = chLoadReq ∨ q.mType = noiseHistoReq then
        let l := l.retrieveRadioMeasResult env
        if rmRadioMeasReportCond l.prm then goto .sendReport l
        else l.setClock rmCondIntvl .retryTimerExpire
      else goto .ended l
    else l
  | .measTimerExpire | .requestTimerExpire | .cancel =>
    goto .ended ((l.setRepMode measRepModRefuse).issueNullReply env)
  | .busyTimerExpire =>
    let waitBusy := l.prm.waitBusy
    -- `wait_busy--` is only evaluated if there can be no scan
    let l := if env.readyForScan then l else l.setWaitBusy (waitBusy - 1)
    if env.readyForScan = false ∧ waitBusy ≠ 0 then l.setClock rmWaitBusyTimeout .busyTimerExpire
    else if l.prm.waitBusy ≤ 0 then
      goto .ended ((l.setRepMode measRepModRefuse).issueNullReply env)
    else l.postEvent env .startMeas
  | .retryTimerExpire => l.postEvent env .startMeas
  | .stateOut => l.cancelClock
  | _ => l

def rmStateWaitMeas (evid : RmEvId) (l : RmLocal) : RmLocal :=
  match evid with
  | .stateIn => l.setClock rmReqTimeout .requestTimerExpire
  | .recvRep => goto .recvReport l
  | .requestTimerExpire | .cancel => goto .ended l
  | .stateOut => l.cancelClock
  | _ => l

def rmStateSendReport (evid : RmEvId) (l : RmLocal) : RmLocal :=
  let q := l.prm.q
  match evid with
  | .stateIn =>
    if q.actionCode = rmActRadioMeasReq then
      if q.mType = bcnReq ∨ q.mType = chLoadReq ∨ q.mType = noiseHistoReq then
        let l := if q.mType = bcnReq then l.issueBeaconRep env else l.issueRep env
        if l.prm.p.rpt ≠ 0 then
          l.countRpt.setClock
            (if l.prm.pollMode then rmReptPollIntvl else rmReptScanIntvl) .repeatDelayExpire
        else goto .ended l
      else goto .ended l
    else if q.actionCode = rmActLinkMeasReq then goto .ended (l.issueRep env)
    else goto .ended l
  | .repeatDelayExpire => goto .doMeas l
  | .cancel => goto .ended l
  | .stateOut => l.cancelClock
  | _ => l

def rmStateRecvReport (evid : RmEvId) (l : RmLocal) : RmLocal :=
  let p := l.prm.p
  match evid with
  | .stateIn =>
    if p.actionCode = rmActRadioMeasRep ∧ p.mMode = 0 ∧ p.rpt ≠ 0 then
      goto .waitMeas l.countRpt
    else goto .ended l
  | .cancel => goto .ended l
  | .stateOut => l.cancelClock
  | _ => l

def rmStateEnd (evid : RmEvId) (l : RmLocal) : RmLocal :=
  match evid with
  | .stateIn => l.postEvent env .stateOut
  | _ => l.rmFreeRmobj

def rmFsm : RmState → RmEvId → RmLocal → RmLocal
  | .idle => rmStateIdle env goto
  | .doMeas => rmStateDoMeas env goto
  | .waitMeas => rmStateWaitMeas goto
  | .sendReport => rmStateSendReport env goto
  | .recvReport => rmStateRecvReport goto
  | .ended => rmStateEnd env

end Handlers

def RmLocal.enter (l : RmLocal) (st : RmState) : RmLocal :=
  l.mapPrm fun o => { o with state := st, visited := o.visited ++ [st] }

def RmLocal.note (l : RmLocal) (evid : RmEvId) : RmLocal :=
  if evid = .cancel then l.mapPrm fun o => { o with cancelled := true } else l

def rmStateGoto (run : RmEvId → RmLocal → RmLocal) (st : RmState) (l : RmLocal) : RmLocal :=
  if l.freed then { l with fault := true }
  else if l.prm.state = st then l
  else
    let l := run .stateOut l
    if l.freed then { l with fault := true }
    else run .stateIn (l.enter st)

/-- `rm_state_run`, with a bound on how deep transitions nest. -/
def rmStateRun (env : RmEnv) : ℕ → RmEvId → RmLocal → RmLocal
  | 0, _, l => { l with fault := true }
  | n + 1, evid, l =>
    if l.freed then { l with fault := true }
    else rmFsm env (rmStateGoto (rmStateRun env n)) l.prm.state evid (l.note evid)

def rmNesting : ℕ := 6

/-! ## What a handler leaves alone -/

open RmLocal

/-- What only transitions and `rm_free_rmobj` change. -/
structure RmCore where
  freed : Bool
  fault : Bool
  state : RmState
  rmid : ℕ
  q : RmMeasReq
  pclock : ℕ
  reqStart : Option ℕ
  apChRpt : List ℕ

def RmCore.enter (c : RmCore) (st : RmState) : RmCore := { c with state := st }

namespace RmLocal

def core (l : RmLocal) : RmCore :=
  ⟨l.freed, l.fault, l.prm.state, l.prm.rmid, l.prm.q, l.prm.pclock, l.prm.reqStart,
    l.prm.apChRpt⟩

variable {l : RmLocal} {env : RmEnv} {ms mode : ℕ} {evid : RmEvId} {st : RmState}
  {fs : List RmFrame}

@[simp] theorem core_setClock : (l.setClock ms evid).core = l.core := rfl

@[simp] theorem core_cancelClock : l.cancelClock.core = l.core := rfl

@[simp] theorem core_enter : (l.enter st).core = l.core.enter st := rfl

@[simp] theorem core_setRepMode : (l.setRepMode mode).core = l.core := rfl

@[simp] theorem core_countRpt : l.countRpt.core = l.core := rfl

@[simp] theorem core_setWaitBusy {n : ℤ} : (l.setWaitBusy n).core = l.core := rfl

@[simp] theorem core_postEvent : (l.postEvent env evid).core = l.core := by
  unfold postEvent
  split <;> rfl

@[simp] theorem core_note : (l.note evid).core = l.core := by
  unfold note
  split <;> rfl

@[simp] theorem core_send : (l.send env fs).core = l.core := by
  unfold send
  split <;> rfl

@[simp] theorem core_issueNullReply : (l.issueNullReply env).core = l.core := by
  unfold issueNullReply
  dsimp only
  split
  · exact core_send
  · rfl

@[simp] theorem core_issueBeaconRep : (l.issueBeaconRep env).core = l.core := by
  unfold issueBeaconRep
  split
  · exact core_issueNullReply
  · exact core_send

@[simp] theorem core_issueRep : (l.issueRep env).core = l.core := core_send

@[simp] theorem core_rmSitesurvey : (l.rmSitesurvey env).core = l.core := by
  unfold rmSitesurvey
  split <;> rfl

@[simp] theorem core_retrieveRadioMeasResult :
    (l.retrieveRadioMeasResult env).core = l.core := by
  unfold retrieveRadioMeasResult core mapPrm
  dsimp only
  split_ifs <;> rfl

@[simp] theorem core_copyReq : (l.copyReq env).core = l.core := by
  unfold copyReq core mapPrm
  dsimp only
  split_ifs <;> rfl

@[simp] theorem core_rmIssueMeasReq : (l.rmIssueMeasReq env).2.core = l.core := by
  unfold rmIssueMeasReq
  dsimp only
  split_ifs <;> first | rfl | exact core_send

end RmLocal

section Transitions

variable {env : RmEnv} {l : RmLocal} {st : RmState} {ev : RmEvId} {n : ℕ}

theorem rmStateRun_eq (hfreed : l.freed = false) :
    rmStateRun env (n + 1) ev l =
      rmFsm env (rmStateGoto (rmStateRun env n)) l.prm.state ev (l.note ev) := by
  rw [rmStateRun, if_neg (by rw [hfreed]; exact Bool.false_ne_true)]

theorem rmFsm_stateOut {goto : RmState → RmLocal → RmLocal} (hst : st ≠ .ended) :
    rmFsm env goto st .stateOut l = l.cancelClock := by
  cases st <;> first | rfl | exact absurd rfl hst

/-- **A transition** stops the clock, changes the state and runs the entry of the new one. -/
theorem rmStateGoto_eq (hfreed : l.freed = false) (hended : l.prm.state ≠ .ended)
    (hst : l.prm.state ≠ st) :
    rmStateGoto (rmStateRun env (n + 1)) st l =
      rmFsm env (rmStateGoto (rmStateRun env n)) st .stateIn (l.cancelClock.enter st) := by
  have hout : rmStateRun env (n + 1) .stateOut l = l.cancelClock :=
    (rmStateRun_eq hfreed).trans (rmFsm_stateOut hended)
  have hin : rmStateRun env (n + 1) .stateIn (l.cancelClock.enter st) = _ := rmStateRun_eq hfreed
  have hcancel : l.cancelClock.freed = false := hfreed
  rw [rmStateGoto, hfreed, if_neg Bool.false_ne_true, if_neg hst, hout]
  dsimp only
  rw [hcancel, if_neg Bool.false_ne_true, hin]
  rfl

theorem rmStateGoto_ended (hfreed : l.freed = false) (hended : l.prm.state ≠ .ended) :
    rmStateGoto (rmStateRun env (n + 1)) .ended l =
      (l.cancelClock.enter .ended).postEvent env .stateOut :=
  rmStateGoto_eq hfreed hended hended

/-- A handler that does not free its object. -/
def Enters (c : RmCore) (l : RmLocal) : Prop := ∃ st, l.core = c.enter st

theorem Enters.of_core {c : RmCore} (h : l.core = c) : Enters c l := ⟨c.state, h⟩

/-- An object that is in use, in a state other than the last. -/
structure RmCore.Active (c : RmCore) : Prop where
  freed : c.freed = false
  state : c.state ≠ .ended

theorem core_goto_ended {c : RmCore} (hc : c.Active) (hl : l.core = c) :
    (rmStateGoto (rmStateRun env (n + 1)) .ended l).core = c.enter .ended := by
  subst hl
  rw [rmStateGoto_ended hc.freed hc.state]
  simp

theorem enters_goto {c : RmCore} (hc : c.Active) (hl : l.core = c) (hst : c.state ≠ st)
    (hin : ∀ l', l'.core = c.enter st →
      Enters (c.enter st) (rmFsm env (rmStateGoto (rmStateRun env n)) st .stateIn l')) :
    Enters c (rmStateGoto (rmStateRun env (n + 1)) st l) := by
  subst hl
  rw [rmStateGoto_eq hc.freed hc.state hst]
  exact hin _ rfl

theorem enters_goto_ended {c : RmCore} (hc : c.Active) (hl : l.core = c) :
    Enters c (rmStateGoto (rmStateRun env (n + 1)) .ended l) :=
  ⟨.ended, core_goto_ended hc hl⟩

theorem enters_sendReport {c : RmCore} (hc : c.Active) (hl : l.core = c) :
    Enters c (rmStateSendReport env (rmStateGoto (rmStateRun env (n + 1))) .stateIn l) := by
  unfold rmStateSendReport
  dsimp only
  split_ifs
  all_goals first
    | exact enters_goto_ended hc (by simp [hl])
    | exact .of_core (by simp [hl])

theorem enters_goto_sendReport {c : RmCore} (hc : c.Active) (hl : l.core = c)
    (hst : c.state ≠ .sendReport) :
    Enters c (rmStateGoto (rmStateRun env (n + 2)) .sendReport l) :=
  enters_goto hc hl hst fun _ hl' => enters_sendReport ⟨hc.freed, RmState.noConfusion⟩ hl'

theorem enters_doMeas {c : RmCore} (hc : c.Active) (hl : l.core = c) (hst : c.state = .doMeas) :
    Enters c (rmStateDoMeas env (rmStateGoto (rmStateRun env (n + 2))) .stateIn l) := by
  unfold rmStateDoMeas
  dsimp only
  split_ifs
  all_goals first
    | exact enters_goto_ended hc hl
    | exact .of_core (by simp [hl])
    | exact enters_goto_sendReport hc hl (hst ▸ RmState.noConfusion)

theorem enters_recvReport {c : RmCore} (hc : c.Active) (hl : l.core = c)
    (hst : c.state = .recvReport) :
    Enters c (rmStateRecvReport (rmStateGoto (rmStateRun env (n + 1))) .stateIn l) := by
  unfold rmStateRecvReport
  dsimp only
  split_ifs
  · exact enters_goto hc hl (hst ▸ RmState.noConfusion) fun _ hl' =>
      .of_core hl'
  · exact enters_goto_ended hc hl

theorem enters_goto_doMeas {c : RmCore} (hc : c.Active) (hl : l.core = c)
    (hst : c.state ≠ .doMeas) : Enters c (rmStateGoto (rmStateRun env (n + 3)) .doMeas l) :=
  enters_goto hc hl hst fun _ hl' => enters_doMeas ⟨hc.freed, RmState.noConfusion⟩ hl' rfl

/-- The requests that can be sent. -/
def RmMeasReq.Issuable (q : RmMeasReq) : Prop :=
  q.actionCode = rmActRadioMeasReq ∨ q.actionCode = rmActNbRepReq ∨
    q.actionCode = rmActLinkMeasReq

theorem rmIssueMeasReq_fst (h : l.prm.q.Issuable) : (l.rmIssueMeasReq env).1 = true := by
  unfold rmIssueMeasReq
  dsimp only
  split
  · rfl
  · rename_i hradio
    rw [if_pos (h.resolve_left hradio)]

theorem core_goto_waitMeas {c : RmCore} (hc : c.Active) (hl : l.core = c)
    (hst : c.state ≠ .waitMeas) :
    (rmStateGoto (rmStateRun env (n + 1)) .waitMeas l).core = c.enter .waitMeas := by
  subst hl
  rw [rmStateGoto_eq hc.freed hc.state hst]
  rfl

theorem enters_idle {c : RmCore} (hc : c.Active) (hl : l.core = c) (hst : c.state = .idle)
    (hmaster : l.prm.isMaster = true → l.prm.q.Issuable) :
    Enters c (rmStateIdle env (rmStateGoto (rmStateRun env (n + 4))) .stateIn l) := by
  have hcopy : (l.copyReq env).core = c := core_copyReq.trans hl
  have hsame : (l.copyReq env).prm.isMaster = l.prm.isMaster ∧ (l.copyReq env).prm.q = l.prm.q := by
    have h : (l.copyReq env).core = l.core := core_copyReq
    exact ⟨congrArg (fun r : ℕ => decide (r % 2 = 1)) (congrArg RmCore.rmid h), congrArg RmCore.q h⟩
  unfold rmStateIdle
  dsimp only
  generalize l.copyReq env = k at hcopy hsame ⊢
  cases hm : k.prm.isMaster with
  | false =>
    rw [if_neg Bool.false_ne_true]
    exact enters_goto_doMeas hc hcopy (hst ▸ RmState.noConfusion)
  | true =>
    have hissue : (k.rmIssueMeasReq env).1 = true :=
      rmIssueMeasReq_fst (hsame.2.symm ▸ hmaster (hsame.1 ▸ hm))
    have hwait : (rmStateGoto (rmStateRun env (n + 4)) .waitMeas (k.rmIssueMeasReq env).2).core =
        c.enter .waitMeas :=
      core_goto_waitMeas hc (core_rmIssueMeasReq.trans hcopy) (hst ▸ RmState.noConfusion)
    rw [if_pos rfl, if_pos hissue]
    generalize rmStateGoto _ .waitMeas _ = r at hwait ⊢
    split
    · exact ⟨.waitMeas, hwait⟩
    · exact enters_goto_doMeas (c := c.enter .waitMeas) ⟨hc.freed, RmState.noConfusion⟩ hwait
        RmState.noConfusion

/-- **No handler frees its object before the last state**, or uses one that is freed. -/
theorem rmStateRun_enters {c : RmCore} (hc : c.Active) (hl : l.core = c)
    (hmaster : l.prm.isMaster = true → l.prm.q.Issuable) (ev : RmEvId) :
    Enters c (rmStateRun env (n + 5) ev l) := by
  have hstate : l.prm.state = c.state := congrArg RmCore.state hl
  have hnote : (l.note ev).core = c := core_note.trans hl
  rw [rmStateRun_eq ((congrArg RmCore.freed hl).trans hc.freed), hstate]
  cases hst : c.state with
  | idle =>
    cases ev with
    | stateIn => exact enters_idle hc hnote hst hmaster
    | delayTimerExpire => exact enters_goto_doMeas hc hnote (hst ▸ RmState.noConfusion)
    | cancel => exact enters_goto_ended hc hnote
    | stateOut => exact .of_core hnote
    | _ => exact .of_core hnote
  | doMeas =>
    have hsend : c.state ≠ .sendReport := hst ▸ RmState.noConfusion
    have hrefuse : (((l.note ev).setRepMode measRepModRefuse).issueNullReply env).core = c := by
      simp [hl]
    cases ev with
    | stateIn => exact enters_doMeas hc hnote hst
    | startMeas =>
      unfold rmFsm rmStateDoMeas
      dsimp only
      split_ifs
      · exact .of_core (by simp [hl])
      · exact enters_goto_ended hc hnote
      · exact .of_core (by simp [hl])
    | surveyDone =>
      unfold rmFsm rmStateDoMeas
      dsimp only
      split_ifs
      · exact enters_goto_sendReport hc hnote hsend
      · exact enters_goto_sendReport hc (by simp [hl]) hsend
      · exact .of_core (by simp [hl])
      · exact enters_goto_ended hc hnote
      · exact .of_core hnote
    | busyTimerExpire =>
      unfold rmFsm rmStateDoMeas
      dsimp only
      split_ifs
      all_goals first
        | exact enters_goto_ended hc (by simp [hl])
        | exact .of_core (by simp [hl])
    | measTimerExpire | requestTimerExpire | cancel => exact enters_goto_ended hc hrefuse
    | retryTimerExpire => exact .of_core (core_postEvent.trans hnote)
    | _ => exact .of_core hnote
  | waitMeas =>
    cases ev with
    | recvRep =>
      exact enters_goto hc hnote (hst ▸ RmState.noConfusion) fun _ hl' =>
        enters_recvReport ⟨hc.freed, RmState.noConfusion⟩ hl' rfl
    | requestTimerExpire | cancel => exact enters_goto_ended hc hnote
    | _ => exact .of_core hnote
  | sendReport =>
    cases ev with
    | stateIn => exact enters_sendReport hc hnote
    | repeatDelayExpire => exact enters_goto_doMeas hc hnote (hst ▸ RmState.noConfusion)
    | cancel => exact enters_goto_ended hc hnote
    | _ => exact .of_core hnote
  | recvReport =>
    cases ev with
    | stateIn => exact enters_recvReport hc hnote hst
    | cancel => exact enters_goto_ended hc hnote
    | _ => exact .of_core hnote
  | ended => exact absurd hst hc.state

/-- **An object is freed in its last state**, by any event but the entry. -/
theorem rmStateRun_ended (hfreed : l.freed = false) (hst : l.prm.state = .ended) :
    rmStateRun env (n + 1) ev l =
      if ev = .stateIn then l.postEvent env .stateOut else (l.note ev).rmFreeRmobj := by
  rw [rmStateRun_eq hfreed, hst]
  cases ev <;> rfl

@[simp] theorem events_note : (l.note ev).events = l.events := by
  unfold note
  split <;> rfl

@[simp] theorem events_issueNullReply : (l.issueNullReply env).events = l.events := by
  unfold issueNullReply send
  dsimp only
  split_ifs <;> rfl

/-- **A cancelled object is in its last state**, and has posted nothing but the event that frees
it. -/
theorem rmStateRun_cancel {c : RmCore} (hc : c.Active) (hl : l.core = c) :
    ∃ k : RmLocal, k.core = c ∧ k.events = l.events ∧
      rmStateRun env (n + 5) .cancel l = (k.cancelClock.enter .ended).postEvent env .stateOut := by
  have hnote : (l.note .cancel).core = c := core_note.trans hl
  rw [rmStateRun_eq ((congrArg RmCore.freed hl).trans hc.freed)]
  have hstate : l.core.state ≠ .ended := hl ▸ hc.state
  -- every handler ends the measurement, and one of them refuses it first
  obtain ⟨k, hk, hevents, hgoto⟩ : ∃ k : RmLocal, k.core = c ∧ k.events = l.events ∧
      rmFsm env (rmStateGoto (rmStateRun env (n + 4))) l.prm.state .cancel (l.note .cancel) =
        rmStateGoto (rmStateRun env (n + 4)) .ended k := by
    cases hst : l.prm.state with
    | ended => exact absurd hst hstate
    | doMeas =>
      exact ⟨((l.note .cancel).setRepMode measRepModRefuse).issueNullReply env, by simp [hl],
        events_issueNullReply.trans events_note, rfl⟩
    | _ => exact ⟨l.note .cancel, hnote, events_note, rfl⟩
  subst hk
  exact ⟨k, rfl, hevents, hgoto.trans (rmStateGoto_ended hc.freed hc.state)⟩

end Transitions

end Rtl88x2eu.Rm
