import Rtl88x2eu.Lib.Transition
import Rtl88x2eu.Rm.Fsm

/-!
# Measurements, events and clocks

Requests make objects, which take a clock slot and stand in a queue. Events name objects by their
id. An event is first a command; the command thread puts it into the event queue and has that queue
handled. Ticks of the timer count the clocks down.

The octets of a beacon request are given by the sub-elements that its parser visits.

## Main definitions

* `RmPriv`
* `rmAllocRmobj`, `rmEnqueueRmobj`, `rmRecvRadioMensReq`, `rmRecvLinkMensReq`, `rmAddNbReq`
* `RmPriv.runObj`, `rmHandlerRound`, `rmTimerCallback`, `rtwDeinitRm`
* `RmEvent`, `rmStep`: one step
-/

namespace Rtl88x2eu.Rm

structure RmClock where
  prm : Option ℕ := none
  counter : ℕ := 0
  evid : RmEvId := .max
deriving DecidableEq

def rmTimerNum : ℕ := 32

/-- `struct rm_priv`, the objects in memory, and the commands. -/
structure RmPriv where
  enable : Bool := true
  evQueue : List (ℕ × RmEvId) := []
  rmQueue : List ℕ := []
  clock : ℕ → RmClock := fun _ => {}
  /-- `rm_en_cap_def`, by `enum rm_cap_en`. -/
  enCap : ℕ → Bool := fun _ => true
  measToken : ℕ := 1
  /-- `pmlmeinfo->dialogToken`. -/
  dialogToken : ℕ := 0
  /-- The objects that are allocated. -/
  obj : ℕ → Option RmObj := fun _ => none
  nextObj : ℕ := 0
  /-- What request parsers have allocated. -/
  blocks : List ℕ := []
  nextBlock : ℕ := 0
  /-- The `CMD_RM_POST_EVENT` commands. -/
  cmdQueue : List (ℕ × RmEvId) := []
  /-- The command thread is in `rm_handler`. -/
  handling : Bool := false
  surveys : List ℕ := []
  /-- The objects that were freed. -/
  gone : List RmObj := []
  /-- For every `rtw_deinit_rm`, whether it left both queues empty. -/
  deinits : List Bool := []
  /-- An object was used or freed after it was freed. -/
  fault : Bool := false

namespace RmPriv

def rmPostEvent (w : RmPriv) (rmid : ℕ) (evid : RmEvId) (cmd : Bool) : RmPriv :=
  if w.enable && cmd then { w with cmdQueue := w.cmdQueue ++ [(rmid, evid)] } else w

def setObj (w : RmPriv) (id : ℕ) (o : Option RmObj) : RmPriv :=
  { w with obj := Function.update w.obj id o }

def setClockSlot (w : RmPriv) (i : ℕ) (c : RmClock) : RmPriv :=
  { w with clock := Function.update w.clock i c }

def freeSlot (w : RmPriv) : Option ℕ :=
  (List.range rmTimerNum).find? fun i => (w.clock i).prm.isNone

def rmAllocRmobj (w : RmPriv) : ℕ × RmPriv :=
  let prm := w.nextObj
  let w := { w with nextObj := prm + 1 }
  match w.freeSlot with
  | some i => (prm, (w.setClockSlot i { prm := some prm }).setObj prm (some { pclock := i }))
  | none => (prm, w.setObj prm (some { pclock := rmTimerNum - 1 }))

/-- `rm_enqueue_rmobj` at the tail, with `rm_state_initial`. -/
def rmEnqueueRmobj (w : RmPriv) (prm : ℕ) (rmid : ℕ) (cmd : Bool) : RmPriv :=
  { w with rmQueue := w.rmQueue ++ [prm] }.rmPostEvent rmid .stateIn cmd

def rmGenRmid (aid diagToken role : ℕ) : ℕ :=
  if diagToken = 0 then 0 else aid * 65536 + diagToken * 256 + role

/-- An object with its request. -/
def fillRmobj (w : RmPriv) (prm rmid : ℕ) (q : RmMeasReq) (p : RmMeasRep)
    (reqStart : Option ℕ) (apChRpt : List ℕ) : RmPriv :=
  w.setObj prm ((w.obj prm).map fun o =>
    { o with rmid := rmid, q := q, p := p, reqStart := reqStart, apChRpt := apChRpt })

end RmPriv

/-! ## Requests -/

/-- A sub-element of a beacon request, and whether there is memory for its content. -/
structure BcnSub where
  id : ℕ
  malloc : Bool := true

/-- What `rm_parse_bcn_req_s_elem` has made of the sub-elements so far. -/
structure BcnOpt where
  optIdNum : ℕ := 0
  reqStart : Option ℕ := none
  apChRpt : List ℕ := []
  /-- What was allocated. -/
  blocks : List ℕ := []
  /-- The report condition is not supported. -/
  incap : Bool := false

/-- One round of the loop. The channel report is written to without a look at its address: memory
for it is there. -/
def BcnOpt.visit (nextBlock : ℕ) (repCond : Bool) (b : BcnOpt) (s : BcnSub) : BcnOpt :=
  let block := nextBlock + b.blocks.length
  if b.optIdNum < 16 then
    match s.id with
    | 0 | 2 => { b with optIdNum := b.optIdNum + 1 }
    | 1 => { b with incap := b.incap || !repCond }
    | 10 =>
      if s.malloc then
        { b with
          reqStart := some block, blocks := b.blocks ++ [block], optIdNum := b.optIdNum + 1 }
      else { b with reqStart := none }
    | 51 =>
      if b.apChRpt.length < 12 then
        { b with
          apChRpt := b.apChRpt ++ [block], blocks := b.blocks ++ [block]
          optIdNum := b.optIdNum + 1 }
      else b
    | _ => b
  else b

/-- `rm_parse_bcn_req_s_elem`, on the sub-elements that it visits. -/
def rmParseBcnReqSElem (nextBlock : ℕ) (repCond : Bool) (subs : List BcnSub) : BcnOpt :=
  subs.foldl (BcnOpt.visit nextBlock repCond) {}

structure RadioReq where
  aid : ℕ
  diagToken : ℕ
  rpt : ℕ := 0
  eId : ℕ := 38
  mToken : ℕ := 0
  mMode : ℕ := 0
  bcnMode : ℕ := 0
  mType : ℕ := 5
  opClass : ℕ := 0
  chNum : ℕ := 0
  randIntvl : ℕ := 0
  cond : ℕ := 0
  threshold : ℕ := 0
  subs : List BcnSub := []

/-- `enum rm_cap_en`, as far as requests are checked. -/
def rmBcnPassiveMeasCapEn : ℕ := 4
def rmBcnActiveMeasCapEn : ℕ := 5
def rmBcnTableMeasCapEn : ℕ := 6
def rmBcnMeasRepCondCapEn : ℕ := 7
def rmChLoadCapEn : ℕ := 9
def rmNoiseHistoCapEn : ℕ := 10

/-- Whether the request is one that is supported. -/
def RadioReq.capable (r : RadioReq) (enCap : ℕ → Bool) : Bool :=
  if r.mType = bcnReq then
    match r.mMode with
    | 0 => enCap rmBcnPassiveMeasCapEn
    | 1 => enCap rmBcnActiveMeasCapEn
    | 2 => enCap rmBcnTableMeasCapEn
    | _ => false
  else if r.mType = chLoadReq then enCap rmChLoadCapEn
  else if r.mType = noiseHistoReq then enCap rmNoiseHistoCapEn
  else false

def RadioReq.parsed (r : RadioReq) (w : RmPriv) : BcnOpt :=
  if r.mType = bcnReq then
    rmParseBcnReqSElem w.nextBlock (w.enCap rmBcnMeasRepCondCapEn) r.subs
  else {}

/-- The request, with what `rm_parse_meas_req` adds to it. -/
def RadioReq.q (r : RadioReq) : RmMeasReq :=
  let q : RmMeasReq :=
    { diagToken := r.diagToken, rpt := r.rpt, eId := r.eId, mToken := r.mToken, mMode := r.mMode
      mType := r.mType }
  if r.mType = bcnReq then
    { q with opClass := r.opClass, chNum := r.chNum, randIntvl := r.randIntvl, mMode := r.bcnMode }
  else if r.mType = chLoadReq ∨ r.mType = noiseHistoReq then
    { q with
      opClass := r.opClass, chNum := r.chNum, randIntvl := r.randIntvl
      cond := r.cond, threshold := r.threshold }
  else q

/-- What a reply leaves in the report of its object. -/
def RmMeasRep.recv (p : RmMeasRep) (diagToken : ℕ) (rep : RmMeasRep) : RmMeasRep :=
  let p := { p with actionCode := rep.actionCode, diagToken := diagToken }
  if rep.actionCode = rmActRadioMeasRep then
    { p with eId := rep.eId, mToken := rep.mToken, mMode := rep.mMode, mType := rep.mType }
  else if rep.actionCode = rmActNbRepResp then { p with eId := rep.eId }
  else p

namespace RmPriv

def rmRecvRadioMensReq (w : RmPriv) (r : RadioReq) (cmd : Bool) : RmPriv :=
  let (prm, w) := w.rmAllocRmobj
  let rmid := rmGenRmid r.aid r.diagToken 0
  if r.eId ≠ 38 then
    let q : RmMeasReq :=
      { diagToken := r.diagToken, rpt := r.rpt, eId := r.eId, mToken := r.mToken, mMode := r.mMode
        mType := r.mType }
    -- the object is in no queue
    w.fillRmobj prm rmid q {} none []
  else
    let b := r.parsed w
    let mMode := if r.capable w.enCap && !b.incap then 0 else measRepModIncap
    let w := { w with blocks := w.blocks ++ b.blocks, nextBlock := w.nextBlock + b.blocks.length }
    (w.fillRmobj prm rmid r.q { mMode := mMode } b.reqStart b.apChRpt).rmEnqueueRmobj prm rmid cmd

def rmRecvLinkMensReq (w : RmPriv) (aid diagToken : ℕ) (cmd : Bool) : RmPriv :=
  let (prm, w) := w.rmAllocRmobj
  let rmid := rmGenRmid aid diagToken 0
  (w.fillRmobj prm rmid { actionCode := rmActLinkMeasReq, diagToken := diagToken } {} none
    []).rmEnqueueRmobj prm rmid cmd

/-- `rm_gen_dialog_token`, `rm_gen_meas_token`: tokens are octets other than zero. -/
def nextToken (t : ℕ) : ℕ := if (t + 1) % 256 = 0 then 1 else (t + 1) % 256

def rmMaster : ℕ := 1

def rmAddNbReq (w : RmPriv) (aid : ℕ) (cmd : Bool) : RmPriv :=
  let (prm, w) := w.rmAllocRmobj
  let diagToken := nextToken w.dialogToken
  let mToken := nextToken w.measToken
  let w := { w with dialogToken := diagToken, measToken := mToken }
  let rmid := rmGenRmid aid diagToken rmMaster
  (w.fillRmobj prm rmid
    { actionCode := rmActNbRepReq, diagToken := diagToken, mToken := mToken } {} none
    []).rmEnqueueRmobj prm rmid cmd

/-! ## Events -/

def view (w : RmPriv) (o : RmObj) : RmLocal :=
  { prm := o, counter := (w.clock o.pclock).counter, evid := (w.clock o.pclock).evid }

/-- The blocks that `rm_free_rmobj` frees. -/
def released (o : RmObj) : List ℕ := o.reqStart.toList

/-- What a handler of object `prm` leaves. An object that is freed goes out of the queue, and its
slot and what its parser allocated are freed with it. -/
def absorb (w : RmPriv) (prm : ℕ) (l : RmLocal) : RmPriv :=
  let w := { w with
    evQueue := w.evQueue ++ l.events, surveys := w.surveys ++ l.surveys
    fault := w.fault || l.fault }
  if l.freed then
    { (w.setObj prm none).setClockSlot l.prm.pclock {} with
      rmQueue := w.rmQueue.filter (· ≠ prm)
      blocks := w.blocks.filter (· ∉ released l.prm)
      gone := w.gone ++ [l.prm] }
  else
    (w.setObj prm (some l.prm)).setClockSlot l.prm.pclock
      { w.clock l.prm.pclock with counter := l.counter, evid := l.evid }

def runObj (w : RmPriv) (env : RmEnv) (evid : RmEvId) (prm : ℕ) : RmPriv :=
  match w.obj prm with
  | none => { w with fault := true }
  | some o => w.absorb prm (rmStateRun env rmNesting evid (w.view o))

def rmGetRmobj (w : RmPriv) (rmid : ℕ) : Option ℕ :=
  if rmid = 0 then none else w.rmQueue.find? fun prm => (w.obj prm).any (·.rmid = rmid)

def rmGetAid (rmid : ℕ) : ℕ := rmid / 65536

def rmIsIdForAll (rmid : ℕ) : Bool := rmid.testBit 1

def rmBcastAidHandler (env : ℕ → RmEnv) (w : RmPriv) (rmid : ℕ) (evid : RmEvId) : RmPriv :=
  w.rmQueue.foldl (fun w prm =>
    match w.obj prm with
    | none => { w with fault := true }
    | some o => if rmGetAid o.rmid = rmGetAid rmid then w.runObj (env prm) evid prm else w) w

def look (w : RmPriv) : RmPriv :=
  { w with fault := w.fault || w.rmQueue.any fun prm => (w.obj prm).isNone }

/-- One round of `rm_handler`. It ends with the queue, and with an event that finds no object. -/
def rmHandlerRound (w : RmPriv) (env : ℕ → RmEnv) : RmPriv :=
  match w.evQueue with
  | [] => { w with handling := false }
  | (rmid, evid) :: rest =>
    let w := { w with evQueue := rest }
    if rmIsIdForAll rmid then w.rmBcastAidHandler env rmid evid
    else
      let w := w.look
      match w.rmGetRmobj rmid with
      | none => { w with handling := false }
      | some prm => w.runObj (env prm) evid prm

/-- `rm_post_event_hdl`, up to the loop. -/
def rmPostEventHdl (w : RmPriv) (rmid : ℕ) (evid : RmEvId) (malloc : Bool) : RmPriv :=
  let w := { w with handling := true }
  if evid = .max ∨ rmid = 0 ∨ malloc = false then w
  else { w with evQueue := w.evQueue ++ [(rmid, evid)] }

def rmRecvRep (w : RmPriv) (aid diagToken : ℕ) (rep : RmMeasRep) (cmd : Bool) : RmPriv :=
  let w := w.look
  let rmid := aid * 65536 + diagToken * 256 + rmMaster
  match w.rmGetRmobj rmid with
  | none => w
  | some prm =>
    if rep.actionCode = rmActRadioMeasRep ∨ rep.actionCode = rmActLinkMeasRep ∨
        rep.actionCode = rmActNbRepResp then
      let w := w.setObj prm ((w.obj prm).map fun o => { o with p := o.p.recv diagToken rep })
      if rep.actionCode = rmActRadioMeasRep ∧ rep.eId ≠ 39 then w
      else w.rmPostEvent rmid .recvRep cmd
    else w

def tickSlot (cmd : Bool) (w : RmPriv) (i : ℕ) : RmPriv :=
  let c := w.clock i
  match c.prm with
  | none => w
  | some prm =>
    if c.counter = 0 then w
    else
      let w := w.setClockSlot i { c with counter := c.counter - 1 }
      if c.counter = 1 then
        match w.obj prm with
        | none => { w with fault := true }
        | some o => w.rmPostEvent o.rmid c.evid cmd
      else w

def rmTimerCallback (w : RmPriv) (cmd : Bool) : RmPriv :=
  (List.range rmTimerNum).foldl (tickSlot cmd) w

/-- The loop of `rtw_deinit_rm`, which looks at the first object until there is none. -/
def deinitLoop (env : ℕ → RmEnv) : ℕ → RmPriv → RmPriv
  | 0, w => w
  | n + 1, w =>
    match w.rmQueue with
    | [] => w
    | prm :: _ => deinitLoop env n (w.runObj (env prm) .cancel prm)

def rtwDeinitRm (w : RmPriv) (env : ℕ → RmEnv) : RmPriv :=
  let w := { w with enable := false, evQueue := [] }
  let w := deinitLoop env (2 * w.rmQueue.length) w
  { w with deinits := w.deinits ++ [w.evQueue.isEmpty && w.rmQueue.isEmpty] }

end RmPriv

/-- `malloc` says whether there is memory, `cmd` whether a command can be queued. -/
inductive RmEvent
  | radioReq (r : RadioReq) (malloc cmd : Bool)
  | linkReq (aid diagToken : ℕ) (malloc cmd : Bool)
  | addNbReq (aid : ℕ) (malloc cmd : Bool)
  | recvRep (aid diagToken : ℕ) (rep : RmMeasRep) (cmd : Bool)
  | post (rmid : ℕ) (evid : RmEvId) (cmd : Bool)
  | surveyDone (k : ℕ) (cmd : Bool)
  /-- The command thread takes a command. -/
  | hdl (k : ℕ) (malloc : Bool)
  /-- It goes on with `rm_handler`. -/
  | round (env : ℕ → RmEnv)
  | tick (cmd : Bool)
  | deinit (env : ℕ → RmEnv)

open RmPriv

/-- One step. Nothing is said about what comes after a use of freed memory. -/
def rmStep (w : RmPriv) (e : RmEvent) : Option RmPriv :=
  if w.fault then none
  else
    match e with
    | .radioReq r malloc cmd => some (if malloc then w.rmRecvRadioMensReq r cmd else w)
    | .linkReq aid diagToken malloc cmd =>
      some (if malloc then w.rmRecvLinkMensReq aid diagToken cmd else w)
    | .addNbReq aid malloc cmd => some (if malloc then w.rmAddNbReq aid cmd else w)
    | .recvRep aid diagToken rep cmd => some (w.rmRecvRep aid diagToken rep cmd)
    | .post rmid evid cmd => some (w.rmPostEvent rmid evid cmd)
    | .surveyDone k cmd =>
      w.surveys[k]?.map fun token =>
        let w := { w with surveys := w.surveys.eraseIdx k }
        if token = 0 then w else w.rmPostEvent token .surveyDone cmd
    | .hdl k malloc =>
      if w.handling then none
      else w.cmdQueue[k]?.map fun e =>
        { w with cmdQueue := w.cmdQueue.eraseIdx k }.rmPostEventHdl e.1 e.2 malloc
    | .round env => if w.handling then some (w.rmHandlerRound env) else none
    | .tick cmd => if w.enable then some (w.rmTimerCallback cmd) else none
    | .deinit env => if w.handling then none else some (w.rtwDeinitRm env)

end Rtl88x2eu.Rm
