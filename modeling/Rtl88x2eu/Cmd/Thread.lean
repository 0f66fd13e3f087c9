import Rtl88x2eu.Lib.Transition

/-!
# The command queue

`rtw_enqueue_cmd` and `rtw_cmd_thread` of `rtw_cmd.c`, for the build without
`CONFIG_CONCURRENT_MODE` and without `CONFIG_LPS_LCLK`. Any number of callers enqueue commands while
the command thread takes them, executes them, leaves its loop when the driver is stopped or the
device is gone, and drains the queue. A step of the system is one access to what they share.

The buffers that are freed and the submit contexts that are completed are recorded in a log. What a
command handler does is left to the environment; of it the queue only sees the return code. A caller
that waits for its context in vain and detaches it is real time and left out.

## Main definitions

* `CmdObj`: `struct cmd_obj`, named by the order in which the commands were passed in
* `rtwCmdFilter`, `refuse`: admission, and what `rtw_enqueue_cmd` does without it
* `execute`, `drop`: the end of a command in the thread
* `Caller.advance`, `advanceThread`, `step`: the steps
-/

namespace Rtl88x2eu.Cmd

open Transition

/-! ## Commands -/

/-- `struct drvextra_cmd_parm`, the parameter of a `CMD_SET_DRV_EXTRA`. -/
structure DrvextraCmdParm where
  ecId : ℕ := 0
  type : ℕ := 0
  size : ℕ := 0
  pbuf : Bool := false
  deriving DecidableEq

/-- `struct cmd_obj`; the pointers are true where they are not `NULL`. -/
structure CmdObj where
  /-- the how-manieth command it is -/
  id : ℕ := 0
  cmdcode : ℕ
  extra : DrvextraCmdParm := {}
  parmbuf : Bool := true
  cmdsz : ℕ := 0
  rsp : Bool := false
  rspsz : ℕ := 0
  sctx : Bool := false
  noIo : Bool := false
  deriving DecidableEq

def maxCmdsz : ℕ := 1536

def cmdDisconnect : ℕ := 1
def cmdSetStakey : ℕ := 7
def cmdSetDrvExtra : ℕ := 12
def cmdSetChanplan : ℕ := 13
def cmdIdMax : ℕ := 29

def powerSavingCtrlWkCid : ℕ := 5

def ipsCtrlLeaveSetMode : ℕ := 1

/-- The codes of `cmd_obj->res`. -/
def h2cSuccess : ℕ := 0
def h2cDropped : ℕ := 3
def h2cParametersError : ℕ := 4

/-- How a submit context is completed. -/
inductive SctxStatus where
  | success | cmdError | cmdDrop
  deriving DecidableEq

/-- The buffers of a command. -/
inductive Buf where
  | pbuf | parmbuf | rsp | obj
  deriving DecidableEq

/-- What happens to a command for good. -/
inductive Act where
  | mfree (id : ℕ) (buf : Buf)
  | sctxDone (id : ℕ) (status : SctxStatus)
  deriving DecidableEq

def Act.id : Act → ℕ
  | mfree id _ => id
  | sctxDone id _ => id

def rtwFreeCmdObj (c : CmdObj) : List Act :=
  (if c.parmbuf then [.mfree c.id .parmbuf] else []) ++
    (if c.rsp ∧ c.rspsz ≠ 0 then [.mfree c.id .rsp] else []) ++ [.mfree c.id .obj]

def freePbuf (c : CmdObj) : List Act :=
  if c.cmdcode = cmdSetDrvExtra ∧ c.extra.pbuf ∧ c.extra.size > 0 then [.mfree c.id .pbuf] else []

def sctxDoneErr (c : CmdObj) (status : SctxStatus) : List Act :=
  if c.sctx then [.sctxDone c.id status] else []

/-- Where the command thread stands. -/
inductive Pc where
  | starting
  /-- in front of `_rtw_down_sema` -/
  | waiting
  /-- in front of the check behind it -/
  | woken
  /-- in front of the check for an empty queue -/
  | peeking
  /-- at `_next` -/
  | next
  | dequeuing
  | executing (c : CmdObj)
  /-- behind the loop -/
  | leaving
  | draining
  | dropping (c : CmdObj)
  | finished
  deriving DecidableEq

/-- `struct cmd_priv` and the flags of the adapter, with the thread. -/
structure CmdPriv where
  hwInitCompleted : Bool := true
  drvStopped : Bool := false
  surpriseRemoved : Bool := false
  cmdthdRunning : Bool := false
  cmdQueue : List CmdObj := []
  cmdQueueSema : ℕ := 0
  thread : Pc := .starting
  log : List Act := []
  deriving DecidableEq

def rtwCannotRun (s : CmdPriv) : Bool := s.surpriseRemoved || s.drvStopped

def rtwCmdFilter (s : CmdPriv) (c : CmdObj) : Bool :=
  let bAllow := decide (c.cmdcode = cmdSetChanplan) || c.noIo
  if c.cmdcode = cmdSetDrvExtra ∧ c.extra.ecId = powerSavingCtrlWkCid ∧
    c.extra.type = ipsCtrlLeaveSetMode then true
  else !(!s.hwInitCompleted && !bAllow || !s.cmdthdRunning)

inductive Caller where
  | entered (c : CmdObj)
  | admitted (c : CmdObj)
  | inserted (c : CmdObj)
  /-- it has returned, true for `_SUCCESS` -/
  | returned (c : CmdObj) (res : Bool)
  deriving DecidableEq

def Caller.cmd : Caller → CmdObj
  | entered c | admitted c | inserted c => c
  | returned c _ => c

def refuse (c : CmdObj) : List Act := freePbuf c ++ rtwFreeCmdObj c

/-- The steps of `rtw_enqueue_cmd`: admission, the insertion under the lock, the semaphore. A
command that is too long is freed, but `res` is what the filter said. -/
def Caller.advance (s : CmdPriv) : Caller → Option (CmdPriv × Caller)
  | entered c =>
    let res := rtwCmdFilter s c
    if res = false ∨ maxCmdsz < c.cmdsz then
      some ({ s with log := s.log ++ refuse c }, returned c res)
    else some (s, admitted c)
  | admitted c => some ({ s with cmdQueue := s.cmdQueue ++ [c] }, inserted c)
  | inserted c => some ({ s with cmdQueueSema := s.cmdQueueSema + 1 }, returned c true)
  | returned _ _ => none

/-- `pcmd->res`; `ret` is what the handler returns. -/
def cmdRes (s : CmdPriv) (c : CmdObj) (ret : ℕ) : ℕ :=
  if maxCmdsz < c.cmdsz then h2cParametersError
  else if cmdIdMax ≤ c.cmdcode then h2cParametersError
  else if rtwCmdFilter s c = false then h2cDropped
  else ret

/-- The callback of the command, or `rtw_free_cmd_obj` where `wlancmds` has none.
`rtw_joinbss_cmd_callback`, `rtw_survey_cmd_callback` and `rtw_setstaKey_cmdrsp_callback` free the
command as well; `rtw_disassoc_cmd_callback` leaves at once when the command failed. -/
def cmdCallback (c : CmdObj) (res : ℕ) : List Act :=
  if c.cmdcode = cmdDisconnect ∧ res ≠ h2cSuccess then [] else rtwFreeCmdObj c

/-- From the dequeue to the end of `post_process`. -/
def execute (s : CmdPriv) (c : CmdObj) (ret : ℕ) : List Act :=
  let res := cmdRes s c ret
  (if res = h2cDropped ∧ rtwCmdFilter s c = false then freePbuf c else []) ++
    sctxDoneErr c (if res = h2cSuccess then .success else .cmdError) ++ cmdCallback c res

/-- The final drain frees a command. -/
def drop (c : CmdObj) : List Act := freePbuf c ++ sctxDoneErr c .cmdDrop ++ rtwFreeCmdObj c

/-- The steps of `rtw_cmd_thread`; `signal` interrupts the wait, `ret` is the handler's. -/
def advanceThread (s : CmdPriv) (signal : Bool) (ret : ℕ) : Option CmdPriv :=
  match s.thread with
  | .starting => some { s with cmdthdRunning := true, thread := .waiting }
  | .waiting =>
    if signal then some { s with thread := .leaving }
    else if s.cmdQueueSema = 0 then none
    else some { s with cmdQueueSema := s.cmdQueueSema - 1, thread := .woken }
  | .woken => some { s with thread := if rtwCannotRun s then .leaving else .peeking }
  | .peeking => some { s with thread := if s.cmdQueue.isEmpty then .waiting else .next }
  | .next => some { s with thread := if rtwCannotRun s then .leaving else .dequeuing }
  | .dequeuing =>
    match s.cmdQueue with
    | [] => some { s with thread := .waiting }
    | c :: queue => some { s with cmdQueue := queue, thread := .executing c }
  | .executing c => some { s with log := s.log ++ execute s c ret, thread := .next }
  | .leaving => some { s with cmdthdRunning := false, thread := .draining }
  | .draining =>
    match s.cmdQueue with
    | [] => some { s with thread := .finished }
    | c :: queue => some { s with cmdQueue := queue, thread := .dropping c }
  | .dropping c => some { s with log := s.log ++ drop c, thread := .draining }
  | .finished => none

abbrev System := Pool CmdPriv Caller

/-- A command is passed in, a caller or the thread takes a step, or the environment changes a flag
or ups the semaphore as `rtw_stop_cmd_thread` does. -/
inductive Event where
  | enqueue (c : CmdObj)
  | caller (i : ℕ)
  | thread (signal : Bool) (ret : ℕ)
  | setHwInitCompleted (b : Bool)
  | setDrvStopped (b : Bool)
  | setSurpriseRemoved
  | rtwStopCmdThread

def step (p : System) : Event → Option System
  | .enqueue c => some (p.spawn (.entered { c with id := p.threads.length }))
  | .caller i => p.advance (fun p t => t.advance p.shared) i
  | .thread signal ret => (advanceThread p.shared signal ret).map fun s => { p with shared := s }
  | .setHwInitCompleted b => some { p with shared := { p.shared with hwInitCompleted := b } }
  | .setDrvStopped b => some { p with shared := { p.shared with drvStopped := b } }
  | .setSurpriseRemoved => some { p with shared := { p.shared with surpriseRemoved := true } }
  | .rtwStopCmdThread =>
    some { p with shared := { p.shared with cmdQueueSema := p.shared.cmdQueueSema + 1 } }

end Rtl88x2eu.Cmd
