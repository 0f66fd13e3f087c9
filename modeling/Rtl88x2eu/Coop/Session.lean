import Rtl88x2eu.Lib.Transition
import Rtl88x2eu.Recv.Attrib

/-!
# Cooperative receive sessions as concurrent operations

The operations of `rtw_cooperative_rx.c` on the group, cut at the points where another CPU can
come in between: every locked section, atomic operation and queue operation is one step. The
state is the group, the tasklet, and what the operations touch of the adapters: the free
descriptors and the station hash. A step takes a choice for what the rest of the driver decides
(whether a frame passes its checks, whether a processed descriptor is returned at once).

## Main definitions

* `Session`, `Op`, `Op.step`
* `Label`, `step`: the steps of the system
-/

namespace Rtl88x2eu.Coop

open Transition

inductive CoopState
  | disabled | idle | binding | active
deriving DecidableEq, Repr

def coopPendingMax : ℕ := 48

def coopBatchSize : ℕ := 64

def coopMaxHelpers : ℕ := 4

/-- An `_adapter`, by identity. -/
abbrev AdapterId := ℕ

/-- A station in the hash of an adapter: its slot, its address, and the number of the insertion
that put it there. -/
structure StaEntry where
  slot : ℕ
  macAddr : MacAddr
  born : ℕ
deriving DecidableEq, Repr

/-- A descriptor of `grp->pending_queue`: its slot, its adapter and the station it points to. -/
structure PendingFrame where
  id : ℕ
  adapter : AdapterId
  psta : StaEntry
deriving DecidableEq, Repr

/-- The kernel's tasklet: the `SCHED` bit, whether it is on the run list, whether it runs, and
how often it is disabled. -/
structure Tasklet where
  sched : Bool := false
  queued : Bool := false
  running : Bool := false
  disabled : ℕ := 0
deriving DecidableEq, Repr

/-- `tasklet_schedule`: nothing happens while the `SCHED` bit is set. -/
def Tasklet.schedule (t : Tasklet) : Tasklet :=
  if t.sched then t else { t with sched := true, queued := true }

/-- `struct cooperative_rx_group`, and the adapters' descriptor pools and station tables. -/
structure Session where
  state : CoopState := .idle
  primary : Option AdapterId := none
  helpers : List AdapterId := []
  pendingQueue : List PendingFrame := []
  pendingCount : ℤ := 0
  tasklet : Tasklet := {}
  drvStopped : AdapterId → Bool := fun _ => false
  freeRecvQueue : AdapterId → List ℕ := fun _ => []
  staHash : AdapterId → List StaEntry := fun _ => []
  freeStaQueue : AdapterId → List ℕ := fun _ => []
  /-- `rtw_is_pre_link_sta`. -/
  preLinkSta : AdapterId → MacAddr → Bool := fun _ _ => false
  /-- Numbers the insertions into the station hash. -/
  clock : ℕ := 0

/-- An operation that stands before its next step. -/
inductive Op
  -- `rtw_coop_rx_submit_helper_frame`, for a frame of a transmitter address
  | submitCheck (ta : MacAddr)
  | submitLookup (ta : MacAddr) (primary : AdapterId)
  | submitAlloc (primary : AdapterId) (psta : StaEntry)
  | submitEnqueue (f : PendingFrame)
  | submitCount (primary : AdapterId)
  | submitDequeue (primary : AdapterId)
  | submitUncount (primary : AdapterId) (got : Option PendingFrame)
  | submitFree (primary : AdapterId) (got : Option PendingFrame)
  -- `_coop_rx_drain_tasklet`
  | drainCheck
  | drainDequeue (primary : AdapterId) (processed : ℕ)
  | drainUncount (primary : AdapterId) (processed : ℕ) (f : PendingFrame)
  | drainProcess (primary : AdapterId) (processed : ℕ) (f : PendingFrame)
  | drainResched
  -- `rtw_coop_rx_bind_session`
  | bindCheck (adapter : AdapterId)
  | bindLocked
  -- `rtw_coop_rx_unbind_session`
  | unbindDisable
  | unbindWait
  | unbindState
  | unbindRead
  | unbindDequeue (primary : Option AdapterId)
  | unbindUncount (primary : Option AdapterId) (f : PendingFrame)
  | unbindFree (primary : Option AdapterId) (f : PendingFrame)
  | unbindEnable
  -- `rtw_coop_rx_remove_helper`, alone or as the first part of removing the adapter
  | removeHelper (adapter : AdapterId) (whole : Bool)
  | removeHelperSync (adapter : AdapterId) (whole : Bool) (readers : List ℕ)
  -- the rest of `rtw_coop_rx_remove_adapter`
  | removeAdapterCheck (adapter : AdapterId)
  | removeAdapterKill (adapter : AdapterId)
  | removeAdapterKillWait (adapter : AdapterId)
  | removeAdapterDequeue (adapter : AdapterId)
  | removeAdapterUncount (adapter : AdapterId) (f : PendingFrame)
  | removeAdapterFree (adapter : AdapterId) (f : PendingFrame)
  | removeAdapterClear (adapter : AdapterId)
  -- `rtw_free_stainfo`
  | freeStaUnhash (adapter : AdapterId) (psta : StaEntry)
  | freeStaReturn (adapter : AdapterId) (psta : StaEntry)
  | done
deriving DecidableEq, Repr

/-- The operation holds `rcu_read_lock`. -/
def Op.inRcu : Op → Bool
  | submitCheck _ | submitLookup _ _ | submitAlloc _ _ | submitEnqueue _ | submitCount _
  | submitDequeue _ | submitUncount _ _ | submitFree _ _
  | drainCheck | drainDequeue _ _ | drainUncount _ _ _ | drainProcess _ _ _ | drainResched => true
  | _ => false

def Session.freeRecvframe (s : Session) (a : AdapterId) (f : PendingFrame) : Session :=
  { s with freeRecvQueue := Function.update s.freeRecvQueue a (s.freeRecvQueue a ++ [f.id]) }

def Session.getStainfo (s : Session) (a : AdapterId) (hwaddr : MacAddr) : Option StaEntry :=
  let addr := if hwaddr.isMcast then .bcast else hwaddr
  (s.staHash a).find? (·.macAddr = addr)

def Session.taskletDone (s : Session) : Session :=
  { s with tasklet := { s.tasklet with running := false } }

def rcuReaders (ops : List Op) : List ℕ :=
  (List.range ops.length).filter fun i => (ops.getD i .done).inRcu

variable (p : Pool Session Op) (choice : Bool)

def Op.stepSubmit (s : Session) : Op → Option (Session × Op)
  | submitCheck ta =>
    match s.primary with
    | some a =>
      if s.state = .active ∧ s.drvStopped a = false then some (s, submitLookup ta a)
      else some (s, done)
    | none => some (s, done)
  | submitLookup ta a =>
    -- the choice stands for the checks on direction, addresses, duplicates and packet number
    match s.getStainfo a ta, choice with
    | some e, true => some (s, submitAlloc a e)
    | _, _ => some (s, done)
  | submitAlloc a e =>
    match s.freeRecvQueue a with
    | [] => some (s, done)
    | id :: rest =>
      some ({ s with freeRecvQueue := Function.update s.freeRecvQueue a rest },
        submitEnqueue ⟨id, a, e⟩)
  | submitEnqueue f =>
    some ({ s with pendingQueue := s.pendingQueue ++ [f] }, submitCount f.adapter)
  | submitCount a =>
    let s := { s with pendingCount := s.pendingCount + 1 }
    if (coopPendingMax : ℤ) < s.pendingCount then some (s, submitDequeue a)
    else some ({ s with tasklet := s.tasklet.schedule }, done)
  | submitDequeue a =>
    match s.pendingQueue with
    | [] => some (s, submitUncount a none)
    | f :: q => some ({ s with pendingQueue := q }, submitUncount a (some f))
  | submitUncount a got => some ({ s with pendingCount := s.pendingCount - 1 }, submitFree a got)
  | submitFree a got =>
    match got with
    | none => some (s, done)
    | some f => some (s.freeRecvframe a f, done)
  | _ => none

def Op.stepDrain (s : Session) : Op → Option (Session × Op)
  | drainCheck =>
    match s.primary with
    | some a =>
      if s.drvStopped a = false ∧ s.state = .active then some (s, drainDequeue a 0)
      else some (s.taskletDone, done)
    | none => some (s.taskletDone, done)
  | drainDequeue a n =>
    match s.pendingQueue with
    | [] => some (s, drainResched)
    | f :: q =>
      if n < coopBatchSize then some ({ s with pendingQueue := q }, drainUncount a n f)
      else some (s, drainResched)
  | drainUncount a n f =>
    some ({ s with pendingCount := s.pendingCount - 1 }, drainProcess a n f)
  | drainProcess a n f =>
    -- the choice tells whether the primary has returned the descriptor or keeps it queued
    some (if choice then s.freeRecvframe a f else s, drainDequeue a (n + 1))
  | drainResched =>
    let s := if s.pendingCount > 0 then { s with tasklet := s.tasklet.schedule } else s
    some (s.taskletDone, done)
  | _ => none

def Op.stepBind (s : Session) : Op → Option (Session × Op)
  | bindCheck a =>
    -- the choice stands for the association state of the primary
    if s.primary = some a ∧ choice then some (s, bindLocked) else some (s, done)
  | bindLocked =>
    some ({ s with state := if s.helpers.length > 0 then .active else s.state }, done)
  | unbindDisable =>
    some ({ s with tasklet := { s.tasklet with disabled := s.tasklet.disabled + 1 } }, unbindWait)
  | unbindWait => if s.tasklet.running then none else some (s, unbindState)
  | unbindState =>
    let left : CoopState := if s.primary.isSome then .idle else .disabled
    some ({ s with state := if s.state = .active ∨ s.state = .binding then left else s.state },
      unbindRead)
  | unbindRead => some (s, unbindDequeue s.primary)
  | unbindDequeue a =>
    match s.pendingQueue with
    | [] => some (s, unbindEnable)
    | f :: q => some ({ s with pendingQueue := q }, unbindUncount a f)
  | unbindUncount a f => some ({ s with pendingCount := s.pendingCount - 1 }, unbindFree a f)
  | unbindFree a f =>
    match a with
    | some a => some (s.freeRecvframe a f, unbindDequeue (some a))
    | none => some (s, unbindDequeue none)
  | unbindEnable =>
    some ({ s with tasklet := { s.tasklet with disabled := s.tasklet.disabled - 1 } }, done)
  | _ => none

def Op.stepRemove (s : Session) : Op → Option (Session × Op)
  | removeHelper a whole =>
    if a ∈ s.helpers then
      let helpers := s.helpers.erase a
      let state := if helpers = [] ∧ s.state = .active then .idle else s.state
      some ({ s with helpers, state }, removeHelperSync a whole (rcuReaders p.threads))
    else some (s, if whole then removeAdapterCheck a else done)
  | removeHelperSync a whole readers =>
    if readers.all fun i => !(p.threads.getD i .done).inRcu then
      some (s, if whole then removeAdapterCheck a else done)
    else none
  | removeAdapterCheck a =>
    some (s, if s.primary = some a then removeAdapterKill a else done)
  | removeAdapterKill a =>
    if s.tasklet.sched then none
    else some ({ s with tasklet := { s.tasklet with sched := true } }, removeAdapterKillWait a)
  | removeAdapterKillWait a =>
    if s.tasklet.running then none
    else some ({ s with tasklet := { s.tasklet with sched := false } }, removeAdapterDequeue a)
  | removeAdapterDequeue a =>
    match s.pendingQueue with
    | [] => some (s, removeAdapterClear a)
    | f :: q => some ({ s with pendingQueue := q }, removeAdapterUncount a f)
  | removeAdapterUncount a f =>
    some ({ s with pendingCount := s.pendingCount - 1 }, removeAdapterFree a f)
  | removeAdapterFree a f => some (s.freeRecvframe a f, removeAdapterDequeue a)
  | removeAdapterClear _ => some ({ s with primary := none, helpers := [], state := .idle }, done)
  | _ => none

/-- The steps of `rtw_free_stainfo`: a pre-link station stays hashed and keeps its slot. -/
def Op.stepFreeSta (s : Session) : Op → Option (Session × Op)
  | freeStaUnhash a e =>
    if s.preLinkSta a e.macAddr then some (s, done)
    else some ({ s with staHash := Function.update s.staHash a ((s.staHash a).filter (· ≠ e)) },
      freeStaReturn a e)
  | freeStaReturn a e =>
    some ({ s with freeStaQueue :=
      Function.update s.freeStaQueue a (s.freeStaQueue a ++ [e.slot]) }, done)
  | _ => none

/-- The step of one operation; `none` when it has to wait or is over. -/
def Op.step (o : Op) : Option (Session × Op) :=
  (o.stepSubmit choice p.shared).or <| (o.stepDrain choice p.shared).or <|
    (o.stepBind choice p.shared).or <| (o.stepRemove p p.shared).or <| o.stepFreeSta p.shared

variable {p} {choice} in
theorem Op.step_cases {o : Op} {r : Session × Op} (h : o.step p choice = some r) :
    o.stepSubmit choice p.shared = some r ∨ o.stepDrain choice p.shared = some r ∨
      o.stepBind choice p.shared = some r ∨ o.stepRemove p p.shared = some r ∨
      o.stepFreeSta p.shared = some r := by
  simp only [Op.step, Option.or_eq_some_iff] at h
  tauto

/-- The operations a caller starts; the tasklet is started by the kernel. -/
def Op.isEntry : Op → Bool
  | submitCheck _ | bindCheck _ | unbindDisable | removeHelper _ _ | freeStaUnhash _ _ => true
  | _ => false

/-- The steps of the system. -/
inductive Label
  | start (o : Op)
  | advance (i : ℕ) (choice : Bool)
  | runTasklet
  | setPrimary (adapter : AdapterId)
  | addHelper (adapter : AdapterId)
  | allocStainfo (adapter : AdapterId) (hwaddr : MacAddr)
  /-- The adapter's own receive path takes descriptors from its pool and returns them. -/
  | primaryRecv (adapter : AdapterId) (free : List ℕ)
  | setDrvStopped (adapter : AdapterId) (stopped : Bool)
  | setPreLinkSta (adapter : AdapterId) (hwaddr : MacAddr) (preLink : Bool)
deriving DecidableEq, Repr

def Session.setPrimary (s : Session) (a : AdapterId) : Session :=
  if s.primary = none ∨ s.primary = some a then
    { s with primary := some a, state := if s.state = .disabled then .idle else s.state }
  else s

def Session.addHelper (s : Session) (a : AdapterId) : Session :=
  if s.primary = none ∨ s.helpers.length ≥ coopMaxHelpers ∨ a ∈ s.helpers then s
  else
    { s with helpers := s.helpers ++ [a], state := if s.state = .idle then .binding else s.state }

def Session.allocStainfo (s : Session) (a : AdapterId) (hwaddr : MacAddr) : Session :=
  match s.freeStaQueue a with
  | [] => s
  | slot :: rest =>
    { s with
      freeStaQueue := Function.update s.freeStaQueue a rest
      staHash := Function.update s.staHash a (s.staHash a ++ [⟨slot, hwaddr, s.clock⟩])
      clock := s.clock + 1 }

def Session.setPreLinkSta (s : Session) (a : AdapterId) (hwaddr : MacAddr) (b : Bool) : Session :=
  let table := Function.update (s.preLinkSta a) hwaddr b
  { s with preLinkSta := Function.update s.preLinkSta a table }

def step (p : Pool Session Op) : Label → Option (Pool Session Op)
  | .start o => if o.isEntry then some (p.spawn o) else none
  | .advance i choice => p.advance (fun p o => o.step p choice) i
  | .runTasklet =>
    let t := p.shared.tasklet
    if t.queued ∧ ¬ t.running ∧ t.disabled = 0 then
      some ({ p with shared := { p.shared with
        tasklet := { t with queued := false, sched := false, running := true } } }
      |>.spawn .drainCheck)
    else none
  | .setPrimary a => some { p with shared := p.shared.setPrimary a }
  | .addHelper a => some { p with shared := p.shared.addHelper a }
  | .allocStainfo a hwaddr => some { p with shared := p.shared.allocStainfo a hwaddr }
  | .primaryRecv a free =>
    some { p with shared := { p.shared with
      freeRecvQueue := Function.update p.shared.freeRecvQueue a free } }
  | .setDrvStopped a b =>
    some { p with
      shared := { p.shared with drvStopped := Function.update p.shared.drvStopped a b } }
  | .setPreLinkSta a hwaddr b => some { p with shared := p.shared.setPreLinkSta a hwaddr b }

theorem step_start {p p' : Pool Session Op} {o : Op} (h : step p (.start o) = some p') :
    o.isEntry ∧ p' = p.spawn o := by
  simp only [step] at h
  split_ifs at h with hentry
  exact ⟨hentry, (Option.some.inj h).symm⟩

theorem step_advance {p p' : Pool Session Op} {i : ℕ} {choice : Bool}
    (h : step p (.advance i choice) = some p') :
    ∃ pre o post s o', p.threads[i]? = some o ∧ p.threads = pre ++ o :: post ∧
      o.step p choice = some (s, o') ∧ p' = ⟨s, pre ++ o' :: post⟩ :=
  Pool.advance_cases (f := fun p o => Op.step p choice o) (p := p) (i := i) h

theorem step_runTasklet {p p' : Pool Session Op} (h : step p .runTasklet = some p') :
    ∃ t : Tasklet, t.running = true ∧
      p' = Pool.spawn { p with shared := { p.shared with tasklet := t } } .drainCheck := by
  simp only [step] at h
  split_ifs at h
  obtain rfl := Option.some.inj h
  exact ⟨{ p.shared.tasklet with queued := false, sched := false, running := true }, rfl, rfl⟩

/-- The group as `rtw_coop_rx_init` leaves it, over adapters in any state, with no operation in
flight. -/
structure Initial (p : Pool Session Op) : Prop where
  threads : p.threads = []
  state : p.shared.state = .idle
  primary : p.shared.primary = none
  queue : p.shared.pendingQueue = []
  count : p.shared.pendingCount = 0
  born : ∀ a, ∀ e ∈ p.shared.staHash a, e.born < p.shared.clock

/-- No operation is in flight. -/
def Quiescent (p : Pool Session Op) : Prop := ∀ o ∈ p.threads, o = .done

instance (p : Pool Session Op) : Decidable (Quiescent p) :=
  inferInstanceAs (Decidable (∀ o ∈ p.threads, o = .done))

end Rtl88x2eu.Coop
