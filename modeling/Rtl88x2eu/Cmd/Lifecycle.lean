import Mathlib.Algebra.Order.Group.Multiset
import Mathlib.Data.Multiset.Range
import Rtl88x2eu.Cmd.Thread
import Rtl88x2eu.Lib.Journal

/-!
# The life of a command

A command is in the hands of its caller, in the queue, in the hands of the thread, or it is settled:
the log has one block about it. The census of the places and of the blocks is the commands that were
passed in, each once, so that no command is freed twice, and none is lost before the drain ends.

Three slips break the promise. A caller that was admitted before the thread cleared
`cmdthd_running`, or that is admitted without a look at it, inserts its command behind the last
dequeue of the drain. A command that is too long is freed while `_SUCCESS` is returned for it. And
the callback of a failed `CMD_DISCONNECT` forgets to free the command.

## Main definitions

* `Lifecycle`, `Inv`, `Event.Ok`

## Main results

* `Inv.lifecycle`: at the end all commands are settled
* `thread_inv`, `caller_inv`, `spawn_inv`: the steps
* `lifecycle_of_run`: the runs whose steps all meet the condition
* `not_lifecycle_late`: a command that comes too late stays in the queue
-/

namespace Rtl88x2eu.Cmd

open Transition Journal

variable {p p' : System} {bs : List (ℕ × List Act)} {c : CmdObj} {t : Caller} {s : CmdPriv}

def FreedOnce (log : List Act) (id : ℕ) : Prop := log.count (.mfree id .obj) = 1

/-- The context of a command is completed once, and before its object is freed. -/
def CompletedFirst (log : List Act) (id : ℕ) : Prop :=
  ∃ pre status post, log = pre ++ .sctxDone id status :: post ∧
    (∀ status', .sctxDone id status' ∉ pre ++ post) ∧ .mfree id .obj ∉ pre

theorem completedFirst_of_filter {log acts : List Act} {id : ℕ}
    (hfilter : log.filter (fun a => a.id = id) = acts) (h : CompletedFirst acts id) :
    CompletedFirst log id := by
  obtain ⟨pre, status, post, rfl, hothers, hpre⟩ := h
  obtain ⟨log₁, log₂, rfl, hlog₁, hlog₂⟩ := List.filter_eq_append_iff.mp hfilter
  obtain ⟨between, rest, rfl, hbetween, -, hrest⟩ := List.filter_eq_cons_iff.mp hlog₂
  -- what stands between is not about the command
  have hmem (a : Act) (ha : a.id = id) (hin : a ∈ log₁ ++ between) : a ∈ pre := by
    rcases List.mem_append.mp hin with hfirst | hsecond
    · rw [← hlog₁]
      exact List.mem_filter.mpr ⟨hfirst, decide_eq_true ha⟩
    · exact absurd (decide_eq_true ha) (hbetween a hsecond)
  refine ⟨log₁ ++ between, status, rest, ?_, fun status' hin => ?_, fun hin => ?_⟩
  · rw [List.append_assoc]
  · refine hothers status' (List.mem_append.mpr ?_)
    rcases List.mem_append.mp hin with hbefore | hafter
    · exact .inl (hmem _ rfl hbefore)
    · refine .inr ?_
      rw [← hrest]
      exact List.mem_filter.mpr ⟨hafter, decide_eq_true rfl⟩
  · exact hpre (hmem _ rfl hin)

/-- **The promises of the queue.** -/
structure Lifecycle (p : System) : Prop where
  empty : p.shared.cmdQueue = []
  freed : ∀ t ∈ p.threads, FreedOnce p.shared.log t.cmd.id
  completed : ∀ c, .returned c true ∈ p.threads → c.sctx = true → CompletedFirst p.shared.log c.id

/-- No enqueue is in flight. -/
def Quiet (p : System) : Prop := ∀ t ∈ p.threads, ∃ c res, t = .returned c res

/-! ## The census -/

def Caller.hand : Caller → Option ℕ
  | entered c | admitted c => some c.id
  | inserted _ | returned _ _ => none

def Pc.hand : Pc → List CmdObj
  | executing c | dropping c => [c]
  | _ => []

/-- The commands that were passed in. -/
def cmds (p : System) : List CmdObj := p.threads.map Caller.cmd

/-- The commands that are not settled. -/
def census (p : System) : Multiset ℕ :=
  (p.threads.filterMap Caller.hand : Multiset ℕ) +
    ((p.shared.cmdQueue ++ p.shared.thread.hand).map CmdObj.id : Multiset ℕ)

/-- `rtw_enqueue_cmd` returns `_SUCCESS` for the command, or is about to. -/
inductive Succeeding : Caller → Prop where
  | inserted (c : CmdObj) : Succeeding (.inserted c)
  | returned (c : CmdObj) : Succeeding (.returned c true)

/-- What a block says about the command of a caller. -/
structure Settled (t : Caller) (acts : List Act) : Prop where
  freed : FreedOnce acts t.cmd.id
  completed : Succeeding t → t.cmd.sctx = true → CompletedFirst acts t.cmd.id

/-- The places and the blocks account for all commands. -/
structure Inv (p : System) (bs : List (ℕ × List Act)) : Prop where
  log : p.shared.log = journal bs
  about : About Act.id bs
  places : census p + (bs.map Prod.fst : Multiset ℕ) = Multiset.range (cmds p).length
  ids : (cmds p).map CmdObj.id = List.range (cmds p).length
  admitted : ∀ c, .admitted c ∈ p.threads → c.cmdsz ≤ maxCmdsz
  queued : ∀ c ∈ p.shared.cmdQueue ++ p.shared.thread.hand, c ∈ cmds p ∧ c.cmdsz ≤ maxCmdsz
  settled : ∀ b ∈ bs, ∀ t ∈ p.threads, t.cmd.id = b.1 → Settled t b.2
  drained : p.shared.thread = .finished → p.shared.cmdQueue = []

/-- Two commands have two names. -/
theorem Inv.cmd_unique (h : Inv p bs) {c c' : CmdObj} (hc : c ∈ cmds p) (hc' : c' ∈ cmds p)
    (heq : c.id = c'.id) : c = c' := by
  have hnodup : ((cmds p).map CmdObj.id).Nodup := by
    rw [h.ids]
    exact List.nodup_range
  exact List.inj_on_of_nodup_map hnodup hc hc' heq

theorem Inv.nodup (h : Inv p bs) : (census p + (bs.map Prod.fst : Multiset ℕ)).Nodup := by
  rw [h.places]
  exact Multiset.nodup_range _

theorem Inv.no_block (h : Inv p bs) {id : ℕ} (hid : id ∈ census p) : ∀ b ∈ bs, b.1 ≠ id := by
  rintro b hb rfl
  have hdisjoint := (Multiset.nodup_add.mp h.nodup).2.2
  exact Multiset.disjoint_left.mp hdisjoint hid (Multiset.mem_coe.mpr (List.mem_map_of_mem hb))

theorem Inv.blocks_nodup (h : Inv p bs) : (bs.map Prod.fst).Nodup :=
  Multiset.coe_nodup.mp (Multiset.nodup_add.mp h.nodup).2.1

/-- **When nothing is left in hand or in the queue, the promises are kept.** -/
theorem Inv.lifecycle (h : Inv p bs) (hfinished : p.shared.thread = .finished) (hquiet : Quiet p) :
    Lifecycle p := by
  have hqueue := h.drained hfinished
  have hhands : p.threads.filterMap Caller.hand = [] := by
    refine List.filterMap_eq_nil_iff.mpr fun t ht => ?_
    obtain ⟨c, res, rfl⟩ := hquiet t ht
    rfl
  have hcensus : census p = 0 := by
    unfold census
    rw [hhands, hqueue, hfinished]
    rfl
  -- every command has its block
  have hblock (t : Caller) (ht : t ∈ p.threads) :
      ∃ acts, p.shared.log.filter (fun a => a.id = t.cmd.id) = acts ∧ Settled t acts := by
    have hid : t.cmd.id ∈ (cmds p).map CmdObj.id :=
      List.mem_map_of_mem (List.mem_map_of_mem ht)
    rw [h.ids, ← Multiset.mem_coe, ← Multiset.range, ← h.places, hcensus, zero_add,
      Multiset.mem_coe] at hid
    obtain ⟨b, hb, hid⟩ := List.mem_map.mp hid
    refine ⟨b.2, ?_, h.settled b hb t ht hid.symm⟩
    rw [h.log, ← hid]
    exact filter_journal h.about h.blocks_nodup hb
  constructor
  · exact hqueue
  · intro t ht
    obtain ⟨acts, hfilter, hsettled⟩ := hblock t ht
    have hfreed := hsettled.freed
    unfold FreedOnce at hfreed ⊢
    rw [← hfilter, List.count_filter (by simp [Act.id])] at hfreed
    exact hfreed
  · intro c hc hsctx
    obtain ⟨acts, hfilter, hsettled⟩ := hblock _ hc
    exact completedFirst_of_filter hfilter (hsettled.completed (.returned c) hsctx)

/-- A step that moves commands between the places and settles the commands of `new`. -/
theorem Inv.move {new : List (ℕ × List Act)} (h : Inv p bs) (hcmds : cmds p' = cmds p)
    (hlog : p'.shared.log = p.shared.log ++ journal new) (habout : About Act.id new)
    (hplaces : census p' + (new.map Prod.fst : Multiset ℕ) = census p)
    (hadmitted : ∀ c, .admitted c ∈ p'.threads → c.cmdsz ≤ maxCmdsz)
    (hqueued : ∀ c ∈ p'.shared.cmdQueue ++ p'.shared.thread.hand,
      c ∈ cmds p ∧ c.cmdsz ≤ maxCmdsz)
    (hold : ∀ t' ∈ p'.threads, t'.cmd.id ∈ census p ∨
      ∃ t ∈ p.threads, t.cmd = t'.cmd ∧ (Succeeding t' → Succeeding t))
    (hnew : ∀ b ∈ new, ∀ t ∈ p'.threads, t.cmd.id = b.1 → Settled t b.2)
    (hdrained : p'.shared.thread = .finished → p'.shared.cmdQueue = []) : Inv p' (bs ++ new) where
  log := by
    rw [hlog, h.log]
    simp only [journal, List.flatMap_append]
  about := by
    intro b hb
    rcases List.mem_append.mp hb with hbs | hbnew
    · exact h.about b hbs
    · exact habout b hbnew
  places := by
    rw [hcmds, ← h.places, ← hplaces, List.map_append, ← Multiset.coe_add, add_assoc,
      add_comm (Multiset.ofList (new.map Prod.fst))]
  ids := by
    rw [hcmds]
    exact h.ids
  admitted := hadmitted
  queued := by
    rw [hcmds]
    exact hqueued
  settled := by
    intro b hb t' ht' hid
    rcases List.mem_append.mp hb with hbs | hbnew
    · rcases hold t' ht' with hcensus | ⟨t, ht, hcmd, hsucceeding⟩
      · exact absurd hid.symm (h.no_block hcensus b hbs)
      · have hsettled := h.settled b hbs t ht (hcmd ▸ hid)
        constructor
        · rw [← hcmd]
          exact hsettled.freed
        · intro hs hsctx
          rw [← hcmd] at hsctx ⊢
          exact hsettled.completed (hsucceeding hs) hsctx
    · exact hnew b hbnew t' ht' hid
  drained := hdrained

/-! ## Blocks -/

theorem mem_freePbuf {a : Act} (ha : a ∈ freePbuf c) : a = .mfree c.id .pbuf := by
  unfold freePbuf at ha
  split at ha
  · exact List.mem_singleton.mp ha
  · cases ha

theorem freedOnce_rtwFreeCmdObj (c : CmdObj) : FreedOnce (rtwFreeCmdObj c) c.id := by
  unfold FreedOnce rtwFreeCmdObj
  split <;> split <;> simp

theorem id_rtwFreeCmdObj {a : Act} (ha : a ∈ rtwFreeCmdObj c) : a.id = c.id := by
  unfold rtwFreeCmdObj at ha
  split at ha <;> split at ha <;> simp at ha <;> grind [Act.id]

theorem sctxDone_notMem_rtwFreeCmdObj (id : ℕ) (status : SctxStatus) :
    .sctxDone id status ∉ rtwFreeCmdObj c := by
  unfold rtwFreeCmdObj
  split <;> split <;> simp

theorem mem_sctxDoneErr {a : Act} {status : SctxStatus} (ha : a ∈ sctxDoneErr c status) :
    a = .sctxDone c.id status := by
  unfold sctxDoneErr at ha
  split at ha
  · exact List.mem_singleton.mp ha
  · cases ha

/-- How the thread ends a command: another buffer, the context, the command. -/
def ending (pre : List Act) (c : CmdObj) (status : SctxStatus) : List Act :=
  pre ++ sctxDoneErr c status ++ rtwFreeCmdObj c

section

variable {pre : List Act} {status : SctxStatus} (hpre : ∀ a ∈ pre, a = .mfree c.id .pbuf)

include hpre

theorem freedOnce_append : FreedOnce (pre ++ rtwFreeCmdObj c) c.id := by
  have hnone : pre.count (.mfree c.id .obj) = 0 := by
    refine List.count_eq_zero.mpr fun hin => ?_
    have hbuf := hpre _ hin
    cases hbuf
  have hone := freedOnce_rtwFreeCmdObj c
  unfold FreedOnce at hone ⊢
  rw [List.count_append, hnone, hone]

theorem id_ending : ∀ a ∈ ending pre c status, a.id = c.id := by
  intro a ha
  rcases List.mem_append.mp ha with hfirst | hfree
  · rcases List.mem_append.mp hfirst with hin | hsctx
    · rw [hpre a hin]
      rfl
    · rw [mem_sctxDoneErr hsctx]
      rfl
  · exact id_rtwFreeCmdObj hfree

/-- **A command that the thread ends is settled.** -/
theorem settled_ending (ht : t.cmd = c) : Settled t (ending pre c status) := by
  subst ht
  constructor
  · have hnone : (sctxDoneErr t.cmd status).count (.mfree t.cmd.id .obj) = 0 := by
      refine List.count_eq_zero.mpr fun hin => ?_
      have hdone := mem_sctxDoneErr hin
      cases hdone
    have hone := freedOnce_append hpre
    unfold FreedOnce ending at *
    rw [List.count_append] at hone
    rw [List.count_append, List.count_append, hnone]
    exact hone
  · intro _ hsctx
    have hdone : sctxDoneErr t.cmd status = [.sctxDone t.cmd.id status] := if_pos hsctx
    refine ⟨pre, status, rtwFreeCmdObj t.cmd, ?_, fun status' hin => ?_, fun hin => ?_⟩
    · unfold ending
      rw [hdone, List.append_assoc, List.singleton_append]
    · rcases List.mem_append.mp hin with hbefore | hafter
      · have hbuf := hpre _ hbefore
        cases hbuf
      · exact sctxDone_notMem_rtwFreeCmdObj _ _ hafter
    · have hbuf := hpre _ hin
      cases hbuf

end

theorem drop_eq (c : CmdObj) : drop c = ending (freePbuf c) c .cmdDrop := rfl

/-- The end of a command that is executed, unless a `CMD_DISCONNECT` has failed. -/
theorem execute_eq {ret : ℕ} (hok : c.cmdcode = cmdDisconnect → cmdRes s c ret = h2cSuccess) :
    ∃ pre status, execute s c ret = ending pre c status ∧ ∀ a ∈ pre, a = .mfree c.id .pbuf := by
  have hcallback : cmdCallback c (cmdRes s c ret) = rtwFreeCmdObj c :=
    if_neg fun hfailed => hfailed.2 (hok hfailed.1)
  refine ⟨_, _, by rw [execute, hcallback, ending], fun a ha => ?_⟩
  split at ha
  · exact mem_freePbuf ha
  · cases ha

/-! ## Steps of the thread -/

structure Moved (s s' : CmdPriv) : Prop where
  log : s'.log = s.log
  commands : (s'.cmdQueue ++ s'.thread.hand).Perm (s.cmdQueue ++ s.thread.hand)
  drained : s'.thread = .finished → s'.cmdQueue = []

theorem Moved.goto {pc : Pc} {running : Bool} {sema : ℕ} (hs : s.thread.hand = [])
    (hpc : pc.hand = []) (hfinished : pc = .finished → s.cmdQueue = []) :
    Moved s { s with cmdthdRunning := running, cmdQueueSema := sema, thread := pc } :=
  ⟨rfl, by rw [hs, hpc], hfinished⟩

theorem Moved.take {pc : Pc} {queue : List CmdObj} (hs : s.thread.hand = [])
    (hqueue : s.cmdQueue = c :: queue) (hpc : pc.hand = [c]) :
    Moved s { s with cmdQueue := queue, thread := pc } where
  log := rfl
  commands := by
    rw [hs, hqueue, hpc, List.append_nil]
    exact List.perm_append_singleton c queue
  drained := by
    rintro rfl
    cases hpc

/-- **What the thread does**: it moves, or it ends the command in its hands. -/
theorem advanceThread_cases {signal : Bool} {ret : ℕ} {s' : CmdPriv}
    (h : advanceThread s signal ret = some s') :
    Moved s s' ∨
    (∃ c, s.thread = .executing c ∧
      s' = { s with log := s.log ++ execute s c ret, thread := .next }) ∨
    ∃ c, s.thread = .dropping c ∧
      s' = { s with log := s.log ++ drop c, thread := .draining } := by
  cases hthread : s.thread with
  | executing c =>
    rw [advanceThread, hthread] at h
    exact .inr (.inl ⟨c, rfl, (Option.some.inj h).symm⟩)
  | dropping c =>
    rw [advanceThread, hthread] at h
    exact .inr (.inr ⟨c, rfl, (Option.some.inj h).symm⟩)
  | dequeuing | draining =>
    have hhand : s.thread.hand = [] := congrArg Pc.hand hthread
    rw [advanceThread, hthread] at h
    cases hqueue : s.cmdQueue with
    | nil =>
      simp only [hqueue] at h
      obtain rfl := Option.some.inj h
      exact .inl ⟨rfl, by rw [hhand, hqueue]; rfl, fun _ => rfl⟩
    | cons c queue =>
      simp only [hqueue] at h
      obtain rfl := Option.some.inj h
      exact .inl (.take hhand hqueue rfl)
  | waiting =>
    have hhand : s.thread.hand = [] := congrArg Pc.hand hthread
    rw [advanceThread, hthread] at h
    simp only at h
    split at h
    · obtain rfl := Option.some.inj h
      exact .inl (.goto hhand rfl fun hpc => by cases hpc)
    · split at h
      · cases h
      · obtain rfl := Option.some.inj h
        exact .inl (.goto hhand rfl fun hpc => by cases hpc)
  | starting | leaving =>
    rw [advanceThread, hthread] at h
    obtain rfl := Option.some.inj h
    exact .inl (.goto (congrArg Pc.hand hthread) rfl fun hpc => by cases hpc)
  | woken | peeking | next =>
    rw [advanceThread, hthread] at h
    obtain rfl := Option.some.inj h
    refine .inl (.goto (congrArg Pc.hand hthread) ?_ fun hpc => ?_)
    · split <;> rfl
    · split at hpc <;> cases hpc
  | finished =>
    rw [advanceThread, hthread] at h
    cases h

/-- The command that the thread is about to execute. -/
def Pc.executed : Pc → Option CmdObj
  | executing c => some c
  | _ => none

/-- The condition on a step of the thread: a `CMD_DISCONNECT` succeeds. -/
def ThreadOk (s : CmdPriv) (ret : ℕ) : Prop :=
  ∀ c ∈ s.thread.executed, c.cmdcode = cmdDisconnect →
    rtwCmdFilter s c = true ∧ ret = h2cSuccess

instance ThreadOk.decidable (s : CmdPriv) (ret : ℕ) : Decidable (ThreadOk s ret) :=
  inferInstanceAs (Decidable (∀ c ∈ s.thread.executed, _ → _ ∧ _))

/-- The thread ends the command in its hands. -/
theorem Inv.ends {acts pre : List Act} {status : SctxStatus} {pc : Pc} (h : Inv p bs)
    (hhand : p.shared.thread.hand = [c]) (hpc : pc.hand = []) (hfinished : pc ≠ .finished)
    (hacts : acts = ending pre c status) (hpre : ∀ a ∈ pre, a = .mfree c.id .pbuf) :
    ∃ bs',
      Inv { p with shared := { p.shared with log := p.shared.log ++ acts, thread := pc } } bs' := by
  have hmem : c ∈ p.shared.cmdQueue ++ p.shared.thread.hand := by
    rw [hhand]
    exact List.mem_append_right _ (List.mem_singleton_self c)
  refine ⟨bs ++ [(c.id, acts)], h.move rfl ?_ ?_ ?_ h.admitted ?_ ?_ ?_ ?_⟩
  · simp [journal]
  · intro b hb a ha
    obtain rfl := List.mem_singleton.mp hb
    rw [hacts] at ha
    exact id_ending hpre a ha
  · unfold census
    rw [hhand, hpc, List.append_nil, List.map_append, add_assoc]
    rfl
  · intro c' hc'
    rw [hpc, List.append_nil] at hc'
    exact h.queued c' (List.mem_append_left _ hc')
  · exact fun t ht => .inr ⟨t, ht, rfl, id⟩
  · intro b hb t ht hid
    obtain rfl := List.mem_singleton.mp hb
    have hcmd : t.cmd = c := h.cmd_unique (List.mem_map_of_mem ht) (h.queued c hmem).1 hid
    rw [hacts]
    exact settled_ending hpre hcmd
  · exact fun hpc' => absurd hpc' hfinished

theorem thread_inv {signal : Bool} {ret : ℕ} {s' : CmdPriv} (h : Inv p bs)
    (hok : ThreadOk p.shared ret) (hstep : advanceThread p.shared signal ret = some s') :
    ∃ bs', Inv { p with shared := s' } bs' := by
  rcases advanceThread_cases hstep with hmoved | ⟨c, hthread, rfl⟩ | ⟨c, hthread, rfl⟩
  · refine ⟨bs ++ [], h.move rfl ?_ ?_ ?_ h.admitted ?_ ?_ ?_ hmoved.drained⟩
    · rw [journal, List.flatMap_nil, List.append_nil]
      exact hmoved.log
    · exact fun b hb => absurd hb List.not_mem_nil
    · have hperm := hmoved.commands.map CmdObj.id
      unfold census
      rw [Multiset.coe_eq_coe.mpr hperm]
      exact add_zero _
    · exact fun c hc => h.queued c (hmoved.commands.subset hc)
    · exact fun t ht => .inr ⟨t, ht, rfl, id⟩
    · exact fun b hb => absurd hb List.not_mem_nil
  · have hhand : p.shared.thread.hand = [c] := congrArg Pc.hand hthread
    have hshort := (h.queued c (by rw [hhand]; exact List.mem_append_right _ List.mem_cons_self)).2
    have hsuccess (hcode : c.cmdcode = cmdDisconnect) : cmdRes p.shared c ret = h2cSuccess := by
      obtain ⟨hfilter, hret⟩ := hok c (congrArg Pc.executed hthread) hcode
      unfold cmdRes
      rw [if_neg (Nat.not_lt.mpr hshort), hcode, if_neg (by decide), hfilter, if_neg (by decide),
        hret]
    obtain ⟨pre, status, hacts, hpre⟩ := execute_eq hsuccess
    exact h.ends hhand rfl (by decide) hacts hpre
  · exact h.ends (congrArg Pc.hand hthread) rfl (by decide) (drop_eq c) fun a ha => mem_freePbuf ha

def CallerOk (s : CmdPriv) : Caller → Prop
  | .entered c => maxCmdsz < c.cmdsz → c.sctx = true → rtwCmdFilter s c = false
  | .admitted _ => s.thread ≠ .finished
  | .inserted _ | .returned _ _ => True

instance CallerOk.decidable (s : CmdPriv) : ∀ t, Decidable (CallerOk s t)
  | .entered _ => inferInstanceAs (Decidable (_ → _ → _ = _))
  | .admitted _ => inferInstanceAs (Decidable (_ ≠ _))
  | .inserted _ | .returned _ _ => inferInstanceAs (Decidable True)

theorem census_eq {s : CmdPriv} {pre post : List Caller} :
    census ⟨s, pre ++ t :: post⟩ = (t.hand.toList : Multiset ℕ) +
      ((pre ++ post).filterMap Caller.hand : Multiset ℕ) +
      ((s.cmdQueue ++ s.thread.hand).map CmdObj.id : Multiset ℕ) := by
  have hperm : ((pre ++ t :: post).filterMap Caller.hand).Perm
      (t.hand.toList ++ (pre ++ post).filterMap Caller.hand) := by
    refine (List.perm_middle.filterMap Caller.hand).trans (List.Perm.of_eq ?_)
    rw [List.filterMap_cons]
    cases t.hand <;> rfl
  unfold census
  rw [Multiset.coe_eq_coe.mpr hperm, ← Multiset.coe_add]

section

variable {pre post : List Caller} {t' : Caller}

theorem Inv.moveCaller {new : List (ℕ × List Act)} {s' : CmdPriv}
    (h : Inv ⟨s, pre ++ t :: post⟩ bs) (hcmd : t'.cmd = t.cmd)
    (hlog : s'.log = s.log ++ journal new) (habout : About Act.id new)
    (hplaces : (t'.hand.toList : Multiset ℕ) +
      ((s'.cmdQueue ++ s'.thread.hand).map CmdObj.id : Multiset ℕ) +
      (new.map Prod.fst : Multiset ℕ) =
      (t.hand.toList : Multiset ℕ) + ((s.cmdQueue ++ s.thread.hand).map CmdObj.id : Multiset ℕ))
    (hadmitted : ∀ c, t' = .admitted c → c.cmdsz ≤ maxCmdsz)
    (hqueued : ∀ c ∈ s'.cmdQueue ++ s'.thread.hand, c ∈ s.cmdQueue ++ s.thread.hand ∨
      c = t.cmd ∧ c.cmdsz ≤ maxCmdsz)
    (hold : t.hand = some t.cmd.id ∨ (Succeeding t' → Succeeding t))
    (hnew : ∀ b ∈ new, b.1 = t.cmd.id ∧ Settled t' b.2)
    (hdrained : s'.thread = .finished → s'.cmdQueue = []) :
    Inv ⟨s', pre ++ t' :: post⟩ (bs ++ new) := by
  have hmem : t ∈ pre ++ t :: post := List.mem_append_right _ List.mem_cons_self
  have hother {u : Caller} (hu : u ∈ pre ++ t' :: post) : u = t' ∨ u ∈ pre ++ post :=
    List.mem_cons.mp (List.perm_middle.subset hu)
  have hbefore {u : Caller} (hu : u ∈ pre ++ post) : u ∈ pre ++ t :: post :=
    List.perm_middle.symm.subset (List.mem_cons_of_mem t hu)
  have hcmds : cmds ⟨s', pre ++ t' :: post⟩ = cmds ⟨s, pre ++ t :: post⟩ := by
    simp only [cmds, List.map_append, List.map_cons, hcmd]
  refine h.move hcmds hlog habout ?_ ?_ ?_ ?_ ?_ hdrained
  · let rest : Multiset ℕ := (pre ++ post).filterMap Caller.hand
    rw [census_eq, census_eq, add_right_comm _ rest, add_right_comm _ rest, add_right_comm _ rest,
      hplaces]
  · intro c hc
    rcases hother hc with hself | hrest
    · exact hadmitted c hself.symm
    · exact h.admitted c (hbefore hrest)
  · intro c hc
    rcases hqueued c hc with hsame | ⟨rfl, hshort⟩
    · exact h.queued c hsame
    · exact ⟨List.mem_map_of_mem hmem, hshort⟩
  · intro u hu
    rcases hother hu with rfl | hrest
    · rcases hold with hhand | hsucceeding
      · refine .inl ?_
        rw [census_eq, hcmd, hhand]
        exact Multiset.mem_add.mpr
          (.inl (Multiset.mem_add.mpr (.inl (Multiset.mem_singleton_self _))))
      · exact .inr ⟨t, hmem, hcmd.symm, hsucceeding⟩
    · exact .inr ⟨u, hbefore hrest, rfl, id⟩
  · intro b hb u hu hid
    obtain ⟨hb, hsettled⟩ := hnew b hb
    rcases hother hu with rfl | hrest
    · exact hsettled
    · -- no other caller has this command
      have hnodup : ((cmds ⟨s, pre ++ t :: post⟩).map CmdObj.id).Nodup := by
        rw [h.ids]
        exact List.nodup_range
      have hperm : (pre ++ t :: post).Perm (t :: (pre ++ post)) := List.perm_middle
      have hcons := ((hperm.map Caller.cmd).map CmdObj.id).nodup_iff.mp hnodup
      rw [List.map_cons, List.map_cons, List.nodup_cons, List.map_map] at hcons
      rw [← hb, ← hid] at hcons
      exact absurd (List.mem_map_of_mem hrest) hcons.1

end

theorem caller_inv {i : ℕ} (h : Inv p bs)
    (hok : ∀ t ∈ p.threads[i]?, CallerOk p.shared t)
    (hstep : p.advance (fun p t => t.advance p.shared) i = some p') : ∃ bs', Inv p' bs' := by
  obtain ⟨pre, t, post, s', t', hget, hthreads, hadvance, rfl⟩ := Pool.advance_cases hstep
  have hcallerOk := hok t hget
  obtain ⟨s, threads⟩ := p
  obtain rfl : threads = pre ++ t :: post := hthreads
  have hnone : ∀ b ∈ ([] : List (ℕ × List Act)), b.1 = t.cmd.id ∧ Settled t' b.2 :=
    fun b hb => absurd hb List.not_mem_nil
  have habout : About Act.id [] := fun b hb => absurd hb List.not_mem_nil
  cases t with
  | entered c =>
    simp only [Caller.advance] at hadvance
    split at hadvance <;> rename_i hrefused
    · obtain ⟨rfl, rfl⟩ := Prod.mk.inj (Option.some.inj hadvance)
      refine ⟨bs ++ [(c.id, refuse c)], h.moveCaller rfl ?_ ?_ ?_ ?_ ?_ (.inl rfl) ?_ h.drained⟩
      · simp [journal]
      · intro b hb a ha
        obtain rfl := List.mem_singleton.mp hb
        rcases List.mem_append.mp ha with hpbuf | hfree
        · rw [mem_freePbuf hpbuf]
          rfl
        · exact id_rtwFreeCmdObj hfree
      · exact (add_right_comm _ _ _).trans (congrArg (· + _) (zero_add _))
      · intro c' heq
        cases heq
      · exact fun c' hc' => .inl hc'
      · intro b hb
        obtain rfl := List.mem_singleton.mp hb
        refine ⟨rfl, freedOnce_append fun a ha => mem_freePbuf ha, fun hsucceeding hsctx => ?_⟩
        -- a command that is waited for is refused with `_FAIL`
        generalize hres : rtwCmdFilter s c = res at hsucceeding hrefused
        cases hsucceeding
        rcases hrefused with hfalse | hlong
        · cases hfalse
        · rw [hcallerOk hlong hsctx] at hres
          cases hres
    · obtain ⟨rfl, rfl⟩ := Prod.mk.inj (Option.some.inj hadvance)
      refine ⟨bs ++ [], h.moveCaller rfl ?_ habout ?_ ?_ ?_ (.inl rfl) hnone h.drained⟩
      · exact (List.append_nil _).symm
      · exact add_zero _
      · intro c' heq
        obtain rfl := Caller.admitted.inj heq
        exact Nat.not_lt.mp (not_or.mp hrefused).2
      · exact fun c' hc' => .inl hc'
  | admitted c =>
    obtain ⟨rfl, rfl⟩ := Prod.mk.inj (Option.some.inj hadvance)
    have hshort := h.admitted c (List.mem_append_right _ List.mem_cons_self)
    refine ⟨bs ++ [], h.moveCaller rfl ?_ habout ?_ ?_ ?_ (.inl rfl) hnone ?_⟩
    · exact (List.append_nil _).symm
    · have hperm : (s.cmdQueue ++ [c] ++ s.thread.hand).Perm
          (c :: (s.cmdQueue ++ s.thread.hand)) := by
        rw [List.append_assoc]
        exact List.perm_middle
      have hids := Multiset.coe_eq_coe.mpr (hperm.map CmdObj.id)
      refine (add_zero _).trans ((zero_add _).trans hids)
    · intro c' heq
      cases heq
    · intro c' hc'
      rcases List.mem_append.mp hc' with hqueue | hhand
      · rcases List.mem_append.mp hqueue with hold | hnew
        · exact .inl (List.mem_append_left _ hold)
        · obtain rfl := List.mem_singleton.mp hnew
          exact .inr ⟨rfl, hshort⟩
      · exact .inl (List.mem_append_right _ hhand)
    · exact fun hfinished => absurd hfinished hcallerOk
  | inserted c =>
    obtain ⟨rfl, rfl⟩ := Prod.mk.inj (Option.some.inj hadvance)
    refine ⟨bs ++ [], h.moveCaller rfl ?_ habout ?_ ?_ ?_ ?_ hnone h.drained⟩
    · exact (List.append_nil _).symm
    · exact add_zero _
    · intro c' heq
      cases heq
    · exact fun c' hc' => .inl hc'
    · exact .inr fun _ => .inserted c
  | returned c res => cases hadvance

theorem spawn_inv (h : Inv p bs) (c : CmdObj) :
    Inv (p.spawn (.entered { c with id := p.threads.length })) bs where
  log := h.log
  about := h.about
  places := by
    have hcensus : census (p.spawn (.entered { c with id := p.threads.length })) =
        {p.threads.length} + census p := by
      have heq : census (p.spawn (.entered { c with id := p.threads.length })) =
        {p.threads.length} + ((p.threads ++ []).filterMap Caller.hand : Multiset ℕ) + _ := census_eq
      rw [heq, List.append_nil, add_assoc]
      rfl
    have hplaces := h.places
    simp only [cmds, List.length_map] at hplaces
    rw [hcensus, add_assoc, hplaces]
    simp only [cmds, Pool.spawn, List.length_map, List.length_append, List.length_singleton]
    rw [Multiset.range_succ, Multiset.singleton_add]
  ids := by
    have hids := h.ids
    simp only [cmds, List.length_map] at hids
    simp only [cmds, Pool.spawn, List.map_append, List.length_append, List.length_map,
      List.length_singleton, List.range_succ, hids]
    rfl
  admitted c' hc' := by
    rcases List.mem_append.mp hc' with hold | hnew
    · exact h.admitted c' hold
    · cases List.mem_singleton.mp hnew
  queued c' hc' := by
    obtain ⟨hmem, hshort⟩ := h.queued c' hc'
    refine ⟨?_, hshort⟩
    simp only [cmds, Pool.spawn, List.map_append]
    exact List.mem_append_left _ hmem
  settled := by
    intro b hb t ht hid
    rcases List.mem_append.mp ht with hold | hnew
    · exact h.settled b hb t hold hid
    · -- the new command has no block
      obtain rfl := List.mem_singleton.mp hnew
      have hmem : b.1 ∈ Multiset.range (cmds p).length := by
        rw [← h.places]
        exact Multiset.mem_add.mpr (.inr (List.mem_map_of_mem hb))
      rw [← hid, cmds, List.length_map] at hmem
      exact absurd (Multiset.mem_range.mp hmem) (Nat.lt_irrefl _)
  drained := h.drained

/-! ## Runs -/

/-- **The condition on a step**: it is none of the three slips. -/
def Event.Ok (p : System) : Event → Prop
  | .caller i => ∀ t ∈ p.threads[i]?, CallerOk p.shared t
  | .thread _ ret => ThreadOk p.shared ret
  | _ => True

instance Event.Ok.decidable (p : System) : ∀ e, Decidable (Event.Ok p e)
  | .caller i => inferInstanceAs (Decidable (∀ t ∈ p.threads[i]?, CallerOk p.shared t))
  | .thread _ ret => ThreadOk.decidable p.shared ret
  | .enqueue _ | .setHwInitCompleted _ | .setDrvStopped _ | .setSurpriseRemoved
  | .rtwStopCmdThread => inferInstanceAs (Decidable True)

/-- The thread is created, and nothing was passed in yet. -/
structure Started (p : System) : Prop where
  threads : p.threads = []
  thread : p.shared.thread = .starting
  cmdthdRunning : p.shared.cmdthdRunning = false
  cmdQueue : p.shared.cmdQueue = []
  log : p.shared.log = []

theorem Started.inv (h : Started p) : Inv p [] where
  log := h.log
  about b hb := absurd hb List.not_mem_nil
  places := by
    unfold census cmds
    rw [h.threads, h.cmdQueue, h.thread]
    rfl
  ids := by
    unfold cmds
    rw [h.threads]
    rfl
  admitted c hc := by
    rw [h.threads] at hc
    cases hc
  queued c hc := by
    rw [h.cmdQueue, h.thread] at hc
    cases hc
  settled b hb := absurd hb List.not_mem_nil
  drained _ := h.cmdQueue

theorem step_inv {e : Event} (h : ∃ bs, Inv p bs) (hok : e.Ok p) (hstep : step p e = some p') :
    ∃ bs, Inv p' bs := by
  obtain ⟨bs, hinv⟩ := h
  cases e with
  | enqueue c =>
    obtain rfl := Option.some.inj hstep
    exact ⟨bs, spawn_inv hinv c⟩
  | caller i => exact caller_inv hinv hok hstep
  | thread signal ret =>
    obtain ⟨s', hadvance, rfl⟩ := Option.map_eq_some_iff.mp hstep
    exact thread_inv hinv hok hadvance
  | setHwInitCompleted b | setDrvStopped b | setSurpriseRemoved | rtwStopCmdThread =>
    obtain rfl := Option.some.inj hstep
    exact ⟨bs, hinv.log, hinv.about, hinv.places, hinv.ids, hinv.admitted, hinv.queued,
      hinv.settled, hinv.drained⟩

/-- **The promises are kept in every run whose steps all meet the condition.** -/
theorem lifecycle_of_run {es : List Event} (hs : Started p)
    (hok : Meets step (fun p e => e.Ok p) p es) (hrun : run step p es = some p')
    (hfinished : p'.shared.thread = .finished) (hquiet : Quiet p') : Lifecycle p' := by
  have hstart : ∃ bs, Inv p bs := ⟨[], hs.inv⟩
  have hstep (q : System) (e : Event) (q' : System) (h : ∃ bs, Inv q bs) (hok : e.Ok q)
      (hstep : step q e = some q') : ∃ bs, Inv q' bs := step_inv h hok hstep
  obtain ⟨bs, hinv⟩ := run_invariant_of_meets hstep hstart hok hrun
  exact hinv.lifecycle hfinished hquiet

def initial : System := ⟨{}, []⟩

theorem started_initial : Started initial := ⟨rfl, rfl, rfl, rfl, rfl⟩

/-- The first command is executed, the second is still queued when the device is pulled out, and the
third comes too late. -/
def surpriseRemoval : List Event :=
  [.thread false 0, .enqueue { cmdcode := cmdSetStakey, sctx := true }, .caller 0, .caller 0,
    .enqueue { cmdcode := cmdSetDrvExtra, extra := { size := 4, pbuf := true }, sctx := true },
    .caller 1, .caller 1, .caller 0, .thread false 0, .thread false 0, .thread false 0,
    .thread false 0, .thread false 0, .setSurpriseRemoved, .thread false 0, .caller 1,
    .thread false h2cSuccess, .thread false 0, .thread false 0,
    .enqueue { cmdcode := cmdDisconnect, rsp := true, rspsz := 8, sctx := true }, .caller 2,
    .thread false 0, .thread false 0]

theorem lifecycle_surpriseRemoval :
    ∃ p', run step initial surpriseRemoval = some p' ∧ Lifecycle p' := by
  have hok : Meets step (fun p e => Event.Ok p e) initial surpriseRemoval := of_decide_eq_true rfl
  refine ⟨_, rfl, lifecycle_of_run started_initial hok rfl rfl ?_⟩
  refine List.forall_mem_cons.mpr ⟨⟨_, _, rfl⟩, ?_⟩
  refine List.forall_mem_cons.mpr ⟨⟨_, _, rfl⟩, ?_⟩
  exact List.forall_mem_singleton.mpr ⟨_, _, rfl⟩

/-- A command is admitted, and the driver is stopped; the thread drains the queue before the command
is inserted. It stays there, although `_SUCCESS` was returned for it. -/
theorem not_lifecycle_late :
    ¬ ∀ p es p', Started p → run step p es = some p' → p'.shared.thread = .finished → Quiet p' →
      Lifecycle p' := by
  intro h
  have hkept := h initial
    [.thread false 0, .enqueue { cmdcode := cmdSetStakey }, .caller 0, .setDrvStopped true,
      .rtwStopCmdThread, .thread false 0, .thread false 0, .thread false 0, .thread false 0,
      .caller 0, .caller 0]
    _ started_initial rfl rfl (List.forall_mem_singleton.mpr ⟨_, _, rfl⟩)
  cases hkept.empty

end Rtl88x2eu.Cmd
