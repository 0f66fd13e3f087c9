import Rtl88x2eu.Coop.Accounting

/-!
# Frames left behind by a session that has ended

A session leaves `COOP_STATE_ACTIVE` in `rtw_coop_rx_unbind_session`, in
`rtw_coop_rx_remove_helper` and in `rtw_coop_rx_remove_adapter`. Only the first drains after it
has changed the state, the second does not drain, and a submit that read the state before any of
them still enqueues after. A frame in the queue of a session that is not active is safe exactly
while an operation is on its way through its drain loop.

## Main definitions

* `Op.drains`, `KeepsNoOrphan`

## Main results

* `pendingQueue_eq_nil`: with no operation in flight a session that is not active has no pending
  frame, along every run that leaves none behind
* `pendingQueue_orphaned`: the runs that do leave one behind
-/

namespace Rtl88x2eu.Coop

open Transition

/-- The operation is on its way to finding the pending queue empty. -/
def Op.drains : Op → Bool
  | unbindDisable | unbindWait | unbindState | unbindRead
  | unbindDequeue _ | unbindUncount _ _ | unbindFree _ _
  | removeAdapterKill _ | removeAdapterKillWait _
  | removeAdapterDequeue _ | removeAdapterUncount _ _ | removeAdapterFree _ _ => true
  | _ => false

/-- Some operation is on its way to finding the pending queue empty. -/
def Draining (p : Pool Session Op) : Prop := ∃ o ∈ p.threads, o.drains

def Op.endsSession (s : Session) : Op → Bool
  | removeHelper a _ => a ∈ s.helpers ∧ s.helpers.erase a = [] ∧ s.state = .active
  | removeAdapterClear _ => true
  | _ => false

def Op.enqueues : Op → Bool
  | submitEnqueue _ => true
  | _ => false

/-- The step does not leave a frame behind. -/
def KeepsNoOrphan (p : Pool Session Op) : Label → Prop
  | .advance i _ => ∀ o ∈ p.threads[i]?,
      (o.enqueues → p.shared.state = .active ∨ Draining p) ∧
      (o.endsSession p.shared → p.shared.pendingQueue = [] ∨ Draining p)
  | _ => True

instance (p : Pool Session Op) : ∀ l, Decidable (KeepsNoOrphan p l)
  | .advance i _ =>
    inferInstanceAs (Decidable (∀ o ∈ p.threads[i]?,
      (o.enqueues → p.shared.state = .active ∨ ∃ o ∈ p.threads, o.drains) ∧
      (o.endsSession p.shared → p.shared.pendingQueue = [] ∨ ∃ o ∈ p.threads, o.drains)))
  | .start _ | .runTasklet | .setPrimary _ | .addHelper _ | .allocStainfo _ _ | .primaryRecv _ _
  | .setDrvStopped _ _ | .setPreLinkSta _ _ _ => isTrue trivial

def NoOrphan (p : Pool Session Op) : Prop :=
  p.shared.state ≠ .active → p.shared.pendingQueue ≠ [] → Draining p

variable {p p' : Pool Session Op} {o o' : Op} {s t : Session} {choice : Bool}

/-! ## One step -/

def Op.Tidy (o : Op) (t s : Session) (o' : Op) : Prop :=
  o'.drains ∨ s.pendingQueue = [] ∨ s.state = .active ∨
    o.drains = false ∧ (o.enqueues ∧ s.state = t.state ∨
      o.endsSession t ∧ s.pendingQueue = t.pendingQueue ∨
      t.state ≠ .active ∧ t.pendingQueue ≠ [])

theorem stepSubmit_tidy (h : o.stepSubmit choice t = some (s, o')) : o.Tidy t s o' := by
  unfold Op.Tidy
  cases o <;> simp only [Op.stepSubmit] at h
  case submitEnqueue f => grind [Op.drains, Op.enqueues]
  case submitCheck => split at h <;> grind [Op.drains]
  case submitLookup => split at h <;> grind [Op.drains]
  case submitFree => split at h <;> grind [Op.drains, Session.freeRecvframe]
  all_goals grind [Op.drains]

theorem stepDrain_tidy (h : o.stepDrain choice t = some (s, o')) : o.Tidy t s o' := by
  unfold Op.Tidy
  cases o <;> simp only [Op.stepDrain] at h
  case drainProcess => split_ifs at h <;> grind [Op.drains, Session.freeRecvframe]
  all_goals grind [Op.drains, Session.taskletDone]

theorem stepBind_tidy (h : o.stepBind choice t = some (s, o')) : o.Tidy t s o' := by
  unfold Op.Tidy
  cases o <;> simp only [Op.stepBind] at h
  all_goals grind [Op.drains]

theorem stepRemove_tidy (h : o.stepRemove p t = some (s, o')) : o.Tidy t s o' := by
  unfold Op.Tidy
  cases o <;> simp only [Op.stepRemove] at h
  all_goals grind [Op.drains, Op.endsSession]

theorem stepFreeSta_tidy (h : o.stepFreeSta t = some (s, o')) : o.Tidy t s o' := by
  unfold Op.Tidy
  cases o <;> simp only [Op.stepFreeSta] at h
  all_goals grind [Op.drains]

theorem opStep_tidy (h : o.step p choice = some (s, o')) : o.Tidy p.shared s o' := by
  obtain h | h | h | h | h := Op.step_cases h
  · exact stepSubmit_tidy h
  · exact stepDrain_tidy h
  · exact stepBind_tidy h
  · exact stepRemove_tidy h
  · exact stepFreeSta_tidy h

theorem NoOrphan.spawn (hp : NoOrphan p) (o : Op) : NoOrphan (p.spawn o) := by
  intro hstate hqueue
  obtain ⟨d, hd, hdrains⟩ := hp hstate hqueue
  exact ⟨d, List.mem_append_left _ hd, hdrains⟩

/-- What changes neither the queue nor whether the session is active leaves no orphan. -/
theorem NoOrphan.frame (hp : NoOrphan p) (hqueue : s.pendingQueue = p.shared.pendingQueue)
    (hstate : s.state = .active ↔ p.shared.state = .active) :
    NoOrphan { p with shared := s } := by
  intro hinactive hne
  exact hp (mt hstate.mpr hinactive) (hqueue ▸ hne)

theorem setPrimary_frame (s : Session) (a : AdapterId) :
    (s.setPrimary a).pendingQueue = s.pendingQueue ∧
      ((s.setPrimary a).state = .active ↔ s.state = .active) := by
  unfold Session.setPrimary
  split_ifs <;> simp_all

theorem addHelper_frame (s : Session) (a : AdapterId) :
    (s.addHelper a).pendingQueue = s.pendingQueue ∧
      ((s.addHelper a).state = .active ↔ s.state = .active) := by
  unfold Session.addHelper
  split_ifs <;> simp_all

theorem allocStainfo_frame (s : Session) (a : AdapterId) (hwaddr : MacAddr) :
    (s.allocStainfo a hwaddr).pendingQueue = s.pendingQueue ∧
      (s.allocStainfo a hwaddr).state = s.state := by
  unfold Session.allocStainfo
  split <;> exact ⟨rfl, rfl⟩

theorem Draining.of_ne {pre post : List Op} (hp : Draining p)
    (hthreads : p.threads = pre ++ o :: post)
    (ho : o.drains = false) : Draining ⟨s, pre ++ o' :: post⟩ := by
  obtain ⟨d, hd, hdrains⟩ := hp
  rw [hthreads, List.mem_append, List.mem_cons] at hd
  refine ⟨d, ?_, hdrains⟩
  obtain hd | rfl | hd := hd
  · exact List.mem_append_left _ hd
  · rw [ho] at hdrains
    cases hdrains
  · exact List.mem_append_right _ (.tail _ hd)

/-- A step of an operation that leaves no frame behind. -/
theorem NoOrphan.advance {pre post : List Op} (hp : NoOrphan p)
    (hthreads : p.threads = pre ++ o :: post) (hs : o.step p choice = some (s, o'))
    (henq : o.enqueues → p.shared.state = .active ∨ Draining p)
    (hend : o.endsSession p.shared → p.shared.pendingQueue = [] ∨ Draining p) :
    NoOrphan ⟨s, pre ++ o' :: post⟩ := by
  intro hinactive hne
  obtain hdrains | hempty | hactive | ⟨ho, hcase⟩ := opStep_tidy hs
  · exact ⟨o', by simp, hdrains⟩
  · exact absurd hempty hne
  · exact absurd hactive hinactive
  -- the thread that moves does not drain, so it is another one that does
  refine Draining.of_ne (p := p) ?_ hthreads ho
  obtain ⟨henqueues, hstate⟩ | ⟨hends, hqueue⟩ | ⟨hinactive, hne⟩ := hcase
  · exact (henq henqueues).resolve_left (hstate ▸ hinactive)
  · exact (hend hends).resolve_left (hqueue ▸ hne)
  · exact hp hinactive hne

/-- **One step leaves no frame behind.** -/
theorem step_noOrphan (hp : NoOrphan p) {l : Label} (hok : KeepsNoOrphan p l)
    (h : step p l = some p') : NoOrphan p' := by
  cases l with
  | start o =>
    obtain ⟨-, rfl⟩ := step_start h
    exact hp.spawn o
  | advance i choice =>
    obtain ⟨pre, o, post, s, o', hget, hthreads, hs, rfl⟩ := step_advance h
    exact hp.advance hthreads hs (hok o hget).1 (hok o hget).2
  | runTasklet =>
    obtain ⟨t, -, rfl⟩ := step_runTasklet h
    exact NoOrphan.spawn (hp.frame rfl Iff.rfl) .drainCheck
  | setPrimary a =>
    obtain rfl := Option.some.inj h
    exact hp.frame (setPrimary_frame _ a).1 (setPrimary_frame _ a).2
  | addHelper a =>
    obtain rfl := Option.some.inj h
    exact hp.frame (addHelper_frame _ a).1 (addHelper_frame _ a).2
  | allocStainfo a hwaddr =>
    obtain rfl := Option.some.inj h
    have hframe := allocStainfo_frame p.shared a hwaddr
    exact hp.frame hframe.1 (by rw [hframe.2])
  | primaryRecv a free =>
    obtain rfl := Option.some.inj h
    exact hp.frame rfl Iff.rfl
  | setDrvStopped a b =>
    obtain rfl := Option.some.inj h
    exact hp.frame rfl Iff.rfl
  | setPreLinkSta a hwaddr b =>
    obtain rfl := Option.some.inj h
    exact hp.frame rfl Iff.rfl

/-- **No pending frame outlives its session**: with no operation in flight the queue of a session
that is not active is empty, along every run in which submits enqueue into an active session and
the session is ended on an empty queue, or with a drain still to come. -/
theorem pendingQueue_eq_nil {es : List Label} (hp : Initial p)
    (hok : Meets step KeepsNoOrphan p es) (hrun : run step p es = some p') (hq : Quiescent p')
    (hstate : p'.shared.state ≠ .active) : p'.shared.pendingQueue = [] := by
  have hinit : NoOrphan p := fun _ hne => absurd hp.queue hne
  have hp' : NoOrphan p' :=
    run_invariant_of_meets (fun p l p' hp hok h => step_noOrphan hp hok h) hinit hok hrun
  by_contra hne
  obtain ⟨o, ho, hdrains⟩ := hp' hstate hne
  rw [hq o ho] at hdrains
  cases hdrains

/-- Thread `i` unbinds the session, with `n` frames to drain. -/
def unbindRun (i n : ℕ) : List Label :=
  .start .unbindDisable :: List.replicate (6 + 3 * n) (.advance i true)

/-- A session unbound with a frame pending, after the submit was over. -/
theorem pendingQueue_eq_nil_unbind :
    ∃ p', run step sessionStart (sessionBind peerAddr ++ submitRun peerAddr 1 ++ unbindRun 2 1) =
      some p' ∧ p'.shared.state = .idle ∧ p'.shared.pendingQueue = [] := by
  obtain ⟨p', hrun, hq, hstate⟩ : ∃ p',
      run step sessionStart (sessionBind peerAddr ++ submitRun peerAddr 1 ++ unbindRun 2 1) =
        some p' ∧ Quiescent p' ∧ p'.shared.state = .idle := exists_run_of_any (by decide +kernel)
  refine ⟨p', hrun, hstate, ?_⟩
  exact pendingQueue_eq_nil sessionStart_initial (by decide +kernel) hrun hq
    (by rw [hstate]; decide)

/-- A submit (thread 1) has read the state and stands before its enqueue while the session is
unbound; in the other run the last helper is removed with a frame pending. Both sessions end idle
with a frame in the queue. -/
theorem pendingQueue_orphaned :
    Initial sessionStart ∧
    (∃ p', run step sessionStart (sessionBind peerAddr ++
        .start (.submitCheck peerAddr) :: List.replicate 3 (.advance 1 true) ++ unbindRun 2 0 ++
        List.replicate 2 (.advance 1 true)) = some p' ∧
      Quiescent p' ∧ p'.shared.state = .idle ∧ p'.shared.pendingQueue.length = 1) ∧
    ∃ p', run step sessionStart (sessionBind peerAddr ++ submitRun peerAddr 1 ++
        .start (.removeHelper 1 false) :: List.replicate 2 (.advance 2 true)) = some p' ∧
      Quiescent p' ∧ p'.shared.state = .idle ∧ p'.shared.pendingQueue.length = 1 :=
  ⟨sessionStart_initial, exists_run_of_any (by decide +kernel),
    exists_run_of_any (by decide +kernel)⟩

end Rtl88x2eu.Coop
