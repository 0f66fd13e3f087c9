import Rtl88x2eu.Coop.Session

/-!
# Accounting of the pending queue

`grp->pending_count` and `grp->pending_queue` are updated by separate steps. Every operation
carries a debt while it stands between the two, and the count is the length plus the debts as
long as no over-limit submit finds the queue empty. There the debt is lost: the submit decrements
the count for a frame that another CPU has taken, and counted, before.

## Main definitions

* `Op.debt`, `Counted`, `DropFindsFrame`

## Main results

* `step_counted`: one step keeps the ledger
* `pendingCount_eq_length`: with no operation in flight the count is the length, along every run
  whose over-limit branches find a frame
* `pendingCount_ne_length`: a run that ends with a frame in the queue and the count at `0`
-/

namespace Rtl88x2eu.Coop

open Transition

def Session.balance (s : Session) : ℤ := s.pendingCount - s.pendingQueue.length

/-- What the count is ahead of the queue on behalf of an operation. -/
def Op.debt : Op → ℤ
  | submitCount _ => -1
  | submitUncount _ (some _) | drainUncount _ _ _ | unbindUncount _ _ | removeAdapterUncount _ _ =>
      1
  | _ => 0

/-- The ledger, and no submit holds an empty-handed decrement. -/
structure Counted (p : Pool Session Op) : Prop where
  ledger : p.shared.balance - (p.threads.map Op.debt).sum = 0
  inHand : ∀ o ∈ p.threads, ∀ a, o ≠ .submitUncount a none

def Op.dropsHead : Op → Bool
  | submitDequeue _ => true
  | _ => false

/-- The step is not the dequeue of an over-limit submit on an empty queue. -/
def DropFindsFrame (p : Pool Session Op) : Label → Prop
  | .advance i _ => ∀ o ∈ p.threads[i]?, o.dropsHead → p.shared.pendingQueue ≠ []
  | _ => True

instance (p : Pool Session Op) : ∀ l, Decidable (DropFindsFrame p l)
  | .advance i _ =>
    inferInstanceAs (Decidable (∀ o ∈ p.threads[i]?, o.dropsHead → p.shared.pendingQueue ≠ []))
  | .start _ | .runTasklet | .setPrimary _ | .addHelper _ | .allocStainfo _ _ | .primaryRecv _ _
  | .setDrvStopped _ _ | .setPreLinkSta _ _ _ => isTrue trivial

variable {p p' : Pool Session Op} {o o' : Op} {s : Session} {choice : Bool}

@[simp] theorem balance_freeRecvframe (s : Session) (a : AdapterId) (f : PendingFrame) :
    (s.freeRecvframe a f).balance = s.balance := rfl

@[simp] theorem balance_taskletDone (s : Session) : s.taskletDone.balance = s.balance := rfl

theorem balance_enqueue (s : Session) (f : PendingFrame) :
    { s with pendingQueue := s.pendingQueue ++ [f] }.balance = s.balance - 1 := by
  simp only [Session.balance, List.length_append, List.length_singleton]
  omega

theorem balance_dequeue {s : Session} {f : PendingFrame} {q : List PendingFrame}
    (hq : s.pendingQueue = f :: q) : { s with pendingQueue := q }.balance = s.balance + 1 := by
  simp only [Session.balance, hq, List.length_cons]
  omega

theorem stepSubmit_balance (hnone : ∀ a, o ≠ .submitUncount a none) {t : Session}
    (h : o.stepSubmit choice t = some (s, o')) : s.balance - o'.debt = t.balance - o.debt := by
  cases o <;> simp only [Op.stepSubmit] at h
  case submitCheck =>
    split at h
    · split_ifs at h <;> grind [Op.debt]
    · grind [Op.debt]
  case submitLookup => split at h <;> grind [Op.debt]
  case submitAlloc => split at h <;> grind [Op.debt, Session.balance]
  case submitEnqueue f =>
    obtain ⟨rfl, rfl⟩ := Prod.mk.inj (Option.some.inj h)
    rw [balance_enqueue]
    simp [Op.debt]
  case submitCount =>
    split_ifs at h <;> grind [Op.debt, Session.balance]
  case submitDequeue a =>
    split at h
    next => grind [Op.debt]
    next f q hq =>
      obtain ⟨rfl, rfl⟩ := Prod.mk.inj (Option.some.inj h)
      rw [balance_dequeue hq]
      simp [Op.debt]
  case submitUncount a got =>
    cases got with
    | none => exact absurd rfl (hnone a)
    | some f => grind [Op.debt, Session.balance]
  case submitFree a got => split at h <;> grind [Op.debt, balance_freeRecvframe]
  all_goals cases h

theorem stepDrain_balance {t : Session} (h : o.stepDrain choice t = some (s, o')) :
    s.balance - o'.debt = t.balance - o.debt := by
  cases o <;> simp only [Op.stepDrain] at h
  case drainCheck =>
    split at h
    · split_ifs at h <;> grind [Op.debt, balance_taskletDone]
    · grind [Op.debt, balance_taskletDone]
  case drainDequeue a n =>
    split at h
    next => grind [Op.debt]
    next f q hq =>
      split_ifs at h
      · obtain ⟨rfl, rfl⟩ := Prod.mk.inj (Option.some.inj h)
        rw [balance_dequeue hq]
        simp [Op.debt]
      · grind [Op.debt]
  case drainUncount => grind [Op.debt, Session.balance]
  case drainProcess => split_ifs at h <;> grind [Op.debt, balance_freeRecvframe]
  case drainResched => split_ifs at h <;> grind [Op.debt, Session.balance, Session.taskletDone]
  all_goals cases h

theorem stepBind_balance {t : Session} (h : o.stepBind choice t = some (s, o')) :
    s.balance - o'.debt = t.balance - o.debt := by
  cases o <;> simp only [Op.stepBind] at h
  case bindCheck => split_ifs at h <;> grind [Op.debt]
  case unbindWait =>
    split_ifs at h
    grind [Op.debt]
  case unbindDequeue a =>
    split at h
    next => grind [Op.debt]
    next f q hq =>
      obtain ⟨rfl, rfl⟩ := Prod.mk.inj (Option.some.inj h)
      rw [balance_dequeue hq]
      simp [Op.debt]
  case unbindFree a f => split at h <;> grind [Op.debt, balance_freeRecvframe]
  case bindLocked => grind [Op.debt, Session.balance]
  case unbindDisable => grind [Op.debt, Session.balance]
  case unbindState => grind [Op.debt, Session.balance]
  case unbindRead => grind [Op.debt]
  case unbindUncount => grind [Op.debt, Session.balance]
  case unbindEnable => grind [Op.debt, Session.balance]
  all_goals cases h

theorem stepRemove_balance {t : Session} (h : o.stepRemove p t = some (s, o')) :
    s.balance - o'.debt = t.balance - o.debt := by
  cases o <;> simp only [Op.stepRemove] at h
  case removeHelper a whole => split_ifs at h <;> grind [Op.debt, Session.balance]
  case removeHelperSync a whole readers => split_ifs at h <;> grind [Op.debt]
  case removeAdapterCheck => split_ifs at h <;> grind [Op.debt]
  case removeAdapterKill =>
    split_ifs at h
    grind [Op.debt, Session.balance]
  case removeAdapterKillWait =>
    split_ifs at h
    grind [Op.debt, Session.balance]
  case removeAdapterDequeue a =>
    split at h
    next => grind [Op.debt]
    next f q hq =>
      obtain ⟨rfl, rfl⟩ := Prod.mk.inj (Option.some.inj h)
      rw [balance_dequeue hq]
      simp [Op.debt]
  case removeAdapterUncount => grind [Op.debt, Session.balance]
  case removeAdapterFree => grind [Op.debt, balance_freeRecvframe]
  case removeAdapterClear => grind [Op.debt, Session.balance]
  all_goals cases h

theorem stepFreeSta_balance {t : Session} (h : o.stepFreeSta t = some (s, o')) :
    s.balance - o'.debt = t.balance - o.debt := by
  cases o <;> simp only [Op.stepFreeSta] at h
  case freeStaUnhash => split_ifs at h <;> grind [Op.debt, Session.balance]
  case freeStaReturn => grind [Op.debt, Session.balance]
  all_goals cases h

theorem opStep_balance (hnone : ∀ a, o ≠ .submitUncount a none)
    (h : o.step p choice = some (s, o')) : s.balance - o'.debt = p.shared.balance - o.debt := by
  obtain h | h | h | h | h := Op.step_cases h
  · exact stepSubmit_balance hnone h
  · exact stepDrain_balance h
  · exact stepBind_balance h
  · exact stepRemove_balance h
  · exact stepFreeSta_balance h

theorem opStep_inHand {a : AdapterId} (h : o.step p choice = some (s, .submitUncount a none)) :
    o = .submitDequeue a ∧ p.shared.pendingQueue = [] := by
  obtain h | h | h | h | h := Op.step_cases h
  · cases o <;> simp only [Op.stepSubmit] at h <;> grind
  · cases o <;> simp only [Op.stepDrain] at h <;> grind
  · cases o <;> simp only [Op.stepBind] at h <;> grind
  · cases o <;> simp only [Op.stepRemove] at h <;> grind
  · cases o <;> simp only [Op.stepFreeSta] at h <;> grind

theorem Counted.spawn (hp : Counted p) (hdebt : o.debt = 0)
    (hnone : ∀ a, o ≠ .submitUncount a none) : Counted (p.spawn o) where
  ledger := by simpa [Pool.spawn, hdebt] using hp.ledger
  inHand := by
    intro x hx
    obtain hx | rfl := List.mem_append.mp hx |>.imp_right List.mem_singleton.mp
    · exact hp.inHand x hx
    · exact hnone

/-- What does not touch the queue and the count keeps the ledger. -/
theorem Counted.frame (hp : Counted p) (hbal : s.balance = p.shared.balance) :
    Counted { p with shared := s } where
  ledger := by simpa [hbal] using hp.ledger
  inHand := hp.inHand

theorem balance_setPrimary (s : Session) (a : AdapterId) :
    (s.setPrimary a).balance = s.balance := by
  unfold Session.setPrimary
  split_ifs <;> rfl

theorem balance_addHelper (s : Session) (a : AdapterId) : (s.addHelper a).balance = s.balance := by
  unfold Session.addHelper
  split_ifs <;> rfl

theorem balance_allocStainfo (s : Session) (a : AdapterId) (hwaddr : MacAddr) :
    (s.allocStainfo a hwaddr).balance = s.balance := by
  unfold Session.allocStainfo
  split <;> rfl

/-- **One step keeps the ledger**, when the over-limit branch finds a frame. -/
theorem step_counted (hp : Counted p) {l : Label} (hok : DropFindsFrame p l)
    (h : step p l = some p') : Counted p' := by
  cases l with
  | start o =>
    obtain ⟨hentry, rfl⟩ := step_start h
    refine hp.spawn ?_ ?_
    · cases o <;> first | rfl | cases hentry
    · rintro a rfl
      cases hentry
  | advance i choice =>
    refine ⟨?_, ?_⟩
    · rw [← hp.ledger]
      exact Pool.advance_balance (f := fun p o => Op.step p choice o) (i := i)
        (fun o ho s o' hs => opStep_balance (hp.inHand o ho) hs) h
    · obtain ⟨pre, o, post, s, o', hget, hthreads, hs, rfl⟩ := step_advance h
      intro x hx a
      obtain hx | rfl | hx : x ∈ pre ∨ x = o' ∨ x ∈ post := by simpa using hx
      · exact hp.inHand x (by simp [hthreads, hx]) a
      · rintro rfl
        obtain ⟨rfl, hq⟩ := opStep_inHand hs
        exact hok _ hget rfl hq
      · exact hp.inHand x (by simp [hthreads, hx]) a
  | runTasklet =>
    obtain ⟨t, -, rfl⟩ := step_runTasklet h
    exact Counted.spawn (o := .drainCheck) (hp.frame rfl) rfl (by rintro a ⟨⟩)
  | setPrimary a =>
    obtain rfl := Option.some.inj h
    exact hp.frame (balance_setPrimary p.shared a)
  | addHelper a =>
    obtain rfl := Option.some.inj h
    exact hp.frame (balance_addHelper p.shared a)
  | allocStainfo a hwaddr =>
    obtain rfl := Option.some.inj h
    exact hp.frame (balance_allocStainfo p.shared a hwaddr)
  | primaryRecv a free =>
    obtain rfl := Option.some.inj h
    exact hp.frame rfl
  | setDrvStopped a b =>
    obtain rfl := Option.some.inj h
    exact hp.frame rfl
  | setPreLinkSta a hwaddr b =>
    obtain rfl := Option.some.inj h
    exact hp.frame rfl

theorem Initial.counted (hp : Initial p) : Counted p where
  ledger := by simp [hp.threads, Session.balance, hp.queue, hp.count]
  inHand := by simp [hp.threads]

/-- With no operation in flight there is no debt. -/
theorem Counted.eq_length (hp : Counted p) (hq : Quiescent p) :
    p.shared.pendingCount = p.shared.pendingQueue.length := by
  have hdebts : (p.threads.map Op.debt).sum = 0 := by
    apply List.sum_eq_zero
    intro d hd
    obtain ⟨o, ho, rfl⟩ := List.mem_map.mp hd
    rw [hq o ho]
    rfl
  have hledger := hp.ledger
  rw [hdebts, Session.balance] at hledger
  omega

/-- **The count is the length of the queue** whenever no operation is in flight, along every run
in which the over-limit branch of a submit finds a frame to drop; a queue with frames then has a
positive count. -/
theorem pendingCount_eq_length {es : List Label} (hp : Initial p)
    (hok : Meets step DropFindsFrame p es) (hrun : run step p es = some p') (hq : Quiescent p') :
    p'.shared.pendingCount = p'.shared.pendingQueue.length ∧
      (p'.shared.pendingQueue ≠ [] → 0 < p'.shared.pendingCount) := by
  have hp' : Counted p' :=
    run_invariant_of_meets (fun p l p' hp hok h => step_counted hp hok h) hp.counted hok hrun
  have hlen := hp'.eq_length hq
  refine ⟨hlen, fun hne => ?_⟩
  have := List.length_pos_iff.mpr hne
  omega

/-! ## The over-limit branch against the drain -/

/-- An adapter with its descriptors and station slots, before the group is set up. -/
def sessionStart : Pool Session Op where
  shared := { freeRecvQueue := fun _ => List.range 64, freeStaQueue := fun _ => [0, 1] }
  threads := []

theorem sessionStart_initial : Initial sessionStart := ⟨rfl, rfl, rfl, rfl, rfl, nofun⟩

def peerAddr : MacAddr := ⟨0x02, 0, 0, 0, 0, 1⟩

def sessionBind (hwaddr : MacAddr) : List Label :=
  [.setPrimary 0, .addHelper 1, .allocStainfo 0 hwaddr, .start (.bindCheck 0), .advance 0 true,
    .advance 0 true]

/-- Thread `i` submits a frame of the station and gets as far as the count. -/
def submitRun (hwaddr : MacAddr) (i : ℕ) : List Label :=
  .start (.submitCheck hwaddr) :: List.replicate 5 (.advance i true)

def dropHeadRun (hwaddr : MacAddr) : List Label :=
  sessionBind hwaddr ++ (List.range 49).flatMap (fun i => submitRun hwaddr (i + 1)) ++
    List.replicate 3 (.advance 49 true)

def overLimitRun (hwaddr : MacAddr) : List Label :=
  sessionBind hwaddr ++ (List.range 49).flatMap (fun i => submitRun hwaddr (i + 1)) ++
    .runTasklet :: List.replicate (3 * 49 + 3) (.advance 50 true) ++
    List.replicate 3 (.advance 49 true)

/-- Over-limit submits that find a frame to drop leave the count at the length. -/
theorem pendingCount_eq_length_overLimit :
    ∃ p', run step sessionStart (dropHeadRun peerAddr) = some p' ∧
      p'.shared.pendingCount = p'.shared.pendingQueue.length ∧
      (p'.shared.pendingQueue ≠ [] → 0 < p'.shared.pendingCount) := by
  obtain ⟨p', hrun, hq⟩ : ∃ p', run step sessionStart (dropHeadRun peerAddr) = some p' ∧
      Quiescent p' := exists_run_of_any (by decide +kernel)
  exact ⟨p', hrun, pendingCount_eq_length sessionStart_initial (by decide +kernel) hrun hq⟩

/-- The over-limit submit decrements the count for a frame the tasklet has counted already: with
no operation in flight the queue of the active session holds one frame at count `0`. -/
theorem pendingCount_ne_length :
    Initial sessionStart ∧
    ∃ p', run step sessionStart (overLimitRun peerAddr ++ submitRun peerAddr 51) = some p' ∧
      Quiescent p' ∧ p'.shared.state = .active ∧ p'.shared.pendingQueue.length = 1 ∧
      p'.shared.pendingCount = 0 :=
  ⟨sessionStart_initial, exists_run_of_any (by decide +kernel)⟩

end Rtl88x2eu.Coop
