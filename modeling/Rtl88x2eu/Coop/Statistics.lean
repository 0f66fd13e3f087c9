import Mathlib.Data.BitVec
import Mathlib.Tactic.LinearCombination
import Rtl88x2eu.Coop.DrainConservation
import Rtl88x2eu.Coop.GroupState

/-!
# The counters of the helper frames

Every exit of a submit and of a drain iteration counts the frame once. Over a run the counters
balance: the candidates are the frames that were dropped under a counter or deferred, and the
deferred frames were drained or purged, or are pending. A reset clears the counters and leaves the
pending frames, so they stand on the other side.

## Main definitions

* `Ledger`, `Balanced`

## Main results

* `statistics_balanced`: the counters balance in every run
-/

namespace Rtl88x2eu.Coop

open Transition

variable {w w' : World} {g g' : Group}

/-! ## Frames and counters -/

/-- The counters of frames. -/
def Stat.isFrame : Stat → Bool
  | .fallbackEvents | .pairEvents | .unpairEvents => false
  | _ => true

structure Group.SameFrames (g g' : Group) : Prop where
  stats : ∀ x : Stat, x.isFrame → g'.stats x = g.stats x
  pendingQueue : g'.pendingQueue = g.pendingQueue

def World.SameFrames (w w' : World) : Prop :=
  ∀ g, w.grp = some g → ∃ g', w'.grp = some g' ∧ g.SameFrames g'

theorem Group.SameFrames.count {x : Stat} (h : g.SameFrames g') (hx : x.isFrame = false) :
    g.SameFrames (g'.count x) where
  stats y hy := by
    have hne : y ≠ x := by
      rintro rfl
      simp [hx] at hy
    simp only [Group.count, Function.update_of_ne hne]
    exact h.stats y hy
  pendingQueue := h.pendingQueue

theorem World.SameFrames.trans {w₁ w₂ w₃ : World} (h : w₁.SameFrames w₂) (h' : w₂.SameFrames w₃) :
    w₁.SameFrames w₃ := by
  intro g₁ hg₁
  obtain ⟨g₂, hg₂, hstats, hqueue⟩ := h g₁ hg₁
  obtain ⟨g₃, hg₃, hstats', hqueue'⟩ := h' g₂ hg₂
  exact ⟨g₃, hg₃, fun x hx => (hstats' x hx).trans (hstats x hx), hqueue'.trans hqueue⟩

theorem sameFrames_of_map {F : Group → Group} (hgrp : w'.grp = w.grp.map F)
    (hF : ∀ g : Group, g.SameFrames (F g)) : w.SameFrames w' := by
  intro g hg
  exact ⟨F g, by rw [hgrp, hg]; rfl, hF g⟩

theorem World.SameFrames.of_grp (h : w'.grp = w.grp) : w.SameFrames w' :=
  fun g hg => ⟨g, h.trans hg, fun _ _ => rfl, rfl⟩

theorem setPrimary_sameFrames (w : World) (a : AdapterId) :
    w.SameFrames (setPrimary w a).2 := by
  refine sameFrames_of_map (setPrimary_grp w a) fun g => ?_
  unfold Group.setPrimary
  split <;> exact ⟨fun _ _ => rfl, rfl⟩

theorem addHelper_sameFrames (w : World) (a : AdapterId) : w.SameFrames (addHelper w a).2 := by
  refine sameFrames_of_map (addHelper_grp w a) fun g => ?_
  split
  · exact Group.SameFrames.count ⟨fun _ _ => rfl, rfl⟩ rfl
  · exact ⟨fun _ _ => rfl, rfl⟩

theorem removeHelper_sameFrames (w : World) (a : AdapterId) :
    w.SameFrames (removeHelper w a).2 := by
  refine sameFrames_of_map (removeHelper_grp w a) fun g => ?_
  unfold Group.dropHelper
  dsimp only
  split
  · split
    · have hleft : g.SameFrames (({ g with helpers := g.helpers.erase a } : Group).count
          .unpairEvents) := Group.SameFrames.count ⟨fun _ _ => rfl, rfl⟩ rfl
      exact Group.SameFrames.count ⟨hleft.stats, hleft.pendingQueue⟩ rfl
    · exact Group.SameFrames.count ⟨fun _ _ => rfl, rfl⟩ rfl
  · exact ⟨fun _ _ => rfl, rfl⟩

theorem bindSession_sameFrames (ok : Tfm → Bool) (opens : AdapterId → Bool) (w : World)
    (p : AdapterId) : w.SameFrames (bindSession ok opens w p).2 := by
  refine sameFrames_of_map (bindSession_grp ok opens w p) fun g => ?_
  split <;> exact ⟨fun _ _ => rfl, rfl⟩

theorem notifyChannelSwitch_sameFrames (w : World) (a : AdapterId) :
    w.SameFrames (notifyChannelSwitch w a) := by
  refine sameFrames_of_map (notifyChannelSwitch_grp w a) fun g => ?_
  split <;> exact ⟨fun _ _ => rfl, rfl⟩

/-- The driver, with what its counters do not tell apart: the drops under `helper_rx_dup_dropped` of
submits and of the drain, the frames that were purged, and those that were pending at the last
reset, all since the last reset. -/
structure Ledger where
  world : World
  dupSubmit : BitVec 32 := 0
  dupDrain : BitVec 32 := 0
  purged : BitVec 32 := 0
  pendingAtReset : BitVec 32 := 0

def World.pending (w : World) : ℕ :=
  match w.grp with
  | none => 0
  | some g => g.pendingQueue.length

def World.dupDropped (w : World) : BitVec 32 :=
  match w.grp with
  | none => 0
  | some g => g.stats .helperRxDupDropped

def Ledger.record (s : Ledger) (w : World) : Event → Ledger
  | .submit _ _ => { s with
      world := w
      dupSubmit := s.dupSubmit + (w.dupDropped - s.world.dupDropped) }
  | .drain _ _ => { s with
      world := w
      dupDrain := s.dupDrain + (w.dupDropped - s.world.dupDropped) }
  | .unbindSession | .removeAdapter _ => { s with
      world := w
      purged := s.purged + (s.world.pending - w.pending : ℕ) }
  | .resetStats => { world := w, pendingAtReset := s.world.pending }
  | _ => { s with world := w }

def Ledger.next (s : Ledger) (e : Event) : Option Ledger := (s.world.next e).map (s.record · e)

/-- The two equations of the counters. -/
structure Balanced (g : Group) (dupSubmit dupDrain purged pendingAtReset : BitVec 32) : Prop where
  candidates : g.stats .helperRxCandidates = g.stats .helperRxForeign + g.stats .helperRxCryptoErr +
    g.stats .helperRxNoSta + g.stats .helperRxLate + g.stats .helperRxPoolFull + dupSubmit +
    g.stats .helperRxBackpressure + g.stats .helperRxDeferred
  deferred : g.stats .helperRxDeferred + pendingAtReset = g.stats .helperRxAccepted + dupDrain +
    purged + (g.pendingQueue.length : BitVec 32)

variable {dupSubmit dupDrain purged pendingAtReset : BitVec 32}

theorem Balanced.of_sameFrames (h : Balanced g dupSubmit dupDrain purged pendingAtReset)
    (hsame : g.SameFrames g') : Balanced g' dupSubmit dupDrain purged pendingAtReset := by
  have hstats : ∀ x : Stat, x.isFrame → g'.stats x = g.stats x := hsame.stats
  refine ⟨?_, ?_⟩
  · rw [hstats _ rfl, hstats _ rfl, hstats _ rfl, hstats _ rfl, hstats _ rfl, hstats _ rfl,
      hstats _ rfl, hstats _ rfl]
    exact h.candidates
  · rw [hstats _ rfl, hstats _ rfl, hsame.pendingQueue]
    exact h.deferred

def checkStats : List Stat :=
  [.helperRxForeign, .helperRxCryptoErr, .helperRxNoSta, .helperRxLate, .helperRxDupDropped]

def tidOk (f : RecvFrame) : Bool := !f.attrib.qos || f.attrib.priority ≤ 15

theorem submitDedup_stat {a : Adapter} {s : StaId} {f : RecvFrame} (htid : tidOk f)
    {x : Option Stat} (h : (submitDedup g a s f).1 = .error x) :
    ∃ y ∈ checkStats, x = some y := by
  unfold submitDedup at h
  dsimp only at h
  by_cases hqos : f.attrib.qos
  · have hprio : ¬15 < f.attrib.priority := by
      simpa [tidOk, hqos] using htid
    rw [if_pos hqos, if_neg hprio] at h
    split_ifs at h
    · exact ⟨_, by decide, (Except.error.inj h).symm⟩
    · exact ⟨_, by decide, (Except.error.inj h).symm⟩
  · rw [if_neg hqos] at h
    split_ifs at h
    · exact ⟨_, by decide, (Except.error.inj h).symm⟩
    · exact ⟨_, by decide, (Except.error.inj h).symm⟩

theorem submitFixEncrypt_qos (a : Adapter) (s : StaId) (p : RxPktAttrib) :
    (submitFixEncrypt a s p).qos = p.qos ∧ (submitFixEncrypt a s p).priority = p.priority := by
  unfold submitFixEncrypt
  split <;> exact ⟨rfl, rfl⟩

theorem submitCheck_stat {a : Adapter} {f : RecvFrame} (htid : tidOk f) {x : Option Stat}
    (h : (submitCheck g a f).1 = .error x) : ∃ y ∈ checkStats, x = some y := by
  unfold submitCheck at h
  dsimp only at h
  split at h
  · exact ⟨_, by decide, (Except.error.inj h).symm⟩
  split at h
  · exact ⟨_, by decide, (Except.error.inj h).symm⟩
  split at h
  · exact ⟨_, by decide, (Except.error.inj h).symm⟩
  · next s _ =>
    split at h
    · exact ⟨_, by decide, (Except.error.inj h).symm⟩
    · refine submitDedup_stat ?_ h
      obtain ⟨hqos, hprio⟩ := submitFixEncrypt_qos a s f.attrib
      simp only [tidOk, hqos, hprio]
      exact htid

def submitStats : List Stat :=
  checkStats ++ [.helperRxPoolFull, .helperRxBackpressure, .helperRxDeferred]

theorem submitHelperFrame_counts {h : AdapterId} {f : RecvFrame} (hg : w.grp = some g)
    (htid : tidOk f) :
    ∃ g', (submitHelperFrame w h f).2.grp = some g' ∧
      (g.SameFrames g' ∨ ∃ x ∈ submitStats,
        g'.stats = ((g.count .helperRxCandidates).count x).stats ∧
          g'.pendingQueue.length =
            g.pendingQueue.length + if x = .helperRxDeferred then 1 else 0) := by
  have hself : g.SameFrames g := ⟨fun _ _ => rfl, rfl⟩
  unfold submitHelperFrame
  simp only [hg]
  split
  · exact ⟨g, hg, Or.inl hself⟩
  split
  · exact ⟨g, hg, Or.inl hself⟩
  split
  · next heq =>
    obtain ⟨y, hy, rfl⟩ := submitCheck_stat htid (congrArg Prod.fst heq)
    refine ⟨_, rfl, Or.inr ⟨y, List.mem_append_left _ hy, rfl, ?_⟩⟩
    have hne : y ≠ .helperRxDeferred := by
      rintro rfl
      revert hy
      decide
    simp [hne, Group.count]
  · split
    · exact ⟨_, rfl, Or.inr ⟨.helperRxPoolFull, by decide, rfl, by simp [Group.count]⟩⟩
    · unfold submitEnqueue
      dsimp only
      split
      · exact ⟨_, rfl, Or.inr ⟨.helperRxBackpressure, by decide, rfl, by simp [Group.count]⟩⟩
      · exact ⟨_, rfl, Or.inr ⟨.helperRxDeferred, by decide, rfl, by simp [Group.count]⟩⟩

/-- Adding a candidate and the counter it leaves under keeps the balance. -/
theorem Balanced.submit {x : Stat} (h : Balanced g dupSubmit dupDrain purged pendingAtReset)
    (hx : x ∈ submitStats) (hstats : g'.stats = ((g.count .helperRxCandidates).count x).stats)
    (hqueue : g'.pendingQueue.length =
      g.pendingQueue.length + if x = .helperRxDeferred then 1 else 0) :
    Balanced g' (dupSubmit + (g'.stats .helperRxDupDropped - g.stats .helperRxDupDropped)) dupDrain
      purged pendingAtReset := by
  obtain ⟨hcand, hdef⟩ := h
  simp only [submitStats, checkStats, List.cons_append, List.nil_append, List.mem_cons,
    List.not_mem_nil, or_false] at hx
  refine ⟨?_, ?_⟩
  · rw [hstats]
    rcases hx with rfl | rfl | rfl | rfl | rfl | rfl | rfl | rfl <;>
      simp [Group.count, Function.update] <;> linear_combination hcand
  · rw [hstats, hqueue]
    rcases hx with rfl | rfl | rfl | rfl | rfl | rfl | rfl | rfl <;>
      simp [Group.count, Function.update] <;> linear_combination hdef

/-! ## The drain, purges and resets -/

theorem drainIteration_counts {env : Env} {k : KernelCrypto} (hg : w.grp = some g)
    (h : drainIteration env k w = some w') :
    ∃ g', w'.grp = some g' ∧ ∃ x ∈ [Stat.helperRxAccepted, .helperRxDupDropped],
      g'.stats = (g.count x).stats ∧ g.pendingQueue.length = g'.pendingQueue.length + 1 := by
  obtain ⟨g₀, p, f, q, hg₀, -, hq, rfl⟩ := drainIteration_cases h
  obtain rfl := Option.some.inj (hg.symm.trans hg₀)
  refine ⟨_, rfl, drainStat env k (w.groupCrypto g) (w.adapter p) f, ?_, rfl, by rw [hq]; rfl⟩
  unfold drainStat
  split
  · simp
  · split_ifs <;> simp

theorem Balanced.drain {x : Stat} (h : Balanced g dupSubmit dupDrain purged pendingAtReset)
    (hx : x ∈ [Stat.helperRxAccepted, .helperRxDupDropped]) (hstats : g'.stats = (g.count x).stats)
    (hqueue : g.pendingQueue.length = g'.pendingQueue.length + 1) :
    Balanced g' dupSubmit (dupDrain + (g'.stats .helperRxDupDropped - g.stats .helperRxDupDropped))
      purged pendingAtReset := by
  obtain ⟨hcand, hdef⟩ := h
  simp only [List.mem_cons, List.not_mem_nil, or_false] at hx
  rw [hqueue] at hdef
  push_cast at hdef
  refine ⟨?_, ?_⟩
  · rw [hstats]
    rcases hx with rfl | rfl <;> simp [Group.count, Function.update] <;> linear_combination hcand
  · rw [hstats]
    rcases hx with rfl | rfl <;> simp [Group.count, Function.update] <;> linear_combination hdef

/-- The frames that are purged leave the queue without a counter. -/
theorem Balanced.purge {n : ℕ} (h : Balanced g dupSubmit dupDrain purged pendingAtReset)
    (hstats : ∀ x : Stat, x.isFrame → g'.stats x = g.stats x)
    (hqueue : g.pendingQueue.length = g'.pendingQueue.length + n) :
    Balanced g' dupSubmit dupDrain (purged + (n : BitVec 32)) pendingAtReset := by
  obtain ⟨hcand, hdef⟩ := h
  refine ⟨?_, ?_⟩
  · rw [hstats _ rfl, hstats _ rfl, hstats _ rfl, hstats _ rfl, hstats _ rfl, hstats _ rfl,
      hstats _ rfl, hstats _ rfl]
    exact hcand
  · rw [hstats _ rfl, hstats _ rfl]
    rw [hqueue] at hdef
    push_cast at hdef
    linear_combination hdef

def Ledger.Balanced (s : Ledger) : Prop :=
  ∀ g, s.world.grp = some g → Coop.Balanced g s.dupSubmit s.dupDrain s.purged s.pendingAtReset

/-- The operations that leave frames and counters alone. -/
def Event.isQuiet : Event → Bool
  | .submit _ _ | .drain _ _ | .unbindSession | .removeAdapter _ | .resetStats | .deinit => false
  | _ => true

theorem next_sameFrames {e : Event} (he : e.isQuiet) (h : w.next e = some w') :
    w.SameFrames w' := by
  have hset : ∀ w' a, w.SameFrames w' → w.SameFrames (setPrimary w' a).2 :=
    fun w' a h => h.trans (setPrimary_sameFrames w' a)
  have hadd : ∀ w' a, w.SameFrames w' → w.SameFrames (addHelper w' a).2 :=
    fun w' a h => h.trans (addHelper_sameFrames w' a)
  cases e with
  | setPrimary a =>
    obtain rfl := Option.some.inj h
    exact setPrimary_sameFrames w a
  | addHelper a =>
    obtain rfl := Option.some.inj h
    exact addHelper_sameFrames w a
  | removeHelper a =>
    obtain rfl := Option.some.inj h
    exact removeHelper_sameFrames w a
  | pair a name =>
    obtain rfl := Option.some.inj h
    exact storePair_induction hset hadd (.of_grp rfl) a name
  | unpair name =>
    obtain rfl := Option.some.inj h
    obtain heq | ⟨a, heq⟩ := storeUnpair_cases w name
    · exact .of_grp (by rw [heq])
    · rw [heq]
      exact removeHelper_sameFrames w a
  | autoPair a val devs =>
    obtain rfl := Option.some.inj h
    exact storeAutoPair_induction hset hadd (.of_grp rfl) a val devs
  | bindSession ok opens p =>
    obtain rfl := Option.some.inj h
    exact bindSession_sameFrames ok opens w p
  | switchChannel a cur =>
    obtain rfl := Option.some.inj h
    exact fun g hg => notifyChannelSwitch_sameFrames (w.setRadio a _) a g hg
  | kernelDecrypt k a f =>
    obtain rfl := Option.some.inj h
    intro g hg
    simp only [kernelDecrypt, hg]
    exact ⟨_, rfl, fun _ _ => rfl, rfl⟩
  | setIfUp | decache | adapterStep =>
    obtain rfl := Option.some.inj h
    exact .of_grp rfl
  | submit | drain | unbindSession | removeAdapter | resetStats | deinit =>
    simp [Event.isQuiet] at he

theorem next_balanced {s s' : Ledger} {e : Event} (h : s.Balanced)
    (htid : ∀ i f, e = .submit i f → tidOk f) (hnext : s.next e = some s') : s'.Balanced := by
  obtain ⟨w', hw', rfl⟩ := Option.map_eq_some_iff.mp hnext
  intro g' hg'
  have hgrp' : w'.grp = some g' := by
    cases e <;> exact hg'
  cases hgrp : s.world.grp with
  | none => simp [next_grp_none hgrp hw'] at hgrp'
  | some g =>
    have hbal := h g hgrp
    by_cases hquiet : e.isQuiet
    · obtain ⟨g'', hg'', hsame⟩ := next_sameFrames hquiet hw' g hgrp
      obtain rfl := Option.some.inj (hg''.symm.trans hgrp')
      cases e <;> first | exact hbal.of_sameFrames hsame | simp [Event.isQuiet] at hquiet
    cases e with
    | submit i f =>
      obtain rfl := Option.some.inj hw'
      obtain ⟨g'', hg'', hcounts⟩ := submitHelperFrame_counts (h := i) hgrp (htid i f rfl)
      obtain rfl := Option.some.inj (hg''.symm.trans hgrp')
      simp only [Ledger.record, World.dupDropped, hgrp, hg'']
      obtain hsame | ⟨x, hx, hstats, hqueue⟩ := hcounts
      · rw [hsame.stats _ rfl, sub_self, add_zero]
        exact hbal.of_sameFrames hsame
      · exact hbal.submit hx hstats hqueue
    | drain env k =>
      obtain ⟨g'', hg'', x, hx, hstats, hqueue⟩ := drainIteration_counts hgrp hw'
      obtain rfl := Option.some.inj (hg''.symm.trans hgrp')
      simp only [Ledger.record, World.dupDropped, hgrp, hg'']
      exact hbal.drain hx hstats hqueue
    | unbindSession =>
      obtain rfl := Option.some.inj hw'
      have hunbind := unbindSession_grp s.world
      rw [hgrp, hgrp'] at hunbind
      obtain rfl := Option.some.inj hunbind
      have hstats : (cryptoDeinit s.world g).2.unbind.stats = g.stats := by
        unfold Group.unbind
        split <;> rfl
      simp only [Ledger.record, World.pending, hgrp, hgrp']
      refine hbal.purge (fun x _ => congrFun hstats x) ?_
      simp [Group.purge]
    | removeAdapter a =>
      obtain rfl := Option.some.inj hw'
      obtain ⟨g₁, hg₁, hsame⟩ := removeHelper_sameFrames s.world a g hgrp
      have hdrop := dropPrimary_grp (removeHelper s.world a).2 a
      rw [hg₁, Option.map_some] at hdrop
      obtain rfl := Option.some.inj (hgrp'.symm.trans hdrop)
      simp only [Ledger.record, World.pending, hgrp, hgrp']
      refine hbal.purge (fun x hx => ?_) ?_
      · split
        · have hclear : g₁.clear.stats x = g₁.stats x := by
            have hne : x ≠ .fallbackEvents := by
              rintro rfl
              simp [Stat.isFrame] at hx
            simp [Group.clear, Group.count, Group.purge, hne]
          exact hclear.trans (hsame.stats x hx)
        · exact hsame.stats x hx
      · split
        · simp [Group.clear, Group.count, Group.purge]
        · simp [hsame.pendingQueue]
    | resetStats =>
      obtain rfl := Option.some.inj hw'
      simp only [storeResetStats, hgrp, setGrp_grp] at hgrp'
      obtain rfl := Option.some.inj hgrp'
      refine ⟨by simp [Ledger.record], ?_⟩
      simp [Ledger.record, World.pending, hgrp]
    | deinit =>
      obtain rfl := Option.some.inj hw'
      simp [deinit, hgrp] at hgrp'
    | _ => simp [Event.isQuiet] at hquiet

/-- **The counters balance in every run**: the candidates were dropped under a counter or deferred,
and the deferred frames and those that were pending at the last reset were drained or purged, or are
pending. -/
theorem statistics_balanced (hw : Started w) {es : List Event}
    (htid : ∀ i f, .submit i f ∈ es → tidOk f) {s : Ledger}
    (hrun : run Ledger.next { world := w } es = some s) :
    ∀ g, s.world.grp = some g →
      Balanced g s.dupSubmit s.dupDrain s.purged s.pendingAtReset := by
  have hstart : Ledger.Balanced { world := w } := by
    intro g hg
    have hgrp : w.grp = some g := hg
    rw [hw.grp] at hgrp
    obtain rfl := Option.some.inj hgrp
    exact ⟨rfl, rfl⟩
  have hok : Meets Ledger.next (fun _ e => ∀ i f, e = .submit i f → tidOk f) { world := w } es :=
    meets_of_forall_mem (fun e he i f heq => htid i f (by rw [← heq]; exact he)) _
  exact run_invariant_of_meets (fun _ _ _ => next_balanced) hstart hok hrun

def associatedReady : Adapter := { associated with staHash := [0], freeRecvQueue := [0] }

def helperFrame : RecvFrame where
  id := 0
  attrib := { toFrDs := 2, hdrlen := 24, seqNum := 5 }
  rxData := List.replicate 28 0

def resetRun : List Event :=
  bindRun ++ [.adapterStep 0 associatedReady, .submit 1 helperFrame, .resetStats,
    .drain .wrongKey noKernel]

theorem statistics_balanced_reset :
    ∃ s g, run Ledger.next { world := idleWorld } resetRun = some s ∧ s.world.grp = some g ∧
      s.pendingAtReset = 1 ∧ Balanced g s.dupSubmit s.dupDrain s.purged s.pendingAtReset :=
  ⟨_, _, rfl, rfl, by decide +kernel,
    @statistics_balanced idleWorld idleWorld_started resetRun (by
      intro i f hmem
      simp [resetRun, bindRun] at hmem
      obtain ⟨-, rfl⟩ := hmem
      rfl) _ rfl _ rfl⟩

/-- A frame that was pending at a reset leaves a queue that never counted it. -/
theorem not_statistics_balanced :
    ¬∀ (w : World) (es : List Event) (s : Ledger) (g : Group), Started w →
      (∀ i f, .submit i f ∈ es → tidOk f) →
      run Ledger.next { world := w } es = some s → s.world.grp = some g →
        Balanced g s.dupSubmit s.dupDrain s.purged 0 := by
  intro h
  have hdef := (h idleWorld resetRun _ _ idleWorld_started (by
      intro i f hmem
      simp [resetRun, bindRun] at hmem
      obtain ⟨-, rfl⟩ := hmem
      rfl) rfl rfl).deferred
  revert hdef
  decide +kernel

end Rtl88x2eu.Coop
