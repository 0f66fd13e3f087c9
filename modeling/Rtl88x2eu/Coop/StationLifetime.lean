import Rtl88x2eu.Coop.Orphans

/-!
# Stations of pending frames

A pending frame holds a pointer to a station of its adapter, put there by the submit. Nothing in
`rtw_free_stainfo` looks at `grp->pending_queue`: the pointer stays good as long as no station is
freed while a frame on its way through the group points to it. Entries of the station hash carry
the number of their insertion, so an address that joins again in the same slot is another entry.

## Main definitions

* `InPipeline p f`: the frame is pending, or held by a submit or by the drain
* `KeepsStations`

## Main results

* `psta_hashed`: the station of a frame in the pipeline has been hashed without a break since its
  insertion, along every run that keeps the stations
* `psta_freed`: the drain processes a frame of a freed station whose slot is in use again
-/

namespace Rtl88x2eu.Coop

open Transition

/-- The frame an operation has in hand on its way to `grp->pending_queue` or from it to the
primary. -/
def Op.frame : Op → Option PendingFrame
  | submitEnqueue f | drainUncount _ _ f | drainProcess _ _ f => some f
  | _ => none

def pipeline (p : Pool Session Op) : List PendingFrame :=
  p.shared.pendingQueue ++ p.threads.filterMap Op.frame

/-- The step respects the pointers of the pipeline: a submit takes a descriptor while the station
it has looked up is still there, and `rtw_free_stainfo` unhashes no station that a frame of the
pipeline points to. -/
def Op.keepsStations (p : Pool Session Op) : Op → Bool
  | submitAlloc a e => p.shared.freeRecvQueue a = [] ∨ e ∈ p.shared.staHash a
  | freeStaUnhash a e =>
    p.shared.preLinkSta a e.macAddr ∨ ∀ f ∈ pipeline p, ¬ (f.adapter = a ∧ f.psta = e)
  | _ => true

/-- The step frees no station a frame of the pipeline points to. -/
def KeepsStations (p : Pool Session Op) : Label → Prop
  | .advance i _ => ∀ o ∈ p.threads[i]?, o.keepsStations p
  | _ => True

instance (p : Pool Session Op) : ∀ l, Decidable (KeepsStations p l)
  | .advance i _ => inferInstanceAs (Decidable (∀ o ∈ p.threads[i]?, o.keepsStations p))
  | .start _ | .runTasklet | .setPrimary _ | .addHelper _ | .allocStainfo _ _ | .primaryRecv _ _
  | .setDrvStopped _ _ | .setPreLinkSta _ _ _ => isTrue trivial

def StationsLive (p : Pool Session Op) : Prop :=
  ∀ f ∈ pipeline p, f.psta ∈ p.shared.staHash f.adapter

variable {p p' : Pool Session Op} {o o' : Op} {s t : Session} {choice : Bool}

/-! ## One step -/

/-- **What a step does to the station hash**: only `rtw_free_stainfo` changes it. -/
theorem opStep_staHash (h : o.step p choice = some (s, o')) :
    s.clock = p.shared.clock ∧ (s.staHash = p.shared.staHash ∨
      ∃ a e, o = .freeStaUnhash a e ∧ p.shared.preLinkSta a e.macAddr = false ∧
        s.staHash =
          Function.update p.shared.staHash a ((p.shared.staHash a).filter (· ≠ e))) := by
  obtain h | h | h | h | h := Op.step_cases h
  · cases o <;> simp only [Op.stepSubmit] at h <;> grind [Session.freeRecvframe]
  · cases o <;> simp only [Op.stepDrain] at h <;>
      grind [Session.freeRecvframe, Session.taskletDone]
  · cases o <;> simp only [Op.stepBind] at h <;> grind [Session.freeRecvframe]
  · cases o <;> simp only [Op.stepRemove] at h <;> grind [Session.freeRecvframe]
  · cases o <;> simp only [Op.stepFreeSta] at h <;> grind

/-- **Where the frames of a step come from**: the queue, the operation's hand, or a fresh
descriptor for the station a submit has looked up. -/
theorem opStep_frames (h : o.step p choice = some (s, o')) {f : PendingFrame}
    (hf : f ∈ s.pendingQueue ∨ o'.frame = some f) :
    f ∈ p.shared.pendingQueue ∨ o.frame = some f ∨
      o = .submitAlloc f.adapter f.psta ∧ p.shared.freeRecvQueue f.adapter ≠ [] := by
  obtain h | h | h | h | h := Op.step_cases h
  · cases o <;> simp only [Op.stepSubmit] at h <;> grind [Session.freeRecvframe, Op.frame]
  · cases o <;> simp only [Op.stepDrain] at h <;>
      grind [Session.freeRecvframe, Session.taskletDone, Op.frame]
  · cases o <;> simp only [Op.stepBind] at h <;> grind [Session.freeRecvframe, Op.frame]
  · cases o <;> simp only [Op.stepRemove] at h <;> grind [Session.freeRecvframe, Op.frame]
  · cases o <;> simp only [Op.stepFreeSta] at h <;> grind [Op.frame]

theorem mem_pipeline {f : PendingFrame} {pre post : List Op}
    (hthreads : p.threads = pre ++ o :: post) :
    f ∈ pipeline p ↔ (f ∈ p.shared.pendingQueue ∨ o.frame = some f) ∨
      f ∈ (pre ++ post).filterMap Op.frame := by
  rw [pipeline, hthreads]
  simp only [List.mem_append, List.mem_filterMap, List.mem_cons]
  grind

/-- An operation's step keeps the stations of the frames. -/
theorem StationsLive.advance {pre post : List Op} (hp : StationsLive p)
    (hthreads : p.threads = pre ++ o :: post) (hs : o.step p choice = some (s, o'))
    (hok : o.keepsStations p) : StationsLive ⟨s, pre ++ o' :: post⟩ := by
  intro f hf
  obtain ⟨-, hhash⟩ := opStep_staHash hs
  rw [mem_pipeline (p := ⟨s, pre ++ o' :: post⟩) rfl] at hf
  -- the frame was there before, or the submit has taken a descriptor for it
  have hsource : f ∈ pipeline p ∨
      o = .submitAlloc f.adapter f.psta ∧ p.shared.freeRecvQueue f.adapter ≠ [] := by
    rw [mem_pipeline hthreads]
    obtain hf | hf := hf
    · obtain h | h | h := opStep_frames hs hf
      · exact .inl (.inl (.inl h))
      · exact .inl (.inl (.inr h))
      · exact .inr h
    · exact .inl (.inr hf)
  obtain hmem | ⟨rfl, hfree⟩ := hsource
  · obtain hsame | ⟨a, e, rfl, hlink, hfilter⟩ := hhash
    · rw [hsame]
      exact hp f hmem
    · have hother : ¬ (f.adapter = a ∧ f.psta = e) := by
        have hok := of_decide_eq_true hok
        rw [hlink] at hok
        exact hok.resolve_left (by decide) f hmem
      rw [hfilter]
      have hlive := hp f hmem
      by_cases ha : f.adapter = a
      · subst ha
        simpa [hlive] using fun he => hother ⟨rfl, he⟩
      · rwa [Function.update_of_ne ha]
  · obtain hsame | ⟨a, e, ho, -, -⟩ := hhash
    · rw [hsame]
      exact (of_decide_eq_true hok).resolve_left hfree
    · cases ho

theorem StationsLive.spawn (hp : StationsLive p) (ho : o.frame = none) :
    StationsLive (p.spawn o) := by
  intro f hf
  refine hp f ?_
  simpa [pipeline, Pool.spawn, List.filterMap_append, ho] using hf

/-- Stations may join. -/
theorem StationsLive.frame (hp : StationsLive p) (hqueue : s.pendingQueue = p.shared.pendingQueue)
    (hhash : ∀ a, p.shared.staHash a ⊆ s.staHash a) : StationsLive { p with shared := s } := by
  intro f hf
  refine hhash _ (hp f ?_)
  rwa [pipeline, hqueue] at hf

theorem setPrimary_staHash (s : Session) (a : AdapterId) :
    (s.setPrimary a).staHash = s.staHash ∧ (s.setPrimary a).clock = s.clock := by
  unfold Session.setPrimary
  split_ifs <;> exact ⟨rfl, rfl⟩

theorem addHelper_staHash (s : Session) (a : AdapterId) :
    (s.addHelper a).staHash = s.staHash ∧ (s.addHelper a).clock = s.clock := by
  unfold Session.addHelper
  split_ifs <;> exact ⟨rfl, rfl⟩

theorem allocStainfo_staHash (s : Session) (a : AdapterId) (hwaddr : MacAddr) :
    (s.allocStainfo a hwaddr = s) ∨ ∃ slot, (s.allocStainfo a hwaddr).clock = s.clock + 1 ∧
      (s.allocStainfo a hwaddr).staHash =
        Function.update s.staHash a (s.staHash a ++ [⟨slot, hwaddr, s.clock⟩]) := by
  unfold Session.allocStainfo
  split
  · exact .inl rfl
  · exact .inr ⟨_, rfl, rfl⟩

theorem subset_allocStainfo (s : Session) (a b : AdapterId) (hwaddr : MacAddr) :
    s.staHash b ⊆ (s.allocStainfo a hwaddr).staHash b := by
  obtain h | ⟨slot, -, h⟩ := allocStainfo_staHash s a hwaddr
  · rw [h]
    exact List.Subset.refl _
  · rw [h]
    by_cases hb : b = a
    · subst hb
      simp
    · rw [Function.update_of_ne hb]
      exact List.Subset.refl _

/-- **One step keeps the stations of the pipeline.** -/
theorem step_stationsLive (hp : StationsLive p) {l : Label} (hok : KeepsStations p l)
    (h : step p l = some p') : StationsLive p' := by
  cases l with
  | start o =>
    obtain ⟨hentry, rfl⟩ := step_start h
    refine hp.spawn ?_
    cases o <;> first | rfl | cases hentry
  | advance i choice =>
    obtain ⟨pre, o, post, s, o', hget, hthreads, hs, rfl⟩ := step_advance h
    exact hp.advance hthreads hs (hok o hget)
  | runTasklet =>
    obtain ⟨t, -, rfl⟩ := step_runTasklet h
    exact StationsLive.spawn (hp.frame rfl fun _ => List.Subset.refl _) rfl
  | setPrimary a =>
    obtain rfl := Option.some.inj h
    refine hp.frame (setPrimary_frame _ a).1 fun b => ?_
    rw [(setPrimary_staHash _ a).1]
    exact List.Subset.refl _
  | addHelper a =>
    obtain rfl := Option.some.inj h
    refine hp.frame (addHelper_frame _ a).1 fun b => ?_
    rw [(addHelper_staHash _ a).1]
    exact List.Subset.refl _
  | allocStainfo a hwaddr =>
    obtain rfl := Option.some.inj h
    exact hp.frame (allocStainfo_frame _ a hwaddr).1 (subset_allocStainfo _ a · hwaddr)
  | primaryRecv a free =>
    obtain rfl := Option.some.inj h
    exact hp.frame rfl fun _ => List.Subset.refl _
  | setDrvStopped a b =>
    obtain rfl := Option.some.inj h
    exact hp.frame rfl fun _ => List.Subset.refl _
  | setPreLinkSta a hwaddr b =>
    obtain rfl := Option.some.inj h
    exact hp.frame rfl fun _ => List.Subset.refl _

def HashedSince (p q : Pool Session Op) : Prop :=
  p.shared.clock ≤ q.shared.clock ∧ ∀ a, ∀ e ∈ q.shared.staHash a,
    e ∈ p.shared.staHash a ∨ p.shared.clock ≤ e.born ∧ e.born < q.shared.clock

theorem HashedSince.of_eq (hhash : p'.shared.staHash = p.shared.staHash)
    (hclock : p'.shared.clock = p.shared.clock) : HashedSince p p' :=
  ⟨hclock.ge, fun _ _ he => .inl (hhash ▸ he)⟩

theorem HashedSince.trans {q : Pool Session Op} (hst : HashedSince p q) (htu : HashedSince q p') :
    HashedSince p p' := by
  refine ⟨hst.1.trans htu.1, fun a e he => ?_⟩
  obtain he | ⟨hge, hlt⟩ := htu.2 a e he
  · exact (hst.2 a e he).imp_right fun h => ⟨h.1, h.2.trans_le htu.1⟩
  · exact .inr ⟨hst.1.trans hge, hlt⟩

theorem step_hashedSince {l : Label} (h : step p l = some p') : HashedSince p p' := by
  cases l with
  | start o =>
    obtain ⟨-, rfl⟩ := step_start h
    exact .of_eq rfl rfl
  | advance i choice =>
    obtain ⟨pre, o, post, s, o', -, -, hs, rfl⟩ := step_advance h
    obtain ⟨hclock, hsame | ⟨a, e, -, -, hfilter⟩⟩ := opStep_staHash hs
    · exact .of_eq hsame hclock
    · refine ⟨hclock.ge, fun b x hx => .inl ?_⟩
      rw [hfilter] at hx
      by_cases hb : b = a
      · subst hb
        rw [Function.update_self] at hx
        exact List.mem_of_mem_filter hx
      · rwa [Function.update_of_ne hb] at hx
  | runTasklet =>
    obtain ⟨t, -, rfl⟩ := step_runTasklet h
    exact .of_eq rfl rfl
  | setPrimary a =>
    obtain rfl := Option.some.inj h
    exact .of_eq (setPrimary_staHash _ a).1 (setPrimary_staHash _ a).2
  | addHelper a =>
    obtain rfl := Option.some.inj h
    exact .of_eq (addHelper_staHash _ a).1 (addHelper_staHash _ a).2
  | allocStainfo a hwaddr =>
    obtain rfl := Option.some.inj h
    obtain hsame | ⟨slot, hclock, hhash⟩ := allocStainfo_staHash p.shared a hwaddr
    · exact .of_eq (congrArg _ hsame) (congrArg _ hsame)
    · refine ⟨hclock ▸ Nat.le_succ p.shared.clock, fun b e he => ?_⟩
      rw [hhash] at he
      by_cases hb : b = a
      · subst hb
        rw [Function.update_self, List.mem_append, List.mem_singleton] at he
        obtain he | rfl := he
        · exact .inl he
        · exact .inr ⟨le_rfl, by rw [hclock]; exact Nat.lt_succ_self _⟩
      · rw [Function.update_of_ne hb] at he
        exact .inl he
  | primaryRecv a free =>
    obtain rfl := Option.some.inj h
    exact .of_eq rfl rfl
  | setDrvStopped a b =>
    obtain rfl := Option.some.inj h
    exact .of_eq rfl rfl
  | setPreLinkSta a hwaddr b =>
    obtain rfl := Option.some.inj h
    exact .of_eq rfl rfl

theorem run_hashedSince {es : List Label} (hrun : run step p es = some p') :
    HashedSince p p' :=
  run_invariant (fun _ _ _ hq h => HashedSince.trans hq (step_hashedSince h)) (.of_eq rfl rfl) hrun

/-- **Frames of the pipeline do not outlive their station**: along every run that keeps the
stations, the station a pending frame, or the frame in the drain's hand, points to is an entry of
its adapter's hash that was inserted before and has been there in every state since. -/
theorem psta_hashed {es₁ es₂ : List Label} {m : Pool Session Op} {f : PendingFrame}
    (hp : Initial p) (hok : Meets step KeepsStations p (es₁ ++ es₂))
    (hm : run step p es₁ = some m) (hrun : run step m es₂ = some p') (hf : f ∈ pipeline p') :
    f.psta ∈ p'.shared.staHash f.adapter ∧ f.psta.born < p'.shared.clock ∧
      (f.psta.born < m.shared.clock → f.psta ∈ m.shared.staHash f.adapter) := by
  have hwhole : run step p (es₁ ++ es₂) = some p' := run_append.mpr ⟨m, hm, hrun⟩
  have hinit : StationsLive p := by
    intro g hg
    simp [pipeline, hp.queue, hp.threads] at hg
  have hlive : StationsLive p' :=
    run_invariant_of_meets (fun p l p' hp hok h => step_stationsLive hp hok h) hinit hok hwhole
  refine ⟨hlive f hf, ?_, fun hborn => ?_⟩
  · obtain ⟨hclock, hhash⟩ := run_hashedSince hwhole
    obtain he | ⟨-, hlt⟩ := hhash _ _ (hlive f hf)
    · exact (hp.born _ _ he).trans_le hclock
    · exact hlt
  · obtain he | ⟨hge, -⟩ := (run_hashedSince hrun).2 _ _ (hlive f hf)
    · exact he
    · exact absurd hborn hge.not_gt

/-- The station of `sessionBind`, and a frame of it. -/
def peerEntry : StaEntry := ⟨0, peerAddr, 0⟩

def peerFrame : PendingFrame := ⟨0, 0, peerEntry⟩

def freeStaRun (i : ℕ) (e : StaEntry) : List Label :=
  .start (.freeStaUnhash 0 e) :: List.replicate 2 (.advance i true)

/-- Another station joins and leaves while the frame is pending. -/
theorem psta_hashed_pending :
    ∃ m p', run step sessionStart (sessionBind peerAddr ++ submitRun peerAddr 1) = some m ∧
      run step m (.allocStainfo 0 .bcast :: freeStaRun 2 ⟨1, .bcast, 1⟩) = some p' ∧
      peerEntry ∈ p'.shared.staHash 0 ∧ peerEntry.born < p'.shared.clock ∧
      (peerEntry.born < m.shared.clock → peerEntry ∈ m.shared.staHash 0) := by
  obtain ⟨p', hwhole, hf⟩ : ∃ p',
      run step sessionStart ((sessionBind peerAddr ++ submitRun peerAddr 1) ++
        .allocStainfo 0 .bcast :: freeStaRun 2 ⟨1, .bcast, 1⟩) = some p' ∧
        peerFrame ∈ pipeline p' :=
    exists_run_of_any (by decide +kernel)
  obtain ⟨m, hm, hrun⟩ := run_append.mp hwhole
  exact ⟨m, p', hm, hrun, psta_hashed sessionStart_initial (by decide +kernel) hm hrun hf⟩

/-- The station is freed while its frame is pending, and its slot goes to another station: the
drain then processes the frame with a pointer to that slot. -/
theorem psta_freed :
    Initial sessionStart ∧
    ∃ p', run step sessionStart (sessionBind peerAddr ++ submitRun peerAddr 1 ++
        freeStaRun 2 peerEntry ++ [.allocStainfo 0 .bcast, .allocStainfo 0 .bcast, .runTasklet] ++
        List.replicate 3 (.advance 3 true)) = some p' ∧
      p'.threads[3]? = some (.drainProcess 0 0 peerFrame) ∧ peerEntry ∉ p'.shared.staHash 0 ∧
      ∃ e ∈ p'.shared.staHash 0, e.slot = peerEntry.slot ∧ e ≠ peerEntry :=
  ⟨sessionStart_initial, exists_run_of_any (by decide +kernel)⟩

end Rtl88x2eu.Coop
