import Rtl88x2eu.Coop.PnAgreement

/-!
# The duplicate cache of frames without QoS

A submit drops a non-QoS frame as a duplicate when the cache of the group has its transmitter and
sequence number. It should do so only to a second copy of an MPDU that is with the primary. But the
cache does not know fragments, and an entry is written before the packet number is checked and a
descriptor is taken from the pool: then the copy of another helper is dropped although the first one
was not handed on.

## Main definitions

* `DedupLog`, `NoFalseDup`, `DupFits`

## Main results

* `next_cacheKept`: nothing but a submit records frames
* `noFalseDup_of_run`: no false duplicates in runs under the condition
* `not_noFalseDup`: the second fragment of an MSDU
-/

namespace Rtl88x2eu.Coop

open Transition

/-! ## What a submit looks up -/

structure Mpdu where
  ta : MacAddr
  seqNum : ℕ
  fragNum : ℕ
deriving DecidableEq, Repr

def mpduOf (f : RecvFrame) : Mpdu := ⟨f.attrib.ta, f.attrib.seqNum, f.attrib.fragNum⟩

structure Lookup where
  g : Group
  a : Adapter
  s : StaId
  f : RecvFrame

def lookup (w : World) (f : RecvFrame) : Option Lookup :=
  match w.grp with
  | none => none
  | some g =>
    match g.primary with
    | none => none
    | some p =>
      if g.state ≠ .active ∨ (w.adapter p).drvStopped then none
      else
        match dedupFrame (g.count .helperRxCandidates) (w.adapter p) f with
        | none => none
        | some (s, f') => if f'.attrib.qos then none else some ⟨g, w.adapter p, s, f'⟩

def Lookup.hit (l : Lookup) : Bool :=
  (nonqosCheckAndRecord l.g.nonqosCache l.f.attrib.seqNum l.f.attrib.ta).1

/-- The driver, with the MPDUs that were handed on and those that were dropped. -/
structure DedupLog where
  world : World
  enqueued : List Mpdu := []
  dropped : List (Mpdu × List Mpdu) := []
  recorded : Fin coopNonqosSeqCacheSz → Option Mpdu := fun _ => none

/-- What is written down of a step. -/
def DedupLog.record (s : DedupLog) (w' : World) : Event → DedupLog
  | .submit h f =>
    let s' := { s with
      world := w'
      enqueued :=
        if (submitHelperFrame s.world h f).1 = .rxHandled then s.enqueued ++ [mpduOf f]
        else s.enqueued }
    match lookup s.world f with
    | none => s'
    | some l =>
      if l.hit then { s' with dropped := s.dropped ++ [(mpduOf f, s.enqueued)] }
      else { s' with recorded := Function.update s.recorded l.g.nonqosCache.idx (some (mpduOf f)) }
  | _ => { s with world := w' }

def DedupLog.next (s : DedupLog) (e : Event) : Option DedupLog :=
  (s.world.next e).map (s.record · e)

/-- **A copy of each dropped MPDU had been handed on.** -/
def NoFalseDup (s : DedupLog) : Prop := ∀ r ∈ s.dropped, r.1 ∈ r.2

def sameFragment (s : DedupLog) (l : Lookup) : Bool :=
  decide (∀ i, l.g.nonqosCache.entries i = some (l.f.attrib.seqNum, l.f.attrib.ta) →
    (s.recorded i).all (·.fragNum = l.f.attrib.fragNum))

/-- **The condition**: a frame that is recorded passes the check of its packet number and finds a
free descriptor, and a frame that is found was recorded for the same fragment. -/
def DupFits (s : DedupLog) : Event → Bool
  | .submit _ f =>
    match lookup s.world f with
    | none => true
    | some l =>
      if l.hit then sameFragment s l else !submitStalePn l.a l.s l.f && !l.a.freeRecvQueue.isEmpty
  | _ => true

section Submit

variable {w : World} {helper : AdapterId} {f : RecvFrame} {g : Group} {l : Lookup}

theorem lookup_cases (h : lookup w f = some l) :
    ∃ p, w.grp = some l.g ∧ l.g.primary = some p ∧
      ¬(l.g.state ≠ .active ∨ (w.adapter p).drvStopped) ∧ l.a = w.adapter p ∧
      dedupFrame (l.g.count .helperRxCandidates) l.a f = some (l.s, l.f) ∧
      l.f.attrib.qos = false := by
  unfold lookup at h
  split at h
  · cases h
  next g hg =>
  split at h
  · cases h
  next p hp =>
  split_ifs at h with hidle
  split at h
  · cases h
  next s f' hframe =>
  split_ifs at h with hqos
  obtain rfl := Option.some.inj h
  exact ⟨p, hg, hp, hidle, rfl, hframe, Bool.eq_false_of_not_eq_true hqos⟩

theorem mpduOf_of_lookup (h : lookup w f = some l) : mpduOf l.f = mpduOf f := by
  obtain ⟨p, -, -, -, -, hframe, -⟩ := lookup_cases h
  obtain ⟨-, -, -, hf, -⟩ := dedupFrame_cases hframe
  rw [hf]
  unfold mpduOf submitFixEncrypt
  dsimp only
  split_ifs <;> rfl

theorem submitDedup_cache (g : Group) (a : Adapter) (s : StaId) (f : RecvFrame) :
    (submitDedup g a s f).2 =
      if f.attrib.qos then g.nonqosCache
      else (nonqosCheckAndRecord g.nonqosCache f.attrib.seqNum f.attrib.ta).2 := by
  unfold submitDedup
  dsimp only
  by_cases hqos : f.attrib.qos
  · rw [if_pos hqos, if_pos hqos]
    split_ifs <;> rfl
  · rw [if_neg hqos, if_neg hqos]
    split_ifs <;> rfl

theorem submitCheck_of_dedupFrame_none {a : Adapter} (h : dedupFrame g a f = none) :
    (submitCheck g a f).2 = g.nonqosCache := by
  unfold submitCheck
  extract_lets p
  split_ifs with haddrs herr
  · rfl
  · rfl
  unfold dedupFrame at h
  rw [if_neg (not_or.mpr ⟨haddrs, herr⟩)] at h
  split
  · rfl
  next s hsta =>
    rw [hsta] at h
    extract_lets p'
    split_ifs with hcrypto
    · rfl
    · rw [Bool.not_eq_true', Bool.not_eq_false] at hcrypto
      change (if submitCryptoOk p' then _ else _) = none at h
      rw [if_pos hcrypto] at h
      cases h

theorem submitHelperFrame_nonqosCache {g' : Group} {p : AdapterId} (hg : w.grp = some g)
    (hp : g.primary = some p) (hidle : ¬(g.state ≠ .active ∨ (w.adapter p).drvStopped))
    (hg' : (submitHelperFrame w helper f).2.grp = some g') :
    g'.nonqosCache = (submitCheck (g.count .helperRxCandidates) (w.adapter p) f).2 := by
  unfold submitHelperFrame at hg'
  simp only [hg, hp] at hg'
  rw [if_neg hidle] at hg'
  split at hg'
  · next x cache hcheck =>
    rw [hcheck]
    obtain rfl := Option.some.inj hg'
    cases x <;> rfl
  · next s q cache hcheck =>
    rw [hcheck]
    split at hg'
    · obtain rfl := Option.some.inj hg'
      rfl
    · unfold submitEnqueue at hg'
      dsimp only at hg'
      split at hg'
      · obtain rfl := Option.some.inj hg'
        rfl
      · obtain rfl := Option.some.inj hg'
        rfl

/-- **The cache behind a submit.** -/
theorem submitHelperFrame_cache {g' : Group} (hg : w.grp = some g)
    (hg' : (submitHelperFrame w helper f).2.grp = some g') :
    g'.nonqosCache =
      match lookup w f with
      | none => g.nonqosCache
      | some l => (nonqosCheckAndRecord g.nonqosCache l.f.attrib.seqNum l.f.attrib.ta).2 := by
  unfold lookup
  simp only [hg]
  cases hp : g.primary with
  | none =>
    unfold submitHelperFrame at hg'
    simp only [hg, hp] at hg'
    obtain rfl := Option.some.inj hg'
    rfl
  | some p =>
    by_cases hidle : g.state ≠ .active ∨ (w.adapter p).drvStopped
    · unfold submitHelperFrame at hg'
      simp only [hg, hp] at hg'
      rw [if_pos hidle] at hg'
      obtain rfl := Option.some.inj (hg.symm.trans hg')
      simp only [if_pos hidle]
    · rw [submitHelperFrame_nonqosCache hg hp hidle hg']
      simp only [if_neg hidle]
      cases hframe : dedupFrame (g.count .helperRxCandidates) (w.adapter p) f with
      | none => exact submitCheck_of_dedupFrame_none hframe
      | some r =>
        rw [submitCheck_of_dedupFrame hframe, submitDedup_cache]
        cases hqos : r.2.attrib.qos <;> simp [hqos, Group.count]

theorem submitHelperFrame_of_miss (helper : AdapterId) (h : lookup w f = some l)
    (hmiss : l.hit = false) (hpn : submitStalePn l.a l.s l.f = false)
    (hpool : l.a.freeRecvQueue ≠ []) :
    (submitHelperFrame w helper f).1 = .rxHandled := by
  obtain ⟨p, hg, hp, hidle, ha, hframe, hqos⟩ := lookup_cases h
  have hcheck : submitCheck (l.g.count .helperRxCandidates) l.a f =
      (.ok (l.s, l.f.attrib),
        (nonqosCheckAndRecord l.g.nonqosCache l.f.attrib.seqNum l.f.attrib.ta).2) := by
    have hnew : (nonqosCheckAndRecord (l.g.count .helperRxCandidates).nonqosCache
        l.f.attrib.seqNum l.f.attrib.ta).1 = false := hmiss
    rw [submitCheck_of_dedupFrame hframe]
    unfold submitDedup
    simp only [hqos, hpn, hnew]
    rfl
  unfold submitHelperFrame
  simp only [hg, hp]
  rw [if_neg hidle, ← ha, hcheck]
  dsimp only
  obtain ⟨id, rest, hfree⟩ := List.exists_cons_of_ne_nil hpool
  unfold rtwAllocRecvframe
  rw [hfree]

end Submit

/-! ## The other steps -/

section Others

variable {w w' : World}

def World.CacheKept (w w' : World) : Prop :=
  ∀ g', w'.grp = some g' → (∀ i, g'.nonqosCache.entries i = none) ∨
    ∃ g, w.grp = some g ∧ g'.nonqosCache = g.nonqosCache

theorem World.CacheKept.trans {w₁ w₂ w₃ : World} (h : w₁.CacheKept w₂) (h' : w₂.CacheKept w₃) :
    w₁.CacheKept w₃ := by
  intro g₃ hg₃
  obtain hempty | ⟨g₂, hg₂, heq⟩ := h' g₃ hg₃
  · exact .inl hempty
  · rw [heq]
    exact h g₂ hg₂

theorem World.CacheKept.of_grp (h : w'.grp = w.grp) : w.CacheKept w' :=
  fun g' hg' => .inr ⟨g', h ▸ hg', rfl⟩

theorem cacheKept_of_map {F : Group → Group} (hgrp : w'.grp = w.grp.map F)
    (hF : ∀ g : Group, (∀ i, (F g).nonqosCache.entries i = none) ∨
      (F g).nonqosCache = g.nonqosCache) : w.CacheKept w' := by
  intro g' hg'
  rw [hgrp] at hg'
  obtain ⟨g, hg, rfl⟩ := Option.map_eq_some_iff.mp hg'
  exact (hF g).imp_right fun heq => ⟨g, hg, heq⟩

theorem setPrimary_cacheKept (w : World) (a : AdapterId) : w.CacheKept (setPrimary w a).2 := by
  refine cacheKept_of_map (setPrimary_grp w a) fun g => .inr ?_
  unfold Group.setPrimary
  split <;> rfl

theorem addHelper_cacheKept (w : World) (a : AdapterId) : w.CacheKept (addHelper w a).2 := by
  refine cacheKept_of_map (addHelper_grp w a) fun g => .inr ?_
  split <;> rfl

theorem removeHelper_cacheKept (w : World) (a : AdapterId) :
    w.CacheKept (removeHelper w a).2 := by
  refine cacheKept_of_map (removeHelper_grp w a) fun g => .inr ?_
  unfold Group.dropHelper
  dsimp only
  split
  · split <;> rfl
  · rfl

theorem dropPrimary_cacheKept (w : World) (a : AdapterId) : w.CacheKept (dropPrimary w a) := by
  refine cacheKept_of_map (dropPrimary_grp w a) fun g => .inr ?_
  split <;> rfl

theorem bindSession_cacheKept (ok : Tfm → Bool) (opens : AdapterId → Bool) (w : World)
    (p : AdapterId) : w.CacheKept (bindSession ok opens w p).2 := by
  refine cacheKept_of_map (bindSession_grp ok opens w p) fun g => ?_
  split
  · exact .inl fun _ => rfl
  · exact .inr rfl

theorem unbindSession_cacheKept (w : World) : w.CacheKept (unbindSession w) := by
  refine cacheKept_of_map (unbindSession_grp w) fun g => .inr ?_
  unfold Group.unbind
  split <;> rfl

theorem notifyChannelSwitch_cacheKept (w : World) (a : AdapterId) :
    w.CacheKept (notifyChannelSwitch w a) := by
  refine cacheKept_of_map (notifyChannelSwitch_grp w a) fun g => .inr ?_
  split <;> rfl

/-- **Nothing but a submit records frames.** -/
theorem next_cacheKept {e : Event} (he : ∀ i f, e ≠ .submit i f) (h : w.next e = some w') :
    w.CacheKept w' := by
  have hset : ∀ w' a, w.CacheKept w' → w.CacheKept (setPrimary w' a).2 :=
    fun w' a h => h.trans (setPrimary_cacheKept w' a)
  have hadd : ∀ w' a, w.CacheKept w' → w.CacheKept (addHelper w' a).2 :=
    fun w' a h => h.trans (addHelper_cacheKept w' a)
  cases e with
  | submit i f => exact absurd rfl (he i f)
  | drain env k =>
    obtain ⟨g, p, f, q, hg, -, -, rfl⟩ := drainIteration_cases h
    intro g' hg'
    obtain rfl := Option.some.inj hg'
    exact .inr ⟨g, hg, rfl⟩
  | setPrimary a =>
    obtain rfl := Option.some.inj h
    exact setPrimary_cacheKept w a
  | addHelper a =>
    obtain rfl := Option.some.inj h
    exact addHelper_cacheKept w a
  | removeHelper a =>
    obtain rfl := Option.some.inj h
    exact removeHelper_cacheKept w a
  | removeAdapter a =>
    obtain rfl := Option.some.inj h
    exact (removeHelper_cacheKept w a).trans (dropPrimary_cacheKept _ a)
  | pair a name =>
    obtain rfl := Option.some.inj h
    exact storePair_induction hset hadd (.of_grp rfl) a name
  | unpair name =>
    obtain rfl := Option.some.inj h
    obtain heq | ⟨a, heq⟩ := storeUnpair_cases w name
    · exact .of_grp (by rw [heq])
    · rw [heq]
      exact removeHelper_cacheKept w a
  | autoPair a val devs =>
    obtain rfl := Option.some.inj h
    exact storeAutoPair_induction hset hadd (.of_grp rfl) a val devs
  | bindSession ok opens p =>
    obtain rfl := Option.some.inj h
    exact bindSession_cacheKept ok opens w p
  | unbindSession =>
    obtain rfl := Option.some.inj h
    exact unbindSession_cacheKept w
  | resetStats =>
    obtain rfl := Option.some.inj h
    intro g' hg'
    cases hg : w.grp with
    | none =>
      simp only [storeResetStats, hg] at hg'
      cases hg'
    | some g =>
      simp only [storeResetStats, hg] at hg'
      obtain rfl := Option.some.inj hg'
      exact .inr ⟨g, rfl, rfl⟩
  | deinit =>
    obtain rfl := Option.some.inj h
    intro g' hg'
    cases hg : w.grp with
    | none =>
      simp only [deinit, hg] at hg'
      cases hg'
    | some g =>
      simp only [deinit, hg] at hg'
      cases hg'
  | switchChannel a cur =>
    obtain rfl := Option.some.inj h
    exact notifyChannelSwitch_cacheKept (w.setRadio a _) a
  | kernelDecrypt k a f =>
    obtain rfl := Option.some.inj h
    intro g' hg'
    cases hg : w.grp with
    | none =>
      simp only [kernelDecrypt, hg] at hg'
      cases hg'
    | some g =>
      simp only [kernelDecrypt, hg] at hg'
      obtain rfl := Option.some.inj hg'
      exact .inr ⟨g, rfl, rfl⟩
  | setIfUp | decache | adapterStep =>
    obtain rfl := Option.some.inj h
    exact .of_grp rfl

end Others

/-! ## Runs -/

/-- Each entry was recorded for an MPDU that was handed on. -/
structure DedupInv (s : DedupLog) : Prop where
  noFalseDup : NoFalseDup s
  recorded : ∀ g, s.world.grp = some g → ∀ i k, g.nonqosCache.entries i = some k →
    ∃ m, s.recorded i = some m ∧ (m.seqNum, m.ta) = k ∧ m ∈ s.enqueued

section Runs

variable {s s' : DedupLog} {helper : AdapterId} {f : RecvFrame} {l : Lookup}

theorem Lookup.hit_iff (l : Lookup) : l.hit ↔
    ∃ i, l.g.nonqosCache.entries i = some (l.f.attrib.seqNum, l.f.attrib.ta) := by
  unfold Lookup.hit nonqosCheckAndRecord
  split_ifs with hhit
  · exact iff_of_true rfl hhit
  · exact iff_of_false (by simp) hhit

theorem Lookup.cache_of_hit (h : l.hit) :
    (nonqosCheckAndRecord l.g.nonqosCache l.f.attrib.seqNum l.f.attrib.ta).2 =
      l.g.nonqosCache := by
  unfold nonqosCheckAndRecord
  rw [if_pos (l.hit_iff.mp h)]

theorem Lookup.entries_of_miss (h : l.hit = false) :
    (nonqosCheckAndRecord l.g.nonqosCache l.f.attrib.seqNum l.f.attrib.ta).2.entries =
      Function.update l.g.nonqosCache.entries l.g.nonqosCache.idx
        (some (l.f.attrib.seqNum, l.f.attrib.ta)) := by
  have hmiss : ¬∃ i, l.g.nonqosCache.entries i = some (l.f.attrib.seqNum, l.f.attrib.ta) := by
    rw [← l.hit_iff, h]
    exact Bool.false_ne_true
  unfold nonqosCheckAndRecord
  rw [if_neg hmiss]

/-- The log of what was handed on only grows. -/
theorem mem_enqueued_submit {m : Mpdu} (h : m ∈ s.enqueued) :
    m ∈ if (submitHelperFrame s.world helper f).1 = .rxHandled then s.enqueued ++ [mpduOf f]
      else s.enqueued := by
  split_ifs
  · exact List.mem_append_left _ h
  · exact h

theorem DedupInv.submit (h : DedupInv s) (hok : DupFits s (.submit helper f))
    (hnext : s.next (.submit helper f) = some s') : DedupInv s' := by
  obtain ⟨w', hw', rfl⟩ := Option.map_eq_some_iff.mp hnext
  obtain rfl := Option.some.inj hw'
  have hcache {g g' : Group} (hg : s.world.grp = some g)
      (hg' : (submitHelperFrame s.world helper f).2.grp = some g') :=
    submitHelperFrame_cache hg hg'
  have hgrp {g' : Group} (hg' : (submitHelperFrame s.world helper f).2.grp = some g') :
      ∃ g, s.world.grp = some g := by
    cases hg : s.world.grp with
    | none =>
      unfold submitHelperFrame at hg'
      simp only [hg] at hg'
      cases hg'
    | some g => exact ⟨g, rfl⟩
  unfold DedupLog.record
  dsimp only
  unfold DupFits at hok
  dsimp only at hok
  cases hlookup : lookup s.world f with
  | none =>
    refine ⟨h.noFalseDup, fun g' hg' i k hk => ?_⟩
    obtain ⟨g, hg⟩ := hgrp hg'
    rw [hcache hg hg', hlookup] at hk
    obtain ⟨m, hm, heq, hmem⟩ := h.recorded g hg i k hk
    exact ⟨m, hm, heq, mem_enqueued_submit hmem⟩
  | some l =>
    rw [hlookup] at hok
    dsimp only at hok ⊢
    obtain ⟨p, hg, -, -, -, -, -⟩ := lookup_cases hlookup
    have hmpdu := mpduOf_of_lookup hlookup
    cases hhit : l.hit with
    | true =>
      rw [hhit, if_pos rfl] at hok
      rw [if_pos rfl]
      refine ⟨fun r hr => ?_, fun g' hg' i k hk => ?_⟩
      · rcases List.mem_append.mp hr with hr | hr
        · exact h.noFalseDup r hr
        -- the entry stands for the same MPDU, which was handed on
        · rw [List.mem_singleton.mp hr]
          obtain ⟨i, hi⟩ := l.hit_iff.mp hhit
          obtain ⟨m, hm, heq, hmem⟩ := h.recorded l.g hg i _ hi
          have hfrag := of_decide_eq_true hok i hi
          rw [hm] at hfrag
          have hfrag : m.fragNum = l.f.attrib.fragNum := of_decide_eq_true hfrag
          obtain ⟨hseq, hta⟩ := Prod.mk.inj heq
          have hsame : mpduOf f = m := by
            rw [← hmpdu]
            unfold mpduOf
            rw [← hseq, ← hta, ← hfrag]
          rwa [hsame]
      · rw [hcache hg hg', hlookup] at hk
        dsimp only at hk
        rw [l.cache_of_hit hhit] at hk
        obtain ⟨m, hm, heq, hmem⟩ := h.recorded l.g hg i k hk
        exact ⟨m, hm, heq, mem_enqueued_submit hmem⟩
    | false =>
      rw [hhit, if_neg Bool.false_ne_true, Bool.and_eq_true, Bool.not_eq_true',
        Bool.not_eq_true', List.isEmpty_eq_false_iff] at hok
      rw [if_neg Bool.false_ne_true]
      have hhandled := submitHelperFrame_of_miss helper hlookup hhit hok.1 hok.2
      refine ⟨h.noFalseDup, fun g' hg' i k hk => ?_⟩
      rw [hcache hg hg', hlookup] at hk
      dsimp only at hk ⊢
      rw [l.entries_of_miss hhit] at hk
      rw [if_pos hhandled]
      by_cases hi : i = l.g.nonqosCache.idx
      · rw [hi, Function.update_self] at hk
        obtain rfl := Option.some.inj hk
        refine ⟨mpduOf f, ?_, ?_, List.mem_append_right _ (List.mem_singleton_self _)⟩
        · rw [hi, Function.update_self]
        · rw [← hmpdu]
          rfl
      · rw [Function.update_of_ne hi] at hk ⊢
        obtain ⟨m, hm, heq, hmem⟩ := h.recorded l.g hg i k hk
        exact ⟨m, hm, heq, List.mem_append_left _ hmem⟩

theorem DedupInv.next {e : Event} (h : DedupInv s) (hok : DupFits s e)
    (hnext : s.next e = some s') : DedupInv s' := by
  by_cases he : ∃ i f, e = .submit i f
  · obtain ⟨i, f, rfl⟩ := he
    exact h.submit hok hnext
  push Not at he
  obtain ⟨w', hw', rfl⟩ := Option.map_eq_some_iff.mp hnext
  have hkept := next_cacheKept he hw'
  have hrecord : s.record w' e = { s with world := w' } := by
    unfold DedupLog.record
    split
    · exact absurd rfl (he _ _)
    · rfl
  rw [hrecord]
  refine ⟨h.noFalseDup, fun g' hg' i k hk => ?_⟩
  obtain hempty | ⟨g, hg, heq⟩ := hkept g' hg'
  · rw [hempty i] at hk
    cases hk
  · rw [heq] at hk
    exact h.recorded g hg i k hk

/-- **No false duplicates** in the runs in which each frame that is recorded is handed on, and no
fragments of one MSDU meet in the cache. -/
theorem noFalseDup_of_run {w : World} {es : List Event} {s : DedupLog} (hw : Started w)
    (hok : Meets DedupLog.next (fun s e => DupFits s e) { world := w } es)
    (hrun : run DedupLog.next { world := w } es = some s) : NoFalseDup s := by
  have hinit : DedupInv { world := w } := by
    refine ⟨by simp [NoFalseDup], fun g hg i k hk => ?_⟩
    rw [hw.grp] at hg
    obtain rfl := Option.some.inj hg
    cases hk
  exact (run_invariant_of_meets (fun _ _ _ h hok hnext => h.next hok hnext) hinit hok
    hrun).noFalseDup

end Runs

/-- A frame without QoS of the access point, by its fragment number. -/
def nonqosFrame (fragNum : ℕ) : RecvFrame where
  id := 0
  attrib := { toFrDs := 2, hdrlen := 24, seqNum := 5, fragNum := fragNum }
  rxData := List.replicate 28 0

def poolStation : Adapter := { associated with staHash := [0], freeRecvQueue := [0, 1] }

def twoSubmits (frag frag' : ℕ) : List Event :=
  bindRun ++ [.adapterStep 0 poolStation, .submit 1 (nonqosFrame frag),
    .submit 2 (nonqosFrame frag')]

theorem noFalseDup_copy :
    ∃ s, run DedupLog.next { world := idleWorld } (twoSubmits 0 0) = some s ∧
      s.dropped.length = 1 ∧ NoFalseDup s := by
  obtain ⟨s, hrun, hdropped⟩ : ∃ s,
      run DedupLog.next { world := idleWorld } (twoSubmits 0 0) = some s ∧
        s.dropped.length = 1 :=
    exists_run_of_any (by decide +kernel)
  exact ⟨s, hrun, hdropped, noFalseDup_of_run idleWorld_started (by decide +kernel) hrun⟩

/-- **The second fragment of an MSDU is dropped** as a duplicate of the first. -/
theorem not_noFalseDup :
    ¬ ∀ (w : World) (es : List Event) (s : DedupLog), Started w →
      run DedupLog.next { world := w } es = some s → NoFalseDup s := by
  intro hclaim
  obtain ⟨s, hrun, r, hr, hnot⟩ : ∃ s,
      run DedupLog.next { world := idleWorld } (twoSubmits 0 1) = some s ∧
        ∃ r ∈ s.dropped, r.1 ∉ r.2 :=
    exists_run_of_any (by decide +kernel)
  exact hnot (hclaim _ _ s idleWorld_started hrun r hr)

end Rtl88x2eu.Coop
